import ApiDocs.Model.Json
import ApiDocs.Proofs.Json.Stored
import ApiDocs.Proofs.Links
import ApiDocs.Proofs.Platform

/-!
# Parts of the model that survive in JSON

The parts of which declarations are made are stored in JSON: addresses, usages of types, documentation, platforms
and visibilities.
-/

namespace ApiDocs

open Json

theorem TypeReference.stores (reference : TypeReference) : Stores ofJson? reference.toJson reference := by
  refine stores_record (by rfl) (by decide) ?proper ?decoded
  case proper =>
    simp only [List.forall_mem_cons]
    exact ⟨.string _, .string _, nofun⟩
  case decoded => rfl

theorem Callable.stores (callable : Callable) : Stores ofJson? callable.toJson callable := by
  have name := stores_string callable.name
  have receiver := stores_ofOption rfl fun held (_ : held ∈ callable.receiver) => held.stores
  have parameters := stores_ofList fun held (_ : held ∈ callable.parameters) => held.stores
  refine stores_record (by rfl) (by decide) ?proper ?decoded
  case proper =>
    simp only [List.forall_mem_cons]
    exact ⟨name.proper, receiver.proper, parameters.proper, nofun⟩
  case decoded =>
    simp only [List.map, name.decoded, receiver.decoded, parameters.decoded]
    rfl

namespace Address

/-- The target of an address fits into a machine word. -/
def Sized (address : Address) : Prop :=
  address.target < 0x10000000000000000

theorem stores {address : Address} (sized : address.Sized) : Stores ofJson? address.toJson address := by
  have packageName := stores_ofOption rfl fun held (_ : held ∈ address.packageName) => stores_string held
  have classNames := stores_ofOption rfl fun held (_ : held ∈ address.classNames) => stores_string held
  have callable := stores_ofOption rfl fun held (_ : held ∈ address.callable) => held.stores
  have target := stores_natural sized
  have extra := stores_ofOption rfl fun held (_ : held ∈ address.extra) => stores_string held
  refine stores_record (by rfl) (by decide) ?proper ?decoded
  case proper =>
    simp only [List.forall_mem_cons]
    exact ⟨packageName.proper, classNames.proper, callable.proper, target.proper, extra.proper, nofun⟩
  case decoded =>
    simp only [List.map, packageName.decoded, classNames.decoded, callable.decoded, target.decoded, extra.decoded]
    rfl

end Address

namespace TypeUsage

/-- What holds of a usage as soon as it holds of its arguments holds of all usages. -/
@[elab_as_elim]
theorem arguments_induction {motive : TypeUsage → Prop}
    (step : ∀ usage : TypeUsage, (∀ argument ∈ usage.arguments, motive argument) → motive usage)
    (usage : TypeUsage) : motive usage :=
  step usage fun argument _ => arguments_induction step argument
termination_by sizeOf usage
decreasing_by
  next listed =>
    have smaller := List.sizeOf_lt_of_mem listed
    cases usage
    simp_all
    omega

/-- The addresses in a usage, at every depth, fit into machine words. -/
def Sized (usage : TypeUsage) : Prop :=
  ∀ part, usage.Shows part → ∀ address ∈ part.address, address.Sized

theorem Sized.of_mem {usage argument : TypeUsage} (sized : usage.Sized) (listed : argument ∈ usage.arguments) :
    argument.Sized :=
  fun part shows => sized part (.argument listed shows)

theorem toJson_eq (usage : TypeUsage) : usage.toJson =
    .object
      [("constructor_fq_name", .ofOption .string usage.name),
       ("constructor_name_path_segments", .strings usage.segments),
       ("arguments", .ofList toJson usage.arguments),
       ("dri", .ofOption Address.toJson usage.address),
       ("is_primitive", .bool usage.isPrimitive)] := by
  have all (arguments : List TypeUsage) : toJson.toJsons arguments = arguments.map toJson := by
    induction arguments with
    | nil => rfl
    | cons first rest ih => rw [toJson.toJsons, ih, List.map_cons]
  obtain ⟨name, segments, arguments, address, isPrimitive⟩ := usage
  rw [toJson, all]
  rfl

theorem storesWithin {usage : TypeUsage} (sized : usage.Sized) {budget : Nat}
    (enough : usage.toJson.sorted.depth < budget) : Stores (ofJsonWithin? budget) usage.toJson usage := by
  -- Each level of arguments takes one step of the budget.
  induction usage using arguments_induction generalizing budget with
  | step usage ih =>
      cases budget with
      | zero => exact absurd enough (Nat.not_lt_zero _)
      | succ budget =>
          rw [toJson_eq] at enough ⊢
          have name := stores_ofOption rfl fun held (_ : held ∈ usage.name) => stores_string held
          have segments := stores_strings usage.segments
          have arguments : Stores (list? (ofJsonWithin? budget)) (ofList toJson usage.arguments)
              usage.arguments := by
            refine stores_ofList fun argument listed => ih argument listed (sized.of_mem listed) ?_
            exact depth_element_lt enough (by simp) "arguments" (by rfl) listed
          have address := stores_ofOption rfl fun held (here : held ∈ usage.address) =>
            Address.stores (sized usage (.self usage) held here)
          have isPrimitive := stores_bool usage.isPrimitive
          refine stores_record (by rfl) (by decide) ?proper ?decoded
          case proper =>
            simp only [List.forall_mem_cons]
            exact ⟨name.proper, segments.proper, arguments.proper, address.proper, isPrimitive.proper, nofun⟩
          case decoded =>
            simp only [List.map, name.decoded, segments.decoded, arguments.decoded, address.decoded,
              isPrimitive.decoded]
            cases usage
            rfl

theorem stores {usage : TypeUsage} (sized : usage.Sized) : Stores ofJson? usage.toJson usage :=
  have within := storesWithin sized (Nat.lt_succ_self _)
  ⟨within.proper, within.decoded⟩

end TypeUsage

theorem Fragment.stores (fragment : Fragment) : Stores ofJson? fragment.toJson fragment := by
  cases fragment with
  | text content | code content =>
      refine stores_tagged (by simp) ?proper (by rfl) ?decoded
      case proper =>
        simp only [List.forall_mem_cons]
        exact ⟨.string _, .string _, nofun⟩
      case decoded =>
        intro content fields
        simp only [fields]
        rfl
  | link target label =>
      have labelled := stores_ofOption rfl fun held (_ : held ∈ label) => stores_string held
      refine stores_tagged (by simp) ?proper (by rfl) ?decoded
      case proper =>
        simp only [List.forall_mem_cons]
        exact ⟨.string _, .string _, labelled.proper, nofun⟩
      case decoded =>
        intro content fields
        have found : content.record? ["target", "label"] =
            some [.string target, (ofOption .string label).sorted] := fields _
        simp only [found, Option.bind_eq_bind, Option.bind_some, labelled.decoded]
        rfl

theorem DocText.stores (text : DocText) : Stores ofJson? text.toJson text := by
  have fragments := stores_ofList fun fragment (_ : fragment ∈ text.fragments) => fragment.stores
  refine stores_record (by rfl) (by decide) ?proper ?decoded
  case proper =>
    simp only [List.forall_mem_cons]
    exact ⟨fragments.proper, nofun⟩
  case decoded =>
    simp only [List.map, fragments.decoded]
    rfl

namespace Tag

variable {ofContent : String × Json → Option Tag}

theorem stores_plain (word : String) (root : DocText) {make : DocText → Tag}
    (read : ∀ content, ofContent (word, content) = (root? content).map make) :
    Stores (fun json => (json.tagged? "tag" words).bind ofContent) (plainJson word root) (make root) := by
  have rooted := root.stores
  refine stores_tagged (by simp) ?proper (by rfl) ?decoded
  case proper =>
    simp only [List.forall_mem_cons]
    exact ⟨.string _, rooted.proper, nofun⟩
  case decoded =>
    intro content fields
    have found : content.record? ["root"] = some [root.toJson.sorted] := fields _
    rw [read, root?, found]
    exact congrArg (Option.map make) rooted.decoded

theorem stores_named (word name : String) (root : DocText) {make : String → DocText → Tag}
    (read : ∀ content, ofContent (word, content) = (named? content).map fun found => make found.1 found.2) :
    Stores (fun json => (json.tagged? "tag" words).bind ofContent) (namedJson word name root)
      (make name root) := by
  have rooted := root.stores
  refine stores_tagged (by simp) ?proper (by rfl) ?decoded
  case proper =>
    simp only [List.forall_mem_cons]
    exact ⟨.string _, .string _, rooted.proper, nofun⟩
  case decoded =>
    intro content fields
    have found : content.record? ["name", "root"] = some [.string name, root.toJson.sorted] := fields _
    rw [read, named?, found]
    simp only [Option.bind_eq_bind, Option.bind_some, rooted.decoded]
    rfl

theorem stores (tag : Tag) : Stores ofJson? tag.toJson tag := by
  cases tag with
  | description root => exact stores_plain _ root fun _ => rfl
  | param name root => exact stores_named _ name root fun _ => rfl
  | returns root => exact stores_plain _ root fun _ => rfl
  | throws name root => exact stores_named _ name root fun _ => rfl
  | see name root => exact stores_named _ name root fun _ => rfl
  | author root => exact stores_plain _ root fun _ => rfl
  | since root => exact stores_plain _ root fun _ => rfl
  | deprecated root => exact stores_plain _ root fun _ => rfl
  | custom name root => exact stores_named _ name root fun _ => rfl

end Tag

theorem Documentation.stores (documentation : Documentation) :
    Stores ofJson? documentation.toJson documentation := by
  have tags := stores_ofList fun tag (_ : tag ∈ documentation.tags) => tag.stores
  refine stores_record (by rfl) (by decide) ?proper ?decoded
  case proper =>
    simp only [List.forall_mem_cons]
    exact ⟨tags.proper, nofun⟩
  case decoded =>
    simp only [List.map, tags.decoded]
    rfl

theorem PlatformData.stores {data : PlatformData} (clean : data.Clean) : Stores ofJson? data.toJson data where
  proper := .string _
  decoded := by
    change (parse data.display).toOption = some data
    rw [clean.parse_display]
    rfl

theorem Visibility.stores (visibility : Visibility) : Stores ofJson? visibility.toJson visibility where
  proper := .string _
  decoded := by
    cases visibility <;> rfl

theorem ClassKind.stores (kind : ClassKind) : Stores ofJson? kind.toJson kind := by
  cases kind <;> exact ⟨.string _, rfl⟩

/-- A visibility map is written with distinct names. -/
theorem nodup_names_visibility {visibility : VisibilityMap} (clean : ∀ data ∈ visibility.keys, data.Clean) :
    ((visibility.entries.map fun (data, access) => (data.display, access.toJson)).map Prod.fst).Nodup := by
  have distinct : (visibility.keys.map PlatformData.display).Nodup := by
    refine (List.nodup_map_iff_inj_on visibility.nodup_keys).mpr ?_
    intro first inFirst second inSecond same
    exact (clean first inFirst).eq_of_display_eq (clean second inSecond) same
  rw [SortedMap.keys, List.map_map] at distinct
  rw [List.map_map]
  exact distinct

/-- Platforms keep their visibilities, in whatever order they are written. -/
theorem stores_visibility {visibility : VisibilityMap} (clean : ∀ data ∈ visibility.keys, data.Clean) :
    Stores visibilityOfJson? (visibilityToJson visibility) visibility := by
  have names := nodup_names_visibility clean
  constructor
  case proper =>
    refine .object names fun member listed => ?_
    obtain ⟨⟨data, access⟩, inEntries, rfl⟩ := List.mem_map.mp listed
    exact access.stores.proper
  case decoded =>
    obtain ⟨ordered, same, _, perm⟩ := exists_sorted_object names
    rw [List.map_map] at perm
    rw [visibilityToJson, same, visibilityOfJson?]
    refine List.mapM_bind_eq_of_perm perm ?each fun entries kept => congrArg some (SortedMap.ofList_of_perm kept)
    rintro ⟨data, access⟩ inEntries
    have parsed := (clean data (List.mem_map_of_mem inEntries)).parse_display
    have decoded := access.stores.decoded
    simp only [Function.comp_apply, parsed, decoded]
    rfl

theorem stores_stringSet (set : SortedSet String) : Stores stringSetOfJson? (stringSetToJson set) set := by
  have elements := stores_strings set.keys
  refine ⟨elements.proper, ?_⟩
  have entries : set.keys.map (fun element => (element, ())) = set.entries := by
    rw [SortedMap.keys, List.map_map]
    exact List.map_id _
  rw [stringSetOfJson?, stringSetToJson, elements.decoded, Option.map_some, SortedSet.ofElements, entries]
  exact congrArg some (SortedMap.ofList_of_perm (.refl _))

end ApiDocs
