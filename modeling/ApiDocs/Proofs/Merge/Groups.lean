import ApiDocs.Proofs.Merge.Associativity
import ApiDocs.Proofs.Merge.Paths

/-!
# Merging in groups

Modules may be merged group by group, and the merged groups into one, instead of all at once.  Packages are
sorted by name each time; this moves only packages of different names, which the last sort puts in order
anyway.
-/

namespace ApiDocs

section Items

variable {α : Type} {addressOf : α → Address} {merge : α → α → α}

/-- Merging keeps addresses, and regular items of one address may be merged from either side. -/
structure Regroups (addressOf : α → Address) (merge : α → α → α) (regular : α → Prop) : Prop where
  keeps : ∀ first second, addressOf (merge first second) = addressOf first
  closed : ∀ first second, addressOf first = addressOf second → regular first → regular second →
    regular (merge first second)
  assoc : ∀ first second third, addressOf first = addressOf second → addressOf second = addressOf third →
    regular first → regular second → regular third →
      merge (merge first second) third = merge first (merge second third)

/-- Regular items may be merged with one another before they are merged into others. -/
theorem Regroups.mergeItems_mergeItems_nil {regular : α → Prop} (laws : Regroups addressOf merge regular)
    {items others : List α} (nodup : (items.map addressOf).Nodup)
    (held : ∀ item ∈ items, regular item) (new : ∀ other ∈ others, regular other) :
    mergeItems addressOf merge items (mergeItems addressOf merge [] others) =
      mergeItems addressOf merge items others := by
  induction others generalizing items with
  | nil => rfl
  | cons first rest ih =>
      obtain ⟨firstRegular, restRegular⟩ := List.forall_mem_cons.mp new
      have single : ([first].map addressOf).Nodup := List.nodup_singleton _
      have grouped := nodup_mergeItems_nil laws.keeps rest
      have groupedRegular : ∀ other ∈ mergeItems addressOf merge [] rest, regular other :=
        forall_mem_mergeItems (fun _ none => nomatch none) restRegular fun item other member same known =>
          laws.closed item other same known (restRegular other member)
      have absorbed : ∀ item ∈ mergeItems addressOf merge items [first], regular item :=
        forall_mem_mergeItems held (by simpa using firstRegular) fun item other member same known => by
          rw [List.mem_singleton.mp member] at same ⊢
          exact laws.closed item first same known firstRegular
      calc
        mergeItems addressOf merge items (mergeItems addressOf merge [] (first :: rest)) =
            mergeItems addressOf merge items
              (mergeItems addressOf merge [first] (mergeItems addressOf merge [] rest)) := by
          rw [ih single (by simpa using firstRegular) restRegular]
          rfl
        _ = mergeItems addressOf merge (mergeItems addressOf merge items [first])
              (mergeItems addressOf merge [] rest) := by
          refine (mergeItems_assoc laws.keeps nodup single grouped ?_).symm
          intro one inItems two inSingle three inGrouped same alsoSame
          refine laws.assoc one two three same alsoSame (held one inItems) ?_
            (groupedRegular three inGrouped)
          rw [List.mem_singleton.mp inSingle]
          exact firstRegular
        _ = mergeItems addressOf merge items (first :: rest) := by
          rw [ih (nodup_mergeItems laws.keeps nodup [first]) absorbed restRegular]
          rfl

variable (keeps : ∀ first second, addressOf (merge first second) = addressOf first)

include keeps

/-- Held items stay in place, with the new ones of their addresses merged in, and the rest is put behind. -/
theorem mergeItems_eq_map_append_filter {items others : List α} (nodup : (items.map addressOf).Nodup)
    (nodupOthers : (others.map addressOf).Nodup) :
    mergeItems addressOf merge items others =
      (items.map fun item => (itemsAt addressOf (addressOf item) others).foldl merge item) ++
        others.filter fun other => addressOf other ∉ items.map addressOf := by
  have kept (item : α) :
      addressOf ((itemsAt addressOf (addressOf item) others).foldl merge item) = addressOf item :=
    apply_foldl_merge keeps item _
  refine eq_of_itemsAt_eq (nodup_mergeItems keeps nodup others) ?_ fun address => ?_
  · rw [map_mergeItems keeps, extendDistinct_eq_append_filter nodupOthers, List.map_append, List.map_map,
      List.filter_map]
    congr 1
    exact List.map_congr_left fun item _ => (kept item).symm
  · rw [itemsAt_mergeItems keeps nodup, itemsAt_append, itemsAt_append, itemsAt_map kept,
      itemsAt_filter_not_mem]
    rcases itemsAt_eq_nil_or_singleton nodup address with none | ⟨item, one⟩
    · rw [none, if_neg (itemsAt_eq_nil_iff.mp none), List.nil_append, toList_mergedOf_itemsAt nodupOthers]
      rfl
    · obtain ⟨listed, here⟩ := of_itemsAt_eq_singleton one
      rw [one, if_pos (here ▸ List.mem_map_of_mem listed), List.append_nil, List.map_singleton, here]
      rfl

variable {key : α → String} (keepsKey : ∀ first second, key (merge first second) = key first)

include keepsKey

/-- What merged lists hold at a key: the held items there, and behind them the new ones. -/
theorem filter_mergeItems {items others : List α} (nodup : (items.map addressOf).Nodup)
    (nodupOthers : (others.map addressOf).Nodup) (value : String) :
    (mergeItems addressOf merge items others).filter (fun item => key item = value) =
      ((items.filter fun item => key item = value).map fun item =>
        (itemsAt addressOf (addressOf item) others).foldl merge item) ++
      (others.filter fun item => key item = value).filter fun other =>
        addressOf other ∉ items.map addressOf := by
  rw [mergeItems_eq_map_append_filter keeps nodup nodupOthers, List.filter_append, List.filter_map,
    List.filter_filter, List.filter_filter]
  simp only [Function.comp_def, apply_foldl_merge keepsKey, Bool.and_comm]

/-- What merged lists hold at each key depends only on what the lists hold at each key. -/
theorem filter_mergeItems_congr {items items' others others' : List α}
    (nodup : (items.map addressOf).Nodup) (nodup' : (items'.map addressOf).Nodup)
    (nodupOthers : (others.map addressOf).Nodup) (nodupOthers' : (others'.map addressOf).Nodup)
    (same : ∀ value, items.filter (fun item => key item = value) =
      items'.filter fun item => key item = value)
    (sameOthers : ∀ value, others.filter (fun item => key item = value) =
      others'.filter fun item => key item = value) (value : String) :
    (mergeItems addressOf merge items others).filter (fun item => key item = value) =
      (mergeItems addressOf merge items' others').filter fun item => key item = value := by
  have reordered := perm_of_filter_eq sameOthers
  have addresses (address : Address) : address ∈ items.map addressOf ↔ address ∈ items'.map addressOf :=
    ((perm_of_filter_eq same).map addressOf).mem_iff
  rw [filter_mergeItems keeps keepsKey nodup nodupOthers,
    filter_mergeItems keeps keepsKey nodup' nodupOthers', same, sameOthers]
  simp only [itemsAt_perm reordered nodupOthers', addresses]

end Items

namespace Module

/-- A module holds a declaration somewhere. -/
def Holds (module : Module) (declared : Documented) : Prop :=
  ∃ path, declared ∈ module.occurrences path

/-- Functions of modules that have one address have equally many parameters. -/
def AgreeOnArity (modules : List Module) : Prop :=
  ∀ first ∈ modules, ∀ second ∈ modules, ∀ one other : Function,
    first.Holds (.function one) → second.Holds (.function other) → one.address = other.address →
      one.parameters.length = other.parameters.length

/-- Agreement on parameters is that with an arity of addresses. -/
theorem agreeOnArity_iff {modules : List Module} : AgreeOnArity modules ↔
    ∃ arity, ∀ module ∈ modules, module.Everywhere (Documented.FollowsArity arity) := by
  classical
  constructor
  · intro agree
    let Found (address : Address) (length : Nat) : Prop := ∃ module ∈ modules, ∃ one : Function,
      module.Holds (.function one) ∧ one.address = address ∧ one.parameters.length = length
    refine ⟨fun address => if found : ∃ length, Found address length then found.choose else 0,
      fun module member => everywhere_iff.mpr fun path declared reached => ?_⟩
    cases declared
    case function one =>
      have found : ∃ length, Found one.address length :=
        ⟨_, module, member, one, ⟨path, reached⟩, rfl, rfl⟩
      obtain ⟨second, inside, other, holds, same, length⟩ := found.choose_spec
      have equal := agree module member second inside one other ⟨path, reached⟩ holds same.symm
      simp only [Documented.FollowsArity, dif_pos found]
      exact equal.trans length
    all_goals trivial
  · rintro ⟨arity, follows⟩ first member second inside one other ⟨path, reached⟩ ⟨place, found⟩ same
    have oneFollows : one.parameters.length = arity one.address :=
      everywhere_iff.mp (follows first member) path _ reached
    have otherFollows : other.parameters.length = arity other.address :=
      everywhere_iff.mp (follows second inside) place _ found
    rw [oneFollows, otherFollows, same]

end Module

namespace Package

theorem name_merge (first second : Package) : (first.merge second).name = first.name :=
  rfl

/-- Packages whose trees are regular may be regrouped. -/
theorem regroups (arity : Address → Nat) : Regroups address merge fun package =>
    (Documented.package package).Everywhere (Documented.Regular arity) where
  keeps := address_merge
  closed first second same firstRegular secondRegular := by
    have kept : ((Documented.package first).merge (.package second)).Everywhere
        (Documented.Regular arity) :=
      firstRegular.merge (fun kind _ regular _ => regular.merge kind) rfl same secondRegular
    exact kept
  assoc first second third same _ firstRegular secondRegular thirdRegular := by
    have regrouped : ((Documented.package first).merge (.package second)).merge (.package third) =
        (Documented.package first).merge ((Documented.package second).merge (.package third)) :=
      Documented.merge_assoc rfl rfl same firstRegular secondRegular thirdRegular
    exact Documented.package.inj regrouped

end Package

namespace Module

/-- Merge the packages of groups one after the other, and compare with the sorted packages of each group. -/
theorem filter_mergeItems_groups {regular : Package → Prop}
    (laws : Regroups Package.address Package.merge regular) (groups : List (List Package))
    {packages packages' : List Package} (nodup : (packages.map Package.address).Nodup)
    (nodup' : (packages'.map Package.address).Nodup) (held : ∀ package ∈ packages, regular package)
    (new : ∀ group ∈ groups, ∀ package ∈ group, regular package)
    (same : ∀ name, packages.filter (fun package => package.name = name) =
      packages'.filter fun package => package.name = name) (name : String) :
    (mergeItems Package.address Package.merge packages groups.flatten).filter
        (fun package => package.name = name) =
      (mergeItems Package.address Package.merge packages'
        (groups.flatMap fun group => (mergeItems Package.address Package.merge [] group).mergeSort
          (keyLE Package.name))).filter fun package => package.name = name := by
  induction groups generalizing packages packages' with
  | nil => exact same name
  | cons group groups ih =>
      obtain ⟨groupRegular, groupsRegular⟩ := List.forall_mem_cons.mp new
      have grouped := nodup_mergeItems_nil laws.keeps group
      have sorted : ((mergeItems Package.address Package.merge [] group).mergeSort
          (keyLE Package.name)).Perm (mergeItems Package.address Package.merge [] group) :=
        List.mergeSort_perm _ _
      have sortedNodup := (sorted.map Package.address).nodup_iff.mpr grouped
      rw [List.flatten_cons, mergeItems_append, List.flatMap_cons, mergeItems_append,
        ← laws.mergeItems_mergeItems_nil nodup held groupRegular]
      refine ih (nodup_mergeItems laws.keeps nodup _) (nodup_mergeItems laws.keeps nodup' _) ?_
        groupsRegular fun name => ?_
      · rw [laws.mergeItems_mergeItems_nil nodup held groupRegular]
        exact forall_mem_mergeItems held groupRegular fun item other member same known =>
          laws.closed item other same known (groupRegular other member)
      · exact filter_mergeItems_congr laws.keeps Package.name_merge nodup nodup' grouped sortedNodup same
          (fun name => (filter_sortBy Package.name _ name).symm) name

/--
Merging modules in groups, and then the merged groups, gives the same module as merging all at once, with
every list in the same order.
-/
theorem merge_groups (name : String) (groups : List (List Module))
    (distinct : ∀ module ∈ groups.flatten, module.Everywhere Documented.DistinctMembers)
    (agree : AgreeOnArity groups.flatten) :
    merge name groups.flatten = merge name (groups.map (merge name)) := by
  obtain ⟨arity, follows⟩ := agreeOnArity_iff.mp agree
  let inputs := groups.map (List.flatMap packages)
  have regular : ∀ group ∈ inputs, ∀ package ∈ group,
      (Documented.package package).Everywhere (Documented.Regular arity) := by
    intro group listed package inside
    obtain ⟨modules, member, rfl⟩ := List.mem_map.mp listed
    obtain ⟨module, held, found⟩ := List.mem_flatMap.mp inside
    have input := List.mem_flatten.mpr ⟨modules, member, held⟩
    exact (distinct module input package found).combine .mk (follows module input package found)
  have flat : groups.flatten.flatMap packages = inputs.flatten := by
    rw [List.flatMap_def, List.map_flatten, List.flatten_flatten, List.map_map]
    rfl
  have sortedGroups : (groups.map (merge name)).flatMap packages =
      inputs.flatMap fun group =>
        (mergeItems Package.address Package.merge [] group).mergeSort (keyLE Package.name) := by
    rw [List.flatMap_map, List.flatMap_map]
    rfl
  have nodup : (([] : List Package).map Package.address).Nodup := List.nodup_nil
  have sorted := sortBy_congr <| filter_mergeItems_groups (Package.regroups arity) inputs nodup nodup
    (fun package none => absurd none List.not_mem_nil) regular fun _ => rfl
  rw [← flat, ← sortedGroups] at sorted
  exact congrArg (Module.mk name) sorted

/-- The first two sample passes, and the last one alone. -/
def sampleGroups : List (List Module) :=
  [samplePasses.take 2, samplePasses.drop 2]

theorem sampleGroups_agree : AgreeOnArity sampleGroups.flatten := by
  refine agreeOnArity_iff.mpr ⟨fun _ => 1, ?_⟩
  simp [sampleGroups, samplePasses, Everywhere, Documented.Everywhere.package_iff,
    Documented.Everywhere.classlike_iff, Documented.Everywhere.property_iff, samplePackage, sampleClass,
    sampleMethod, sampleField, Documented.FollowsArity]

theorem merge_groups_sampleGroups :
    (∀ module ∈ sampleGroups.flatten, module.Everywhere Documented.DistinctMembers) ∧
      AgreeOnArity sampleGroups.flatten ∧
      merge "m" sampleGroups.flatten = merge "m" (sampleGroups.map (merge "m")) :=
  ⟨samplePasses_distinct, sampleGroups_agree,
    merge_groups "m" sampleGroups samplePasses_distinct sampleGroups_agree⟩

end Module

end ApiDocs
