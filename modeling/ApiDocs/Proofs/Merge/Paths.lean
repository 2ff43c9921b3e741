import ApiDocs.Proofs.Merge.Documented
import ApiDocs.Proofs.Sorting

/-!
# Declarations of merged modules

At each path of a merged module stands one declaration: all declarations at that path in the modules, in
order, merged into the first of them.  Hence merging loses no path, invents none and repeats none.
-/

namespace ApiDocs

namespace Documented

/-- Merged declarations have the addresses of all members, in the order of first occurrence. -/
theorem memberAddresses_foldl_merge {first : Documented} {rest : List Documented}
    (same : ∀ other ∈ rest, other.kind = first.kind) (nodup : first.DistinctMembers)
    (list : MemberKind) :
    (rest.foldl merge first).memberAddresses list =
      ((first :: rest).flatMap fun other => other.memberAddresses list).eraseDups := by
  rw [memberAddresses, members_foldl_merge_of_distinct same nodup, map_mergeItems address_merge,
    List.map_flatMap]
  exact distinct_eq_eraseDups _

/-- Steps lead from merged declarations to all that they lead to from each of them, merged. -/
theorem along_mergedOf (kind : DeclarationKind) {occurrences : List Documented}
    (alike : ∀ occurrence ∈ occurrences, occurrence.kind = kind)
    (distinct : ∀ occurrence ∈ occurrences, occurrence.Everywhere DistinctMembers)
    (steps : List (MemberKind × Address)) :
    ((mergedOf merge occurrences).toList.flatMap fun merged => merged.along steps) =
      (mergedOf merge (occurrences.flatMap fun occurrence => occurrence.along steps)).toList := by
  induction steps generalizing kind occurrences with
  | nil => simp [along]
  | cons step steps ih =>
      obtain ⟨list, target⟩ := step
      cases occurrences with
      | nil => rfl
      | cons first rest =>
          have nodup := (distinct first List.mem_cons_self).here
          have found : itemsAt address target ((rest.foldl merge first).members list) =
              (mergedOf merge (itemsAt address target
                ((first :: rest).flatMap fun occurrence => occurrence.members list))).toList := by
            rw [members_foldl_merge_of_distinct (kind_eq_first alike) nodup,
              itemsAt_mergeItems_nil address_merge]
          have held : ∀ member ∈ itemsAt address target
                ((first :: rest).flatMap fun occurrence => occurrence.members list),
              member.kind = list.declarationKind ∧ member.Everywhere DistinctMembers := by
            intro member inside
            obtain ⟨occurrence, listed, found⟩ := exists_holder inside
            exact ⟨kind_of_mem_members found, (distinct occurrence listed).of_mem found⟩
          calc
            ((mergedOf merge (first :: rest)).toList.flatMap fun merged =>
                merged.along ((list, target) :: steps)) =
                (itemsAt address target ((rest.foldl merge first).members list)).flatMap
                  fun member => member.along steps := by
              simp [mergedOf, along]
            _ = (mergedOf merge ((itemsAt address target
                  ((first :: rest).flatMap fun occurrence => occurrence.members list)).flatMap
                    fun member => member.along steps)).toList := by
              rw [found]
              exact ih _ (fun member inside => (held member inside).1)
                fun member inside => (held member inside).2
            _ = (mergedOf merge ((first :: rest).flatMap fun occurrence =>
                  occurrence.along ((list, target) :: steps))).toList := by
              rw [itemsAt_flatMap, List.flatMap_assoc]
              rfl

end Documented

namespace Module

/-- Some declaration of a module stands at a path. -/
def HasPath (module : Module) (path : DeclarationPath) : Prop :=
  module.occurrences path ≠ []

/-- The packages of a merged module, in the order of their names. -/
theorem packages_merge_perm (name : String) (modules : List Module) :
    (merge name modules).packages.Perm
      (mergeItems Package.address Package.merge [] (modules.flatMap packages)) :=
  List.mergeSort_perm _ _

theorem nodup_packages_merge (name : String) (modules : List Module) :
    ((merge name modules).packages.map Package.address).Nodup :=
  ((packages_merge_perm name modules).map _).nodup_iff.mpr
    (nodup_mergeItems_nil Package.address_merge _)

/-- The packages of a merged module are ordered by name. -/
theorem sorted_packages_merge (name : String) (modules : List Module) :
    (merge name modules).packages.Pairwise fun first second => first.name ≤ second.name := by
  refine (pairwise_sortBy Package.name _).imp fun {first second} below => ?_
  exact (isLE_compareOfLessAndEq String.le_antisymm String.not_le String.le_total).mp below

/-- At a path of a merged module stand all declarations at that path, merged into the first of them. -/
theorem occurrences_merge (name : String) {modules : List Module}
    (distinct : ∀ module ∈ modules, module.Everywhere Documented.DistinctMembers)
    (path : DeclarationPath) :
    (merge name modules).occurrences path =
      (mergedOf Documented.merge (modules.flatMap fun module => module.occurrences path)).toList := by
  let inputs := (modules.flatMap packages).map Documented.package
  have found : itemsAt Documented.address path.package
        ((merge name modules).packages.map .package) =
      (mergedOf Documented.merge (itemsAt Documented.address path.package inputs)).toList := by
    have reordered : ((merge name modules).packages.map Documented.package).Perm
        (Documented.mergeAll [] inputs) := by
      have images := (packages_merge_perm name modules).map Documented.package
      rwa [Documented.map_package_mergeItems] at images
    rw [itemsAt_perm reordered (nodup_mergeItems_nil Documented.address_merge inputs),
      itemsAt_mergeItems_nil Documented.address_merge]
  have sources : (itemsAt Documented.address path.package inputs).flatMap
        (fun package => package.along path.steps) =
      modules.flatMap fun module => module.occurrences path := by
    rw [show inputs = modules.flatMap fun module => module.packages.map .package from List.map_flatMap,
      itemsAt_flatMap, List.flatMap_assoc]
    rfl
  have held : ∀ package ∈ itemsAt Documented.address path.package inputs,
      package.kind = .package ∧ package.Everywhere Documented.DistinctMembers := by
    intro package inside
    obtain ⟨package, listed, rfl⟩ := List.mem_map.mp (mem_itemsAt.mp inside).1
    obtain ⟨module, member, packed⟩ := List.mem_flatMap.mp listed
    exact ⟨rfl, distinct module member package packed⟩
  rw [occurrences, found, Documented.along_mergedOf .package (fun package inside => (held package inside).1)
    (fun package inside => (held package inside).2), sources]

/-- What merging two declarations keeps, merging modules keeps everywhere. -/
theorem everywhere_merge {holds : Documented → Prop}
    (keeps : ∀ {first second : Documented}, first.kind = second.kind → first.address = second.address →
      holds first → holds second → holds (first.merge second))
    (name : String) {modules : List Module} (everywhere : ∀ module ∈ modules, module.Everywhere holds) :
    (merge name modules).Everywhere holds := by
  have inputs : ∀ package ∈ modules.flatMap packages, (Documented.package package).Everywhere holds := by
    intro package listed
    obtain ⟨module, member, inside⟩ := List.mem_flatMap.mp listed
    exact everywhere module member package inside
  have merged : ∀ package ∈ mergeItems Package.address Package.merge [] (modules.flatMap packages),
      (Documented.package package).Everywhere holds := by
    refine forall_mem_mergeItems (fun _ none => nomatch none) inputs fun item other new same known => ?_
    have kept : ((Documented.package item).merge (.package other)).Everywhere holds :=
      Documented.Everywhere.merge keeps rfl same known (inputs other new)
    exact kept
  intro package listed
  exact merged package ((packages_merge_perm name modules).mem_iff.mp listed)

/-- What stands at a path of a merged module is merged from a first occurrence and others of its kind. -/
theorem mem_occurrences_merge (name : String) {modules : List Module}
    (distinct : ∀ module ∈ modules, module.Everywhere Documented.DistinctMembers)
    {path : DeclarationPath} {declared : Documented}
    (found : declared ∈ (merge name modules).occurrences path) :
    ∃ first rest, (modules.flatMap fun module => module.occurrences path) = first :: rest ∧
      declared = rest.foldl Documented.merge first ∧
      (∀ occurrence ∈ first :: rest, occurrence.kind = path.kind) ∧
      ∀ occurrence ∈ first :: rest, occurrence.Everywhere Documented.DistinctMembers := by
  rw [occurrences_merge name distinct] at found
  cases all : modules.flatMap fun module => module.occurrences path with
  | nil =>
      rw [all] at found
      cases found
  | cons first rest =>
      rw [all] at found
      refine ⟨first, rest, rfl, List.mem_singleton.mp found, ?_⟩
      have sources : ∀ occurrence ∈ first :: rest, ∃ module ∈ modules,
          occurrence ∈ module.occurrences path := fun occurrence listed => by
        rw [← all] at listed
        exact List.mem_flatMap.mp listed
      refine ⟨fun occurrence listed => ?_, fun occurrence listed => ?_⟩
      · obtain ⟨module, member, inside⟩ := sources occurrence listed
        exact kind_of_mem_occurrences inside
      · obtain ⟨module, member, inside⟩ := sources occurrence listed
        exact (distinct module member).of_mem_occurrences inside

theorem hasPath_merge_iff (name : String) {modules : List Module}
    (distinct : ∀ module ∈ modules, module.Everywhere Documented.DistinctMembers)
    {path : DeclarationPath} :
    (merge name modules).HasPath path ↔ ∃ module ∈ modules, module.HasPath path := by
  have found : (merge name modules).occurrences path = [] ↔
      (modules.flatMap fun module => module.occurrences path) = [] := by
    rw [occurrences_merge name distinct]
    cases modules.flatMap fun module => module.occurrences path <;> simp [mergedOf]
  rw [HasPath, ne_eq, found, List.flatMap_eq_nil_iff]
  simp [HasPath]

/-- A module holds the declarations of modules, each of them once. -/
structure Unites (merged : Module) (modules : List Module) : Prop where
  distinctPackages : (merged.packages.map Package.address).Nodup
  sortedPackages : merged.packages.Pairwise fun first second => first.name ≤ second.name
  distinctMembers : merged.Everywhere Documented.DistinctMembers
  hasPath_iff : ∀ path, merged.HasPath path ↔ ∃ module ∈ modules, module.HasPath path
  /-- The members in a list stand in the order in which they first occur in the modules. -/
  memberOrder : ∀ path, ∀ declared ∈ merged.occurrences path, ∀ list,
    declared.memberAddresses list =
      ((modules.flatMap fun module => module.occurrences path).flatMap fun occurrence =>
        occurrence.memberAddresses list).eraseDups

/-- Merging loses, invents and repeats no declaration of modules with distinct members. -/
theorem merge_unites (name : String) (modules : List Module)
    (distinct : ∀ module ∈ modules, module.Everywhere Documented.DistinctMembers) :
    (merge name modules).Unites modules := by
  refine ⟨nodup_packages_merge name modules, sorted_packages_merge name modules,
    everywhere_merge (fun kind _ first _ => first.merge kind) name distinct,
    fun path => hasPath_merge_iff name distinct, fun path declared found list => ?_⟩
  obtain ⟨first, rest, all, merged, alike, nodup⟩ := mem_occurrences_merge name distinct found
  rw [all, merged]
  exact Documented.memberAddresses_foldl_merge (Documented.kind_eq_first alike)
    (nodup first List.mem_cons_self).here list

/-- A method with one parameter, documented on one platform. -/
def sampleMethod (platform : PlatformData) (owner : Address) (name : String) : Function :=
  let address := owner.withCallable ⟨name, some ⟨"A"⟩, [⟨"int"⟩]⟩
  let info : PlatformInfo := ⟨⟨[.description ⟨[.text platform.display]⟩]⟩, [platform]⟩
  { address
    name
    returnType := none
    isConstructor := false
    receiver := none
    parameters := [⟨address.withTarget 1, "count", ⟨some "int", ["int"], [], none, true⟩, none, [info]⟩]
    expected := none
    actual := [info]
    visibility := .singleton platform .publicAccess }

/-- A field that is set by a method, documented on one platform. -/
def sampleField (platform : PlatformData) (owner : Address) (name : String) : Property :=
  { address := owner.withCallable ⟨name, some ⟨"A"⟩, []⟩
    name
    type := none
    receiver := none
    expected := some ⟨⟨[]⟩, [platform]⟩
    actual := []
    accessors := [sampleMethod platform owner ("set " ++ name)]
    visibility := .singleton platform .privateAccess }

/-- A class with a field, methods and inner classes, documented on one platform. -/
def sampleClass (platform : PlatformData) (outer : Address) (name : String) (visibility : Visibility)
    (methods : List String) (classes : List Class) : Class :=
  { address := outer.inClass name
    name
    kind := .plainClass
    constructors := []
    functions := methods.map (sampleMethod platform (outer.inClass name))
    properties := [sampleField platform (outer.inClass name) "size"]
    classes
    expected := none
    actual := [⟨⟨⟨[.description ⟨[.text platform.display]⟩]⟩, [platform]⟩, []⟩]
    extra := .empty
    visibility := .singleton platform visibility }

/-- A package as one file gives it. -/
def samplePackage (name : String) (classes : List Class) : Package :=
  ⟨.ofPackage name, name, [], [], classes⟩

/--
Three passes over a class with an inner class, the last one for the platform of the first; the first pass
also has a second file of the package.
-/
def samplePasses : List Module :=
  let jvm : PlatformData := ⟨.jvm, ["jvm"]⟩
  let android : PlatformData := ⟨.jvm, ["android"]⟩
  let package := Address.ofPackage "p"
  let outer := package.inClass "A"
  [⟨"first", [
      samplePackage "p" [
        sampleClass jvm package "A" .publicAccess ["run"]
          [sampleClass jvm outer "B" .publicAccess ["go"] []]],
      samplePackage "p" [sampleClass jvm package "C" .publicAccess [] []]]⟩,
   ⟨"second", [
      samplePackage "p" [
        sampleClass android package "A" .privateAccess ["run", "stop"]
          [sampleClass android outer "B" .publicAccess ["stay", "go"] []]],
      samplePackage "a" []]⟩,
   ⟨"third", [
      samplePackage "p" [
        sampleClass jvm package "A" .protectedAccess ["stop"]
          [sampleClass jvm outer "B" .publicAccess ["stay"] []]]]⟩]

theorem samplePasses_distinct :
    ∀ module ∈ samplePasses, module.Everywhere Documented.DistinctMembers := by
  simp [samplePasses, Everywhere, Documented.Everywhere.package_iff, Documented.Everywhere.classlike_iff,
    Documented.Everywhere.property_iff, samplePackage, sampleClass, sampleMethod, sampleField,
    Documented.DistinctMembers, MemberKind.forall_iff,
    Documented.memberAddresses, Documented.members, Documented.address, Address.withCallable,
    Address.inClass, Address.ofPackage]

theorem merge_unites_samplePasses :
    (∀ module ∈ samplePasses, module.Everywhere Documented.DistinctMembers) ∧
      (merge "m" samplePasses).Unites samplePasses :=
  ⟨samplePasses_distinct, merge_unites "m" samplePasses samplePasses_distinct⟩

end Module

end ApiDocs
