import ApiDocs.Proofs.Merge.Paths
import ApiDocs.Proofs.SortedMap

/-!
# The data of merged declarations

What a merged declaration says is read off its occurrences one by one: the first expectation, all infos in
order of appearance, the last visibility on each platform, and all else from the first occurrence.
-/

namespace ApiDocs

section Fields

variable {α ι : Type} {merge : α → α → α}

theorem findSome?_foldl {expected : α → Option ι}
    (unites : ∀ first second, expected (merge first second) = (expected first).or (expected second))
    (first : α) (rest : List α) :
    expected (rest.foldl merge first) = (first :: rest).findSome? expected := by
  induction rest generalizing first with
  | nil => cases found : expected first <;> simp [found]
  | cons second rest ih =>
      rw [List.foldl_cons, ih, List.findSome?_cons, List.findSome?_cons, List.findSome?_cons, unites]
      cases expected first <;> rfl

section Maps

variable {κ ν : Type} [Ord κ] [Std.TransOrd κ] [Std.LawfulEqOrd κ] {mapOf : α → SortedMap κ ν}
  (unites : ∀ first second, mapOf (merge first second) = (mapOf first).union (mapOf second))

include unites

/-- At each key stands the value of the last item that has one. -/
theorem get?_foldl_union (first : α) (rest : List α) (key : κ) :
    (mapOf (rest.foldl merge first)).get? key =
      ((first :: rest).filterMap fun item => (mapOf item).get? key).getLast? := by
  induction rest generalizing first with
  | nil => cases found : (mapOf first).get? key <;> simp [found]
  | cons second rest ih =>
      rw [List.foldl_cons, ih, List.filterMap_cons, List.filterMap_cons, List.filterMap_cons, unites,
        SortedMap.get?_union]
      cases (mapOf first).get? key <;> cases (mapOf second).get? key <;> simp [List.getLast?_cons]

theorem mem_keys_foldl_union (first : α) (rest : List α) (key : κ) :
    key ∈ (mapOf (rest.foldl merge first)).keys ↔ ∃ item ∈ first :: rest, key ∈ (mapOf item).keys := by
  rw [SortedMap.mem_keys_iff, get?_foldl_union unites, List.getLast?_isSome, ne_eq,
    List.filterMap_eq_nil_iff]
  simp [SortedMap.mem_keys_iff, Option.isSome_iff_ne_none, or_iff_not_imp_left]

end Maps

variable [DecidableEq ι]

/-- The infos of a first item, and behind them the new ones of later items, each once and in order. -/
def unitedInfos (infosOf : α → List ι) (first : α) (rest : List α) : List ι :=
  infosOf first ++ ((rest.flatMap infosOf).removeAll (infosOf first)).eraseDups

theorem unitedInfos_eq (infosOf : α → List ι) (first : α) (rest : List α) :
    unitedInfos infosOf first rest = extendDistinct (infosOf first) (rest.flatMap infosOf) :=
  (extendDistinct_eq _ _).symm

theorem unitedInfos_foldl {infosOf : α → List ι}
    (unites : ∀ first second,
      infosOf (merge first second) = extendDistinct (infosOf first) (infosOf second))
    (first : α) (rest : List α) :
    infosOf (rest.foldl merge first) = unitedInfos infosOf first rest := by
  rw [unitedInfos_eq]
  induction rest generalizing first with
  | nil => rfl
  | cons second rest ih => rw [List.foldl_cons, ih, unites, List.flatMap_cons, extendDistinct_append]

/-- The fields of a declaration that are kept for each platform. -/
structure PlatformFields (α ι : Type) where
  expected : α → Option ι
  actual : α → List ι
  visibility : α → VisibilityMap

namespace PlatformFields

/-- A merge puts the fields of two items together. -/
structure Merges (fields : PlatformFields α ι) (merge : α → α → α) : Prop where
  expected : ∀ first second,
    fields.expected (merge first second) = (fields.expected first).or (fields.expected second)
  actual : ∀ first second,
    fields.actual (merge first second) = extendDistinct (fields.actual first) (fields.actual second)
  visibility : ∀ first second,
    fields.visibility (merge first second) = (fields.visibility first).union (fields.visibility second)

/-- The fields of an item are put together from those of a first item and later ones. -/
structure IsFold (fields : PlatformFields α ι) (merged first : α) (rest : List α) : Prop where
  /-- The first expectation stays. -/
  expected : fields.expected merged = (first :: rest).findSome? fields.expected
  actual : fields.actual merged = unitedInfos fields.actual first rest
  platforms : ∀ platform, platform ∈ (fields.visibility merged).keys ↔
    ∃ item ∈ first :: rest, platform ∈ (fields.visibility item).keys
  /-- On each platform the last visibility stays. -/
  visibility : ∀ platform, (fields.visibility merged).get? platform =
    ((first :: rest).filterMap fun item => (fields.visibility item).get? platform).getLast?

theorem Merges.isFold {fields : PlatformFields α ι} (laws : fields.Merges merge) (first : α)
    (rest : List α) : fields.IsFold (rest.foldl merge first) first rest where
  expected := findSome?_foldl laws.expected first rest
  actual := unitedInfos_foldl laws.actual first rest
  platforms := mem_keys_foldl_union laws.visibility first rest
  visibility := get?_foldl_union laws.visibility first rest

end PlatformFields

end Fields

namespace Parameter

theorem getElem?_mergeLists (parameters others : List Parameter) (index : Nat) :
    (mergeLists parameters others)[index]? = parameters[index]?.map fun parameter =>
      { parameter with
        actual := extendDistinct parameter.actual (others[index]?.toList.flatMap actual) } := by
  induction parameters generalizing others index with
  | nil => rfl
  | cons first rest ih =>
      cases others with
      | nil => simp [mergeLists]
      | cons other others =>
          cases index with
          | zero => simp [mergeLists]
          | succ index => exact ih others index

end Parameter

namespace Function

def platformFields : PlatformFields Function PlatformInfo :=
  ⟨expected, actual, visibility⟩

/-- A function is put together from a first one and later ones. -/
structure IsFold (merged first : Function) (rest : List Function) : Prop where
  platform : platformFields.IsFold merged first rest
  /-- Each parameter of the first function is united with those at its index. -/
  parameters : ∀ index : Nat, merged.parameters[index]? =
    first.parameters[index]?.map fun parameter =>
      { parameter with
        actual := unitedInfos Parameter.actual parameter
          (rest.filterMap fun other => other.parameters[index]?) }
  /-- All else is that of the first function. -/
  others : merged =
    { first with
      parameters := merged.parameters
      expected := merged.expected
      actual := merged.actual
      visibility := merged.visibility }

theorem getElem?_parameters_foldl (first : Function) (rest : List Function) (index : Nat) :
    (rest.foldl merge first).parameters[index]? = first.parameters[index]?.map fun parameter =>
      { parameter with
        actual := unitedInfos Parameter.actual parameter
          (rest.filterMap fun other => other.parameters[index]?) } := by
  simp only [unitedInfos_eq]
  induction rest generalizing first with
  | nil => simp
  | cons second rest ih =>
      have merged : (first.merge second).parameters =
          Parameter.mergeLists first.parameters second.parameters := rfl
      rw [List.foldl_cons, ih, merged, Parameter.getElem?_mergeLists, Option.map_map]
      congr 1
      funext parameter
      cases found : second.parameters[index]? <;> simp [found, extendDistinct_append]

theorem isFold_foldl (first : Function) (rest : List Function) :
    (rest.foldl merge first).IsFold first rest where
  platform := PlatformFields.Merges.isFold ⟨fun _ _ => rfl, fun _ _ => rfl, fun _ _ => rfl⟩ first rest
  parameters := getElem?_parameters_foldl first rest
  others := by
    induction rest generalizing first with
    | nil => rfl
    | cons second rest ih => exact ih (first.merge second)

end Function

namespace Property

def platformFields : PlatformFields Property PlatformInfo :=
  ⟨expected, actual, visibility⟩

/-- A property is put together from a first one and later ones. -/
structure IsFold (merged first : Property) (rest : List Property) : Prop where
  platform : platformFields.IsFold merged first rest
  others : merged =
    { first with
      expected := merged.expected
      actual := merged.actual
      accessors := merged.accessors
      visibility := merged.visibility }

theorem isFold_foldl (first : Property) (rest : List Property) :
    (rest.foldl merge first).IsFold first rest where
  platform := PlatformFields.Merges.isFold ⟨fun _ _ => rfl, fun _ _ => rfl, fun _ _ => rfl⟩ first rest
  others := by
    induction rest generalizing first with
    | nil => rfl
    | cons second rest ih => exact ih (first.merge second)

end Property

namespace Class

def platformFields : PlatformFields Class ClassInfo :=
  ⟨expected, actual, visibility⟩

/-- A class is put together from a first one and later ones. -/
structure IsFold (merged first : Class) (rest : List Class) : Prop where
  platform : platformFields.IsFold merged first rest
  extra : ∀ modifier, modifier ∈ merged.extra.keys ↔ ∃ other ∈ first :: rest, modifier ∈ other.extra.keys
  others : merged =
    { first with
      constructors := merged.constructors
      functions := merged.functions
      properties := merged.properties
      classes := merged.classes
      expected := merged.expected
      actual := merged.actual
      extra := merged.extra
      visibility := merged.visibility }

theorem isFold_foldl (first : Class) (rest : List Class) :
    (rest.foldl merge first).IsFold first rest where
  platform := by
    refine PlatformFields.Merges.isFold ⟨?_, ?_, ?_⟩ first rest <;>
      exact fun first second => by rw [merge_eq]; rfl
  extra := mem_keys_foldl_union (fun first second => by rw [merge_eq]) first rest
  others := by
    induction rest generalizing first with
    | nil => cases first; rfl
    | cons second rest ih =>
        cases second
        exact ih _

end Class

namespace Package

/-- A package is put together from a first one and later ones, of which only the members are kept. -/
def IsFold (merged first : Package) : Prop :=
  merged =
    { first with
      functions := merged.functions
      properties := merged.properties
      classes := merged.classes }

theorem isFold_foldl (first : Package) (rest : List Package) : (rest.foldl merge first).IsFold first := by
  induction rest generalizing first with
  | nil => rfl
  | cons second rest ih => exact ih (first.merge second)

end Package

namespace Documented

/-- A declaration is put together from its occurrences, which are all of one kind. -/
inductive IsFold : Documented → List Documented → Prop where
  | package {merged first : Package} {rest : List Package} (data : merged.IsFold first) :
      IsFold (package merged) ((first :: rest).map package)
  | classlike {merged first : Class} {rest : List Class} (data : merged.IsFold first rest) :
      IsFold (classlike merged) ((first :: rest).map classlike)
  | function {merged first : Function} {rest : List Function} (data : merged.IsFold first rest) :
      IsFold (function merged) ((first :: rest).map function)
  | property {merged first : Property} {rest : List Property} (data : merged.IsFold first rest) :
      IsFold (property merged) ((first :: rest).map property)

/-- Declarations of one kind are made from values of one type. -/
theorem exists_map_ofKind {kind : DeclarationKind} {declarations : List Documented}
    (alike : ∀ declared ∈ declarations, declared.kind = kind) :
    ∃ held : List kind.Held, held.map (ofKind kind) = declarations := by
  induction declarations with
  | nil => exact ⟨[], rfl⟩
  | cons first rest ih =>
      obtain ⟨firstKind, restKind⟩ := List.forall_mem_cons.mp alike
      obtain ⟨held, rfl⟩ := exists_ofKind firstKind
      obtain ⟨later, rfl⟩ := ih restKind
      exact ⟨held :: later, rfl⟩

/-- What is said of a first declaration and later ones of its kind may be said kind by kind. -/
@[elab_as_elim]
theorem alike_cases {motive : Documented → List Documented → Prop}
    (packages : ∀ (first : Package) (rest : List Package), motive (package first) (rest.map package))
    (classlikes : ∀ (first : Class) (rest : List Class), motive (classlike first) (rest.map classlike))
    (functions : ∀ (first : Function) (rest : List Function), motive (function first) (rest.map function))
    (properties : ∀ (first : Property) (rest : List Property), motive (property first) (rest.map property))
    {first : Documented} {rest : List Documented} (same : ∀ other ∈ rest, other.kind = first.kind) :
    motive first rest := by
  obtain ⟨rest, rfl⟩ := exists_map_ofKind same
  cases first with
  | package first => exact packages first rest
  | classlike first => exact classlikes first rest
  | function first => exact functions first rest
  | property first => exact properties first rest

/-- Declarations made from values are merged as these values are. -/
theorem foldl_merge_map {α : Type} {construct : α → Documented} {mergeHeld : α → α → α}
    (commutes : ∀ first second,
      construct (mergeHeld first second) = (construct first).merge (construct second))
    (first : α) (rest : List α) :
    (rest.map construct).foldl merge (construct first) = construct (rest.foldl mergeHeld first) := by
  rw [List.foldl_map]
  exact List.foldl_hom construct fun first second => (commutes first second).symm

theorem isFold_foldl_merge {first : Documented} {rest : List Documented}
    (same : ∀ other ∈ rest, other.kind = first.kind) : (rest.foldl merge first).IsFold (first :: rest) := by
  refine alike_cases (fun first rest => ?_) (fun first rest => ?_) (fun first rest => ?_)
    (fun first rest => ?_) same
  · rw [foldl_merge_map fun _ _ => rfl]
    exact .package (first.isFold_foldl rest)
  · rw [foldl_merge_map fun _ _ => rfl]
    exact .classlike (first.isFold_foldl rest)
  · rw [foldl_merge_map fun _ _ => rfl]
    exact .function (first.isFold_foldl rest)
  · rw [foldl_merge_map fun _ _ => rfl]
    exact .property (first.isFold_foldl rest)

end Documented

namespace Module

/-- Each declaration of a merged module is put together from all declarations at its path in the modules. -/
theorem merge_isFold (name : String) {modules : List Module}
    (distinct : ∀ module ∈ modules, module.Everywhere Documented.DistinctMembers)
    {path : DeclarationPath} {declared : Documented}
    (found : declared ∈ (merge name modules).occurrences path) :
    declared.IsFold (modules.flatMap fun module => module.occurrences path) := by
  obtain ⟨first, rest, all, merged, alike, _⟩ := mem_occurrences_merge name distinct found
  rw [all, merged]
  exact Documented.isFold_foldl_merge (Documented.kind_eq_first alike)

/-- A method of the inner class, which two of the sample passes have. -/
def samplePath : DeclarationPath :=
  let package := Address.ofPackage "p"
  let outer := package.inClass "A"
  let inner := outer.inClass "B"
  ⟨package, [(.classlike, outer), (.classlike, inner),
    (.function, inner.withCallable ⟨"go", some ⟨"A"⟩, [⟨"int"⟩]⟩)]⟩

theorem samplePath_hasPath : (merge "m" samplePasses).HasPath samplePath := by
  refine (hasPath_merge_iff "m" samplePasses_distinct).mpr ⟨_, List.mem_cons_self, ?_⟩
  simp [HasPath, occurrences, samplePath, samplePackage, sampleClass, sampleMethod, Documented.along,
    Documented.members, Documented.address, itemsAt_cons]

theorem merge_isFold_samplePasses :
    (∀ module ∈ samplePasses, module.Everywhere Documented.DistinctMembers) ∧
      ∃ declared, declared ∈ (merge "m" samplePasses).occurrences samplePath ∧
        declared.IsFold (samplePasses.flatMap fun module => module.occurrences samplePath) := by
  refine ⟨samplePasses_distinct, ?_⟩
  obtain ⟨declared, found⟩ := List.exists_mem_of_ne_nil _ samplePath_hasPath
  exact ⟨declared, found, merge_isFold "m" samplePasses_distinct found⟩

end Module

end ApiDocs
