import ApiDocs.Proofs.CanonicalText
import ApiDocs.Proofs.Links
import ApiDocs.Proofs.WrittenNames

/-!
# Usages agree with their types

A usage says several times over what its type is: by its dotted name, by the parts of that name, by the address it
leads to and by whether it is primitive.  These are computed apart from one another and still agree, in the usage of
a type and in the usages among its arguments.
-/

namespace ApiDocs

namespace ProperName

variable {dotted : String}

theorem ne_empty (proper : ProperName dotted) : dotted ≠ "" := by
  rintro rfl
  exact proper "" (List.mem_singleton_self _) rfl

/-- What stands before a dot in a proper name is one too. -/
theorem of_append {before last : String} (proper : ProperName (before ++ "." ++ last)) : ProperName before := by
  intro segment listed
  have cut : Text.fields '.' (before ++ "." ++ last) = Text.fields '.' before ++ Text.fields '.' last :=
    Text.fields_append '.' before last
  exact proper segment (cut ▸ List.mem_append_left _ listed)

/-- A proper name ends in its last segment, which is not empty and has no dot. -/
theorem getLast?_ne (proper : ProperName dotted) : dotted.toList.getLast? ≠ some '.' := by
  obtain ⟨front, last, cut, ends⟩ := Text.exists_last_field '.' dotted
  have listed : last ∈ Text.fields '.' dotted := by
    rw [cut]
    exact List.mem_append_right _ (List.mem_singleton_self last)
  have nonempty : last.toList ≠ [] := mt String.toList_eq_nil_iff.mp (proper last listed)
  have noDot : '.' ∉ last.toList := by
    obtain ⟨piece, fromPiece, rfl⟩ := List.mem_map.mp listed
    rw [String.toList_ofList]
    exact Text.not_mem_of_mem_splitOn fromPiece
  have same : dotted.toList.getLast? = last.toList.getLast? := by
    rcases ends with rfl | ⟨before, rfl⟩
    · rfl
    · rw [String.toList_append, List.getLast?_append_of_ne_nil _ nonempty]
  rw [same]
  exact fun dot => noDot (List.mem_of_getLast? dot)

end ProperName

/-- The package and the classes of an address, with a dot between them, are a dotted name. -/
inductive Address.Spells : Address → String → Prop where
  | nameless (classNames : String) : Spells (.ofClass "" classNames) classNames
  | packaged {packageName : String} (named : packageName ≠ "") (classNames : String) :
      Spells (.ofClass packageName classNames) (packageName ++ "." ++ classNames)

theorem ClassName.spells_address (name : ClassName) : name.address.Spells name.dotted := by
  rw [address, dotted]
  split
  next nameless =>
    rw [nameless]
    exact .nameless _
  next named => exact .packaged named _

namespace TypeUsage

/-- A written name without a dot has no qualifier. -/
theorem qualifier_self (written : String) : qualifier written written = "" := by
  have nothing := Text.withoutTail?_append [] written.toList
  rw [List.nil_append] at nothing
  rw [qualifier, nothing]
  rfl

/-- The dot before a class name is no part of its qualifier. -/
theorem qualifier_append {before : String} (noDot : before.toList.getLast? ≠ some '.') (last : String) :
    qualifier (before ++ "." ++ last) last = before := by
  have text : (before ++ "." ++ last).toList = before.toList ++ ['.'] ++ last.toList := by
    rw [String.toList_append, String.toList_append]
    rfl
  have kept : before.toList.reverse.dropWhile (· = '.') = before.toList.reverse := by
    cases reversed : before.toList.reverse with
    | nil => rfl
    | cons char rest =>
        have last : before.toList.getLast? = some char := by
          rw [List.getLast?_eq_head?_reverse, reversed]
          rfl
        apply List.dropWhile_cons_of_neg
        rw [decide_eq_true_eq]
        rintro rfl
        exact noDot last
  rw [qualifier, text, Text.withoutTail?_append]
  change String.ofList (List.dropWhile _ (before.toList ++ ['.']).reverse).reverse = before
  rw [List.reverse_append, List.reverse_singleton, List.singleton_append, List.dropWhile_cons_of_pos rfl, kept,
    List.reverse_reverse, String.ofList_toList]

/-- The address of a name that was not resolved spells the name as written. -/
theorem spells_referenceAddress {written className : String} (ends : EndsInName written className)
    (proper : ProperName written) : (referenceAddress written className .unresolved).Spells written := by
  change Address.Spells (.ofClass (qualifier written className) className) written
  rcases ends with rfl | ⟨before, rfl⟩
  · rw [qualifier_self]
    exact .nameless _
  · rw [qualifier_append proper.of_append.getLast?_ne]
    exact .packaged proper.of_append.ne_empty className

end TypeUsage

namespace JavaType

/-- The type that a wildcard with a bound is used as. -/
def unbounded : JavaType → JavaType
  | wildcardExtends bound => unbounded bound
  | wildcardSuper bound => unbounded bound
  | type => type

def IsPrimitive (type : JavaType) : Prop :=
  ∃ name, type = primitive name

/-- Primitive types, arrays of them, arrays of these, and so on. -/
inductive IsPrimitiveArray : JavaType → Prop where
  | primitive (name : String) : IsPrimitiveArray (.primitive name)
  | array {element : JavaType} (inner : IsPrimitiveArray element) : IsPrimitiveArray (.array element)

theorem isPrimitiveArray_iff {type : JavaType} : type.IsPrimitiveArray ↔ type.innermost.IsPrimitive := by
  constructor
  · intro nested
    induction nested with
    | primitive name => exact ⟨name, rfl⟩
    | array _ ih => exact ih
  · intro inside
    induction type using parts_induction with
    | primitive name => exact .primitive name
    | array element ih => exact .array (ih inside)
    | _ =>
        obtain ⟨name, same⟩ := inside
        cases same

end JavaType

namespace TypeUsage

/-- Only primitive elements have no address. -/
theorem elementAddress_eq_none_iff {type : JavaType} : elementAddress type = none ↔ type.IsPrimitive := by
  constructor
  · intro nowhere
    unfold elementAddress at nowhere
    split at nowhere
    next => cases nowhere
    next name => exact ⟨name, rfl⟩
    next => cases nowhere
  · rintro ⟨name, rfl⟩
    rfl

/-- What a usage says of a type that is no wildcard with a bound. -/
structure Follows (usage : TypeUsage) (type : JavaType) : Prop where
  segments : ∀ name, usage.name = some name →
    usage.segments ≠ [] ∧ String.intercalate "." usage.segments = name
  nameless : usage.name = none → usage.segments = []
  isPrimitive : usage.isPrimitive = true ↔ type.IsPrimitive
  primitive : usage.isPrimitive = true → usage.address = none ∧ usage.arguments = []
  address : usage.address = none ↔ type.IsPrimitiveArray
  arguments : usage.arguments = (type.arguments.filter JavaType.isReference).map ofType
  resolved : ∀ written className arguments target,
    type = .reference written className arguments (.classNamed target) →
      usage.name = some target.dotted ∧ ∃ address, usage.address = some address ∧ address.Spells target.dotted
  unresolved : ∀ written arguments, type = .named written arguments → ProperName written →
    ∃ address, usage.address = some address ∧ address.Spells written

theorem follows_primitive (name : String) : (ofType (.primitive name)).Follows (.primitive name) where
  segments := by
    rintro _ ⟨⟩
    exact ⟨Text.fields_ne_nil '.' name, Text.intercalate_fields '.' name⟩
  nameless := nofun
  isPrimitive := ⟨fun _ => ⟨name, rfl⟩, fun _ => rfl⟩
  primitive _ := ⟨rfl, rfl⟩
  address := ⟨fun _ => .primitive name, fun _ => rfl⟩
  arguments := rfl
  resolved := nofun
  unresolved := nofun

theorem follows_reference (written className : String) (arguments : List JavaType) (resolution : Resolution) :
    (ofType (.reference written className arguments resolution)).Follows
      (.reference written className arguments resolution) where
  segments name named := by
    have dotted : resolution.qualifiedName? = some name := named
    have segments : (ofType (.reference written className arguments resolution)).segments =
        (resolution.qualifiedName?.map (Text.fields '.')).getD [] := rfl
    rw [segments, dotted]
    exact ⟨Text.fields_ne_nil '.' name, Text.intercalate_fields '.' name⟩
  nameless nameless := by
    have undotted : resolution.qualifiedName? = none := nameless
    have segments : (ofType (.reference written className arguments resolution)).segments =
        (resolution.qualifiedName?.map (Text.fields '.')).getD [] := rfl
    rw [segments, undotted]
    rfl
  isPrimitive := ⟨nofun, nofun⟩
  primitive := nofun
  address := ⟨nofun, nofun⟩
  arguments := arguments_ofType written className arguments resolution
  resolved := by
    rintro _ _ _ target ⟨⟩
    exact ⟨rfl, target.address, rfl, target.spells_address⟩
  unresolved := by
    rintro _ _ ⟨⟩ proper
    exact ⟨_, rfl, spells_referenceAddress (EndsInName.lastSegment written) proper⟩

/-- Types that are neither primitive nor classes have no name of their own, and a usage of them has no arguments. -/
theorem follows_of_unnamed {type : JavaType} (unnamed : type.ownName? = none) {name : String} {segments : List String}
    {address : Option Address} (nonempty : segments ≠ []) (joined : String.intercalate "." segments = name)
    (leads : address = none ↔ type.IsPrimitiveArray) :
    Follows ⟨some name, segments, [], address, false⟩ type where
  segments := by
    rintro _ ⟨⟩
    exact ⟨nonempty, joined⟩
  nameless := nofun
  isPrimitive := by
    constructor
    · exact nofun
    · rintro ⟨_, rfl⟩
      cases unnamed
  primitive := nofun
  address := leads
  arguments := by
    cases type with
    | reference => cases unnamed
    | _ => rfl
  resolved := by
    rintro _ _ _ _ rfl
    cases unnamed
  unresolved := by
    rintro _ _ rfl
    cases unnamed

theorem follows_ofType (type : JavaType) : (ofType type).Follows type.unbounded := by
  induction type using JavaType.parts_induction with
  | primitive name => exact follows_primitive name
  | reference written className arguments resolution =>
      exact follows_reference written className arguments resolution
  | array element =>
      have inside : (JavaType.array element).IsPrimitiveArray ↔ element.innermost.IsPrimitive :=
        JavaType.isPrimitiveArray_iff
      exact follows_of_unnamed rfl (List.cons_ne_nil _ _) String.intercalate_singleton
        (elementAddress_eq_none_iff.trans inside.symm)
  | variadic element =>
      exact follows_of_unnamed rfl (List.cons_ne_nil _ _) String.intercalate_singleton ⟨nofun, nofun⟩
  | wildcard => exact follows_of_unnamed rfl (List.cons_ne_nil _ _) rfl ⟨nofun, nofun⟩
  | wildcardExtends bound ih => exact ih
  | wildcardSuper bound ih => exact ih

/-- A usage follows its type, and the usages among its arguments follow the class references among those of the type.
A wildcard is used as its bound. -/
inductive FollowsThroughout : TypeUsage → JavaType → Prop where
  | intro {usage : TypeUsage} {type : JavaType} (here : usage.Follows type.unbounded)
      (inner : List.Forall₂ FollowsThroughout usage.arguments
        (type.unbounded.arguments.filter JavaType.isReference)) :
      FollowsThroughout usage type

theorem followsThroughout_ofType (type : JavaType) : (ofType type).FollowsThroughout type := by
  induction type using JavaType.parts_induction with
  | reference written className arguments resolution ih =>
      refine .intro (follows_ofType _) ?_
      rw [arguments_ofType, List.forall₂_map_left_iff]
      apply List.forall₂_same.mpr
      intro argument listed
      exact ih argument (List.mem_filter.mp listed).1
  | wildcardExtends bound ih =>
      obtain ⟨here, inner⟩ := ih
      exact .intro here inner
  | wildcardSuper bound ih =>
      obtain ⟨here, inner⟩ := ih
      exact .intro here inner
  | _ => exact .intro (follows_ofType _) .nil

end TypeUsage

end ApiDocs
