import ApiDocs.Proofs.Declaration.Nested
import Mathlib.Data.List.Forall2

/-!
# Resolving as relabelling

Resolving a file gives new labels to the class references in it and keeps everything else.  Every reference gets
the meaning that its name has in the surroundings of its place, whatever its label was before.
-/

/-- Functions that agree on related items map related lists to the same list. -/
theorem List.Forall₂.map_eq_map {α β γ : Type} {related : α → β → Prop} {first : List α} {second : List β}
    (all : List.Forall₂ related first second) {image : α → γ} {other : β → γ}
    (same : ∀ item ∈ first, ∀ partner, related item partner → other partner = image item) :
    second.map other = first.map image := by
  induction all with
  | nil => rfl
  | cons here _ ih =>
      rw [List.map_cons, List.map_cons, same _ List.mem_cons_self _ here]
      exact congrArg _ (ih fun item later => same item (List.mem_cons_of_mem _ later))

/-- Every item of a list is related to its image. -/
theorem List.forall₂_map_right_self {α β : Type} {related : α → β → Prop} {items : List α} {image : α → β}
    (all : ∀ item ∈ items, related item (image item)) : List.Forall₂ related items (items.map image) :=
  List.forall₂_map_right_iff.mpr (List.forall₂_same.mpr all)

namespace ApiDocs

namespace JavaType

/-- What holds of a type as soon as it holds of its parts holds of all types. -/
@[elab_as_elim]
theorem parts_induction {motive : JavaType → Prop} (primitive : ∀ name, motive (.primitive name))
    (reference : ∀ written className arguments resolution, (∀ argument ∈ arguments, motive argument) →
      motive (.reference written className arguments resolution))
    (array : ∀ element, motive element → motive (.array element))
    (variadic : ∀ element, motive element → motive (.variadic element)) (wildcard : motive .wildcard)
    (wildcardExtends : ∀ bound, motive bound → motive (.wildcardExtends bound))
    (wildcardSuper : ∀ bound, motive bound → motive (.wildcardSuper bound)) : ∀ type, motive type
  | .primitive name => primitive name
  | .reference written className arguments resolution =>
      reference written className arguments resolution fun argument _ =>
        parts_induction primitive reference array variadic wildcard wildcardExtends wildcardSuper argument
  | .array element =>
      array element
        (parts_induction primitive reference array variadic wildcard wildcardExtends wildcardSuper element)
  | .variadic element =>
      variadic element
        (parts_induction primitive reference array variadic wildcard wildcardExtends wildcardSuper element)
  | .wildcard => wildcard
  | .wildcardExtends bound =>
      wildcardExtends bound
        (parts_induction primitive reference array variadic wildcard wildcardExtends wildcardSuper bound)
  | .wildcardSuper bound =>
      wildcardSuper bound
        (parts_induction primitive reference array variadic wildcard wildcardExtends wildcardSuper bound)

theorem resolve_reference (meaning : String → Resolution) (written className : String)
    (arguments : List JavaType) (resolution : Resolution) :
    (reference written className arguments resolution).resolve meaning =
      .reference written className (arguments.map (resolve meaning)) (meaning written) := by
  have all : resolve.resolveAll meaning arguments = arguments.map (resolve meaning) := by
    induction arguments with
    | nil => rfl
    | cons first rest ih => rw [resolve.resolveAll, ih, List.map_cons]
  rw [resolve, all]

theorem occurrences_reference (written className : String) (arguments : List JavaType)
    (resolution : Resolution) :
    (reference written className arguments resolution).occurrences =
      .reference written className arguments resolution :: arguments.flatMap occurrences := by
  have all : occurrences.inAll arguments = arguments.flatMap occurrences := by
    induction arguments with
    | nil => rfl
    | cons first rest ih => rw [occurrences.inAll, ih, List.flatMap_cons]
  rw [occurrences, all]

/-- Every class reference in a type, at any depth, has a property of its written name and its label. -/
def EveryReference (holds : String → Resolution → Prop) (type : JavaType) : Prop :=
  ∀ written className arguments resolution,
    .reference written className arguments resolution ∈ type.occurrences → holds written resolution

theorem everyReference_reference_iff {holds : String → Resolution → Prop} {written className : String}
    {arguments : List JavaType} {resolution : Resolution} :
    (reference written className arguments resolution).EveryReference holds ↔
      holds written resolution ∧ ∀ argument ∈ arguments, argument.EveryReference holds := by
  constructor
  · intro every
    rw [EveryReference, occurrences_reference] at every
    refine ⟨every _ _ _ _ List.mem_cons_self, ?_⟩
    intro argument listed written className arguments resolution inner
    exact every _ _ _ _ (List.mem_cons_of_mem _ (List.mem_flatMap.mpr ⟨argument, listed, inner⟩))
  · rintro ⟨here, inner⟩ written className arguments resolution found
    rw [occurrences_reference] at found
    obtain same | below := List.mem_cons.mp found
    · cases same
      exact here
    · obtain ⟨argument, listed, found⟩ := List.mem_flatMap.mp below
      exact inner argument listed _ _ _ _ found

/-- Around a type stands no reference but in its parts. -/
theorem EveryReference.of_part {holds : String → Resolution → Prop} {type part : JavaType}
    (occurrences : type.occurrences = type :: part.occurrences) (every : type.EveryReference holds) :
    part.EveryReference holds := by
  intro written className arguments resolution found
  exact every _ _ _ _ (occurrences ▸ List.mem_cons_of_mem _ found)

/-- Two types are the same but for the labels of their references; these are related, name by name. -/
inductive Relabels (related : String → Resolution → Resolution → Prop) : JavaType → JavaType → Prop where
  | primitive (name : String) : Relabels related (.primitive name) (.primitive name)
  | reference {written className : String} {arguments others : List JavaType} {before after : Resolution}
      (inner : List.Forall₂ (Relabels related) arguments others) (here : related written before after) :
      Relabels related (.reference written className arguments before) (.reference written className others after)
  | array {element other : JavaType} (inner : Relabels related element other) :
      Relabels related (.array element) (.array other)
  | variadic {element other : JavaType} (inner : Relabels related element other) :
      Relabels related (.variadic element) (.variadic other)
  | wildcard : Relabels related .wildcard .wildcard
  | wildcardExtends {bound other : JavaType} (inner : Relabels related bound other) :
      Relabels related (.wildcardExtends bound) (.wildcardExtends other)
  | wildcardSuper {bound other : JavaType} (inner : Relabels related bound other) :
      Relabels related (.wildcardSuper bound) (.wildcardSuper other)

variable {meaning : String → Resolution}

/-- A resolved reference has the meaning of its name. -/
theorem everyReference_resolve (meaning : String → Resolution) (type : JavaType) :
    (type.resolve meaning).EveryReference fun written resolution => resolution = meaning written := by
  induction type using parts_induction with
  | primitive name => simp [EveryReference, resolve, occurrences]
  | reference written className arguments resolution ih =>
      rw [resolve_reference, everyReference_reference_iff]
      refine ⟨rfl, ?_⟩
      intro argument listed
      obtain ⟨original, inArguments, rfl⟩ := List.mem_map.mp listed
      exact ih original inArguments
  | array element ih => simpa [EveryReference, resolve, occurrences] using ih
  | variadic element ih => simpa [EveryReference, resolve, occurrences] using ih
  | wildcard => simp [EveryReference, resolve, occurrences]
  | wildcardExtends bound ih => simpa [EveryReference, resolve, occurrences] using ih
  | wildcardSuper bound ih => simpa [EveryReference, resolve, occurrences] using ih

/-- Resolving changes no written name. -/
theorem EveryReference.resolve {holds : String → Prop} {type : JavaType}
    (every : type.EveryReference fun written _ => holds written) (meaning : String → Resolution) :
    (type.resolve meaning).EveryReference fun written _ => holds written := by
  induction type using parts_induction with
  | primitive name => simp [EveryReference, JavaType.resolve, occurrences]
  | reference written className arguments resolution ih =>
      obtain ⟨here, inner⟩ := everyReference_reference_iff.mp every
      rw [resolve_reference, everyReference_reference_iff]
      refine ⟨here, ?_⟩
      intro argument listed
      obtain ⟨original, inArguments, rfl⟩ := List.mem_map.mp listed
      exact ih original inArguments (inner original inArguments)
  | array element ih => simpa [EveryReference, JavaType.resolve, occurrences] using ih (every.of_part rfl)
  | variadic element ih => simpa [EveryReference, JavaType.resolve, occurrences] using ih (every.of_part rfl)
  | wildcard => simp [EveryReference, JavaType.resolve, occurrences]
  | wildcardExtends bound ih => simpa [EveryReference, JavaType.resolve, occurrences] using ih (every.of_part rfl)
  | wildcardSuper bound ih => simpa [EveryReference, JavaType.resolve, occurrences] using ih (every.of_part rfl)

/-- Resolving changes labels only. -/
theorem relabels_resolve {related : String → Resolution → Resolution → Prop} {type : JavaType}
    (every : type.EveryReference fun written resolution => related written resolution (meaning written)) :
    type.Relabels related (type.resolve meaning) := by
  induction type using parts_induction with
  | primitive name => exact .primitive name
  | reference written className arguments resolution ih =>
      obtain ⟨here, inner⟩ := everyReference_reference_iff.mp every
      rw [resolve_reference]
      refine .reference (List.forall₂_map_right_self ?_) here
      intro argument listed
      exact ih argument listed (inner argument listed)
  | array element ih => exact .array (ih (every.of_part rfl))
  | variadic element ih => exact .variadic (ih (every.of_part rfl))
  | wildcard => exact .wildcard
  | wildcardExtends bound ih => exact .wildcardExtends (ih (every.of_part rfl))
  | wildcardSuper bound ih => exact .wildcardSuper (ih (every.of_part rfl))

/-- Old labels do not matter. -/
theorem Relabels.resolve_eq {related : String → Resolution → Resolution → Prop} {before after : JavaType}
    (relabels : before.Relabels related after) (meaning : String → Resolution) :
    after.resolve meaning = before.resolve meaning := by
  induction before using parts_induction generalizing after with
  | primitive name =>
      cases relabels
      rfl
  | reference written className arguments resolution ih =>
      cases relabels with
      | reference inner here =>
          rw [resolve_reference, resolve_reference, inner.map_eq_map fun argument listed _ => ih argument listed]
  | array element ih =>
      cases relabels with
      | array inner => exact congrArg JavaType.array (ih inner)
  | variadic element ih =>
      cases relabels with
      | variadic inner => exact congrArg JavaType.variadic (ih inner)
  | wildcard =>
      cases relabels
      rfl
  | wildcardExtends bound ih =>
      cases relabels with
      | wildcardExtends inner => exact congrArg JavaType.wildcardExtends (ih inner)
  | wildcardSuper bound ih =>
      cases relabels with
      | wildcardSuper inner => exact congrArg JavaType.wildcardSuper (ih inner)

end JavaType

/-! Declarations hold the types that are relabelled. -/

section Declarations

variable (related : String → Resolution → Resolution → Prop)

structure ParameterDeclaration.Relabels (before after : ParameterDeclaration) : Prop where
  name : after.name = before.name
  type : before.type.Relabels related after.type

structure FieldDeclaration.Relabels (before after : FieldDeclaration) : Prop where
  name : after.name = before.name
  containingClass : after.containingClass = before.containingClass
  modifiers : after.modifiers = before.modifiers
  docComment : after.docComment = before.docComment
  type : before.type.Relabels related after.type

structure MethodDeclaration.Relabels (before after : MethodDeclaration) : Prop where
  name : after.name = before.name
  isConstructor : after.isConstructor = before.isConstructor
  containingClass : after.containingClass = before.containingClass
  modifiers : after.modifiers = before.modifiers
  docComment : after.docComment = before.docComment
  typeParameters : after.typeParameters = before.typeParameters
  returnType : Option.Rel (JavaType.Relabels related) before.returnType after.returnType
  parameters : List.Forall₂ (ParameterDeclaration.Relabels related) before.parameters after.parameters

inductive ClassDeclaration.Relabels : ClassDeclaration → ClassDeclaration → Prop where
  | intro {before after : ClassDeclaration}
      (name : after.name = before.name)
      (isAnnotationType : after.isAnnotationType = before.isAnnotationType)
      (isInterface : after.isInterface = before.isInterface)
      (isEnum : after.isEnum = before.isEnum)
      (isRecord : after.isRecord = before.isRecord)
      (modifiers : after.modifiers = before.modifiers)
      (docComment : after.docComment = before.docComment)
      (typeParameters : after.typeParameters = before.typeParameters)
      (superTypes : List.Forall₂ (JavaType.Relabels related) before.superTypes after.superTypes)
      (constructors :
        List.Forall₂ (MethodDeclaration.Relabels related) before.constructors after.constructors)
      (methods : List.Forall₂ (MethodDeclaration.Relabels related) before.methods after.methods)
      (fields : List.Forall₂ (FieldDeclaration.Relabels related) before.fields after.fields)
      (innerClasses : List.Forall₂ Relabels before.innerClasses after.innerClasses) : Relabels before after

/-- Two files are the same but for the labels of their class references; these are related, name by name. -/
structure SourceFile.Relabels (before after : SourceFile) : Prop where
  path : after.path = before.path
  packageName : after.packageName = before.packageName
  imports : after.imports = before.imports
  classes : List.Forall₂ (ClassDeclaration.Relabels related) before.classes after.classes

end Declarations

/-! Every type stands in the surroundings that the classes and the method around it make. -/

namespace Scope

/-- The scope inside a chain of classes, of which each stands in the one before. -/
def within (scope : Scope) (chain : List ClassDeclaration) : Scope :=
  { scope with
    enclosing := (chain.map ClassDeclaration.name).reverse ++ scope.enclosing
    typeParameters := scope.typeParameters ++ chain.flatMap ClassDeclaration.typeParameters }

theorem within_cons (scope : Scope) (first : ClassDeclaration) (rest : List ClassDeclaration) :
    scope.within (first :: rest) = (scope.enter first.name first.typeParameters).within rest := by
  simp [within, enter]

theorem within_singleton (scope : Scope) (declared : ClassDeclaration) :
    scope.within [declared] = scope.enter declared.name declared.typeParameters := by
  simp [within, enter]

end Scope

/-- A type stands in the declaration of a method. -/
inductive MethodDeclaration.Mentions (method : MethodDeclaration) : JavaType → Prop where
  | returned {type : JavaType} (returns : method.returnType = some type) : Mentions method type
  | parameter {parameter : ParameterDeclaration} (takes : parameter ∈ method.parameters) :
      Mentions method parameter.type

namespace ClassDeclaration

/-- A type stands in the declaration of a class, outside the classes inside it: in the scope inside the class or in
that of one of its methods. -/
inductive Mentions (declared : ClassDeclaration) (inside : Scope) : Scope → JavaType → Prop where
  | superType {type : JavaType} (listed : type ∈ declared.superTypes) : Mentions declared inside inside type
  | field {field : FieldDeclaration} (listed : field ∈ declared.fields) :
      Mentions declared inside inside field.type
  | method {method : MethodDeclaration} {type : JavaType}
      (listed : method ∈ declared.constructors ++ declared.methods) (mentions : method.Mentions type) :
      Mentions declared inside (inside.withTypeParameters method.typeParameters) type

/-- A chain of classes, of which each stands in the one before, leads from a class to one inside it. -/
inductive Encloses : ClassDeclaration → List ClassDeclaration → ClassDeclaration → Prop where
  | self (declared : ClassDeclaration) : Encloses declared [declared] declared
  | inside {outer inner found : ClassDeclaration} {chain : List ClassDeclaration}
      (held : inner ∈ outer.innerClasses) (later : Encloses inner chain found) :
      Encloses outer (outer :: chain) found

end ClassDeclaration

namespace SourceFile

/-- A type stands somewhere in a file, in the given surroundings. -/
def Mentions (file : SourceFile) (scope : Scope) (type : JavaType) : Prop :=
  ∃ outer ∈ file.classes, ∃ chain found, outer.Encloses chain found ∧
    found.Mentions (file.scope.within chain) scope type

/-- Every class reference in a file, wherever it stands, has a property of its surroundings, its written name and
its label. -/
def EveryReference (holds : Scope → String → Resolution → Prop) (file : SourceFile) : Prop :=
  ∀ scope type, file.Mentions scope type → type.EveryReference (holds scope)

end SourceFile

variable {related : String → Resolution → Resolution → Prop} {index : ClassIndex}

/-! Resolving changes labels only, and it does so everywhere. -/

theorem MethodDeclaration.relabels_resolve {method : MethodDeclaration} {scope : Scope}
    (every : ∀ type, method.Mentions type → type.EveryReference fun written resolution =>
      related written resolution (index.meaning (scope.withTypeParameters method.typeParameters) written)) :
    method.Relabels related (method.resolve index scope) where
  name := rfl
  isConstructor := rfl
  containingClass := rfl
  modifiers := rfl
  docComment := rfl
  typeParameters := rfl
  returnType := by
    rw [resolve]
    cases returns : method.returnType with
    | none => exact .none
    | some type => exact .some (JavaType.relabels_resolve (every type (.returned returns)))
  parameters := by
    apply List.forall₂_map_right_self
    intro parameter takes
    exact ⟨rfl, JavaType.relabels_resolve (every _ (.parameter takes))⟩

namespace ClassDeclaration

theorem relabels_resolve {outer : Scope} {declared : ClassDeclaration}
    (every : ∀ chain found, declared.Encloses chain found → ∀ scope type,
      found.Mentions (outer.within chain) scope type → type.EveryReference fun written resolution =>
        related written resolution (index.meaning scope written)) :
    declared.Relabels related (declared.resolve index outer) := by
  induction declared using nested_induction generalizing outer with
  | step declared ih =>
      have here := every _ _ (.self declared)
      rw [Scope.within_singleton] at here
      have callable : ∀ method ∈ declared.constructors ++ declared.methods, method.Relabels related
          (method.resolve index (outer.enter declared.name declared.typeParameters)) := by
        intro method listed
        apply MethodDeclaration.relabels_resolve
        intro type mentions
        exact here _ type (.method listed mentions)
      rw [resolve_eq]
      refine .intro rfl rfl rfl rfl rfl rfl rfl rfl ?superTypes ?constructors ?methods ?fields ?innerClasses
      case superTypes =>
        apply List.forall₂_map_right_self
        intro type listed
        exact JavaType.relabels_resolve (here _ type (.superType listed))
      case constructors =>
        apply List.forall₂_map_right_self
        intro method listed
        exact callable method (List.mem_append_left _ listed)
      case methods =>
        apply List.forall₂_map_right_self
        intro method listed
        exact callable method (List.mem_append_right _ listed)
      case fields =>
        apply List.forall₂_map_right_self
        intro field listed
        exact ⟨rfl, rfl, rfl, rfl, JavaType.relabels_resolve (here _ _ (.field listed))⟩
      case innerClasses =>
        apply List.forall₂_map_right_self
        intro inner held
        apply ih inner held
        intro chain found encloses scope type mentions
        rw [← Scope.within_cons] at mentions
        exact every _ found (.inside held encloses) scope type mentions

/-- What stands in a resolved class stood there before, in the same surroundings, and was resolved in them. -/
theorem exists_mentions_of_resolve {outer : Scope} {declared found : ClassDeclaration}
    {chain : List ClassDeclaration} (encloses : (declared.resolve index outer).Encloses chain found)
    {scope : Scope} {type : JavaType} (mentions : found.Mentions (outer.within chain) scope type) :
    ∃ around original before, declared.Encloses around original ∧
      original.Mentions (outer.within around) scope before ∧ type = before.resolve (index.meaning scope) := by
  induction declared using nested_induction generalizing outer chain with
  | step declared ih =>
      rw [resolve_eq] at encloses
      generalize resolved : ClassDeclaration.mk .. = top at encloses
      cases encloses with
      | self =>
          subst resolved
          rw [Scope.within_singleton] at mentions
          refine ⟨[declared], declared, ?_⟩
          rw [Scope.within_singleton]
          cases mentions with
          | superType listed =>
              obtain ⟨before, held, rfl⟩ := List.mem_map.mp listed
              exact ⟨before, .self declared, .superType held, rfl⟩
          | field listed =>
              obtain ⟨before, held, rfl⟩ := List.mem_map.mp listed
              exact ⟨before.type, .self declared, .field held, rfl⟩
          | method listed mentions =>
              rw [← List.map_append] at listed
              obtain ⟨method, held, rfl⟩ := List.mem_map.mp listed
              cases mentions with
              | returned returns =>
                  obtain ⟨before, wasReturned, rfl⟩ := Option.map_eq_some_iff.mp returns
                  have mentioned : declared.Mentions (outer.enter declared.name declared.typeParameters) _ before :=
                    .method held (.returned wasReturned)
                  exact ⟨before, .self declared, mentioned, rfl⟩
              | parameter takes =>
                  obtain ⟨before, taken, rfl⟩ := List.mem_map.mp takes
                  have mentioned : declared.Mentions (outer.enter declared.name declared.typeParameters) _ before.type :=
                    .method held (.parameter taken)
                  exact ⟨before.type, .self declared, mentioned, rfl⟩
      | inside held later =>
          subst resolved
          obtain ⟨inner, inDeclared, rfl⟩ := List.mem_map.mp held
          rw [Scope.within_cons] at mentions
          obtain ⟨around, original, before, encloses, mentioned, same⟩ := ih inner inDeclared later mentions
          refine ⟨declared :: around, original, before, .inside inDeclared encloses, ?_, same⟩
          rw [Scope.within_cons]
          exact mentioned

/-- A reference in a resolved class has the meaning of its name in its surroundings. -/
theorem everyReference_resolve {outer : Scope} {declared found : ClassDeclaration}
    {chain : List ClassDeclaration} (encloses : (declared.resolve index outer).Encloses chain found)
    {scope : Scope} {type : JavaType} (mentions : found.Mentions (outer.within chain) scope type) :
    type.EveryReference fun written resolution => resolution = index.meaning scope written := by
  obtain ⟨_, _, before, _, _, rfl⟩ := exists_mentions_of_resolve encloses mentions
  exact JavaType.everyReference_resolve _ before

end ClassDeclaration

/-! Old labels do not matter. -/

theorem MethodDeclaration.Relabels.resolve_eq {before after : MethodDeclaration}
    (relabels : before.Relabels related after) (scope : Scope) :
    after.resolve index scope = before.resolve index scope := by
  obtain ⟨name, isConstructor, containingClass, modifiers, docComment, typeParameters, returnType, parameters⟩ :=
    relabels
  have resolveReturned {first second : Option JavaType}
      (relabels : Option.Rel (JavaType.Relabels related) first second) (meaning : String → Resolution) :
      second.map (JavaType.resolve meaning) = first.map (JavaType.resolve meaning) := by
    cases relabels with
    | some inner => exact congrArg some (inner.resolve_eq meaning)
    | none => rfl
  have returned := resolveReturned returnType
  have taken (meaning : String → Resolution) :
      after.parameters.map (ParameterDeclaration.resolve meaning) =
        before.parameters.map (ParameterDeclaration.resolve meaning) := by
    apply parameters.map_eq_map
    rintro ⟨_, type⟩ _ ⟨_, other⟩ ⟨rfl, inner⟩
    exact congrArg (ParameterDeclaration.mk _) (inner.resolve_eq meaning)
  cases before
  cases after
  simp_all only [MethodDeclaration.resolve]

theorem FieldDeclaration.Relabels.resolve_eq {before after : FieldDeclaration}
    (relabels : before.Relabels related after) (meaning : String → Resolution) :
    after.resolve meaning = before.resolve meaning := by
  obtain ⟨name, containingClass, modifiers, docComment, type⟩ := relabels
  have resolved := type.resolve_eq meaning
  cases before
  cases after
  simp_all only [FieldDeclaration.resolve]

theorem ClassDeclaration.Relabels.resolve_eq {before after : ClassDeclaration}
    (relabels : before.Relabels related after) (outer : Scope) :
    after.resolve index outer = before.resolve index outer := by
  induction before using ClassDeclaration.nested_induction generalizing after outer with
  | step before ih =>
      obtain ⟨name, isAnnotationType, isInterface, isEnum, isRecord, modifiers, docComment, typeParameters,
        superTypes, constructors, methods, fields, innerClasses⟩ := relabels
      rw [ClassDeclaration.resolve_eq, ClassDeclaration.resolve_eq, name, typeParameters]
      simp only
      rw [superTypes.map_eq_map fun _ _ _ inner => inner.resolve_eq _,
        constructors.map_eq_map fun _ _ _ inner => inner.resolve_eq _,
        methods.map_eq_map fun _ _ _ inner => inner.resolve_eq _,
        fields.map_eq_map fun _ _ _ inner => inner.resolve_eq _,
        innerClasses.map_eq_map fun inner held _ relabels => ih inner held relabels _]
      cases before
      cases after
      simp_all only

namespace SourceFile

variable {file : SourceFile}

theorem relabels_resolve (every : file.EveryReference fun scope written resolution =>
      related written resolution (index.meaning scope written)) :
    file.Relabels related (file.resolve index) where
  path := rfl
  packageName := rfl
  imports := rfl
  classes := by
    apply List.forall₂_map_right_self
    intro outer held
    apply ClassDeclaration.relabels_resolve
    intro chain found encloses scope type mentions
    exact every scope type ⟨outer, held, chain, found, encloses, mentions⟩

theorem Mentions.sameFile {scope : Scope} {type : JavaType}
    (mentions : file.Mentions scope type) : scope.packageName = file.packageName ∧ scope.imports = file.imports := by
  obtain ⟨_, _, chain, found, _, inside⟩ := mentions
  cases inside with
  | superType listed => exact ⟨rfl, rfl⟩
  | field listed => exact ⟨rfl, rfl⟩
  | method listed mentions => exact ⟨rfl, rfl⟩

/-- Resolving changes no written name and no surroundings. -/
theorem EveryReference.resolve {holds : Scope → String → Prop}
    (every : file.EveryReference fun scope written _ => holds scope written) (index : ClassIndex) :
    (file.resolve index).EveryReference fun scope written _ => holds scope written := by
  rintro scope type ⟨outer, held, chain, found, encloses, mentions⟩
  obtain ⟨original, inFile, rfl⟩ := List.mem_map.mp held
  obtain ⟨around, inner, before, encloses, mentioned, rfl⟩ :=
    ClassDeclaration.exists_mentions_of_resolve encloses mentions
  exact (every scope before ⟨original, inFile, around, inner, encloses, mentioned⟩).resolve _

/-- Every reference in a resolved file has the meaning of its name in its surroundings. -/
theorem everyReference_resolve (index : ClassIndex) (file : SourceFile) :
    (file.resolve index).EveryReference fun scope written resolution =>
      resolution = index.meaning scope written := by
  rintro scope type ⟨outer, held, chain, found, encloses, mentions⟩
  obtain ⟨original, _, rfl⟩ := List.mem_map.mp held
  exact ClassDeclaration.everyReference_resolve encloses mentions

theorem Relabels.resolve_eq {before after : SourceFile} (relabels : before.Relabels related after)
    (index : ClassIndex) : after.resolve index = before.resolve index := by
  obtain ⟨path, packageName, imports, classes⟩ := relabels
  have scope : after.scope = before.scope := by
    rw [SourceFile.scope, SourceFile.scope, packageName, imports]
  have resolved : after.classes.map (ClassDeclaration.resolve index after.scope) =
      before.classes.map (ClassDeclaration.resolve index before.scope) := by
    rw [scope]
    exact classes.map_eq_map fun _ _ _ inner => inner.resolve_eq _
  rw [SourceFile.resolve, SourceFile.resolve, resolved]
  cases before
  cases after
  simp_all only

/-- Two files are the same but for the labels of their class references. -/
def SameButLabels (before after : SourceFile) : Prop :=
  before.Relabels (fun _ _ _ => True) after

theorem sameButLabels_resolve (index : ClassIndex) (file : SourceFile) :
    file.SameButLabels (file.resolve index) :=
  relabels_resolve fun _ _ _ _ _ _ _ _ => trivial

/-- Only the last index counts. -/
theorem resolve_resolve (first second : ClassIndex) (file : SourceFile) :
    (file.resolve first).resolve second = file.resolve second :=
  (sameButLabels_resolve first file).resolve_eq second

/--
Resolving a file changes nothing in it but the labels of its class references.  Every reference, wherever it
stands, is labelled by its written name and its surroundings: the package and the imports, the classes around it
and the type parameters of these and of its method.  So old labels leave no trace.
-/
theorem resolve_relabels (index : ClassIndex) (file : SourceFile) :
    file.SameButLabels (file.resolve index) ∧
    ((file.resolve index).EveryReference fun scope written resolution =>
      resolution = index.meaning scope written) ∧
    (file.resolve index).resolve index = file.resolve index ∧
    ∀ scrambled, file.SameButLabels scrambled → scrambled.resolve index = file.resolve index := by
  refine ⟨sameButLabels_resolve index file, everyReference_resolve index file, ?_, ?_⟩
  · exact resolve_resolve index index file
  · intro scrambled relabelled
    exact relabelled.resolve_eq index

end SourceFile

end ApiDocs
