import ApiDocs.Proofs.Model.Declared

/-!
# Addresses identify declarations

A class, its constructors, functions and properties, their parameters and the classes inside it have addresses
that are made of names and of the texts of parameter types.  Where the names of a class differ, so do the
addresses, but for one overlap: a field has the address of a callable without parameters that bears its name.
-/

namespace ApiDocs

/-- A declaration inside a class, or the class itself. -/
inductive Part where
  | classlike (declared : Class)
  | constructor (declared : Function)
  | function (declared : Function)
  | property (declared : Property)
  | parameter (declared : Parameter)

namespace Part

def address : Part → Address
  | classlike declared => declared.address
  | constructor declared => declared.address
  | function declared => declared.address
  | property declared => declared.address
  | parameter declared => declared.address

/-- A constructor or function that takes no arguments. -/
def TakesNothing : Part → Prop
  | constructor declared => declared.parameters = []
  | function declared => declared.parameters = []
  | _ => False

def IsProperty : Part → Prop
  | property _ => True
  | _ => False

/-- Of two parts one is a property and the other a callable without parameters. -/
def Overlap (first second : Part) : Prop :=
  first.TakesNothing ∧ second.IsProperty ∨ first.IsProperty ∧ second.TakesNothing

end Part

namespace Function

/-- A function, as a part of a given sort, and its parameters. -/
def parts (sort : Function → Part) (declared : Function) : List Part :=
  sort declared :: declared.parameters.map .parameter

end Function

namespace Class

/-- A class and all that is declared in it, at every depth. -/
def parts : Class → List Part
  | ⟨address, name, kind, constructors, functions, properties, classes, expected, actual, extra,
      visibility⟩ =>
      .classlike ⟨address, name, kind, constructors, functions, properties, classes, expected, actual, extra,
        visibility⟩ ::
      (constructors.flatMap (Function.parts .constructor) ++ functions.flatMap (Function.parts .function) ++
        properties.map .property) ++
      partsOfAll classes
where
  partsOfAll : List Class → List Part
    | [] => []
    | first :: rest => parts first ++ partsOfAll rest

/-- The members of a class with their parameters. -/
def memberParts (declared : Class) : List Part :=
  declared.constructors.flatMap (Function.parts .constructor) ++
    declared.functions.flatMap (Function.parts .function) ++ declared.properties.map .property

theorem partsOfAll_eq_flatMap (classes : List Class) : parts.partsOfAll classes = classes.flatMap parts := by
  induction classes with
  | nil => rfl
  | cons first rest ih => rw [parts.partsOfAll, ih, List.flatMap_cons]

theorem parts_eq (declared : Class) :
    declared.parts = .classlike declared :: (declared.memberParts ++ declared.classes.flatMap parts) := by
  cases declared
  rw [parts, partsOfAll_eq_flatMap]
  rfl

/-- Any two parts of a class have different addresses. -/
def IdentifiesParts (declared : Class) : Prop :=
  declared.parts.Pairwise fun first second => first.address ≠ second.address

end Class

namespace MethodDeclaration

/-- The texts of the parameter types. -/
def parameterTexts (method : MethodDeclaration) : List String :=
  method.parameters.map fun parameter => parameter.type.canonicalText

/-- What tells a method from the other members of its class. -/
def callable (method : MethodDeclaration) : Callable :=
  ⟨method.name, some ⟨method.containingClass.getD ""⟩, method.parameterTexts.map TypeReference.mk⟩

theorem parameterTexts_of_callable_eq {first second : MethodDeclaration}
    (same : first.callable = second.callable) : first.parameterTexts = second.parameterTexts := by
  have images := congrArg Callable.parameters same
  exact List.map_injective_iff.mpr (fun _ _ => TypeReference.mk.inj) images

end MethodDeclaration

namespace ClassDeclaration

/-- The members of each sort and the classes inside a class differ in what they are told apart by. -/
@[mk_iff]
structure DistinctNames (declared : ClassDeclaration) : Prop where
  fields : (declared.fields.map FieldDeclaration.name).Nodup
  constructors : (declared.constructors.map MethodDeclaration.parameterTexts).Nodup
  methods : (declared.methods.map fun method => (method.name, method.parameterTexts)).Nodup
  innerClasses : (declared.innerClasses.map ClassDeclaration.name).Nodup

/-- Besides, no method bears the name of the class. -/
@[mk_iff]
structure ToldApart (declared : ClassDeclaration) : Prop extends DistinctNames declared where
  methodNames : ∀ method ∈ declared.methods, method.name ≠ declared.name

/-- No method bears the name of a constructor, and the name of an inner class is a single name. -/
@[mk_iff]
structure ProperNames (declared : ClassDeclaration) : Prop where
  methodNames : ∀ method ∈ declared.methods, ∀ constructor ∈ declared.constructors,
    method.name ≠ constructor.name
  innerNames : ∀ inner ∈ declared.innerClasses, '.' ∉ inner.name.toList

end ClassDeclaration

namespace Address

theorem classNames_inClass {address : Address} {chain : String} (names : address.classNames = some chain)
    (name : String) : (address.inClass name).classNames = some (chain ++ "." ++ name) := by
  rw [inClass, names]

end Address

/-- A chain of class names is another one, or goes on behind it. -/
def Continues (outer text : String) : Prop :=
  text = outer ∨ ∃ rest, text = outer ++ "." ++ rest

namespace Continues

/-- What continues an inner class continues the outer one behind a dot. -/
theorem of_inner {outer name text : String} (continues : Continues (outer ++ "." ++ name) text) :
    ∃ rest, text = outer ++ "." ++ rest := by
  obtain same | ⟨rest, same⟩ := continues
  · exact ⟨name, same⟩
  · exact ⟨name ++ "." ++ rest, by rw [same]; simp only [String.append_assoc]⟩

theorem ne_of_inner {outer name text : String} (continues : Continues (outer ++ "." ++ name) text) :
    text ≠ outer := by
  rintro rfl
  obtain ⟨rest, same⟩ := continues.of_inner
  have lengths := congrArg String.length same
  simp only [String.length_append] at lengths
  have dot : ".".length = 1 := rfl
  omega

/-- The name behind the dot can be read off, unless it holds a dot itself. -/
theorem takeWhile_eq {outer name text : String} (continues : Continues (outer ++ "." ++ name) text)
    (single : '.' ∉ name.toList) :
    (text.toList.drop (outer ++ ".").toList.length).takeWhile (· ≠ '.') = name.toList := by
  have all : ∀ char ∈ name.toList, (decide (char ≠ '.')) = true := by
    intro char member
    exact decide_eq_true fun same => single (same ▸ member)
  have behind (tail : String) :
      (outer ++ "." ++ tail).toList.drop (outer ++ ".").toList.length = tail.toList := by
    have joined : (outer ++ "." ++ tail).toList = (outer ++ ".").toList ++ tail.toList := String.toList_append
    rw [joined, List.drop_left]
  obtain rfl | ⟨rest, rfl⟩ := continues
  · have whole : (name.toList ++ []).takeWhile (· ≠ '.') = name.toList ++ [].takeWhile (· ≠ '.') :=
      List.takeWhile_append_of_pos all
    rw [List.append_nil, List.takeWhile_nil, List.append_nil] at whole
    rw [behind, whole]
  · have regrouped : outer ++ "." ++ name ++ "." ++ rest = outer ++ "." ++ (name ++ ("." ++ rest)) := by
      simp only [String.append_assoc]
    rw [regrouped, behind, String.toList_append, List.takeWhile_append_of_pos all, String.toList_append]
    simp

theorem name_eq {outer first second text : String} (left : Continues (outer ++ "." ++ first) text)
    (right : Continues (outer ++ "." ++ second) text) (single : '.' ∉ first.toList)
    (other : '.' ∉ second.toList) : first = second := by
  have names : first.toList = second.toList :=
    (left.takeWhile_eq single).symm.trans (right.takeWhile_eq other)
  exact String.toList_inj.mp names

end Continues

namespace Function

variable {platform : PlatformData} {owner : Address} {isConstructor : Bool} {method : MethodDeclaration}
  {sort : Function → Part}

/-- The targets of a function and its parameters count up from 0. -/
theorem targets_parts (ofSort : ∀ declared, (sort declared).address = declared.address)
    (whole : owner.target = 0) :
    ((ofDeclaration platform owner isConstructor method).parts sort).map (fun part => part.address.target) =
      List.range (method.parameters.length + 1) := by
  rw [parts, List.map_cons, ofSort, List.range_succ_eq_map]
  refine congr (congrArg List.cons whole) ?_
  refine List.ext_getElem ?_ fun place _ _ => ?_
  · simp [ofDeclaration]
  · simp [ofDeclaration, Parameter.ofDeclaration, Part.address, Address.withTarget]

theorem pairwise_parts (ofSort : ∀ declared, (sort declared).address = declared.address)
    (whole : owner.target = 0) :
    ((ofDeclaration platform owner isConstructor method).parts sort).Pairwise
      fun first second => first.address ≠ second.address := by
  have differ : (((ofDeclaration platform owner isConstructor method).parts sort).map
      fun part => part.address.target).Nodup := by
    rw [targets_parts ofSort whole]
    exact List.nodup_range
  refine (List.pairwise_map.mp differ).imp fun apart same => ?_
  exact apart (congrArg Address.target same)

/-- A function and its parameters share the callable of its declaration, and only parameters have a target. -/
theorem mem_parts (ofSort : ∀ declared, (sort declared).address = declared.address) {part : Part}
    (listed : part ∈ (ofDeclaration platform owner isConstructor method).parts sort) :
    part.address.classNames = owner.classNames ∧ part.address.callable = some method.callable ∧
      (part = sort (ofDeclaration platform owner isConstructor method) ∨ part.address.target ≠ 0) := by
  obtain rfl | inside := List.mem_cons.mp listed
  · rw [ofSort]
    refine ⟨rfl, ?_, .inl rfl⟩
    simp [ofDeclaration, addressOf, Address.withCallable, MethodDeclaration.callable,
      MethodDeclaration.parameterTexts]
  · obtain ⟨parameter, held, rfl⟩ := List.mem_map.mp inside
    obtain ⟨place, inRange, rfl⟩ := List.mem_mapIdx.mp held
    refine ⟨rfl, ?_, .inr (Nat.succ_ne_zero place)⟩
    simp [Part.address, Parameter.ofDeclaration, addressOf, Address.withCallable, Address.withTarget,
      MethodDeclaration.callable, MethodDeclaration.parameterTexts]

end Function

namespace Class

variable {platform : PlatformData} {outer : Address} {declared : ClassDeclaration}

/-- The members of a documented class are in its declaration: a constructor, a method or a field. -/
theorem mem_memberParts_ofDeclaration {part : Part}
    (listed : part ∈ (ofDeclaration platform outer declared).memberParts) :
    (∃ constructor ∈ declared.constructors,
        part ∈ (Function.ofDeclaration platform (outer.inClass declared.name) true constructor).parts
          .constructor) ∨
      (∃ method ∈ declared.methods,
        part ∈ (Function.ofDeclaration platform (outer.inClass declared.name) false method).parts
          .function) ∨
      ∃ field ∈ declared.fields,
        part = .property (.ofDeclaration platform (outer.inClass declared.name) field) := by
  rw [memberParts, ofDeclaration_eq] at listed
  simp only [List.mem_append, List.mem_flatMap, List.mem_map] at listed
  obtain (⟨_, ⟨constructor, held, rfl⟩, inside⟩ | ⟨_, ⟨method, held, rfl⟩, inside⟩) |
    ⟨_, ⟨field, held, rfl⟩, rfl⟩ := listed
  · exact .inl ⟨constructor, held, inside⟩
  · exact .inr (.inl ⟨method, List.mem_of_mem_filter held, inside⟩)
  · exact .inr (.inr ⟨field, held, rfl⟩)

/-- Members stand in their class and have a callable. -/
theorem address_of_mem_memberParts {part : Part}
    (listed : part ∈ (ofDeclaration platform outer declared).memberParts) :
    part.address.classNames = (outer.inClass declared.name).classNames ∧ part.address.callable ≠ none := by
  obtain ⟨_, _, inside⟩ | ⟨_, _, inside⟩ | ⟨_, _, rfl⟩ := mem_memberParts_ofDeclaration listed
  · obtain ⟨names, callable, _⟩ := Function.mem_parts (fun _ => rfl) inside
    exact ⟨names, callable ▸ Option.some_ne_none _⟩
  · obtain ⟨names, callable, _⟩ := Function.mem_parts (fun _ => rfl) inside
    exact ⟨names, callable ▸ Option.some_ne_none _⟩
  · exact ⟨rfl, Option.some_ne_none _⟩

/-- All parts of a class stand in the class or in a class inside it. -/
theorem classNames_of_mem_parts {chain : String} (names : (outer.inClass declared.name).classNames = some chain)
    {part : Part} (listed : part ∈ (ofDeclaration platform outer declared).parts) :
    ∃ text, part.address.classNames = some text ∧ Continues chain text := by
  induction declared using ClassDeclaration.nested_induction generalizing outer chain with
  | step declared ih =>
      rw [parts_eq, List.mem_cons, List.mem_append, List.mem_flatMap] at listed
      obtain rfl | member | ⟨_, below, inside⟩ := listed
      · exact ⟨chain, (congrArg Address.classNames (address_ofDeclaration ..)).trans names, .inl rfl⟩
      · exact ⟨chain, (address_of_mem_memberParts member).1.trans names, .inl rfl⟩
      · rw [ofDeclaration_eq] at below
        obtain ⟨inner, held, rfl⟩ := List.mem_map.mp below
        obtain ⟨text, found, continues⟩ := ih inner held (Address.classNames_inClass names inner.name) inside
        exact ⟨text, found, .inr continues.of_inner⟩

/-- A constructor or function and a property share an address only when the callable takes nothing. -/
theorem takesNothing_of_property {owner : Address} (whole : owner.target = 0) {isConstructor : Bool}
    {method : MethodDeclaration} {field : FieldDeclaration} {sort : Function → Part}
    {part : Part} (listed : part ∈ (Function.ofDeclaration platform owner isConstructor method).parts sort)
    (ofSort : ∀ declared, (sort declared).address = declared.address)
    (takes : ∀ declared, declared.parameters = [] → (sort declared).TakesNothing)
    (same : part.address = Property.addressOf owner field) : part.TakesNothing := by
  obtain ⟨_, callable, rfl | inside⟩ := Function.mem_parts ofSort listed
  · rw [same, Property.addressOf, Address.withCallable, Option.some.injEq] at callable
    have none : method.parameters = [] := by
      have texts := congrArg Callable.parameters callable
      simpa [MethodDeclaration.callable, MethodDeclaration.parameterTexts] using texts.symm
    refine takes _ ?_
    rw [Function.ofDeclaration, none]
    rfl
  · exact absurd ((congrArg Address.target same).trans whole) inside

/-- Of two parts with one address one is a property and the other a callable without parameters. -/
def Apart (first second : Part) : Prop :=
  first.address = second.address → first.Overlap second

theorem Apart.of_callable_ne {first second : Part} {left right : Callable}
    (leftCallable : first.address.callable = some left) (rightCallable : second.address.callable = some right)
    (differ : left ≠ right) : Apart first second := by
  intro same
  rw [same, rightCallable, Option.some.injEq] at leftCallable
  exact absurd leftCallable.symm differ

/-- The members of one sort differ when their declarations have different callables. -/
theorem pairwise_functions {owner : Address} (whole : owner.target = 0) (isConstructor : Bool)
    {sort : Function → Part} (ofSort : ∀ declared, (sort declared).address = declared.address)
    {methods : List MethodDeclaration} (differ : methods.Pairwise fun first second =>
      first.callable ≠ second.callable) :
    ((methods.map (Function.ofDeclaration platform owner isConstructor)).flatMap
      (Function.parts sort)).Pairwise Apart := by
  rw [List.flatMap_map, List.pairwise_flatMap]
  constructor
  · intro method _
    exact (Function.pairwise_parts ofSort whole).imp fun apart same => absurd same apart
  · refine differ.imp fun differ left inLeft right inRight => ?_
    exact .of_callable_ne (Function.mem_parts ofSort inLeft).2.1 (Function.mem_parts ofSort inRight).2.1 differ

theorem pairwise_properties {owner : Address} {fields : List FieldDeclaration}
    (differ : (fields.map FieldDeclaration.name).Nodup) :
    ((fields.map (Property.ofDeclaration platform owner)).map Part.property).Pairwise Apart := by
  rw [List.map_map, List.pairwise_map]
  refine (List.pairwise_map.mp differ).imp fun differ => ?_
  refine .of_callable_ne rfl rfl fun same => ?_
  exact differ (congrArg Callable.name same)

theorem pairwise_memberParts (distinct : declared.DistinctNames) (proper : declared.ProperNames) :
    (ofDeclaration platform outer declared).memberParts.Pairwise Apart := by
  have whole : (outer.inClass declared.name).target = 0 := rfl
  rw [memberParts, ofDeclaration_eq, List.pairwise_append, List.pairwise_append]
  refine ⟨⟨?constructors, ?functions, ?constructorFunction⟩, pairwise_properties distinct.fields, ?property⟩
  case constructors =>
    refine pairwise_functions whole true (fun _ => rfl) ?_
    refine (List.pairwise_map.mp distinct.constructors).imp fun differ same => ?_
    exact differ (MethodDeclaration.parameterTexts_of_callable_eq same)
  case functions =>
    refine pairwise_functions whole false (fun _ => rfl) (List.Pairwise.filter _ ?_)
    refine (List.pairwise_map.mp distinct.methods).imp fun differ same => ?_
    exact differ (Prod.ext (congrArg Callable.name same)
      (MethodDeclaration.parameterTexts_of_callable_eq same))
  case constructorFunction =>
    intro left inLeft right inRight
    simp only [List.mem_flatMap, List.mem_map] at inLeft inRight
    obtain ⟨_, ⟨constructor, built, rfl⟩, inLeft⟩ := inLeft
    obtain ⟨_, ⟨method, kept, rfl⟩, inRight⟩ := inRight
    refine .of_callable_ne (Function.mem_parts (fun _ => rfl) inLeft).2.1
      (Function.mem_parts (fun _ => rfl) inRight).2.1 fun same => ?_
    exact proper.methodNames method (List.mem_of_mem_filter kept) constructor built
      (congrArg Callable.name same).symm
  case property =>
    intro left inLeft right inRight same
    simp only [List.mem_map] at inRight
    obtain ⟨_, ⟨field, _, rfl⟩, rfl⟩ := inRight
    refine .inl ⟨?_, trivial⟩
    simp only [List.mem_append, List.mem_flatMap, List.mem_map] at inLeft
    obtain ⟨_, ⟨_, _, rfl⟩, inLeft⟩ | ⟨_, ⟨_, _, rfl⟩, inLeft⟩ := inLeft
    · exact takesNothing_of_property whole inLeft (fun _ => rfl) (fun _ none => none) same
    · exact takesNothing_of_property whole inLeft (fun _ => rfl) (fun _ none => none) same

/-- Two different parts of a class whose names are told apart share an address only if one is a property and
the other a constructor or function without parameters. -/
theorem parts_overlap (platform : PlatformData) (outer : Address) (declared : ClassDeclaration)
    (distinct : declared.Everywhere ClassDeclaration.DistinctNames)
    (proper : declared.Everywhere ClassDeclaration.ProperNames) :
    (ofDeclaration platform outer declared).parts.Pairwise fun first second =>
      first.address = second.address → first.Overlap second := by
  change (ofDeclaration platform outer declared).parts.Pairwise Apart
  induction declared using ClassDeclaration.nested_induction generalizing outer with
  | step declared ih =>
      obtain ⟨chain, names⟩ : ∃ chain, (outer.inClass declared.name).classNames = some chain := ⟨_, rfl⟩
      have innerNames (inner : ClassDeclaration) :=
        Address.classNames_inClass names inner.name
      rw [parts_eq, List.pairwise_cons, List.pairwise_append]
      have classes : (ofDeclaration platform outer declared).classes =
          declared.innerClasses.map (ofDeclaration platform (outer.inClass declared.name)) := by
        rw [ofDeclaration_eq]
      have below : ∀ part ∈ (ofDeclaration platform outer declared).classes.flatMap parts,
          part.address.classNames ≠ some chain := by
        intro part listed same
        simp only [classes, List.mem_flatMap, List.mem_map] at listed
        obtain ⟨_, ⟨inner, held, rfl⟩, inside⟩ := listed
        obtain ⟨text, found, continues⟩ := classNames_of_mem_parts (innerNames inner) inside
        exact continues.ne_of_inner (Option.some.inj (found.symm.trans same))
      refine ⟨?whole, pairwise_memberParts distinct.here proper.here, ?inner, ?memberInner⟩
      case whole =>
        intro part listed same
        have callable : part.address.callable = none := by
          rw [← same]
          exact congrArg Address.callable (address_ofDeclaration ..)
        have place : part.address.classNames = some chain := by
          rw [← same]
          exact (congrArg Address.classNames (address_ofDeclaration ..)).trans names
        obtain member | inside := List.mem_append.mp listed
        · exact absurd callable (address_of_mem_memberParts member).2
        · exact absurd place (below part inside)
      case memberInner =>
        intro member inMember part inside same
        have place := (address_of_mem_memberParts inMember).1.trans names
        exact absurd (same ▸ place) (below part inside)
      case inner =>
        rw [classes, List.flatMap_map, List.pairwise_flatMap]
        constructor
        · intro inner held
          exact ih inner held _ (distinct.of_mem held) (proper.of_mem held)
        · have differ := List.pairwise_map.mp distinct.here.innerClasses
          refine differ.imp_of_mem fun inLeft inRight differ left leftPart right rightPart same => ?_
          obtain ⟨text, found, continues⟩ := classNames_of_mem_parts (innerNames _) leftPart
          obtain ⟨other, foundOther, otherContinues⟩ := classNames_of_mem_parts (innerNames _) rightPart
          have texts : text = other := by
            rw [same, foundOther, Option.some.injEq] at found
            exact found.symm
          subst texts
          exact absurd (continues.name_eq otherContinues (proper.here.innerNames _ inLeft)
            (proper.here.innerNames _ inRight)) differ

/-- A platform to document samples for. -/
def samplePlatform : PlatformData :=
  ⟨.jvm, ["jvm"]⟩

def sampleMember (owner name : String) (isConstructor : Bool) (parameters : List ParameterDeclaration) :
    MethodDeclaration :=
  ⟨name, isConstructor, some owner, none, none, [], none, parameters⟩

def sampleNamed (name : String) (constructors methods : List MethodDeclaration)
    (fields : List FieldDeclaration) (innerClasses : List ClassDeclaration) : ClassDeclaration :=
  { name, constructors, methods, fields, innerClasses, isAnnotationType := false, isInterface := false,
    isEnum := false, isRecord := false, modifiers := none, docComment := none, typeParameters := [],
    superTypes := [] }

theorem everywhere_sampleNamed {holds : ClassDeclaration → Prop} {name : String}
    {constructors methods : List MethodDeclaration} {fields : List FieldDeclaration}
    {innerClasses : List ClassDeclaration} :
    (sampleNamed name constructors methods fields innerClasses).Everywhere holds ↔
      holds (sampleNamed name constructors methods fields innerClasses) ∧
        ∀ inner ∈ innerClasses, inner.Everywhere holds :=
  ClassDeclaration.everywhere_iff

/-- A class with the field `size` and the method `size()`. -/
def sampleSized : ClassDeclaration :=
  sampleNamed "Stack" [sampleMember "Stack" "Stack" true [⟨"limit", .primitive "int"⟩]]
    [sampleMember "Stack" "size" false []] [⟨"size", some "Stack", none, none, .primitive "int"⟩]
    [sampleNamed "Node" [] [] [] []]

theorem parts_overlap_sampleSized :
    sampleSized.Everywhere ClassDeclaration.DistinctNames ∧
      sampleSized.Everywhere ClassDeclaration.ProperNames ∧
      (ofDeclaration samplePlatform (.ofPackage "p") sampleSized).parts.Pairwise fun first second =>
        first.address = second.address → first.Overlap second := by
  have distinct : sampleSized.Everywhere ClassDeclaration.DistinctNames := by
    simp only [sampleSized, everywhere_sampleNamed, List.forall_mem_cons,
      ClassDeclaration.distinctNames_iff]
    simp [sampleNamed]
  have proper : sampleSized.Everywhere ClassDeclaration.ProperNames := by
    simp only [sampleSized, everywhere_sampleNamed, List.forall_mem_cons,
      ClassDeclaration.properNames_iff]
    simp [sampleNamed, sampleMember]
  exact ⟨distinct, proper, parts_overlap _ _ _ distinct proper⟩

/-- A constructor under the name of a method. -/
def sampleMisnamed : ClassDeclaration :=
  sampleNamed "Stack" [sampleMember "Stack" "size" true []] [sampleMember "Stack" "size" false []] [] []

/-- The class `B.C` next to the class `C` inside `B`. -/
def sampleDotted : ClassDeclaration :=
  sampleNamed "A" [] [] [] [sampleNamed "B" [] [] [] [sampleNamed "C" [] [] [] []],
    sampleNamed "B.C" [] [] [] []]

/-- Classes that are told apart in each list may still share addresses: a field with a method, a misnamed
constructor with a method, and an inner class whose name holds a dot with one further inside. -/
theorem identifiesParts_fails :
    (sampleSized.Everywhere ClassDeclaration.ToldApart ∧
        ¬ (ofDeclaration samplePlatform (.ofPackage "p") sampleSized).IdentifiesParts) ∧
      (sampleMisnamed.Everywhere ClassDeclaration.ToldApart ∧
        ¬ (ofDeclaration samplePlatform (.ofPackage "p") sampleMisnamed).IdentifiesParts) ∧
      (sampleDotted.Everywhere ClassDeclaration.ToldApart ∧
        ¬ (ofDeclaration samplePlatform (.ofPackage "p") sampleDotted).IdentifiesParts) := by
  refine ⟨⟨?_, ?_⟩, ⟨?_, ?_⟩, ?_, ?_⟩
  · simp only [sampleSized, everywhere_sampleNamed, List.forall_mem_cons,
      ClassDeclaration.toldApart_iff, ClassDeclaration.distinctNames_iff]
    simp [sampleNamed, sampleMember]
  · unfold IdentifiesParts
    decide
  · simp only [sampleMisnamed, everywhere_sampleNamed, ClassDeclaration.toldApart_iff,
      ClassDeclaration.distinctNames_iff]
    simp [sampleNamed, sampleMember]
  · unfold IdentifiesParts
    decide
  · simp only [sampleDotted, everywhere_sampleNamed, List.forall_mem_cons,
      ClassDeclaration.toldApart_iff, ClassDeclaration.distinctNames_iff]
    simp [sampleNamed]
  · unfold IdentifiesParts
    decide

end Class

end ApiDocs
