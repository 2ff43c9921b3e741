import ApiDocs.Proofs.Redirection
import Mathlib.Data.List.TakeWhile

/-!
# The order of lookup

The first segment of a written name is looked up stage by stage: among the members of the enclosing classes, the
imports of single types, the package, the imports on demand and `java.lang`, and at last by the whole name.  The
first stage at which there is something decides.
-/

namespace ApiDocs

section Search

variable {α β : Type}

/-- Something is found at one stage of a search and nothing at the stages before it. -/
def FirstHit (stages : List (α → Prop)) (item : α) : Prop :=
  ∃ before stage after, stages = before ++ stage :: after ∧ stage item ∧
    ∀ earlier ∈ before, ∀ other, ¬ earlier other

/-- Nothing is found at any stage of a search. -/
def NoHit (stages : List (α → Prop)) : Prop :=
  ∀ stage ∈ stages, ∀ item, ¬ stage item

variable {stage : α → Prop} {stages later : List (α → Prop)} {item : α}

theorem not_firstHit_nil : ¬ FirstHit [] item := by
  rintro ⟨before, stage, after, split, _⟩
  exact List.append_ne_nil_of_right_ne_nil before (List.cons_ne_nil stage after) split.symm

theorem firstHit_cons :
    FirstHit (stage :: stages) item ↔ stage item ∨ (∀ other, ¬ stage other) ∧ FirstHit stages item := by
  constructor
  · rintro ⟨before, hit, after, split, here, missed⟩
    cases before with
    | nil =>
        obtain ⟨rfl, _⟩ := List.cons.inj split
        exact .inl here
    | cons first before =>
        obtain ⟨rfl, behind⟩ := List.cons.inj split
        refine .inr ⟨missed _ List.mem_cons_self, before, hit, after, behind, here, ?_⟩
        intro earlier listed
        exact missed earlier (List.mem_cons_of_mem _ listed)
  · rintro (here | ⟨missed, before, hit, after, rfl, here, missedLater⟩)
    · exact ⟨[], stage, stages, rfl, here, fun _ none => absurd none List.not_mem_nil⟩
    · refine ⟨stage :: before, hit, after, rfl, here, ?_⟩
      intro earlier listed
      obtain rfl | inBefore := List.mem_cons.mp listed
      · exact missed
      · exact missedLater earlier inBefore

theorem noHit_cons : NoHit (stage :: stages) ↔ (∀ other, ¬ stage other) ∧ NoHit stages :=
  List.forall_mem_cons

theorem FirstHit.exists_mem (hit : FirstHit stages item) : ∃ stage ∈ stages, stage item := by
  obtain ⟨before, stage, after, rfl, here, _⟩ := hit
  exact ⟨stage, List.mem_append_right _ List.mem_cons_self, here⟩

/-- Where something is found at all, something is found first. -/
theorem noHit_iff : NoHit stages ↔ ∀ item, ¬ FirstHit stages item := by
  induction stages with
  | nil => exact ⟨fun _ _ => not_firstHit_nil, fun _ _ none => absurd none List.not_mem_nil⟩
  | cons stage stages ih =>
      simp only [noHit_cons, firstHit_cons, ih, not_or, not_and]
      constructor
      · rintro ⟨missed, missedLater⟩ item
        exact ⟨missed item, fun _ => missedLater item⟩
      · intro missed
        have here (other : α) : ¬ stage other := (missed other).1
        exact ⟨here, fun other => (missed other).2 here⟩

theorem firstHit_append :
    FirstHit (stages ++ later) item ↔ FirstHit stages item ∨ NoHit stages ∧ FirstHit later item := by
  induction stages with
  | nil =>
      rw [List.nil_append]
      refine ⟨fun hit => .inr ⟨fun _ none => absurd none List.not_mem_nil, hit⟩, ?_⟩
      rintro (impossible | ⟨_, hit⟩)
      · exact absurd impossible not_firstHit_nil
      · exact hit
  | cons stage stages ih =>
      rw [List.cons_append, firstHit_cons, firstHit_cons, noHit_cons, ih, and_or_left, or_assoc, and_assoc]

/-- What a search through stages gives is its first hit. -/
def Searches (found : Option α) (stages : List (α → Prop)) : Prop :=
  ∀ item, found = some item ↔ FirstHit stages item

namespace Searches

variable {found laterFound : Option α}

theorem eq_none_iff (searches : Searches found stages) : found = none ↔ NoHit stages := by
  rw [noHit_iff, Option.eq_none_iff_forall_ne_some]
  exact forall_congr' fun item => not_congr (searches item)

theorem nil : Searches (none : Option α) [] :=
  fun _ => ⟨nofun, fun hit => absurd hit not_firstHit_nil⟩

/-- A search goes on behind stages at which nothing is found. -/
theorem append (first : Searches found stages) (second : Searches laterFound later) :
    Searches (found.or laterFound) (stages ++ later) := by
  intro item
  rw [firstHit_append, ← first item, ← second item, ← first.eq_none_iff]
  cases found with
  | none => simp
  | some other => simp

theorem single (here : ∀ item, found = some item ↔ stage item) : Searches found [stage] := by
  intro item
  rw [firstHit_cons, here]
  refine ⟨.inl, ?_⟩
  rintro (hit | ⟨_, impossible⟩)
  · exact hit
  · exact absurd impossible not_firstHit_nil

theorem cons (here : ∀ item, found = some item ↔ stage item) (rest : Searches laterFound later) :
    Searches (found.or laterFound) (stage :: later) :=
  (single here).append rest

/-- The items of a list that are asked are so many stages. -/
theorem findSome? {asked : β → Bool} {answer : β → Option α} {stageOf : β → α → Prop}
    (each : ∀ item other, answer item = some other ↔ stageOf item other) (items : List β) :
    Searches (items.findSome? fun item => if asked item then answer item else none)
      ((items.filter asked).map stageOf) := by
  induction items with
  | nil => exact nil
  | cons first rest ih =>
      rw [List.findSome?_cons]
      by_cases isAsked : asked first = true
      · have searched := cons (each first) ih
        rw [List.filter_cons_of_pos isAsked, List.map_cons, if_pos isAsked]
        cases answered : answer first with
        | none => rwa [answered, Option.none_or] at searched
        | some other => rwa [answered, Option.some_or] at searched
      · rw [List.filter_cons_of_neg isAsked, if_neg isAsked]
        exact ih

/-- What is found may be changed on every stage alike. -/
theorem map (searches : Searches found stages) (image : α → β) :
    Searches (found.map image)
      (stages.map fun stage target => ∃ item, stage item ∧ image item = target) := by
  have hits (target : β) :
      FirstHit (stages.map fun stage target => ∃ item, stage item ∧ image item = target) target ↔
        ∃ item, FirstHit stages item ∧ image item = target := by
    clear searches
    induction stages with
    | nil =>
        refine ⟨fun impossible => absurd impossible not_firstHit_nil, ?_⟩
        rintro ⟨_, impossible, _⟩
        exact absurd impossible not_firstHit_nil
    | cons stage stages ih =>
        have missed : (∀ target : β, ¬ ∃ item, stage item ∧ image item = target) ↔ ∀ item, ¬ stage item :=
          ⟨fun none item here => none _ ⟨item, here, rfl⟩, fun none _ ⟨item, here, _⟩ => none item here⟩
        simp only [List.map_cons, firstHit_cons, ih, missed, or_and_right, exists_or, and_assoc,
          exists_and_left]
  intro target
  rw [hits, Option.map_eq_some_iff]
  exact exists_congr fun item => and_congr_left fun _ => searches item

end Searches

end Search

namespace ClassName

/-- By convention a dotted name is cut before its first segment that starts with an upper-case letter: at least one
segment before it names the package, and it and all behind it name classes. -/
def SplitsFrom (name : ClassName) (dotted : String) : Prop :=
  ∃ packageSegments outermost inner, Text.fields '.' dotted = packageSegments ++ outermost :: inner ∧
    packageSegments ≠ [] ∧ (∀ segment ∈ packageSegments, startsUppercase segment = false) ∧
    startsUppercase outermost = true ∧
    name = ⟨String.intercalate "." packageSegments, outermost :: inner⟩

theorem ofConvention?_eq_some_iff {dotted : String} {name : ClassName} :
    ofConvention? dotted = some name ↔ name.SplitsFrom dotted := by
  rw [ofConvention?]
  constructor
  · intro read
    obtain ⟨nonempty, same⟩ := Option.ite_none_left_eq_some.mp read
    obtain ⟨somePackage, someClass⟩ := not_or.mp nonempty
    cases classNames : (Text.fields '.' dotted).dropWhile fun segment => !startsUppercase segment with
    | nil => exact absurd classNames someClass
    | cons outermost inner =>
        rw [classNames] at same
        refine ⟨_, outermost, inner, ?split, somePackage, ?before, ?here, (Option.some.inj same).symm⟩
        case split => rw [← classNames, List.takeWhile_append_dropWhile]
        case before =>
          intro segment listed
          simpa using List.mem_takeWhile_imp listed
        case here =>
          have head := List.head?_dropWhile_not (fun segment => !startsUppercase segment) (Text.fields '.' dotted)
          rw [classNames] at head
          simpa using head
  · rintro ⟨packageSegments, outermost, inner, split, somePackage, lower, upper, rfl⟩
    have before : ∀ segment ∈ packageSegments, (!startsUppercase segment) = true := by
      intro segment listed
      rw [lower segment listed, Bool.not_false]
    have taken : (Text.fields '.' dotted).takeWhile (fun segment => !startsUppercase segment) =
        packageSegments := by
      rw [split, List.takeWhile_append_of_pos before, List.takeWhile_cons_of_neg (by simp [upper]),
        List.append_nil]
    have dropped : (Text.fields '.' dotted).dropWhile (fun segment => !startsUppercase segment) =
        outermost :: inner := by
      rw [split, List.dropWhile_append_of_pos before, List.dropWhile_cons_of_neg (by simp [upper])]
    simp only [taken, dropped]
    rw [if_neg (not_or.mpr ⟨somePackage, List.cons_ne_nil _ _⟩)]

end ClassName

/-- A place at which types are written: the classes around it, from the outermost one to the one that holds it,
and the constructor or method around it, if there is one. -/
structure Position where
  classes : List ClassDeclaration
  method : Option MethodDeclaration

namespace Position

/-- A name is a type parameter of the method or of a class around a position. -/
def Binds (position : Position) (name : String) : Prop :=
  (∃ method ∈ position.method, name ∈ method.typeParameters) ∨
    ∃ declared ∈ position.classes, name ∈ declared.typeParameters

/-- The names of the enclosing classes, outermost first. -/
def enclosing (position : Position) : List String :=
  position.classes.map ClassDeclaration.name

end Position

/-- A type is written at a position in a file: as a super type of a class, as the type of a field, or in the
declaration of a constructor or method. -/
inductive SourceFile.PlacedAt (file : SourceFile) : Position → JavaType → Prop where
  | superType {outer declared : ClassDeclaration} {around : List ClassDeclaration} {type : JavaType}
      (held : outer ∈ file.classes) (encloses : outer.Encloses around declared)
      (listed : type ∈ declared.superTypes) : PlacedAt file ⟨around, none⟩ type
  | field {outer declared : ClassDeclaration} {around : List ClassDeclaration} {field : FieldDeclaration}
      (held : outer ∈ file.classes) (encloses : outer.Encloses around declared)
      (listed : field ∈ declared.fields) : PlacedAt file ⟨around, none⟩ field.type
  | method {outer declared : ClassDeclaration} {around : List ClassDeclaration} {method : MethodDeclaration}
      {type : JavaType} (held : outer ∈ file.classes) (encloses : outer.Encloses around declared)
      (listed : method ∈ declared.constructors ++ declared.methods) (mentions : method.Mentions type) :
      PlacedAt file ⟨around, some method⟩ type

namespace ClassIndex

/-- A whole dotted name means a class that is indexed under it, or by convention one that is not. -/
def Qualifies (index : ClassIndex) (dotted : String) (name : ClassName) : Prop :=
  index.find? dotted = some name ∨ index.find? dotted = none ∧ name.SplitsFrom dotted

/-- Where a simple name is looked up inside a chain of classes of a file. -/
def simpleStages (index : ClassIndex) (file : SourceFile) (enclosing : List String) (simpleName : String) :
    List (ClassName → Prop) :=
  -- The chains that begin with the outermost class, the longest of them first.
  (enclosing.inits.tail.reverse.map fun chain found =>
    index.lookup? ⟨file.packageName, chain ++ [simpleName]⟩ = some found) ++
  ((file.imports.filter fun candidate =>
    !candidate.onDemand && JavaType.lastSegment candidate.name == simpleName).map fun candidate found =>
      index.Qualifies candidate.name found) ++
  [fun found => index.lookup? ⟨file.packageName, [simpleName]⟩ = some found] ++
  ((file.imports.filter Import.onDemand).map fun candidate found =>
    index.find? (candidate.name ++ "." ++ simpleName) = some found) ++
  [fun found => index.lookup? ⟨"java.lang", [simpleName]⟩ = some found]

/-- Where a written name of segments is looked up: its first segment as a simple name, the others inside what is
found; then, if there are others, the whole name as it is. -/
def stages (index : ClassIndex) (file : SourceFile) (enclosing : List String) (written first : String)
    (rest : List String) : List (ClassName → Prop) :=
  ((index.simpleStages file enclosing first).map fun stage target =>
    ∃ found, stage found ∧ found.inside rest = target) ++
  if rest = [] then [] else [index.Qualifies written]

/-- What a written name of segments means at a position of a file. -/
structure Decides (index : ClassIndex) (file : SourceFile) (position : Position) (written first : String)
    (rest : List String) (resolution : Resolution) : Prop where
  typeParameter : resolution = .typeParameter ↔ rest = [] ∧ position.Binds first
  classNamed : ∀ name, resolution = .classNamed name ↔
    ¬ (rest = [] ∧ position.Binds first) ∧
      FirstHit (index.stages file position.enclosing written first rest) name
  unresolved : resolution = .unresolved ↔
    ¬ (rest = [] ∧ position.Binds first) ∧ NoHit (index.stages file position.enclosing written first rest)

variable {index : ClassIndex}

theorem qualified?_eq_some_iff {dotted : String} {name : ClassName} :
    index.qualified? dotted = some name ↔ index.Qualifies dotted name := by
  rw [qualified?, Option.or_eq_some_iff, ClassName.ofConvention?_eq_some_iff, Qualifies]

/-- The member classes of the enclosing classes are tried from the innermost one on. -/
theorem searches_member? (index : ClassIndex) (packageName simpleName : String) (inwards : List String) :
    Searches (index.member? packageName simpleName inwards)
      (inwards.reverse.inits.tail.reverse.map fun chain found =>
        index.lookup? ⟨packageName, chain ++ [simpleName]⟩ = some found) := by
  induction inwards with
  | nil => exact .nil
  | cons inner outer ih =>
      have chains : (inner :: outer).reverse.inits.tail.reverse =
          (inner :: outer).reverse :: outer.reverse.inits.tail.reverse := by
        have begins : outer.reverse.inits ≠ [] := by
          rw [Ne, ← List.length_eq_zero_iff, List.length_inits]
          exact Nat.succ_ne_zero _
        rw [List.reverse_cons, List.inits_append, List.tail_append_of_ne_nil begins]
        simp
      rw [chains, List.map_cons, member?]
      exact .cons (fun _ => Iff.rfl) ih

theorem searches_simple? (index : ClassIndex) (file : SourceFile) {scope : Scope}
    (packageName : scope.packageName = file.packageName) (imports : scope.imports = file.imports)
    (simpleName : String) :
    Searches (index.simple? scope simpleName)
      (index.simpleStages file scope.enclosing.reverse simpleName) := by
  rw [simple?, packageName, imports]
  simp only [← Option.or_assoc]
  refine .append (.append (.append (.append ?member ?imported) ?package) ?onDemand) ?language
  case member => exact searches_member? index _ simpleName scope.enclosing
  case imported => exact .findSome? (fun _ _ => qualified?_eq_some_iff) file.imports
  case package => exact .single fun _ => Iff.rfl
  case onDemand => exact .findSome? (fun _ _ => Iff.rfl) file.imports
  case language => exact .single fun _ => Iff.rfl

theorem searches_class? (index : ClassIndex) (file : SourceFile) {scope : Scope}
    (packageName : scope.packageName = file.packageName) (imports : scope.imports = file.imports)
    (written first : String) (rest : List String) :
    Searches (index.class? scope written first rest)
      (index.stages file scope.enclosing.reverse written first rest) := by
  have inside := (index.searches_simple? file packageName imports first).map fun found => found.inside rest
  have whole : Searches (if rest = [] then none else index.qualified? written)
      (if rest = [] then [] else [index.Qualifies written]) := by
    split
    · exact .nil
    · exact .single fun _ => qualified?_eq_some_iff
  have both : index.class? scope written first rest =
      ((index.simple? scope first).map fun found => found.inside rest).or
        (if rest = [] then none else index.qualified? written) := by
    rw [class?]
    cases index.simple? scope first <;> rfl
  rw [both]
  exact inside.append whole

/-- The scope of a position is made of the classes and the method around it. -/
theorem decides_meaning (index : ClassIndex) (file : SourceFile) {position : Position} {scope : Scope}
    (packageName : scope.packageName = file.packageName) (imports : scope.imports = file.imports)
    (enclosing : scope.enclosing.reverse = position.enclosing)
    (typeParameters : ∀ name, name ∈ scope.typeParameters ↔ position.Binds name) {written first : String}
    {rest : List String} (segments : Text.fields '.' written = first :: rest) :
    index.Decides file position written first rest (index.meaning scope written) := by
  have searched := index.searches_class? file packageName imports written first rest
  rw [enclosing] at searched
  by_cases parameter : rest = [] ∧ position.Binds first
  · rw [meaning_of_parameter index segments (parameter.imp_right (typeParameters first).mpr)]
    exact ⟨⟨fun _ => parameter, fun _ => rfl⟩, fun _ => ⟨nofun, fun other => absurd parameter other.1⟩,
      ⟨nofun, fun other => absurd parameter other.1⟩⟩
  · rw [meaning_of_class index segments (mt (And.imp_right (typeParameters first).mp) parameter)]
    cases found : index.class? scope written first rest with
    | none =>
        have none := searched.eq_none_iff.mp found
        refine ⟨⟨nofun, fun other => absurd other parameter⟩, fun name => ⟨nofun, ?_⟩, ?_⟩
        · rintro ⟨_, hit⟩
          exact absurd hit (noHit_iff.mp none name)
        · exact ⟨fun _ => ⟨parameter, none⟩, fun _ => rfl⟩
    | some target =>
        refine ⟨⟨nofun, fun other => absurd other parameter⟩, fun name => ?_, ⟨nofun, ?_⟩⟩
        · rw [← searched name, found]
          exact ⟨fun same => ⟨parameter, congrArg some (Resolution.classNamed.inj same)⟩,
            fun same => congrArg Resolution.classNamed (Option.some.inj same.2)⟩
        · rintro ⟨_, none⟩
          cases found.symm.trans (searched.eq_none_iff.mpr none)

end ClassIndex

namespace SourceFile

variable {file : SourceFile}

theorem PlacedAt.exists_mentions {position : Position} {type : JavaType} (placed : file.PlacedAt position type) :
    ∃ scope, file.Mentions scope type ∧ scope.packageName = file.packageName ∧ scope.imports = file.imports ∧
      scope.enclosing.reverse = position.enclosing ∧
      ∀ name, name ∈ scope.typeParameters ↔ position.Binds name := by
  have around (classes : List ClassDeclaration) :
      (file.scope.within classes).enclosing.reverse = classes.map ClassDeclaration.name := by
    simp [SourceFile.scope, Scope.within]
  have parameters (classes : List ClassDeclaration) (name : String) :
      name ∈ (file.scope.within classes).typeParameters ↔
        ∃ declared ∈ classes, name ∈ declared.typeParameters := by
    simp [SourceFile.scope, Scope.within]
  cases placed with
  | @superType outer declared classes _ held encloses listed =>
      refine ⟨_, ⟨outer, held, classes, declared, encloses, .superType listed⟩, rfl, rfl, around classes, ?_⟩
      intro name
      simp [parameters, Position.Binds]
  | @field outer declared classes _ held encloses listed =>
      refine ⟨_, ⟨outer, held, classes, declared, encloses, .field listed⟩, rfl, rfl, around classes, ?_⟩
      intro name
      simp [parameters, Position.Binds]
  | @method outer declared classes method _ held encloses listed mentions =>
      refine ⟨_, ⟨outer, held, classes, declared, encloses, .method listed mentions⟩, rfl, rfl, around classes, ?_⟩
      intro name
      simp [Scope.withTypeParameters, parameters, Position.Binds, or_comm]

/--
Every class reference in a resolved file means what the stages of lookup say at its position: a type parameter if it
is a single segment that the method or a class around it binds, else the first hit, and nothing if no stage has one.
-/
theorem resolve_followsStages (index : ClassIndex) (file : SourceFile) {position : Position} {type : JavaType}
    (placed : (file.resolve index).PlacedAt position type) :
    type.EveryReference fun written resolution => ∃ first rest, Text.fields '.' written = first :: rest ∧
      index.Decides file position written first rest resolution := by
  obtain ⟨scope, mentions, packageName, imports, enclosing, typeParameters⟩ := placed.exists_mentions
  intro written className arguments resolution found
  obtain rfl := everyReference_resolve index file scope type mentions _ _ _ _ found
  cases segments : Text.fields '.' written with
  | nil => exact absurd (List.map_eq_nil_iff.mp segments) (List.splitOn_ne_nil _ _)
  | cons first rest =>
      exact ⟨first, rest, rfl, index.decides_meaning file packageName imports enclosing typeParameters segments⟩

/-! A class inside a class uses its type parameter and a name for which the import of a single type is no help. -/

def sampleIndex : ClassIndex :=
  .insertAll ⟨.empty⟩ [⟨"java.util", ["Map"]⟩, ⟨"java.util", ["Map", "Entry"]⟩]

def sampleTable (type : JavaType) : ClassDeclaration :=
  { name := "Table", isAnnotationType := false, isInterface := false, isEnum := false, isRecord := false,
    modifiers := none, docComment := none, typeParameters := ["K"], superTypes := [], constructors := [],
    methods := [], fields := [⟨"first", some "Table", none, none, type⟩], innerClasses := [] }

def sampleRegistry (type : JavaType) : ClassDeclaration :=
  { sampleTable type with name := "Registry", typeParameters := [], fields := [],
                          innerClasses := [sampleTable type] }

def sampleUsage (type : JavaType) : SourceFile :=
  ⟨"app/Registry.java", "app", [⟨"Entry", false, false⟩, ⟨"java.util.Map", false, true⟩], [sampleRegistry type]⟩

def sampleMeant : JavaType :=
  .reference "Entry" "Entry" [.reference "K" "K" [] .typeParameter] (.classNamed ⟨"java.util", ["Map", "Entry"]⟩)

theorem resolve_sampleUsage :
    (sampleUsage (.named "Entry" [.named "K" []])).resolve sampleIndex = sampleUsage sampleMeant := by
  let inside : Scope := ⟨"app", (sampleUsage .wildcard).imports, ["Table", "Registry"], ["K"]⟩
  have entry : sampleIndex.meaning inside "Entry" = .classNamed ⟨"java.util", ["Map", "Entry"]⟩ := by
    decide +kernel
  have key : sampleIndex.meaning inside "K" = .typeParameter := by
    decide +kernel
  have segments : JavaType.lastSegment "Entry" = "Entry" ∧ JavaType.lastSegment "K" = "K" := by
    decide +kernel
  have meant : (JavaType.named "Entry" [.named "K" []]).resolve (sampleIndex.meaning inside) =
      sampleMeant := by
    rw [JavaType.named, JavaType.named, JavaType.resolve_reference, List.map_singleton, JavaType.resolve_reference,
      List.map_nil, entry, key, segments.1, segments.2, sampleMeant]
  rw [← meant]
  rfl

theorem resolve_followsStages_sampleUsage :
    let position : Position := ⟨[sampleRegistry sampleMeant, sampleTable sampleMeant], none⟩
    ((sampleUsage (.named "Entry" [.named "K" []])).resolve sampleIndex).PlacedAt position sampleMeant ∧
      position.Binds "K" ∧
      FirstHit (sampleIndex.stages (sampleUsage (.named "Entry" [.named "K" []])) ["Registry", "Table"] "Entry"
        "Entry" []) ⟨"java.util", ["Map", "Entry"]⟩ := by
  intro position
  have placed : ((sampleUsage (.named "Entry" [.named "K" []])).resolve sampleIndex).PlacedAt position
      sampleMeant := by
    rw [resolve_sampleUsage]
    have encloses : (sampleRegistry sampleMeant).Encloses position.classes (sampleTable sampleMeant) :=
      .inside List.mem_cons_self (.self _)
    exact .field List.mem_cons_self encloses List.mem_cons_self
  have fields : Text.fields '.' "K" = ["K"] ∧ Text.fields '.' "Entry" = ["Entry"] := by
    decide +kernel
  refine ⟨placed, ?key, ?entry⟩
  case key =>
    obtain ⟨first, rest, segments, decides⟩ := resolve_followsStages sampleIndex _ placed "K" "K" [] .typeParameter
      (List.mem_cons_of_mem _ List.mem_cons_self)
    obtain ⟨rfl, rfl⟩ := List.cons.inj (fields.1.symm.trans segments)
    exact (decides.typeParameter.mp rfl).2
  case entry =>
    obtain ⟨first, rest, segments, decides⟩ := resolve_followsStages sampleIndex _ placed "Entry" "Entry" _ _
      List.mem_cons_self
    obtain ⟨rfl, rfl⟩ := List.cons.inj (fields.2.symm.trans segments)
    exact ((decides.classNamed _).mp rfl).2

end SourceFile

end ApiDocs
