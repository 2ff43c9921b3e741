import ApiDocs.Proofs.Fields
import ApiDocs.Proofs.Lookup

/-!
# A class sees the classes around it

Inside a class its own simple name and those of the classes around it mean these classes.  The search for members
starts at the innermost class; it passes by every class inside the one that is looked for, and stops at the class
right around it.
-/

namespace ApiDocs

namespace ClassName

/-- The segments of the name of a package; the nameless package has none. -/
def packageSegments (packageName : String) : List String :=
  if packageName = "" then [] else Text.fields '.' packageName

theorem packageSegments_injective : Function.Injective packageSegments := by
  intro first second same
  rw [packageSegments, packageSegments] at same
  split at same
  next isFirst =>
    split at same
    next isSecond => rw [isFirst, isSecond]
    next => exact absurd same.symm (Text.fields_ne_nil '.' second)
  next =>
    split at same
    next => exact absurd same (Text.fields_ne_nil '.' first)
    next => exact Text.fields_injective '.' same

/-- A dotted name has the segments of the package and then those of the classes, if these hold no dot. -/
theorem fields_dotted {name : ClassName} (nested : name.classNames ≠ [])
    (noDot : ∀ segment ∈ name.classNames, '.' ∉ segment.toList) :
    Text.fields '.' name.dotted = packageSegments name.packageName ++ name.classNames := by
  have inner : Text.fields '.' name.nesting = name.classNames := Text.fields_intercalate noDot nested
  rw [dotted, packageSegments]
  split
  · exact inner
  · exact (Text.fields_append '.' _ _).trans (congrArg _ inner)

/-- The segments of a dotted name are those of a package only if the dotted name is the name of the package. -/
theorem dotted_eq_of_segments {name : ClassName} (nested : name.classNames ≠ [])
    (noDot : ∀ segment ∈ name.classNames, '.' ∉ segment.toList) {packageName : String}
    (same : packageSegments packageName = packageSegments name.packageName ++ name.classNames) :
    packageName = name.dotted := by
  rw [← fields_dotted nested noDot, packageSegments] at same
  split at same
  · exact absurd same.symm (Text.fields_ne_nil '.' _)
  · exact Text.fields_injective '.' same

end ClassName

/-- Classes that can be told apart by their dotted names, with the classes around them. -/
structure Separated (names : List ClassName) : Prop where
  nested : ∀ name ∈ names, name.classNames ≠ []
  noDot : ∀ name ∈ names, ∀ segment ∈ name.classNames, '.' ∉ segment.toList
  /-- No class has the simple name of a class around it. -/
  distinct : ∀ name ∈ names, name.classNames.Nodup
  around : ∀ packageName front rest, ⟨packageName, front ++ rest⟩ ∈ names → front ≠ [] → ⟨packageName, front⟩ ∈ names
  /-- No package has the name of a class. -/
  package : ∀ name ∈ names, ∀ other ∈ names, other.packageName ≠ name.dotted

namespace Separated

variable {names : List ClassName}

/-- No package continues another one with the names of classes in this one. -/
theorem packageSegments_ne (separated : Separated names) {packageName : String} {front rest : List String}
    (holder : ⟨packageName, front ++ rest⟩ ∈ names) (nonempty : front ≠ []) {other : ClassName} (listed : other ∈ names) :
    ClassName.packageSegments other.packageName ≠ ClassName.packageSegments packageName ++ front := by
  intro same
  have around := separated.around packageName front rest holder nonempty
  exact separated.package _ around other listed
    (ClassName.dotted_eq_of_segments nonempty (separated.noDot _ around) same)

/-- A dotted name says which class is meant, also if it is looked up inside a class that does not hold it. -/
theorem eq_of_dotted_eq (separated : Separated names) {name : ClassName} {packageName last : String}
    {front rest : List String} (listed : name ∈ names) (holder : ⟨packageName, front ++ rest⟩ ∈ names)
    (noDot : '.' ∉ last.toList) (same : name.dotted = (⟨packageName, front ++ [last]⟩ : ClassName).dotted) :
    name = ⟨packageName, front ++ [last]⟩ := by
  have noDotInside : ∀ segment ∈ front ++ [last], '.' ∉ segment.toList := by
    intro segment among
    obtain inFront | isLast := List.mem_append.mp among
    · exact separated.noDot _ holder segment (List.mem_append_left _ inFront)
    · rw [List.mem_singleton.mp isLast]
      exact noDot
  have nested := separated.nested name listed
  have segments := congrArg (Text.fields '.') same
  rw [ClassName.fields_dotted nested (separated.noDot name listed),
    ClassName.fields_dotted (List.concat_ne_nil last front) noDotInside] at segments
  obtain ⟨ownPackage, ownNames⟩ := name
  obtain ⟨more, package, classes⟩ | ⟨more, package, classes⟩ := List.append_eq_append_iff.mp segments
  · obtain rfl | nonempty := eq_or_ne more []
    · rw [List.append_nil] at package
      obtain rfl : packageName = ownPackage := ClassName.packageSegments_injective package
      obtain rfl : ownNames = front ++ [last] := classes
      rfl
    · obtain rfl : ownNames = more ++ (front ++ [last]) := classes
      exact (separated.packageSegments_ne listed nonempty holder package).elim
  · obtain rfl | nonempty := eq_or_ne more []
    · rw [List.append_nil] at package
      obtain rfl : ownPackage = packageName := ClassName.packageSegments_injective package
      obtain rfl : front ++ [last] = ownNames := classes
      rfl
    · obtain all | ⟨others, rfl⟩ := List.prefix_concat_iff.mp ⟨ownNames, classes.symm⟩
      · have none : ownNames = [] := List.append_right_eq_self.mp (all ▸ classes.symm)
        exact absurd none nested
      · rw [List.append_assoc] at holder
        exact (separated.packageSegments_ne holder nonempty listed package).elim

end Separated

namespace ClassIndex

variable {index : ClassIndex} {names : List ClassName} {packageName written : String}

/-- An index finds the last of some classes with a dotted name, and nothing else. -/
def Finds (index : ClassIndex) (names : List ClassName) : Prop :=
  ∀ dotted, index.find? dotted = lastNamed? names dotted

/-- Inside a class that is known exactly its known members are found. -/
theorem Finds.lookup?_eq_some_iff (finds : index.Finds names) (separated : Separated names) {front rest : List String}
    {last : String} (holder : ⟨packageName, front ++ rest⟩ ∈ names) (noDot : '.' ∉ last.toList) {found : ClassName} :
    index.lookup? ⟨packageName, front ++ [last]⟩ = some found ↔
      found = ⟨packageName, front ++ [last]⟩ ∧ found ∈ names := by
  rw [lookup?, finds]
  constructor
  · intro last
    obtain ⟨listed, same⟩ := mem_of_lastNamed? last
    exact ⟨separated.eq_of_dotted_eq listed holder noDot same, listed⟩
  · rintro ⟨rfl, listed⟩
    obtain ⟨other, last⟩ := Option.isSome_iff_exists.mp (isSome_lastNamed?_iff.mpr ⟨_, listed, rfl⟩)
    obtain ⟨otherListed, same⟩ := mem_of_lastNamed? last
    rw [last, separated.eq_of_dotted_eq otherListed holder noDot same]

/-- A class inside the one that is looked for has no member of its name. -/
theorem Finds.lookup?_of_mem (finds : index.Finds names) (separated : Separated names) {front rest : List String}
    (holder : ⟨packageName, front ++ rest⟩ ∈ names) (inside : written ∈ front) :
    index.lookup? ⟨packageName, front ++ [written]⟩ = none := by
  rw [Option.eq_none_iff_forall_ne_some]
  intro found hit
  have noDot := separated.noDot _ holder written (List.mem_append_left _ inside)
  obtain ⟨rfl, listed⟩ := (finds.lookup?_eq_some_iff separated holder noDot).mp hit
  have distinct := separated.distinct _ listed
  exact List.disjoint_of_nodup_append distinct inside (List.mem_singleton_self _)

/-- The search for members passes by the classes inside the one that is looked for. -/
theorem Finds.member?_skip (finds : index.Finds names) (separated : Separated names) {inwards outer rest : List String}
    (holder : ⟨packageName, (inwards ++ written :: outer).reverse ++ rest⟩ ∈ names) :
    index.member? packageName written (inwards ++ written :: outer) = index.member? packageName written outer := by
  induction inwards generalizing rest with
  | nil =>
      rw [List.nil_append] at holder ⊢
      rw [member?, finds.lookup?_of_mem separated holder (by simp), Option.none_or]
  | cons inner inwards ih =>
      rw [List.cons_append] at holder ⊢
      rw [member?, finds.lookup?_of_mem separated holder (by simp), Option.none_or]
      rw [List.reverse_cons, List.append_assoc] at holder
      exact ih holder

/-- The class right around the one that is looked for has it as a member. -/
theorem Finds.member?_around (finds : index.Finds names) (separated : Separated names) {outer : List String}
    (listed : ⟨packageName, outer ++ [written]⟩ ∈ names) (nonempty : outer ≠ []) :
    index.member? packageName written outer.reverse = some ⟨packageName, outer ++ [written]⟩ := by
  have noDot := separated.noDot _ listed written (by simp)
  have found : index.lookup? ⟨packageName, outer ++ [written]⟩ = some ⟨packageName, outer ++ [written]⟩ :=
    (finds.lookup?_eq_some_iff separated listed noDot).mpr ⟨rfl, listed⟩
  cases reversed : outer.reverse with
  | nil => exact absurd (List.reverse_eq_nil_iff.mp reversed) nonempty
  | cons last others => rw [member?, ← reversed, List.reverse_reverse, found, Option.some_or]

theorem imported?_eq_none {imports : List Import}
    (unnamed : ∀ candidate ∈ imports, candidate.onDemand = false → JavaType.lastSegment candidate.name ≠ written) :
    index.imported? written imports = none := by
  rw [imported?, List.findSome?_eq_none_iff]
  intro candidate listed
  refine if_neg fun asked => ?_
  obtain ⟨single, same⟩ := Bool.and_eq_true_iff.mp asked
  exact unnamed candidate listed (by simpa using single) (by simpa using same)

/-- Nothing but the classes around a place bears the name of one of them. -/
structure Unshadowed (scope : Scope) (written : String) : Prop where
  typeParameters : written ∉ scope.typeParameters
  imports : ∀ candidate ∈ scope.imports, candidate.onDemand = false → JavaType.lastSegment candidate.name ≠ written

/-- The name of an enclosing class means this class. -/
theorem Finds.meaning_enclosing (finds : index.Finds names) (separated : Separated names) {scope : Scope}
    (holder : ⟨scope.packageName, scope.enclosing.reverse⟩ ∈ names) {outer inner : List String}
    (split : scope.enclosing.reverse = outer ++ written :: inner) (unshadowed : Unshadowed scope written) :
    index.meaning scope written = .classNamed ⟨scope.packageName, outer ++ [written]⟩ := by
  have noDot : '.' ∉ written.toList := separated.noDot _ holder written (by simp [split])
  have listed : ⟨scope.packageName, outer ++ [written]⟩ ∈ names := by
    rw [split, List.append_cons] at holder
    exact separated.around _ _ inner holder (List.concat_ne_nil written outer)
  have enclosing : scope.enclosing = inner.reverse ++ written :: outer.reverse := by
    rw [← List.reverse_reverse scope.enclosing, split]
    simp
  have skipped : index.member? scope.packageName written scope.enclosing =
      index.member? scope.packageName written outer.reverse := by
    rw [enclosing] at holder ⊢
    have held : ⟨scope.packageName, (inner.reverse ++ written :: outer.reverse).reverse ++ []⟩ ∈ names := by
      rwa [List.append_nil]
    exact finds.member?_skip separated held
  have simple : index.simple? scope written = some ⟨scope.packageName, outer ++ [written]⟩ := by
    rw [simple?, skipped]
    obtain rfl | nonempty := eq_or_ne outer []
    · have found : index.lookup? ⟨scope.packageName, [written]⟩ = some ⟨scope.packageName, [written]⟩ :=
        (@lookup?_eq_some_iff _ _ _ finds separated [] [written] _ listed noDot _).mpr ⟨rfl, listed⟩
      rw [List.reverse_nil, member?, imported?_eq_none unshadowed.imports, found]
      rfl
    · rw [finds.member?_around separated listed nonempty, Option.some_or]
  rw [meaning_of_class index (Text.fields_of_notMem noDot) (fun parameter => unshadowed.typeParameters parameter.2),
    class?, simple]
  simp [ClassName.inside]

end ClassIndex

/-! ### Classes of files -/

namespace ClassDeclaration

/-- On the way to a class stand the classes around it. -/
theorem Nests.exists_around {outer found : ClassDeclaration} {front rest : List String}
    (nests : outer.Nests (front ++ rest) found) (nonempty : front ≠ []) : ∃ around, outer.Nests front around := by
  generalize whole : front ++ rest = names at nests
  induction nests generalizing front with
  | self declared =>
      cases front with
      | nil => exact absurd rfl nonempty
      | cons first others =>
          obtain ⟨rfl, behind⟩ := List.cons.inj whole
          obtain rfl := (List.append_eq_nil_iff.mp behind).1
          exact ⟨declared, .self declared⟩
  | @inside outer inner found names held later ih =>
      cases front with
      | nil => exact absurd rfl nonempty
      | cons first others =>
          obtain ⟨rfl, behind⟩ := List.cons.inj whole
          obtain rfl | more := eq_or_ne others []
          · exact ⟨outer, .self outer⟩
          · obtain ⟨around, nests⟩ := ih more behind
            exact ⟨around, .inside held nests⟩

theorem Encloses.nests {outer found : ClassDeclaration} {chain : List ClassDeclaration}
    (encloses : outer.Encloses chain found) : outer.Nests (chain.map name) found := by
  induction encloses with
  | self declared => exact .self declared
  | inside held _ ih => exact .inside held ih

end ClassDeclaration

namespace SourceFile

/-- The classes around a type are declared in the file. -/
theorem Mentions.enclosing_mem {file : SourceFile} {scope : Scope} {type : JavaType}
    (mentions : file.Mentions scope type) :
    ⟨file.packageName, scope.enclosing.reverse⟩ ∈ file.declaredNames := by
  obtain ⟨outer, held, chain, found, encloses, mentioned⟩ := mentions
  have enclosing : scope.enclosing = (chain.map ClassDeclaration.name).reverse := by
    cases mentioned <;> simp [SourceFile.scope, Scope.within, Scope.withTypeParameters]
  rw [enclosing, List.reverse_reverse]
  exact mem_declaredNames_iff.mpr ⟨found, rfl, outer, held, encloses.nests⟩

end SourceFile

/-- Files in which a class can be told from the classes around it and from packages, and in which no type parameter
and no import of a single type takes the name of an enclosing class where this is used. -/
structure PlainlyNamed (files : List SourceFile) : Prop where
  noDot : ∀ file ∈ files, ∀ name ∈ file.declaredNames, ∀ segment ∈ name.classNames, '.' ∉ segment.toList
  distinct : ∀ file ∈ files, ∀ name ∈ file.declaredNames, name.classNames.Nodup
  package : ∀ name ∈ ClassIndex.knownClasses files, ∀ other ∈ ClassIndex.knownClasses files,
    other.packageName ≠ name.dotted
  unshadowed : ∀ file ∈ files, file.EveryReference fun scope written _ =>
    written ∈ scope.enclosing → ClassIndex.Unshadowed scope written

namespace PlainlyNamed

variable {files : List SourceFile}

theorem separated_wellKnown :
    (∀ name ∈ ClassName.wellKnown, name.classNames ≠ [] ∧ name.classNames.Nodup ∧
      ∀ segment ∈ name.classNames, '.' ∉ segment.toList) ∧
    ∀ name ∈ ClassName.wellKnown, ∀ front ∈ name.classNames.inits, front ≠ [] →
      ⟨name.packageName, front⟩ ∈ ClassName.wellKnown := by
  decide +kernel

theorem known_cases {name : ClassName} (listed : name ∈ ClassIndex.knownClasses files) :
    name ∈ ClassName.wellKnown ∨ ∃ file ∈ files, name ∈ file.declaredNames :=
  (List.mem_append.mp listed).imp_right List.mem_flatMap.mp

/-- The well-known classes and those of the files can be told apart. -/
theorem separated (named : PlainlyNamed files) : Separated (ClassIndex.knownClasses files) where
  nested name listed := by
    obtain wellKnown | ⟨file, inFiles, declared⟩ := known_cases listed
    · exact (separated_wellKnown.1 name wellKnown).1
    · obtain ⟨_, _, _, _, nests⟩ := SourceFile.mem_declaredNames_iff.mp declared
      exact nests.names_ne_nil
  noDot name listed := by
    obtain wellKnown | ⟨file, inFiles, declared⟩ := known_cases listed
    · exact (separated_wellKnown.1 name wellKnown).2.2
    · exact named.noDot file inFiles name declared
  distinct name listed := by
    obtain wellKnown | ⟨file, inFiles, declared⟩ := known_cases listed
    · exact (separated_wellKnown.1 name wellKnown).2.1
    · exact named.distinct file inFiles name declared
  around packageName front rest listed nonempty := by
    obtain wellKnown | ⟨file, inFiles, declared⟩ := known_cases listed
    · exact List.mem_append_left _
        (separated_wellKnown.2 _ wellKnown front ((List.mem_inits _ _).mpr (List.prefix_append _ _)) nonempty)
    · obtain ⟨found, samePackage, outer, held, nests⟩ := SourceFile.mem_declaredNames_iff.mp declared
      obtain ⟨around, nests⟩ := nests.exists_around nonempty
      refine List.mem_append_right _ (List.mem_flatMap.mpr ⟨file, inFiles, ?_⟩)
      exact SourceFile.mem_declaredNames_iff.mpr ⟨around, samePackage, outer, held, nests⟩
  package := named.package

/-- In every place of a file the name of an enclosing class means this class. -/
theorem meaning_enclosing (named : PlainlyNamed files) {file : SourceFile} (listed : file ∈ files) {scope : Scope}
    (samePackage : scope.packageName = file.packageName)
    (holder : ⟨file.packageName, scope.enclosing.reverse⟩ ∈ file.declaredNames) {written : String}
    {outer inner : List String} (split : scope.enclosing.reverse = outer ++ written :: inner)
    (unshadowed : ClassIndex.Unshadowed scope written) :
    (files.foldl ClassIndex.addFile .wellKnown).meaning scope written =
      .classNamed ⟨file.packageName, outer ++ [written]⟩ := by
  rw [← samePackage] at holder ⊢
  have known : ⟨scope.packageName, scope.enclosing.reverse⟩ ∈ ClassIndex.knownClasses files :=
    List.mem_append_right _ (List.mem_flatMap.mpr ⟨file, listed, holder⟩)
  have finds : ClassIndex.Finds _ (ClassIndex.knownClasses files) := ClassIndex.find?_addFiles files
  exact finds.meaning_enclosing named.separated known split unshadowed

/-- Every reference in a resolved file by the name of an enclosing class means this class. -/
theorem resolve_enclosing (named : PlainlyNamed files) {file : SourceFile} (listed : file ∈ files) :
    (file.resolve (files.foldl ClassIndex.addFile .wellKnown)).EveryReference fun scope written resolution =>
      ∀ outer inner, scope.enclosing.reverse = outer ++ written :: inner →
        resolution = .classNamed ⟨file.packageName, outer ++ [written]⟩ := by
  intro scope type mentions written className arguments resolution found outer inner split
  have meant := SourceFile.everyReference_resolve _ file scope type mentions _ _ _ _ found
  have unshadowed := (named.unshadowed file listed).resolve _ scope type mentions _ _ _ _ found
  have holder := mentions.enclosing_mem
  rw [SourceFile.declaredNames_resolve] at holder
  have enclosed : written ∈ scope.enclosing := by
    rw [← List.mem_reverse, split]
    simp
  rw [meant]
  exact named.meaning_enclosing listed mentions.sameFile.1 holder split (unshadowed enclosed)

end PlainlyNamed

end ApiDocs
