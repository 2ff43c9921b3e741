import ApiDocs.Proofs.ClassIndex
import ApiDocs.Proofs.Declaration.Relabelling

/-!
# References when sources are added

A larger index finds every class that a smaller one finds, or an added class of the same dotted name.  Stage by
stage of the lookup this remains so: an added class can only take the place of what was found before.
-/

namespace ApiDocs

/-- What was found stays, or something added takes its place. -/
def Redirected {α : Type} (added : List α) (before after : Option α) : Prop :=
  after = before ∨ ∃ item ∈ added, after = some item

namespace Redirected

variable {α β : Type} {added : List α}

theorem refl (added : List α) (found : Option α) : Redirected added found found :=
  .inl rfl

/-- What fails at first and then succeeds is redirected if both attempts are. -/
theorem or {before after laterBefore laterAfter : Option α} (first : Redirected added before after)
    (later : Redirected added laterBefore laterAfter) :
    Redirected added (before.or laterBefore) (after.or laterAfter) := by
  obtain rfl | ⟨item, listed, rfl⟩ := first
  · cases after with
    | some found => exact .refl added _
    | none => exact later
  · exact .inr ⟨item, listed, rfl⟩

theorem findSome? {items : List β} {before after : β → Option α}
    (each : ∀ item, Redirected added (before item) (after item)) :
    Redirected added (items.findSome? before) (items.findSome? after) := by
  induction items with
  | nil => exact .refl added none
  | cons first rest ih =>
      have unfolded (search : β → Option α) :
          (first :: rest).findSome? search = (search first).or (rest.findSome? search) := by
        rw [List.findSome?_cons]
        cases search first <;> rfl
      rw [unfolded, unfolded]
      exact (each first).or ih

end Redirected

namespace ClassIndex

/-- Of each dotted name the larger index finds what the smaller one finds, or an added class. -/
def ExtendedBy (index larger : ClassIndex) (added : List ClassName) : Prop :=
  ∀ dotted, Redirected added (index.find? dotted) (larger.find? dotted)

theorem extendedBy_insertAll (index : ClassIndex) (names : List ClassName) :
    index.ExtendedBy (index.insertAll names) names := by
  intro dotted
  rw [find?_insertAll]
  cases last : lastNamed? names dotted with
  | none => exact .inl rfl
  | some name => exact .inr ⟨name, (mem_of_lastNamed? last).1, rfl⟩

namespace ExtendedBy

variable {index larger : ClassIndex} {added : List ClassName}

theorem qualified? (extended : index.ExtendedBy larger added) (dotted : String) :
    Redirected added (index.qualified? dotted) (larger.qualified? dotted) :=
  (extended dotted).or (.refl added _)

theorem member? (extended : index.ExtendedBy larger added) (packageName simpleName : String)
    (enclosing : List String) :
    Redirected added (index.member? packageName simpleName enclosing)
      (larger.member? packageName simpleName enclosing) := by
  induction enclosing with
  | nil => exact .refl added none
  | cons inner outer ih => exact (extended _).or ih

theorem imported? (extended : index.ExtendedBy larger added) (simpleName : String) (imports : List Import) :
    Redirected added (index.imported? simpleName imports) (larger.imported? simpleName imports) := by
  apply Redirected.findSome?
  intro candidate
  split
  · exact extended.qualified? candidate.name
  · exact .refl added none

theorem importedOnDemand? (extended : index.ExtendedBy larger added) (simpleName : String)
    (imports : List Import) :
    Redirected added (index.importedOnDemand? simpleName imports)
      (larger.importedOnDemand? simpleName imports) := by
  apply Redirected.findSome?
  intro candidate
  split
  · exact extended _
  · exact .refl added none

theorem simple? (extended : index.ExtendedBy larger added) (scope : Scope) (simpleName : String) :
    Redirected added (index.simple? scope simpleName) (larger.simple? scope simpleName) := by
  refine (extended.member? ..).or ?_
  refine (extended.imported? ..).or ?_
  refine Redirected.or (extended _) ?_
  exact (extended.importedOnDemand? ..).or (extended _)

/-- Behind a redirected first segment the other segments follow as before. -/
theorem class? (extended : index.ExtendedBy larger added) (scope : Scope) (written first : String)
    (rest : List String) :
    larger.class? scope written first rest = index.class? scope written first rest ∨
      ∃ name ∈ added, larger.class? scope written first rest = some name ∨
        larger.class? scope written first rest = some (name.inside rest) := by
  obtain same | ⟨name, listed, found⟩ := extended.simple? scope first
  · rw [ClassIndex.class?, ClassIndex.class?, same]
    cases index.simple? scope first with
    | some found => exact .inl rfl
    | none =>
        by_cases alone : rest = []
        · simp only [if_pos alone, true_or]
        · simp only [if_neg alone]
          obtain same | ⟨name, listed, found⟩ := extended.qualified? written
          · exact .inl same
          · exact .inr ⟨name, listed, .inl found⟩
  · rw [ClassIndex.class?, found]
    exact .inr ⟨name, listed, .inr rfl⟩

end ExtendedBy

end ClassIndex

/-- What a written name means after sources were added, beside what it has meant before. -/
structure Redirects (added : List SourceFile) (written : String) (before after : Resolution) : Prop where
  typeParameter : before = .typeParameter → after = .typeParameter
  classNamed : ∀ name, before = .classNamed name → ∃ other, after = .classNamed other
  /-- A new meaning is a class that was added, or what the other segments of the name say inside such a class. -/
  redirected : after ≠ before → ∃ file ∈ added, ∃ name found, file.Declares name found ∧
    (after = .classNamed name ∨ after = .classNamed (name.inside (Text.fields '.' written).tail))

namespace Redirects

variable {added : List SourceFile} {written : String}

theorem refl (added : List SourceFile) (written : String) (meaning : Resolution) :
    Redirects added written meaning meaning where
  typeParameter same := same
  classNamed name same := ⟨name, same⟩
  redirected differ := absurd rfl differ

/-- A class of an added file takes the place of what was no type parameter. -/
theorem of_added {before : Resolution} {name target : ClassName} (noParameter : before ≠ .typeParameter)
    (listed : name ∈ added.flatMap SourceFile.declaredNames)
    (leads : target = name ∨ target = name.inside (Text.fields '.' written).tail) :
    Redirects added written before (.classNamed target) where
  typeParameter parameter := absurd parameter noParameter
  classNamed _ _ := ⟨target, rfl⟩
  redirected _ := by
    obtain ⟨file, inAdded, declared⟩ := List.mem_flatMap.mp listed
    obtain ⟨found, declares⟩ := SourceFile.mem_declaredNames_iff.mp declared
    exact ⟨file, inAdded, name, found, declares, leads.imp (congrArg _) (congrArg _)⟩

end Redirects

namespace ClassIndex

variable {scope : Scope} {written first : String} {rest : List String}

theorem meaning_of_parameter (index : ClassIndex) (segments : Text.fields '.' written = first :: rest)
    (parameter : rest = [] ∧ first ∈ scope.typeParameters) : index.meaning scope written = .typeParameter := by
  rw [meaning, segments]
  exact if_pos parameter

/-- A name that is no type parameter means a class or nothing. -/
theorem meaning_of_class (index : ClassIndex) (segments : Text.fields '.' written = first :: rest)
    (noParameter : ¬ (rest = [] ∧ first ∈ scope.typeParameters)) :
    index.meaning scope written =
      (index.class? scope written first rest).elim .unresolved Resolution.classNamed := by
  rw [meaning, segments]
  simp only [if_neg noParameter]
  cases index.class? scope written first rest <;> rfl

theorem meaning_ne_typeParameter (index : ClassIndex) (segments : Text.fields '.' written = first :: rest)
    (noParameter : ¬ (rest = [] ∧ first ∈ scope.typeParameters)) :
    index.meaning scope written ≠ .typeParameter := by
  rw [meaning_of_class index segments noParameter]
  cases index.class? scope written first rest with
  | none =>
      intro same
      cases same
  | some found =>
      intro same
      cases same

/-- In every scope a larger index redirects names to the added classes and does nothing else. -/
theorem ExtendedBy.redirects_meaning {index larger : ClassIndex} {added : List SourceFile}
    (extended : index.ExtendedBy larger (added.flatMap SourceFile.declaredNames)) (scope : Scope)
    (written : String) : Redirects added written (index.meaning scope written) (larger.meaning scope written) := by
  cases segments : Text.fields '.' written with
  | nil =>
      rw [meaning, meaning, segments]
      exact .refl added written _
  | cons first rest =>
      by_cases parameter : rest = [] ∧ first ∈ scope.typeParameters
      · rw [meaning_of_parameter index segments parameter, meaning_of_parameter larger segments parameter]
        exact .refl added written _
      · have noParameter := meaning_ne_typeParameter index segments parameter
        have tail : rest = (Text.fields '.' written).tail := by
          rw [segments, List.tail_cons]
        rw [meaning_of_class larger segments parameter]
        obtain same | ⟨name, listed, found | found⟩ := extended.class? scope written first rest
        · rw [same, ← meaning_of_class index segments parameter]
          exact .refl added written _
        · rw [found]
          exact .of_added noParameter listed (.inl rfl)
        · rw [found]
          exact .of_added noParameter listed (.inr (congrArg _ tail))

end ClassIndex

/--
When files are added to an index, a reference that is a type parameter remains one, and one that means a class
still means a class.  A reference that changes its meaning comes to mean a class of an added file, or a class
inside such a class by the segments of its name that are left.
-/
theorem SourceFile.resolve_redirects (index : ClassIndex) (added : List SourceFile) (file : SourceFile) :
    (file.resolve index).Relabels (Redirects added) (file.resolve (added.foldl ClassIndex.addFile index)) := by
  have extended := index.extendedBy_insertAll (added.flatMap SourceFile.declaredNames)
  rw [← ClassIndex.foldl_addFile] at extended
  rw [← resolve_resolve index (added.foldl ClassIndex.addFile index) file]
  apply relabels_resolve
  intro scope type mentions written className arguments resolution found
  have was := everyReference_resolve index file scope type mentions _ _ _ _ found
  simp only [was]
  exact extended.redirects_meaning scope written

end ApiDocs
