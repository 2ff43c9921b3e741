import ApiDocs.Proofs.Fields
import ApiDocs.Proofs.Lookup

/-!
# Resolved names end as they were written

Every class that a written name is resolved to has a dotted name that ends in the written one.  The index holds
each class under its own dotted name, the convention cuts a name and joins it again, and a class that is found for
the first segment is followed by the others.
-/

namespace ApiDocs

/-- A dotted name is another one, with or without segments before it. -/
def EndsInName (dotted name : String) : Prop :=
  dotted = name ∨ ∃ front, dotted = front ++ "." ++ name

/-- No segment of a dotted name is empty. -/
def ProperName (dotted : String) : Prop :=
  ∀ segment ∈ Text.fields '.' dotted, segment ≠ ""

namespace EndsInName

theorem refl (name : String) : EndsInName name name :=
  .inl rfl

theorem behind (front name : String) : EndsInName (front ++ "." ++ name) name :=
  .inr ⟨front, rfl⟩

/-- What follows one name may follow the other. -/
theorem append {dotted name : String} (ends : EndsInName dotted name) (rest : String) :
    EndsInName (dotted ++ rest) (name ++ rest) := by
  obtain rfl | ⟨front, rfl⟩ := ends
  · exact refl _
  · rw [String.append_assoc]
    exact behind front _

/-- The last segment of a joined name ends it. -/
theorem intercalate_append_singleton (segments : List String) (last : String) :
    EndsInName (String.intercalate "." (segments ++ [last])) last := by
  cases segments with
  | nil =>
      rw [List.nil_append, String.intercalate_singleton]
      exact refl last
  | cons first rest =>
      rw [String.intercalate_append_of_ne_nil (List.cons_ne_nil _ _) (List.cons_ne_nil _ _),
        String.intercalate_singleton]
      exact behind _ last

theorem lastSegment (dotted : String) : EndsInName dotted (JavaType.lastSegment dotted) := by
  obtain ⟨front, last, cut, ends⟩ := Text.exists_last_field '.' dotted
  rwa [JavaType.lastSegment, cut, List.getLastD_concat]

end EndsInName

namespace ClassName

/-- A class has a dotted name, and its own name is part of it. -/
structure Bears (name : ClassName) (dotted : String) : Prop where
  dotted : name.dotted = dotted
  nested : name.classNames ≠ []

theorem endsInName_dotted (packageName : String) (outer : List String) (simpleName : String) :
    EndsInName (dotted ⟨packageName, outer ++ [simpleName]⟩) simpleName := by
  have ends := EndsInName.intercalate_append_singleton outer simpleName
  rw [dotted]
  split
  · exact ends
  · rw [nesting]
    obtain same | ⟨front, same⟩ := ends
    · rw [same]
      exact .behind _ _
    · rw [same, ← String.append_assoc, ← String.append_assoc]
      exact .behind _ _

/-- Segments that are left stand behind the dotted name of a class. -/
theorem dotted_inside {name : ClassName} (nested : name.classNames ≠ []) {rest : List String} (more : rest ≠ []) :
    (name.inside rest).dotted = name.dotted ++ ("." ++ String.intercalate "." rest) := by
  have joined : (name.inside rest).nesting = name.nesting ++ ("." ++ String.intercalate "." rest) := by
    rw [nesting, inside, String.intercalate_append_of_ne_nil nested more, String.append_assoc]
    rfl
  have samePackage : (name.inside rest).packageName = name.packageName := rfl
  rw [dotted, dotted, joined, samePackage]
  split
  · rfl
  · rw [← String.append_assoc]

theorem endsInName_inside {name : ClassName} {written first : String} {rest : List String}
    (segments : Text.fields '.' written = first :: rest) (nested : name.classNames ≠ [])
    (ends : EndsInName name.dotted first) : EndsInName (name.inside rest).dotted written := by
  have joined : String.intercalate "." (first :: rest) = written := by
    rw [← segments]
    exact Text.intercalate_fields '.' written
  cases rest with
  | nil =>
      rw [String.intercalate_singleton] at joined
      rw [ClassName.inside, List.append_nil, ← joined]
      exact ends
  | cons second others =>
      rw [dotted_inside nested (List.cons_ne_nil _ _), ← joined,
        String.intercalate_cons_of_ne_nil (List.cons_ne_nil _ _), String.append_assoc]
      exact ends.append _

/-- Cut by convention and joined again, a proper name is the same. -/
theorem SplitsFrom.bears {name : ClassName} {dotted : String} (splits : name.SplitsFrom dotted)
    (proper : ProperName dotted) : name.Bears dotted := by
  obtain ⟨packageSegments, outermost, inner, split, somePackage, _, _, rfl⟩ := splits
  refine ⟨?_, List.cons_ne_nil _ _⟩
  -- Without the proper segments the package could be the nameless one, and its dots would be lost.
  have named : String.intercalate "." packageSegments ≠ "" := by
    cases packageSegments with
    | nil => exact absurd rfl somePackage
    | cons first others =>
        have some : first ≠ "" := proper first (split ▸ List.mem_cons_self)
        intro none
        have joined := @String.intercalate_cons_append "." first "" others
        rw [String.append_empty, none] at joined
        exact some (String.append_eq_empty_iff.mp joined.symm).1
  rw [ClassName.dotted, if_neg named, nesting,
    ← String.intercalate_append_of_ne_nil somePackage (List.cons_ne_nil _ _), ← split]
  exact Text.intercalate_fields '.' dotted

end ClassName

namespace ClassIndex

/-- Every class is held under its own dotted name. -/
def Faithful (index : ClassIndex) : Prop :=
  ∀ dotted name, index.find? dotted = some name → name.Bears dotted

namespace Faithful

variable {index : ClassIndex}

theorem insert (faithful : index.Faithful) {name : ClassName} (nested : name.classNames ≠ []) :
    (index.insert name).Faithful := by
  intro dotted found held
  rw [find?_insert] at held
  split at held
  · next same =>
      obtain rfl := Option.some.inj held
      exact ⟨same, nested⟩
  · exact faithful dotted found held

theorem insertAll (faithful : index.Faithful) {names : List ClassName}
    (nested : ∀ name ∈ names, name.classNames ≠ []) : (index.insertAll names).Faithful :=
  List.foldlRecOn names ClassIndex.insert faithful fun _ soFar name listed => soFar.insert (nested name listed)

theorem wellKnown : ClassIndex.wellKnown.Faithful := by
  have empty : Faithful ⟨.empty⟩ := by
    intro dotted name held
    rw [find?, SortedMap.get?_empty] at held
    cases held
  exact empty.insertAll (by decide)

theorem addFile (faithful : index.Faithful) (file : SourceFile) : (index.addFile file).Faithful := by
  apply faithful.insertAll
  intro name declared
  obtain ⟨found, _, outer, _, nests⟩ := SourceFile.mem_declaredNames_iff.mp declared
  exact nests.names_ne_nil

/-- However files are added, the index stays faithful. -/
theorem addFiles (files : List SourceFile) : (files.foldl ClassIndex.addFile ClassIndex.wellKnown).Faithful :=
  List.foldlRecOn files ClassIndex.addFile wellKnown fun _ soFar file _ => soFar.addFile file

theorem bears_of_qualifies (faithful : index.Faithful) {dotted : String} (proper : ProperName dotted)
    {name : ClassName} (qualifies : index.Qualifies dotted name) : name.Bears dotted := by
  obtain held | ⟨_, splits⟩ := qualifies
  · exact faithful dotted name held
  · exact splits.bears proper

theorem endsInName_of_find? (faithful : index.Faithful) {dotted simpleName : String} {found : ClassName}
    (held : index.find? dotted = some found) (ends : EndsInName dotted simpleName) :
    found.classNames ≠ [] ∧ EndsInName found.dotted simpleName := by
  obtain ⟨same, nested⟩ := faithful dotted found held
  exact ⟨nested, same ▸ ends⟩

/-- At every stage a simple name leads to a class whose dotted name ends in it. -/
theorem endsInName_of_simpleStages (faithful : index.Faithful) {file : SourceFile}
    (imports : ∀ candidate ∈ file.imports, ProperName candidate.name) {enclosing : List String}
    {simpleName : String} {stage : ClassName → Prop} (listed : stage ∈ index.simpleStages file enclosing simpleName)
    {found : ClassName} (hit : stage found) : found.classNames ≠ [] ∧ EndsInName found.dotted simpleName := by
  rw [simpleStages] at listed
  simp only [List.mem_append, List.mem_map, List.mem_filter, List.mem_singleton] at listed
  obtain (((⟨chain, _, rfl⟩ | ⟨candidate, ⟨imported, asked⟩, rfl⟩) | rfl) | ⟨candidate, _, rfl⟩) | rfl := listed
  · exact faithful.endsInName_of_find? hit (ClassName.endsInName_dotted _ chain simpleName)
  · obtain ⟨same, nested⟩ := faithful.bears_of_qualifies (imports candidate imported) hit
    have last : JavaType.lastSegment candidate.name = simpleName := by
      simpa using (Bool.and_eq_true_iff.mp asked).2
    exact ⟨nested, same ▸ last ▸ EndsInName.lastSegment candidate.name⟩
  · exact faithful.endsInName_of_find? hit (ClassName.endsInName_dotted _ [] simpleName)
  · exact faithful.endsInName_of_find? hit (.behind _ simpleName)
  · exact faithful.endsInName_of_find? hit (ClassName.endsInName_dotted _ [] simpleName)

theorem endsInName_of_stages (faithful : index.Faithful) {file : SourceFile}
    (imports : ∀ candidate ∈ file.imports, ProperName candidate.name) {enclosing rest : List String}
    {written first : String} (segments : Text.fields '.' written = first :: rest) (proper : ProperName written)
    {stage : ClassName → Prop} (listed : stage ∈ index.stages file enclosing written first rest)
    {target : ClassName} (hit : stage target) : EndsInName target.dotted written := by
  obtain simple | whole := List.mem_append.mp listed
  · obtain ⟨simpleStage, among, rfl⟩ := List.mem_map.mp simple
    obtain ⟨found, here, rfl⟩ := hit
    obtain ⟨nested, ends⟩ := faithful.endsInName_of_simpleStages imports among here
    exact ClassName.endsInName_inside segments nested ends
  · split at whole
    · cases whole
    · obtain rfl := List.mem_singleton.mp whole
      rw [(faithful.bears_of_qualifies proper hit).dotted]
      exact .refl written

end Faithful

end ClassIndex

/-- A written name is the end of the qualified name of the class that it means, and of the text before the type
arguments of a reference to it. -/
structure KeepsName (written : String) (resolution : Resolution) : Prop where
  qualified : ∀ qualified, resolution.qualifiedName? = some qualified → EndsInName qualified written
  canonical : ∀ className arguments, ∃ base, EndsInName base written ∧
    (JavaType.reference written className arguments resolution).canonicalText =
      base ++ if arguments = [] then ""
        else "<" ++ String.intercalate "," (arguments.map JavaType.canonicalText) ++ ">"

theorem keepsName_of_qualified {written : String} {resolution : Resolution}
    (ends : ∀ qualified, resolution.qualifiedName? = some qualified → EndsInName qualified written) :
    KeepsName written resolution where
  qualified := ends
  canonical className arguments := by
    refine ⟨JavaType.referenceName written resolution, ?_, ?_⟩
    · rw [JavaType.referenceName]
      cases found : resolution.qualifiedName? with
      | none => exact .refl written
      | some qualified => exact ends qualified found
    · exact JavaType.canonicalText_reference written className arguments resolution

/-- In every scope of a file a name keeps its end. -/
theorem ClassIndex.Faithful.keepsName_meaning {index : ClassIndex} (faithful : index.Faithful) {file : SourceFile}
    (imports : ∀ candidate ∈ file.imports, ProperName candidate.name) {scope : Scope}
    (samePackage : scope.packageName = file.packageName) (sameImports : scope.imports = file.imports)
    {written : String} (proper : ProperName written) : KeepsName written (index.meaning scope written) := by
  apply keepsName_of_qualified
  intro qualified named
  cases segments : Text.fields '.' written with
  | nil =>
      rw [meaning, segments] at named
      cases named
  | cons first rest =>
      by_cases parameter : rest = [] ∧ first ∈ scope.typeParameters
      · rw [meaning_of_parameter index segments parameter] at named
        cases named
      · rw [meaning_of_class index segments parameter] at named
        cases found : index.class? scope written first rest with
        | none =>
            rw [found] at named
            cases named
        | some target =>
            rw [found] at named
            obtain rfl := Option.some.inj named
            have searched := index.searches_class? file samePackage sameImports written first rest
            obtain ⟨stage, listed, hit⟩ := ((searched target).mp found).exists_mem
            exact faithful.endsInName_of_stages imports segments proper listed hit

namespace SourceFile

/--
Resolving renames nothing.  Against an index of the well-known classes and of any files, every class reference in a
file keeps its written name: it is the end of the qualified name of the class, from the beginning of a segment on.
-/
theorem resolve_keepsNames (files : List SourceFile) (file : SourceFile)
    (imports : ∀ candidate ∈ file.imports, ProperName candidate.name)
    (proper : file.EveryReference fun _ written _ => ProperName written) :
    file.Relabels (fun written _ after => KeepsName written after)
      (file.resolve (files.foldl ClassIndex.addFile .wellKnown)) := by
  have faithful := ClassIndex.Faithful.addFiles files
  apply relabels_resolve
  intro scope type mentions written className arguments resolution found
  obtain ⟨samePackage, sameImports⟩ := mentions.sameFile
  exact faithful.keepsName_meaning imports samePackage sameImports (proper scope type mentions _ _ _ _ found)

/-! A field is written with the name of a class inside an imported one. -/

def sampleEntries : SourceFile :=
  ⟨"app/Table.java", "app", [⟨"java.util.Map", false, false⟩],
    [sampleTable (.named "Map.Entry" [.named "K" []])]⟩

theorem resolve_keepsNames_sampleEntries :
    (∀ candidate ∈ sampleEntries.imports, ProperName candidate.name) ∧
      (sampleEntries.EveryReference fun _ written _ => ProperName written) ∧
      sampleEntries.Relabels (fun written _ after => KeepsName written after)
        (sampleEntries.resolve ([sampleEntries].foldl ClassIndex.addFile .wellKnown)) := by
  have names : (∀ segment ∈ Text.fields '.' "java.util.Map", segment ≠ "") ∧
      (∀ segment ∈ Text.fields '.' "Map.Entry", segment ≠ "") ∧
      ∀ segment ∈ Text.fields '.' "K", segment ≠ "" := by
    decide +kernel
  have imports : ∀ candidate ∈ sampleEntries.imports, ProperName candidate.name := by
    intro candidate listed
    obtain rfl := List.mem_singleton.mp listed
    exact names.1
  have properType : (JavaType.named "Map.Entry" [.named "K" []]).EveryReference fun written _ =>
      ProperName written := by
    rw [JavaType.named, JavaType.everyReference_reference_iff]
    refine ⟨names.2.1, ?_⟩
    intro argument among
    obtain rfl := List.mem_singleton.mp among
    rw [JavaType.named, JavaType.everyReference_reference_iff]
    exact ⟨names.2.2, fun _ none => absurd none List.not_mem_nil⟩
  have proper : sampleEntries.EveryReference fun _ written _ => ProperName written := by
    rintro scope type ⟨outer, held, chain, found, encloses, mentions⟩
    obtain rfl := List.mem_singleton.mp held
    cases encloses with
    | inside held later => cases held
    | self =>
        cases mentions with
        | superType listed => cases listed
        | method listed mentions => cases listed
        | field listed =>
            obtain rfl := List.mem_singleton.mp listed
            exact properType
  exact ⟨imports, proper, resolve_keepsNames [sampleEntries] sampleEntries imports proper⟩

end SourceFile

end ApiDocs
