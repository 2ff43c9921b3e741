import ApiDocs.Proofs.Declaration.Nested
import ApiDocs.Proofs.SortedMap
import Mathlib.Data.Finset.Card

/-!
# What the index of classes holds

Under a dotted name the index holds the last class that was inserted with this name, and it holds nothing else.
The order of the files can therefore matter only to classes that share a dotted name.
-/

namespace ApiDocs

namespace ClassIndex

/-- Among classes in the order of their insertion, the last one with a dotted name. -/
def lastNamed? (names : List ClassName) (dotted : String) : Option ClassName :=
  names.reverse.find? fun name => name.dotted = dotted

theorem lastNamed?_cons (first : ClassName) (rest : List ClassName) (dotted : String) :
    lastNamed? (first :: rest) dotted =
      (lastNamed? rest dotted).or (if first.dotted = dotted then some first else none) := by
  rw [lastNamed?, List.reverse_cons, List.find?_append, List.find?_singleton, lastNamed?]
  simp only [decide_eq_true_eq]

/-- Behind the last class with a dotted name no other one has it. -/
theorem lastNamed?_eq_some_iff {names : List ClassName} {dotted : String} {name : ClassName} :
    lastNamed? names dotted = some name ↔
      name.dotted = dotted ∧
        ∃ before after, names = before ++ name :: after ∧ ∀ later ∈ after, later.dotted ≠ dotted := by
  rw [lastNamed?, List.find?_eq_some_iff_append]
  simp only [decide_eq_true_eq, Bool.not_eq_true', decide_eq_false_iff_not]
  refine and_congr_right fun _ => ?_
  constructor
  · rintro ⟨after, before, reversed, others⟩
    refine ⟨before.reverse, after.reverse, ?_, ?_⟩
    · rw [← List.reverse_reverse names, reversed]
      simp
    · intro later listed
      exact others later (List.mem_reverse.mp listed)
  · rintro ⟨before, after, rfl, others⟩
    refine ⟨after.reverse, before.reverse, by simp, ?_⟩
    intro later listed
    exact others later (List.mem_reverse.mp listed)

theorem mem_of_lastNamed? {names : List ClassName} {dotted : String} {name : ClassName}
    (found : lastNamed? names dotted = some name) : name ∈ names ∧ name.dotted = dotted := by
  obtain ⟨same, before, after, rfl, _⟩ := lastNamed?_eq_some_iff.mp found
  exact ⟨List.mem_append_right _ List.mem_cons_self, same⟩

theorem isSome_lastNamed?_iff {names : List ClassName} {dotted : String} :
    (lastNamed? names dotted).isSome ↔ ∃ name ∈ names, name.dotted = dotted := by
  rw [lastNamed?, List.find?_isSome]
  simp only [List.mem_reverse, decide_eq_true_eq]

theorem find?_insert (index : ClassIndex) (name : ClassName) (dotted : String) :
    (index.insert name).find? dotted = if name.dotted = dotted then some name else index.find? dotted := by
  rw [find?, find?, insert]
  by_cases same : name.dotted = dotted
  · subst same
    rw [if_pos rfl]
    exact SortedMap.get?_insert_self _ _ _
  · rw [if_neg same]
    exact SortedMap.get?_insert_of_ne _ _ (Ne.symm same)

/-- Of classes that are inserted one after the other the last one with a dotted name is found. -/
theorem find?_insertAll (index : ClassIndex) (names : List ClassName) (dotted : String) :
    (index.insertAll names).find? dotted = (lastNamed? names dotted).or (index.find? dotted) := by
  induction names generalizing index with
  | nil => rfl
  | cons first rest ih =>
      have step : index.insertAll (first :: rest) = (index.insert first).insertAll rest := rfl
      rw [step, ih, find?_insert, lastNamed?_cons, Option.or_assoc]
      by_cases same : first.dotted = dotted
      · rw [if_pos same, if_pos same, Option.some_or]
      · rw [if_neg same, if_neg same, Option.none_or]

theorem insertAll_append (index : ClassIndex) (first second : List ClassName) :
    index.insertAll (first ++ second) = (index.insertAll first).insertAll second :=
  List.foldl_append

/-- Adding files inserts the classes that they declare. -/
theorem foldl_addFile (index : ClassIndex) (files : List SourceFile) :
    files.foldl addFile index = index.insertAll (files.flatMap SourceFile.declaredNames) :=
  List.foldl_flatMap.symm

/-- The classes that are known when files have been added, in the order of their insertion. -/
def knownClasses (files : List SourceFile) : List ClassName :=
  ClassName.wellKnown ++ files.flatMap SourceFile.declaredNames

theorem mem_knownClasses_iff {files : List SourceFile} {name : ClassName} :
    name ∈ knownClasses files ↔
      name ∈ ClassName.wellKnown ∨ ∃ file ∈ files, ∃ found, file.Declares name found := by
  simp only [knownClasses, List.mem_append, List.mem_flatMap, SourceFile.mem_declaredNames_iff]

theorem find?_addFiles (files : List SourceFile) (dotted : String) :
    (files.foldl addFile wellKnown).find? dotted = lastNamed? (knownClasses files) dotted := by
  have inserted : files.foldl addFile wellKnown = insertAll ⟨.empty⟩ (knownClasses files) := by
    rw [foldl_addFile, knownClasses, insertAll_append]
    rfl
  rw [inserted, find?_insertAll, find?, SortedMap.get?_empty, Option.or_none]

/-- Indexes that find the same classes are the same. -/
theorem ext_find? {first second : ClassIndex} (same : ∀ dotted, first.find? dotted = second.find? dotted) :
    first = second := by
  cases first
  cases second
  exact congrArg mk (SortedMap.ext_get? same)

/-- The index holds as many classes as there are dotted names under which one is found. -/
theorem size_eq_card (index : ClassIndex) : index.size = index.classes.keys.toFinset.card := by
  rw [List.toFinset_card_of_nodup index.classes.nodup_keys, SortedMap.keys, List.length_map, size]

/-- No two classes share a dotted name. -/
def Unambiguous (names : List ClassName) : Prop :=
  ∀ first ∈ names, ∀ second ∈ names, first.dotted = second.dotted → first = second

theorem Unambiguous.lastNamed?_eq_some_iff {names : List ClassName} (unambiguous : Unambiguous names)
    {dotted : String} {name : ClassName} :
    lastNamed? names dotted = some name ↔ name ∈ names ∧ name.dotted = dotted := by
  constructor
  · exact mem_of_lastNamed?
  · rintro ⟨listed, same⟩
    obtain ⟨last, found⟩ := Option.isSome_iff_exists.mp (isSome_lastNamed?_iff.mpr ⟨name, listed, same⟩)
    obtain ⟨inNames, lastSame⟩ := mem_of_lastNamed? found
    rw [found, unambiguous last inNames name listed (lastSame.trans same.symm)]

/-- Where no two classes share a dotted name, the order of the files does not matter. -/
theorem addFiles_eq_of_perm {files reordered : List SourceFile} (reorders : files.Perm reordered)
    (unambiguous : Unambiguous (knownClasses files)) :
    reordered.foldl addFile wellKnown = files.foldl addFile wellKnown := by
  have known : (knownClasses files).Perm (knownClasses reordered) :=
    (reorders.flatMap_right _).append_left _
  have reorderedUnambiguous : Unambiguous (knownClasses reordered) := by
    intro first inFirst second inSecond
    exact unambiguous first (known.mem_iff.mpr inFirst) second (known.mem_iff.mpr inSecond)
  apply ext_find?
  intro dotted
  rw [find?_addFiles, find?_addFiles]
  apply Option.ext
  intro name
  rw [reorderedUnambiguous.lastNamed?_eq_some_iff, unambiguous.lastNamed?_eq_some_iff, known.mem_iff]

/-- What an index answers when classes have been inserted one after the other. -/
structure Indexes (index : ClassIndex) (names : List ClassName) : Prop where
  /-- Exactly the dotted names of the classes are found. -/
  finds : ∀ dotted, (∃ name, index.find? dotted = some name) ↔ ∃ name ∈ names, name.dotted = dotted
  /-- The answer bears the name that was asked for. -/
  named : ∀ dotted name, index.find? dotted = some name →
    (Resolution.classNamed name).qualifiedName? = some dotted
  /-- The answer is the last class that was inserted with its dotted name. -/
  last : ∀ dotted name, index.find? dotted = some name →
    ∃ before after, names = before ++ name :: after ∧ ∀ later ∈ after, later.dotted ≠ dotted
  size : index.size = (names.map ClassName.dotted).toFinset.card
  /-- A class of the nameless package is looked up by its chain of names alone. -/
  lookup : ∀ packageName classNames,
    index.lookup? ⟨packageName, classNames⟩ =
      if packageName = "" then index.find? (String.intercalate "." classNames)
      else index.find? (packageName ++ "." ++ String.intercalate "." classNames)

/-- An index that finds the last of some classes with a dotted name and nothing else answers for these classes. -/
theorem indexes_of_find?_eq {index : ClassIndex} {names : List ClassName}
    (finds : ∀ dotted, index.find? dotted = lastNamed? names dotted) : index.Indexes names where
  finds dotted := by
    rw [← Option.isSome_iff_exists, finds, isSome_lastNamed?_iff]
  named dotted name found := by
    rw [finds] at found
    exact congrArg some (mem_of_lastNamed? found).2
  last dotted name found := by
    rw [finds] at found
    exact (lastNamed?_eq_some_iff.mp found).2
  size := by
    have keys : index.classes.keys.toFinset = (names.map ClassName.dotted).toFinset := by
      ext dotted
      have found := congrArg Option.isSome (finds dotted)
      rw [List.mem_toFinset, List.mem_toFinset, SortedMap.mem_keys_iff, List.mem_map, ← isSome_lastNamed?_iff,
        ← found]
      rfl
    rw [size_eq_card, keys]
  lookup packageName classNames := by
    rw [lookup?, ClassName.dotted]
    split <;> rfl

/--
However files are added, the index finds exactly the dotted names of the well-known classes and of the classes
that are declared in the files at any depth, and answers with the last class of a name.  Unless classes share a
dotted name, the order of the files does not matter.
-/
theorem addFiles_indexes (files : List SourceFile) :
    (∀ name, name ∈ knownClasses files ↔
      name ∈ ClassName.wellKnown ∨ ∃ file ∈ files, ∃ found, file.Declares name found) ∧
    (files.foldl addFile wellKnown).Indexes (knownClasses files) ∧
    ∀ reordered, files.Perm reordered → Unambiguous (knownClasses files) →
      reordered.foldl addFile wellKnown = files.foldl addFile wellKnown := by
  refine ⟨?_, ?_, ?_⟩
  · intro name
    exact mem_knownClasses_iff
  · exact indexes_of_find?_eq (find?_addFiles files)
  · intro reordered reorders unambiguous
    exact addFiles_eq_of_perm reorders unambiguous

/-! A package and the nameless one declare a class `Cache`, which has a class inside it in the package. -/

def sampleCache (innerClasses : List ClassDeclaration) : ClassDeclaration :=
  { name := "Cache", isAnnotationType := false, isInterface := false, isEnum := false, isRecord := false,
    modifiers := none, docComment := none, typeParameters := [], superTypes := [], constructors := [],
    methods := [], fields := [], innerClasses }

def sampleFiles : List SourceFile :=
  [⟨"store/Cache.java", "store", [], [sampleCache [{ sampleCache [] with name := "Entry" }]]⟩,
    ⟨"Cache.java", "", [], [sampleCache []]⟩]

theorem addFiles_indexes_sampleFiles :
    let index := sampleFiles.foldl addFile wellKnown
    index.find? "store.Cache.Entry" = some ⟨"store", ["Cache", "Entry"]⟩ ∧
      index.lookup? ⟨"", ["Cache"]⟩ = index.find? "Cache" ∧
      sampleFiles.reverse.foldl addFile wellKnown = index := by
  obtain ⟨_, indexes, reordered⟩ := addFiles_indexes sampleFiles
  have unambiguous : Unambiguous (knownClasses sampleFiles) := by
    have distinct : ((knownClasses sampleFiles).map ClassName.dotted).Nodup := by
      decide +kernel
    intro first inFirst second inSecond same
    exact List.inj_on_of_nodup_map distinct inFirst inSecond same
  refine ⟨?_, indexes.lookup "" ["Cache"], reordered _ (List.reverse_perm _).symm unambiguous⟩
  have declared : ⟨"store", ["Cache", "Entry"]⟩ ∈ knownClasses sampleFiles :=
    List.mem_append_right _ (by decide)
  obtain ⟨name, found⟩ := (indexes.finds "store.Cache.Entry").mpr ⟨_, declared, rfl⟩
  obtain ⟨before, after, split, _⟩ := indexes.last _ _ found
  have known : name ∈ knownClasses sampleFiles := split ▸ List.mem_append_right _ List.mem_cons_self
  have dotted : name.dotted = "store.Cache.Entry" := Option.some.inj (indexes.named _ _ found)
  rw [found, unambiguous name known _ declared dotted]

end ClassIndex

end ApiDocs
