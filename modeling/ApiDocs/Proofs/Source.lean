import ApiDocs.Source
import ApiDocs.Proofs.FileSystem.Read
import ApiDocs.Proofs.FileSystem.WellFormed
import ApiDocs.Proofs.Rendering
import ApiDocs.Proofs.SortedMap

/-!
# Sources beside outputs

Outputs bear names that neither sources nor ignore files bear.  Writing them leaves the sources below every root
as they were, unless a directory that is made on the way turns a directory above sources into a repository.
-/

namespace ApiDocs

theorem IsOutputName.getLast? {name : String} (output : IsOutputName name) :
    name.toList.getLast? = some 'n' ∨ name.toList.getLast? = some 'd' := by
  obtain rfl | ⟨stem, rfl⟩ := output
  · exact .inl rfl
  · right
    simp [String.toList_append]

theorem IsOutputName.not_isSourcePath {path : Path} {name : String} (output : IsOutputName name)
    (named : Path.fileName? path = some name) : Source.isSourcePath path = false := by
  rw [Source.isSourcePath, Path.extension?, named]
  obtain rfl | ⟨stem, rfl⟩ := output
  · rfl
  · have reversed : (stem ++ ".md").toList.reverse = 'd' :: 'm' :: '.' :: stem.toList.reverse := by
      simp [String.toList_append]
    simp only [Option.bind_eq_bind, Option.bind_some, reversed]
    cases stem.toList.reverse <;> rfl

namespace FileEntry

def isFile : FileEntry → Bool
  | file _ => true
  | directory => false

theorem isFile_iff {entry : FileEntry} : entry.isFile ↔ ∃ content, entry = file content := by
  cases entry with
  | directory => exact ⟨nofun, nofun⟩
  | file content => exact ⟨fun _ => ⟨content, rfl⟩, fun _ => rfl⟩

end FileEntry

namespace FileSystem

/-- A location that may be that of a rendered file. -/
def IsOutputPlace (location : Location) : Prop :=
  ∃ above name, location = above ++ [name] ∧ IsOutputName name

theorem not_isOutputPlace {above : Location} {name : String}
    (ends : name.toList.getLast? ≠ some 'n' ∧ name.toList.getLast? ≠ some 'd') :
    ¬ IsOutputPlace (above ++ [name]) := by
  rintro ⟨other, outputName, same, output⟩
  obtain ⟨_, last⟩ := List.append_inj' same rfl
  obtain rfl : name = outputName := (List.cons.inj last).1
  exact output.getLast?.elim ends.1 ends.2

/-- What matters to the reading of sources is as it was. -/
structure Undisturbed (before after : FileSystem) : Prop where
  extended : before.ExtendedBy after
  present : ∀ location, (before.lookup? location).isSome → (after.lookup? location).isSome
  file : ∀ location content, ¬ IsOutputPlace location →
    (after.lookup? location = some (.file content) ↔ before.lookup? location = some (.file content))
  repository : ∀ location, (after.lookup? (location ++ [".git"])).isSome →
    (before.lookup? (location ++ [".git"])).isSome

namespace Undisturbed

variable {before after : FileSystem}

theorem ignoreRules_eq (undisturbed : before.Undisturbed after) {location : Location}
    (noOutput : ¬ IsOutputPlace location) : after.ignoreRules location = before.ignoreRules location := by
  have same (content : ByteArray) := undisturbed.file location content noOutput
  unfold ignoreRules
  rcases held : after.lookup? location with _ | ⟨⟩ | content
  · rcases was : before.lookup? location with _ | ⟨⟩ | content
    · rfl
    · rfl
    · cases held.symm.trans ((same content).mpr was)
  · rcases was : before.lookup? location with _ | ⟨⟩ | content
    · rfl
    · rfl
    · cases held.symm.trans ((same content).mpr was)
  · rw [(same content).mp held]

theorem verdictAt?_eq (undisturbed : before.Undisturbed after) (above : Location) {name : String}
    (ends : name.toList.getLast? ≠ some 'n' ∧ name.toList.getLast? ≠ some 'd')
    (directories : List Location) (location : Location) (isDirectory : Bool) :
    after.verdictAt? (above ++ [name]) directories location isDirectory =
      before.verdictAt? (above ++ [name]) directories location isDirectory := by
  have rules (directory : Location) :
      after.ignoreRules (directory ++ (above ++ [name])) = before.ignoreRules (directory ++ (above ++ [name])) := by
    rw [← List.append_assoc]
    exact undisturbed.ignoreRules_eq (not_isOutputPlace ends)
  simp only [verdictAt?, rules]

theorem withinRepository_eq (undisturbed : before.Undisturbed after) (directories : List Location) :
    after.withinRepository directories = before.withinRepository directories := by
  induction directories with
  | nil => rfl
  | cons directory above ih =>
      have held : (after.lookup? (directory ++ [".git"])).isSome = (before.lookup? (directory ++ [".git"])).isSome :=
        Bool.eq_iff_iff.mpr ⟨undisturbed.repository directory, undisturbed.present _⟩
      rw [withinRepository, withinRepository, held, ih]

/-- The same is left out. -/
theorem isKept_eq (undisturbed : before.Undisturbed after) (exclusions : List IgnoreRule)
    (root names : Location) : after.isKept exclusions root names = before.isKept exclusions root names := by
  have ignored (location : Location) (isDirectory : Bool) :
      after.isIgnored location isDirectory = before.isIgnored location isDirectory := by
    have ignore (directories : List Location) :
        after.verdictAt? [".ignore"] directories location isDirectory =
          before.verdictAt? [".ignore"] directories location isDirectory :=
      undisturbed.verdictAt?_eq [] (by decide) directories location isDirectory
    have gitignore (directories : List Location) :
        after.verdictAt? [".gitignore"] directories location isDirectory =
          before.verdictAt? [".gitignore"] directories location isDirectory :=
      undisturbed.verdictAt?_eq [] (by decide) directories location isDirectory
    have exclude (directories : List Location) :
        after.verdictAt? [".git", "info", "exclude"] directories location isDirectory =
          before.verdictAt? [".git", "info", "exclude"] directories location isDirectory :=
      undisturbed.verdictAt?_eq [".git", "info"] (by decide) directories location isDirectory
    simp only [isIgnored, undisturbed.withinRepository_eq, ignore, gitignore, exclude]
  simp only [isKept, isLeftOut, ignored]

end Undisturbed

/-- The files below a location that have a property are those whose entries have it. -/
theorem filter_filesBelow (system : FileSystem) (root : Location) (holds : Location → Bool) :
    (system.filesBelow root).filter holds =
      ((system.entries.entries.filter fun entry =>
        entry.2.isFile && (root.isPrefixOf entry.1 && holds (entry.1.drop root.length))).map Prod.fst).map
          (List.drop root.length) := by
  rw [filesBelow, List.filter_filterMap, List.map_map, ← List.filterMap_eq_map, List.filterMap_filter]
  refine List.filterMap_congr fun (place, entry) _ => ?_
  cases entry with
  | directory => rfl
  | file content =>
      by_cases below : root.isPrefixOf place = true
      · simp [below, FileEntry.isFile, Option.filter]
      · simp [below, FileEntry.isFile]

theorem mem_filesBelow_iff {system : FileSystem} (wellFormed : system.WellFormed) {root names : Location} :
    names ∈ system.filesBelow root ↔ ∃ content, system.lookup? (root ++ names) = some (.file content) := by
  rw [filesBelow, List.mem_filterMap]
  constructor
  · rintro ⟨⟨place, entry⟩, inEntries, below⟩
    cases entry with
    | directory => cases below
    | file content =>
        obtain ⟨starts, rest⟩ := Option.ite_none_right_eq_some.mp below
        obtain ⟨behind, rfl⟩ := List.isPrefixOf_iff_prefix.mp starts
        rw [List.drop_left, Option.some.injEq] at rest
        refine ⟨content, wellFormed.get?_eq_file_iff.mp ?_⟩
        rw [← rest]
        exact (SortedMap.get?_eq_some_iff _).mpr inEntries
  · rintro ⟨content, found⟩
    have inEntries := (SortedMap.get?_eq_some_iff _).mp (wellFormed.get?_eq_file_iff.mpr found)
    refine ⟨(root ++ names, .file content), inEntries, Option.ite_none_right_eq_some.mpr ⟨?_, ?_⟩⟩
    · exact List.isPrefixOf_iff_prefix.mpr (List.prefix_append root names)
    · rw [List.drop_left]

/-- Sources do not stand where outputs do. -/
theorem not_isOutputPlace_of_source {system : FileSystem} (wellFormed : system.WellFormed) {root : Path}
    {location names : Location} {content : ByteArray} (located : system.locate root = .ok location)
    (found : system.lookup? (location ++ names) = some (.file content))
    (source : Source.isSourcePath (names.foldl Path.join root) = true) :
    ¬ IsOutputPlace (location ++ names) := by
  obtain ⟨above, name, same, named⟩ := wellFormed.fileName?_below located found
  rintro ⟨other, outputName, otherSame, output⟩
  obtain ⟨_, last⟩ := List.append_inj' (same.symm.trans otherSame) rfl
  obtain rfl : name = outputName := (List.cons.inj last).1
  cases source.symm.trans (output.not_isSourcePath named)

theorem not_isOutputPlace_of_path {system : FileSystem} (wellFormed : system.WellFormed) {path : Path}
    {place : Location} {content : ByteArray} (located : system.locate path = .ok place)
    (found : system.lookup? place = some (.file content)) (source : Source.isSourcePath path = true) :
    ¬ IsOutputPlace place := by
  have below : system.lookup? (place ++ []) = some (.file content) := by rwa [List.append_nil]
  exact List.append_nil place ▸ not_isOutputPlace_of_source wellFormed located below source

namespace Undisturbed

variable {before after : FileSystem}

/-- The same files have the names of sources. -/
theorem filter_filesBelow_eq (undisturbed : before.Undisturbed after) (wasWellFormed : before.WellFormed)
    (wellFormed : after.WellFormed) {root : Path} {location : Location}
    (located : before.locate root = .ok location) :
    (after.filesBelow location).filter (fun names => Source.isSourcePath (names.foldl Path.join root)) =
      (before.filesBelow location).filter fun names => Source.isSourcePath (names.foldl Path.join root) := by
  rw [filter_filesBelow, filter_filesBelow]
  refine congrArg (List.map _) (SortedMap.keys_filter_eq fun place => exists_congr fun entry => ?_)
  refine and_congr_left fun suits => ?_
  simp only [Bool.and_eq_true, FileEntry.isFile_iff] at suits
  obtain ⟨⟨content, rfl⟩, below, source⟩ := suits
  obtain ⟨names, rfl⟩ := List.isPrefixOf_iff_prefix.mp below
  rw [List.drop_left] at source
  rw [wellFormed.get?_eq_file_iff, wasWellFormed.get?_eq_file_iff]
  constructor
  · intro found
    have locatedAgain := locate_extendedBy undisturbed.extended located
    have noOutput := not_isOutputPlace_of_source wellFormed locatedAgain found source
    exact (undisturbed.file _ content noOutput).mp found
  · intro found
    have noOutput := not_isOutputPlace_of_source wasWellFormed located found source
    exact (undisturbed.file _ content noOutput).mpr found

/-- A source has the same text. -/
theorem readText_eq_ok_iff (undisturbed : before.Undisturbed after) (wasWellFormed : before.WellFormed)
    (wellFormed : after.WellFormed) {root : Path} {location names : Location} {entry : FileEntry}
    (located : before.locate root = .ok location) (found : before.lookup? (location ++ names) = some entry)
    (source : Source.isSourcePath (names.foldl Path.join root) = true) {text : String} :
    after.readText (names.foldl Path.join root) = .ok text ↔
      before.readText (names.foldl Path.join root) = .ok text := by
  rw [FileSystem.readText_eq_ok_iff, FileSystem.readText_eq_ok_iff]
  refine exists_congr fun place => ?_
  constructor
  · rintro ⟨again, held⟩
    have noOutput := not_isOutputPlace_of_path wellFormed again held source
    exact ⟨wasWellFormed.locate_of_extendedBy undisturbed.extended located found again,
      (undisturbed.file place _ noOutput).mp held⟩
  · rintro ⟨was, held⟩
    have noOutput := not_isOutputPlace_of_path wasWellFormed was held source
    exact ⟨locate_extendedBy undisturbed.extended was, (undisturbed.file place _ noOutput).mpr held⟩

end Undisturbed

end FileSystem

namespace Source

variable {before after : FileSystem}

theorem read_toOption_congr (syntaxOf : String → SyntaxNode) (maxFileSize : Nat) {path : Path}
    (same : ∀ text, after.readText path = .ok text ↔ before.readText path = .ok text) :
    (read syntaxOf maxFileSize after path).toOption = (read syntaxOf maxFileSize before path).toOption := by
  unfold read
  cases was : before.readText path with
  | ok text => rw [(same text).mpr was]
  | error reason =>
      cases held : after.readText path with
      | ok text => cases (same text).mp held |>.symm.trans was
      | error other => rfl

/-- From a root that is there the same sources are read. -/
theorem readBelow_eq (undisturbed : before.Undisturbed after) (wasWellFormed : before.WellFormed)
    (wellFormed : after.WellFormed) (syntaxOf : String → SyntaxNode) (patterns : List String)
    (maxFileSize : Nat) {root : Path} (present : before.isPresent root) :
    readBelow syntaxOf patterns maxFileSize after root = readBelow syntaxOf patterns maxFileSize before root := by
  obtain ⟨location, entry, located, held⟩ := FileSystem.isPresent_iff.mp present
  have locatedAgain := FileSystem.locate_extendedBy undisturbed.extended located
  have presentAgain : after.isPresent root := by
    obtain ⟨again, heldAgain⟩ := Option.isSome_iff_exists.mp (undisturbed.present location (by rw [held]; rfl))
    exact FileSystem.isPresent_iff.mpr ⟨location, again, locatedAgain, heldAgain⟩
  have sources (rules : List IgnoreRule) :
      (after.filesKept rules location).filter (fun names => isSourcePath (names.foldl Path.join root)) =
        (before.filesKept rules location).filter fun names => isSourcePath (names.foldl Path.join root) := by
    have kept : after.isKept rules location = before.isKept rules location :=
      funext fun names => undisturbed.isKept_eq rules location names
    rw [FileSystem.filesKept, FileSystem.filesKept, kept, List.filter_comm,
      undisturbed.filter_filesBelow_eq wasWellFormed wellFormed located, List.filter_comm]
  simp only [readBelow, present, presentAgain, located, locatedAgain]
  cases exclusions patterns with
  | error reason => rfl
  | ok rules =>
      refine congrArg Except.ok ?_
      simp only [List.filter_map, Function.comp_def, sources rules, List.filterMap_map]
      refine List.filterMap_congr fun names listed => ?_
      obtain ⟨inKept, source⟩ := List.mem_filter.mp listed
      obtain ⟨content, found⟩ :=
        (FileSystem.mem_filesBelow_iff wasWellFormed).mp (List.mem_of_mem_filter inKept)
      exact read_toOption_congr syntaxOf maxFileSize fun _ =>
        undisturbed.readText_eq_ok_iff wasWellFormed wellFormed located found source

/-- From a root that is not there nothing is read. -/
theorem isPresent_of_readBelow {syntaxOf : String → SyntaxNode} {patterns : List String} {maxFileSize : Nat}
    {system : FileSystem} {root : Path} {sources : List Source}
    (read : readBelow syntaxOf patterns maxFileSize system root = .ok sources) :
    system.isPresent root = true ∧ ∃ rules, IgnoreRule.ofPatterns patterns = .ok rules := by
  rw [readBelow] at read
  cases present : system.isPresent root with
  | false =>
      rw [present] at read
      cases read
  | true =>
      rw [present] at read
      obtain ⟨rules, valid, _⟩ := Except.bind_eq_ok_iff.mp read
      exact ⟨rfl, rules, Except.mapError_eq_ok_iff.mp valid⟩

end Source

end ApiDocs
