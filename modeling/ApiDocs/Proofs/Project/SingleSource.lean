import ApiDocs.Proofs.Fields
import ApiDocs.Proofs.Project.Convergence

/-!
# Projects of one source

The model that is printed for a source file is the one that a run writes for a project in which the file is the
only source of the only pass.  The two go different ways: the printed model takes the file by its path, the written
one finds it below a root and stands among the other rendered files.
-/

namespace ApiDocs

namespace Path

/-- A path ends as the last one that was joined. -/
theorem getLast?_join {path : Path} {last : Char} (ends : path.toList.getLast? = some last) (base : Path) :
    (join base path).toList.getLast? = some last := by
  have behind (front : String) : (front ++ path).toList.getLast? = some last := by
    rw [String.toList_append, List.getLast?_append, ends]
    rfl
  rw [join]
  split
  · exact ends
  · split
    · exact behind base
    · exact behind (base ++ "/")

/-- A path that ends in a letter ends in a name that does. -/
theorem exists_name_of_getLast? {path : Path} {last : Char} (ends : path.toList.getLast? = some last)
    (noSlash : last ≠ '/') (noDot : last ≠ '.') :
    ∃ front name, Text.fields '/' path = front ++ [name] ∧ name.toList.getLast? = some last ∧ name ≠ "" ∧
      name ≠ "." ∧ name ≠ ".." := by
  obtain ⟨front, name, pieces, joined⟩ := Text.exists_last_field '/' path
  have same : name.toList.getLast? = some last := by
    obtain rfl | ⟨before, rfl⟩ := joined
    · exact ends
    · rw [String.toList_append, String.toList_append, String.toList_singleton, List.append_assoc,
        List.getLast?_append_of_ne_nil _ (List.append_ne_nil_of_left_ne_nil (List.cons_ne_nil _ _) _)] at ends
      cases chars : name.toList with
      | nil =>
          rw [chars] at ends
          exact absurd (Option.some.inj ends).symm noSlash
      | cons first rest => rwa [chars, List.singleton_append, List.getLast?_cons_cons] at ends
  refine ⟨front, name, pieces, same, ?_, ?_, ?_⟩
  · rintro rfl
    cases same
  · rintro rfl
    exact noDot (Option.some.inj same).symm
  · rintro rfl
    exact noDot (Option.some.inj same).symm

end Path

namespace FileSystem

/-- The place that a path leads to bears the letter at the end of the path. -/
theorem getLast?_of_locate {system : FileSystem} {path : Path} {location : Location} {last : Char}
    (ends : path.toList.getLast? = some last) (noSlash : last ≠ '/') (noDot : last ≠ '.')
    (located : system.locate path = .ok location) :
    ∃ above name, location = above ++ [name] ∧ name.toList.getLast? = some last := by
  obtain ⟨front, name, pieces, same, proper⟩ := Path.exists_name_of_getLast? ends noSlash noDot
  obtain ⟨_, _, followed⟩ := locate_eq_ok_iff.mp located
  rw [pieces, List.foldlM_append] at followed
  obtain ⟨above, _, below⟩ := Except.bind_eq_ok_iff.mp followed
  refine ⟨above, name, foldlM_step_plain ?_ below, same⟩
  intro piece listed
  rw [List.mem_singleton.mp listed]
  exact proper

end FileSystem

namespace Source

/-- The paths of the source files that a walk below a root finds. -/
def pathsBelow (patterns : List String) (system : FileSystem) (root : Path) : Except Failure (List Path) := do
  if !system.isPresent root then throw (.missingRoot root)
  let rules ← exclusions patterns
  let location ← (system.locate root).mapError Failure.access
  return ((system.filesKept rules location).map fun names => names.foldl Path.join root).filter isSourcePath

theorem readBelow_eq_map (syntaxOf : String → SyntaxNode) (patterns : List String) (maxFileSize : Nat)
    (system : FileSystem) (root : Path) :
    readBelow syntaxOf patterns maxFileSize system root =
      (pathsBelow patterns system root).map fun paths =>
        paths.filterMap fun path => (read syntaxOf maxFileSize system path).toOption := by
  rw [readBelow, pathsBelow]
  cases system.isPresent root with
  | false => rfl
  | true =>
      cases exclusions patterns with
      | error reason => rfl
      | ok rules => cases (system.locate root).mapError Failure.access <;> rfl

theorem read_eq_ok_iff {syntaxOf : String → SyntaxNode} {maxFileSize : Nat} {system : FileSystem} {path : Path}
    {source : Source} :
    read syntaxOf maxFileSize system path = .ok source ↔
      ∃ text, system.readText path = .ok text ∧ text.utf8ByteSize ≤ maxFileSize ∧ isSourcePath path = true ∧
        source = ⟨.ofSyntax path (syntaxOf text), Sha256.hexDigest text⟩ := by
  rw [read, Except.bind_eq_ok_iff]
  refine exists_congr fun text => and_congr Except.mapError_eq_ok_iff ?_
  by_cases large : maxFileSize < text.utf8ByteSize
  · rw [if_pos large]
    exact ⟨nofun, fun small => absurd large (Nat.not_lt.mpr small.1)⟩
  · cases named : isSourcePath path with
    | false =>
        rw [if_neg large]
        exact ⟨nofun, nofun⟩
    | true =>
        rw [if_neg large]
        exact ⟨fun same => ⟨Nat.not_lt.mp large, rfl, (Except.ok.inj same).symm⟩,
          fun readable => congrArg Except.ok readable.2.2.symm⟩

theorem isSourcePath_of_mem_pathsBelow {patterns : List String} {system : FileSystem} {root path : Path}
    {paths : List Path} (walked : pathsBelow patterns system root = .ok paths) (listed : path ∈ paths) :
    isSourcePath path = true := by
  rw [pathsBelow] at walked
  cases present : system.isPresent root with
  | false =>
      rw [present] at walked
      cases walked
  | true =>
      rw [present] at walked
      obtain ⟨rules, _, later⟩ := Except.bind_eq_ok_iff.mp walked
      obtain ⟨location, _, same⟩ := Except.bind_eq_ok_iff.mp later
      obtain rfl := Except.ok.inj same
      exact (List.mem_filter.mp listed).2

/-- By another path to the same place the same is read, under that path. -/
theorem read_of_locate_eq {syntaxOf : String → SyntaxNode} {maxFileSize : Nat} {system : FileSystem}
    {path other : Path} (same : system.locate path = system.locate other) (named : isSourcePath other = true)
    {source : Source} (readable : read syntaxOf maxFileSize system path = .ok source) :
    read syntaxOf maxFileSize system other = .ok { source with file := { source.file with path := other } } := by
  obtain ⟨text, found, small, _, rfl⟩ := read_eq_ok_iff.mp readable
  obtain ⟨location, located, held⟩ := FileSystem.readText_eq_ok_iff.mp found
  have foundAgain : system.readText other = .ok text :=
    FileSystem.readText_eq_ok_iff.mpr ⟨location, same ▸ located, held⟩
  exact read_eq_ok_iff.mpr ⟨text, foundAgain, small, named, rfl⟩

end Source

namespace Markdown

theorem getLast?_path_packagePage (stamp : Stamp) (moduleName : String) (place : Nat) (package : Package) :
    (packagePage stamp moduleName place (.ofPackage package)).path.toList.getLast? = some 'd' := by
  have file : (PackageView.ofPackage package).file.toList.getLast? = some 'd' := by
    by_cases nameless : package.name = ""
    · simp [PackageView.ofPackage, nameless]
    · simp [PackageView.ofPackage, nameless, String.toList_append]
  exact Path.getLast?_join file "packages"

/-- The paths of pages end in one letter. -/
theorem getLast?_path_of_mem_pages {stamp : Stamp} {documented : Module} {file : RenderedFile}
    (listed : file ∈ pages stamp documented) : file.path.toList.getLast? = some 'd' := by
  obtain rfl | page := List.mem_cons.mp listed
  · have path : (indexPage stamp documented.name (documented.packages.map PackageView.ofPackage)).path =
        "index.md" := rfl
    rw [path]
    decide
  · obtain ⟨place, _, rfl⟩ := List.mem_mapIdx.mp page
    rw [List.getElem_map]
    exact getLast?_path_packagePage ..

end Markdown

namespace Module

/-- What is documented does not depend on the path of the file. -/
theorem ofFiles_withPath (name : String) (platform : PlatformData) (file : SourceFile) (path : Path) :
    ofFiles name platform [SourceFile.resolve (ClassIndex.ofFiles [{ file with path }]) { file with path }] =
      ofFiles name platform [file.resolve (ClassIndex.ofFiles [file])] := by
  have added (index : ClassIndex) : index.addFile { file with path } = index.addFile file := rfl
  have indexed : ClassIndex.ofFiles [{ file with path }] = ClassIndex.ofFiles [file] := added ClassIndex.wellKnown
  rw [indexed]
  rfl

variable {documented : Module}

/-- The rendered files are the model and pages, whose paths end in the letter that pages end in. -/
theorem eq_model_or_getLast?_path {stamp : Markdown.Stamp} {formats : List OutputFormat} {file : RenderedFile}
    (listed : file ∈ documented.renderAll stamp formats) :
    file = ⟨"module.json", documented.jsonText ++ "\n"⟩ ∨ file.path.toList.getLast? = some 'd' := by
  induction formats generalizing stamp with
  | nil => exact absurd listed List.not_mem_nil
  | cons format rest ih =>
      obtain here | later := List.mem_append.mp listed
      · cases format with
        | json => exact .inl (List.mem_singleton.mp here)
        | markdown => exact .inr (Markdown.getLast?_path_of_mem_pages here)
      · exact ih later

theorem model_mem_renderAll {stamp : Markdown.Stamp} {formats : List OutputFormat} (json : .json ∈ formats) :
    ⟨"module.json", documented.jsonText ++ "\n"⟩ ∈ documented.renderAll stamp formats := by
  induction formats generalizing stamp with
  | nil => exact absurd json List.not_mem_nil
  | cons format rest ih =>
      obtain rfl | later := List.mem_cons.mp json
      · exact List.mem_append_left _ List.mem_cons_self
      · exact List.mem_append_right _ (ih later)

end Module

namespace Project

variable {surroundings : Surroundings} {config : Config} {before : FileSystem}

theorem modelText_eq_ok_iff {file : Path} {text : String} :
    modelText surroundings config before file = .ok text ↔
      ∃ pass rest platform source, config.passes = pass :: rest ∧ pass.platformData = .ok platform ∧
        Source.read surroundings.syntaxOf config.maxFileSize before file = .ok source ∧
        text = (Module.merge config.name [Module.ofFiles config.name platform
          [source.file.resolve (ClassIndex.ofFiles [source.file])]]).jsonText ++ "\n" := by
  rw [modelText]
  cases config.passes with
  | nil => exact ⟨nofun, nofun⟩
  | cons pass rest =>
      constructor
      · intro printed
        obtain ⟨_, chosen, later⟩ := Except.bind_eq_ok_iff.mp printed
        obtain rfl := Except.ok.inj chosen
        obtain ⟨platform, known, later⟩ := Except.bind_eq_ok_iff.mp later
        obtain ⟨source, read, same⟩ := Except.bind_eq_ok_iff.mp later
        exact ⟨pass, rest, platform, source, rfl, Except.mapError_eq_ok_iff.mp known, read,
          (Except.ok.inj same).symm⟩
      · rintro ⟨_, _, platform, source, same, known, read, rfl⟩
        obtain ⟨rfl, rfl⟩ := List.cons.inj same
        refine Except.bind_eq_ok_iff.mpr ⟨pass, rfl, ?_⟩
        refine Except.bind_eq_ok_iff.mpr ⟨platform, Except.mapError_eq_ok_iff.mpr known, ?_⟩
        exact Except.bind_eq_ok_iff.mpr ⟨source, read, rfl⟩

/-- The only source of the only pass is all that is documented. -/
theorem document_of_single {pass : PassConfig} (onePass : config.passes = [pass]) {root : Path}
    (oneRoot : pass.sourceRoots = [root]) {platform : PlatformData} (known : pass.platformData = .ok platform)
    {source : Source}
    (only : Source.readBelow surroundings.syntaxOf config.ignorePatterns config.maxFileSize before root =
      .ok [source]) :
    document surroundings config before none =
      .ok (Module.merge config.name [Module.ofFiles config.name platform
        [source.file.resolve (ClassIndex.ofFiles [source.file])]], fingerprint [source.digest]) := by
  have documented : documentPass surroundings config before none pass =
      .ok (Module.ofFiles config.name platform [source.file.resolve (ClassIndex.ofFiles [source.file])],
        [source.digest]) := by
    refine Except.bind_eq_ok_iff.mpr ⟨platform, Except.mapError_eq_ok_iff.mpr known, ?_⟩
    refine Except.bind_eq_ok_iff.mpr ⟨[[source]], ?_, rfl⟩
    rw [oneRoot]
    exact Except.mapM_eq_ok_iff.mpr (.cons only .nil)
  rw [document, onePass]
  exact Except.bind_eq_ok_iff.mpr ⟨[_], Except.mapM_eq_ok_iff.mpr (.cons documented .nil), rfl⟩

/-- A run that writes the model where none is leaves it there. -/
theorem read_model_of_write {prepared : Plan} {force : Bool} {documented : Module} {stamp : Markdown.Stamp}
    {formats : List OutputFormat} (files : prepared.files = documented.renderAll stamp formats)
    (json : .json ∈ formats)
    (compared : Changes.between before prepared.directory prepared.files = .ok prepared.changes)
    (absent : before.isPresent (Path.join prepared.directory "module.json") = false)
    (done : (prepared.write before force).failure = none) :
    (prepared.write before force).system.read (Path.join prepared.directory "module.json") =
      .ok (documented.jsonText ++ "\n").toUTF8 := by
  have listed : ⟨"module.json", documented.jsonText ++ "\n"⟩ ∈ prepared.files :=
    files ▸ Module.model_mem_renderAll json
  have added : prepared.changes.includes "module.json" = true := by
    by_contra others
    obtain ⟨⟨path, status⟩, inStatuses, rfl, was⟩ := (Changes.between_eq_ok_iff.mp compared).exists_mem listed
    obtain rfl := Changes.unchanged_of_not_includes inStatuses (Bool.not_eq_true _ ▸ others)
    obtain ⟨location, text, located, found, _⟩ := Changes.statusOf_eq_unchanged_iff.mp was
    rw [FileSystem.isPresent_iff.mpr ⟨location, _, located, found⟩] at absent
    cases absent
  obtain ⟨location, belongs, left, inFiles, leftThere, found⟩ :=
    (writeFiles_wroteAll done).written _ (List.mem_filter.mpr ⟨listed, by simp only [added, Bool.or_true]⟩)
  obtain rfl | page := Module.eq_model_or_getLast?_path (files ▸ List.mem_of_mem_filter inFiles)
  · exact FileSystem.read_eq_ok_iff.mpr ⟨location, belongs, found⟩
  · -- No page is written over the model, as the names of their places end differently.
    have model : "module.json".toList.getLast? = some 'n' := by decide
    obtain ⟨above, name, rfl, modelEnds⟩ :=
      FileSystem.getLast?_of_locate (Path.getLast?_join model _) (by decide) (by decide) belongs
    obtain ⟨_, other, same, pageEnds⟩ :=
      FileSystem.getLast?_of_locate (Path.getLast?_join page _) (by decide) (by decide) leftThere
    obtain ⟨_, last⟩ := List.append_inj' same rfl
    obtain rfl : name = other := (List.cons.inj last).1
    cases modelEnds.symm.trans pageEnds

/--
Printing the model of a source file and writing that of a project agree.  Of a project with one pass, in whose only
root a walk finds one source file, and with the model among the outputs, both give the same bytes, unless one of them
fails or there is a model from before.
-/
theorem dump_eq_generate {pass : PassConfig} (onePass : config.passes = [pass]) {root : Path}
    (oneRoot : pass.sourceRoots = [root]) (json : "json" ∈ config.formats) {file found : Path}
    (only : Source.pathsBelow config.ignorePatterns before root = .ok [found])
    (same : before.locate file = before.locate found) {force : Bool}
    (absent : before.isPresent (Path.join config.docsDirectory "module.json") = false)
    (dumped : (execute surroundings config before (.dump file)).failure = none)
    (generated : (execute surroundings config before (.generate none none force)).failure = none) :
    (execute surroundings config before (.generate none none force)).system.read
        (Path.join config.docsDirectory "module.json") =
      .ok (execute surroundings config before (.dump file)).printed.toUTF8 := by
  obtain ⟨prepared, force, planned, executed⟩ := exists_plan_of_updates (.generate force) generated
  rw [executed] at generated ⊢
  obtain ⟨documented, sourceHash, formats, read, named, directory, files, compared⟩ := plan_eq_ok_iff.mp planned
  cases printed : modelText surroundings config before file with
  | error reason =>
      rw [execute, dump, printed] at dumped
      cases dumped
  | ok text =>
      have output : (execute surroundings config before (.dump file)).printed = text := by
        rw [execute, dump, printed]
      obtain ⟨_, _, platform, source, chosen, known, readable, shown⟩ := modelText_eq_ok_iff.mp printed
      obtain ⟨rfl, _⟩ := List.cons.inj (onePass.symm.trans chosen)
      have json : OutputFormat.json ∈ formats := by
        obtain ⟨format, listed, supported⟩ := (Except.mapM_eq_ok_iff.mp named).exists_mem json
        obtain rfl : .json = format := Except.ok.inj supported
        exact listed
      have readFound := Source.read_of_locate_eq same (Source.isSourcePath_of_mem_pathsBelow only List.mem_cons_self)
        readable
      have below : Source.readBelow surroundings.syntaxOf config.ignorePatterns config.maxFileSize before root =
          .ok [{ source with file := { source.file with path := found } }] := by
        rw [Source.readBelow_eq_map, only, Except.map, List.filterMap_cons, readFound]
        rfl
      have whole := document_of_single onePass oneRoot known below
      rw [Module.ofFiles_withPath, read] at whole
      obtain ⟨rfl, _⟩ := Prod.mk.inj (Except.ok.inj whole)
      rw [output, shown]
      exact directory ▸ read_model_of_write files json (directory ▸ compared) (directory ▸ absent) generated

/-! The project with one source file, given by its absolute path. -/

theorem dump_eq_generate_sampleSystem :
    (execute sampleSurroundings sampleConfig sampleSystem (.generate none none false)).system.read
        "docs/module.json" =
      .ok (execute sampleSurroundings sampleConfig sampleSystem (.dump "/work/src/A.java")).printed.toUTF8 := by
  have walked : (Source.pathsBelow sampleConfig.ignorePatterns sampleSystem "src").toOption =
      some ["src/A.java"] := by
    decide +kernel
  have only : Source.pathsBelow sampleConfig.ignorePatterns sampleSystem "src" = .ok ["src/A.java"] := by
    cases found : Source.pathsBelow sampleConfig.ignorePatterns sampleSystem "src" with
    | error reason =>
        rw [found] at walked
        cases walked
    | ok paths =>
        rw [found] at walked
        exact congrArg Except.ok (Option.some.inj walked)
  have same : sampleSystem.locate "/work/src/A.java" = sampleSystem.locate "src/A.java" := by
    decide +kernel
  have dumped : (execute sampleSurroundings sampleConfig sampleSystem (.dump "/work/src/A.java")).failure = none := by
    rw [← Option.isNone_iff_eq_none]
    decide +kernel
  exact dump_eq_generate rfl rfl (by decide) only same (by decide +kernel) dumped sample_done

end Project

end ApiDocs
