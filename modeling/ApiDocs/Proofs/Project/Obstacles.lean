import ApiDocs.Proofs.Project.Updates

/-!
# What keeps a run from writing

Everything is read, rendered and compared before the first file is written.  A run that meets an obstacle until
then leaves the file system as it was, and only what is on the list below can be an obstacle.
-/

namespace ApiDocs

namespace Failure

/-- The kinds of failures that come before anything is written. -/
def IsEarly : Failure → Prop
  | configuration _ | exclusion _ _ _ | missingRoot _ | access _ => True
  | usage _ | tooLarge _ | noSource _ | output _ | stale _ => False

end Failure

namespace Source

/-- Below a root that is there sources are read, unless an exclusion pattern is no glob. -/
theorem readBelow_eq_error {syntaxOf : String → SyntaxNode} {patterns : List String} {maxFileSize : Nat}
    {system : FileSystem} {root : Path} {reason : Failure}
    (failed : readBelow syntaxOf patterns maxFileSize system root = .error reason) :
    reason.IsEarly ∧ (system.isPresent root = false ∨ ∃ cause, IgnoreRule.ofPatterns patterns = .error cause) := by
  rw [readBelow] at failed
  cases present : system.isPresent root with
  | false =>
      rw [present] at failed
      cases failed
      exact ⟨trivial, .inl rfl⟩
  | true =>
      rw [present] at failed
      obtain invalid | ⟨rules, _, later⟩ := Except.bind_eq_error_iff.mp failed
      · obtain ⟨cause, found, rfl⟩ := Except.mapError_eq_error_iff.mp invalid
        exact ⟨trivial, .inr ⟨cause, found⟩⟩
      · obtain nowhere | ⟨location, _, done⟩ := Except.bind_eq_error_iff.mp later
        · obtain ⟨location, entry, located, _⟩ := FileSystem.isPresent_iff.mp present
          rw [located] at nowhere
          cases nowhere
        · cases done

end Source

namespace Changes

/-- A file that is there but is no text. -/
def Unreadable (system : FileSystem) (path : Path) : Prop :=
  system.find path = .ok .directory ∨
    ∃ bytes, system.find path = .ok (.file bytes) ∧ String.fromUTF8? bytes = none

theorem unreadable_iff {system : FileSystem} {path : Path} :
    Unreadable system path ↔ system.isPresent path = true ∧ ∃ reason, system.readText path = .error reason := by
  rw [FileSystem.isPresent, FileSystem.readText, FileSystem.read, Unreadable]
  cases system.find path with
  | error reason => simp [Except.toOption]
  | ok entry =>
      cases entry with
      | directory => simp [bind, Except.bind, Except.toOption, throw, throwThe, MonadExceptOf.throw]
      | file bytes =>
          cases decoded : String.fromUTF8? bytes <;>
            simp [bind, Except.bind, pure, Except.pure, decoded, Except.toOption, throw, throwThe,
              MonadExceptOf.throw]

theorem statusOf_eq_error_iff {system : FileSystem} {directory : Path} {file : RenderedFile} :
    (∃ reason, statusOf system directory file = .error reason) ↔
      Unreadable system (Path.join directory file.path) := by
  rw [unreadable_iff, statusOf]
  cases present : system.isPresent (Path.join directory file.path) with
  | false => simp [pure, Except.pure]
  | true =>
      cases read : system.readText (Path.join directory file.path) with
      | error reason => simp [bind, Except.bind]
      | ok existing => simp [bind, Except.bind, pure, Except.pure]

/-- What has been compared could be read. -/
theorem not_unreadable_of_between {system : FileSystem} {directory : Path} {files : List RenderedFile}
    {changes : Changes} (compared : between system directory files = .ok changes) {file : RenderedFile}
    (listed : file ∈ files) : ¬ Unreadable system (Path.join directory file.path) := by
  obtain ⟨entry, _, _, status⟩ := (between_eq_ok_iff.mp compared).exists_mem listed
  intro unreadable
  obtain ⟨reason, noStatus⟩ := statusOf_eq_error_iff.mpr unreadable
  cases status.symm.trans noStatus

end Changes

namespace Project

variable {surroundings : Surroundings} {config : Config} {system : FileSystem} {source : Option Path}
  {directory : Path}

/-- The roots below which a pass reads sources: a given source root stands for those of the pass. -/
def rootsOf (source : Option Path) (pass : PassConfig) : List Path :=
  match source with
  | some root => [root]
  | none => pass.sourceRoots

/-- What keeps a run from writing. -/
inductive Obstacle (surroundings : Surroundings) (config : Config) (system : FileSystem) (source : Option Path)
    (directory : Path) : Prop where
  | unknownPlatform {pass : PassConfig} {reason : PlatformError} (listed : pass ∈ config.passes)
      (unknown : Platform.parse pass.platform.toList = .error reason)
  | missingRoot {pass : PassConfig} {root : Path} (listed : pass ∈ config.passes)
      (given : root ∈ rootsOf source pass) (missing : system.isPresent root = false)
  /-- Patterns are read for each root, and so they do not matter where there is none. -/
  | invalidPattern {pass : PassConfig} {root : Path} {reason : String × GlobError}
      (listed : pass ∈ config.passes) (given : root ∈ rootsOf source pass)
      (invalid : IgnoreRule.ofPatterns config.ignorePatterns = .error reason)
  | unsupportedFormat {name : String} (listed : name ∈ config.formats)
      (unsupported : OutputFormat.ofName? name = none)
  | unreadableOutput {documented : Module} {sourceHash : String} {formats : List OutputFormat}
      {file : RenderedFile} (read : document surroundings config system source = .ok (documented, sourceHash))
      (named : Project.formats config = .ok formats)
      (listed : file ∈ documented.renderAll ⟨config.includeMetadata, sourceHash, surroundings.clock⟩ formats)
      (unreadable : Changes.Unreadable system (Path.join directory file.path))

theorem platformData_eq_error_iff {pass : PassConfig} {reason : ConfigError} :
    pass.platformData = .error reason ↔
      ∃ cause, Platform.parse pass.platform.toList = .error cause ∧ .unknownPlatform cause = reason := by
  rw [PassConfig.platformData]
  split <;> simp_all

theorem documentPass_eq_error {pass : PassConfig} {reason : Failure}
    (failed : documentPass surroundings config system source pass = .error reason) :
    reason.IsEarly ∧ ((∃ cause, Platform.parse pass.platform.toList = .error cause) ∨
      ∃ root ∈ rootsOf source pass, system.isPresent root = false ∨
        ∃ cause, IgnoreRule.ofPatterns config.ignorePatterns = .error cause) := by
  obtain unknown | ⟨platform, _, later⟩ := Except.bind_eq_error_iff.mp failed
  · obtain ⟨_, noData, rfl⟩ := Except.mapError_eq_error_iff.mp unknown
    obtain ⟨cause, unparsed, rfl⟩ := platformData_eq_error_iff.mp noData
    exact ⟨trivial, .inl ⟨cause, unparsed⟩⟩
  · obtain unread | ⟨sources, _, done⟩ := Except.bind_eq_error_iff.mp later
    · obtain ⟨root, given, found⟩ := Except.exists_mem_of_mapM_eq_error unread
      obtain ⟨early, causes⟩ := Source.readBelow_eq_error found
      exact ⟨early, .inr ⟨root, given, causes⟩⟩
    · cases done

/-- A pass that has been documented has a platform and roots that could be read. -/
theorem documentPass_eq_ok {pass : PassConfig} {result : Module × List String}
    (done : documentPass surroundings config system source pass = .ok result) :
    (∃ platform, Platform.parse pass.platform.toList = .ok platform) ∧
      ∀ root ∈ rootsOf source pass, system.isPresent root = true ∧
        ∃ rules, IgnoreRule.ofPatterns config.ignorePatterns = .ok rules := by
  obtain ⟨data, known, later⟩ := Except.bind_eq_ok_iff.mp done
  obtain ⟨sources, read, _⟩ := Except.bind_eq_ok_iff.mp later
  constructor
  · cases parsed : Platform.parse pass.platform.toList with
    | ok platform => exact ⟨platform, rfl⟩
    | error cause =>
        rw [platformData_eq_error_iff.mpr ⟨cause, parsed, rfl⟩] at known
        cases known
  · intro root given
    obtain ⟨below, _, found⟩ := (Except.mapM_eq_ok_iff.mp read).exists_mem given
    exact Source.isPresent_of_readBelow found

theorem formats_eq_error {reason : Failure} (failed : formats config = .error reason) :
    reason.IsEarly ∧ ∃ name ∈ config.formats, OutputFormat.ofName? name = none := by
  obtain ⟨name, listed, unsupported⟩ := Except.exists_mem_of_mapM_eq_error failed
  split at unsupported
  · cases unsupported
  · rename_i none
    cases unsupported
    exact ⟨trivial, name, listed, none⟩

/-- A run that gets no plan has met an obstacle, and its failure says so. -/
theorem obstacle_of_plan {reason : Failure}
    (failed : plan surroundings config system source directory = .error reason) :
    reason.IsEarly ∧ Obstacle surroundings config system source directory := by
  obtain unread | ⟨⟨documented, sourceHash⟩, read, later⟩ := Except.bind_eq_error_iff.mp failed
  · obtain inPass | ⟨passes, _, done⟩ := Except.bind_eq_error_iff.mp unread
    · obtain ⟨pass, listed, found⟩ := Except.exists_mem_of_mapM_eq_error inPass
      obtain ⟨early, ⟨cause, unknown⟩ | ⟨root, given, missing | ⟨cause, invalid⟩⟩⟩ := documentPass_eq_error found
      · exact ⟨early, .unknownPlatform listed unknown⟩
      · exact ⟨early, .missingRoot listed given missing⟩
      · exact ⟨early, .invalidPattern listed given invalid⟩
    · cases done
  · obtain unnamed | ⟨formats, named, later⟩ := Except.bind_eq_error_iff.mp later
    · obtain ⟨early, name, listed, unsupported⟩ := formats_eq_error unnamed
      exact ⟨early, .unsupportedFormat listed unsupported⟩
    · obtain uncompared | ⟨changes, _, done⟩ := Except.bind_eq_error_iff.mp later
      · obtain ⟨cause, found, rfl⟩ := Except.mapError_eq_error_iff.mp uncompared
        obtain inFile | ⟨statuses, _, done⟩ := Except.bind_eq_error_iff.mp found
        · obtain ⟨file, listed, found⟩ := Except.exists_mem_of_mapM_eq_error inFile
          obtain noStatus | ⟨status, _, done⟩ := Except.bind_eq_error_iff.mp found
          · exact ⟨trivial, .unreadableOutput read named listed (Changes.statusOf_eq_error_iff.mp ⟨_, noStatus⟩)⟩
          · cases done
        · cases done
      · cases done

/-- Where there is an obstacle, a run gets no plan. -/
theorem Obstacle.exists_plan_eq_error (obstacle : Obstacle surroundings config system source directory) :
    ∃ reason, plan surroundings config system source directory = .error reason := by
  cases planned : plan surroundings config system source directory with
  | error reason => exact ⟨reason, rfl⟩
  | ok prepared =>
      exfalso
      obtain ⟨documented, sourceHash, formats, read, named, rfl, files, compared⟩ := plan_eq_ok_iff.mp planned
      obtain ⟨passes, all, _⟩ := Except.bind_eq_ok_iff.mp read
      have passDone : ∀ pass ∈ config.passes, ∃ result,
          documentPass surroundings config system source pass = .ok result := by
        intro pass listed
        obtain ⟨result, _, done⟩ := (Except.mapM_eq_ok_iff.mp all).exists_mem listed
        exact ⟨result, done⟩
      cases obstacle with
      | unknownPlatform listed unknown =>
          obtain ⟨result, done⟩ := passDone _ listed
          obtain ⟨platform, known⟩ := (documentPass_eq_ok done).1
          cases known.symm.trans unknown
      | missingRoot listed given missing =>
          obtain ⟨result, done⟩ := passDone _ listed
          cases ((documentPass_eq_ok done).2 _ given).1.symm.trans missing
      | invalidPattern listed given invalid =>
          obtain ⟨result, done⟩ := passDone _ listed
          obtain ⟨rules, valid⟩ := ((documentPass_eq_ok done).2 _ given).2
          cases valid.symm.trans invalid
      | unsupportedFormat listed unsupported =>
          obtain ⟨format, _, found⟩ := (Except.mapM_eq_ok_iff.mp named).exists_mem listed
          rw [unsupported] at found
          cases found
      | unreadableOutput readAgain namedAgain listed unreadable =>
          cases Except.ok.inj (read.symm.trans readAgain)
          cases Except.ok.inj (named.symm.trans namedAgain)
          exact Changes.not_unreadable_of_between compared (files ▸ listed) unreadable

end Project

end ApiDocs
