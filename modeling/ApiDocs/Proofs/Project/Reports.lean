import ApiDocs.Proofs.Project.Convergence
import ApiDocs.Proofs.Project.Obstacles

/-!
# Runs write what they report

A run that is only to look writes nothing.  A run that brings the documentation up to date puts a rendered content
where each file belongs that it reports as added or modified, makes the directories above, and leaves everything
else as it was.
-/

namespace ApiDocs

namespace RenderedFile

/-- Unless a text with its digest stands where it belongs, a rendered file is outdated. -/
def isOutdated (system : FileSystem) (directory : Path) (file : RenderedFile) : Bool :=
  match system.readText (Path.join directory file.path) with
  | .ok existing => hasContentChanged existing file.content
  | .error _ => true

/-- Where a rendered file belongs stands nothing, or a text that is another one behind its front matter. -/
def IsMissingOrDiffers (system : FileSystem) (directory : Path) (file : RenderedFile) : Prop :=
  system.isPresent (Path.join directory file.path) = false ∨
    ∃ existing, system.readText (Path.join directory file.path) = .ok existing ∧
      stripFrontMatter existing.toList ≠ stripFrontMatter file.content.toList

/-- The digest of a rendered file is not that of another text where the file belongs. -/
def HasOwnDigest (system : FileSystem) (directory : Path) (file : RenderedFile) : Prop :=
  ∀ existing, system.readText (Path.join directory file.path) = .ok existing →
    contentDigest existing = contentDigest file.content →
      stripFrontMatter existing.toList = stripFrontMatter file.content.toList

variable {system : FileSystem} {directory : Path} {file : RenderedFile}

/-- What is outdated is missing or differs: texts with different digests are different. -/
theorem isMissingOrDiffers_of_isOutdated (readable : ¬ Changes.Unreadable system (Path.join directory file.path))
    (outdated : file.isOutdated system directory = true) : file.IsMissingOrDiffers system directory := by
  unfold isOutdated at outdated
  split at outdated
  · rename_i existing read
    refine .inr ⟨existing, read, ?_⟩
    intro same
    exact bne_iff_ne.mp outdated (congrArg (fun text => Sha256.hexDigest (String.ofList text)) same)
  · rename_i reason unread
    left
    by_contra present
    exact readable (Changes.unreadable_iff.mpr ⟨Bool.not_eq_false _ ▸ present, reason, unread⟩)

/-- What is missing is outdated, and so is what differs if its digest shows that. -/
theorem isOutdated_of_isMissingOrDiffers (own : file.HasOwnDigest system directory)
    (missingOrDiffers : file.IsMissingOrDiffers system directory) : file.isOutdated system directory = true := by
  unfold isOutdated
  split
  · rename_i existing read
    obtain missing | ⟨other, same, differ⟩ := missingOrDiffers
    · obtain ⟨location, located, found⟩ := FileSystem.readText_eq_ok_iff.mp read
      have present := FileSystem.isPresent_iff.mpr ⟨location, _, located, found⟩
      cases missing.symm.trans present
    · cases Except.ok.inj (read.symm.trans same)
      refine bne_iff_ne.mpr ?_
      intro digests
      exact differ (own existing read digests)
  · rfl

/-- A file is outdated if and only if it does not count as unchanged. -/
theorem isOutdated_of_statusOf {status : FileStatus}
    (compared : Changes.statusOf system directory file = .ok status) :
    file.isOutdated system directory = (status != .unchanged) := by
  have upToDate : file.UpToDate system directory ↔ status = .unchanged := by
    rw [← Changes.statusOf_eq_unchanged_iff, compared]
    exact ⟨Except.ok.inj, congrArg _⟩
  have current : file.isOutdated system directory = false ↔ file.UpToDate system directory := by
    unfold isOutdated
    constructor
    · intro current
      split at current
      · rename_i existing read
        obtain ⟨location, located, found⟩ := FileSystem.readText_eq_ok_iff.mp read
        exact ⟨location, existing, located, found, bne_eq_false_iff_eq.mp current⟩
      · cases current
    · rintro ⟨location, existing, located, found, digest⟩
      rw [FileSystem.readText_eq_ok_iff.mpr ⟨location, located, found⟩]
      exact bne_eq_false_iff_eq.mpr digest
  rw [Bool.eq_iff_iff, ← not_iff_not, Bool.not_eq_true, Bool.not_eq_true, current, upToDate, bne_eq_false_iff_eq]

end RenderedFile

namespace Changes

theorem count_eq_countP (changes : Changes) :
    changes.count = changes.statuses.countP fun entry => entry.2 != .unchanged := by
  rw [count, added, modified, withStatus, withStatus, List.length_map, List.length_map]
  induction changes.statuses with
  | nil => rfl
  | cons first rest ih =>
      obtain ⟨path, status⟩ := first
      cases status <;> simp [← ih] <;> omega

/-- As many files are outdated as are reported. -/
theorem count_eq_countP_outdated {system : FileSystem} {directory : Path} {files : List RenderedFile}
    {changes : Changes} (compared : between system directory files = .ok changes) :
    changes.count = files.countP (RenderedFile.isOutdated system directory) := by
  rw [count_eq_countP]
  have all := between_eq_ok_iff.mp compared
  generalize changes.statuses = statuses at all ⊢
  clear compared
  induction all with
  | nil => rfl
  | cons here _ ih =>
      rw [List.countP_cons, List.countP_cons, RenderedFile.isOutdated_of_statusOf here.2]
      exact congrArg (· + _) ih

variable {system : FileSystem} {directory : Path} {files : List RenderedFile} {changes : Changes} {path : Path}

/-- The paths of files that are added or modified. -/
def changed (changes : Changes) : List Path :=
  changes.added ++ changes.modified

theorem mem_withStatus_iff {status : FileStatus} :
    path ∈ changes.withStatus status ↔ (path, status) ∈ changes.statuses := by
  rw [withStatus, List.mem_map]
  constructor
  · rintro ⟨⟨path, other⟩, listed, rfl⟩
    obtain ⟨listed, same⟩ := List.mem_filter.mp listed
    exact beq_iff_eq.mp same ▸ listed
  · intro listed
    exact ⟨_, List.mem_filter.mpr ⟨listed, beq_self_eq_true _⟩, rfl⟩

/-- Every status is that of a file. -/
theorem exists_file_of_mem (compared : between system directory files = .ok changes) {status : FileStatus}
    (listed : (path, status) ∈ changes.statuses) :
    ∃ file ∈ files, file.path = path ∧ statusOf system directory file = .ok status := by
  obtain ⟨file, inFiles, same, found⟩ := (between_eq_ok_iff.mp compared).flip.exists_mem listed
  exact ⟨file, inFiles, same.symm, found⟩

theorem exists_file_of_mem_changed (compared : between system directory files = .ok changes)
    (listed : path ∈ changes.changed) : ∃ file ∈ files, file.path = path := by
  obtain added | modified := List.mem_append.mp listed
  · obtain ⟨file, inFiles, same, _⟩ := exists_file_of_mem compared (mem_withStatus_iff.mp added)
    exact ⟨file, inFiles, same⟩
  · obtain ⟨file, inFiles, same, _⟩ := exists_file_of_mem compared (mem_withStatus_iff.mp modified)
    exact ⟨file, inFiles, same⟩

/-- Plain paths are included only if they are reported themselves. -/
theorem includes_iff (compared : between system directory files = .ok changes)
    (plain : ∀ file ∈ files, file.path.IsPlain) (plainPath : path.IsPlain) :
    changes.includes path = true ↔ path ∈ changes.changed := by
  rw [includes, List.any_eq_true]
  constructor
  · rintro ⟨other, listed, same⟩
    obtain ⟨file, inFiles, rfl⟩ := exists_file_of_mem_changed compared listed
    rwa [← (plain file inFiles).eq_of_components_eq plainPath (beq_iff_eq.mp same)]
  · intro listed
    exact ⟨path, listed, beq_self_eq_true _⟩

end Changes

namespace Project

/-- What writing a plan leaves behind when only changed files are written. -/
structure Plan.WritesChanges (plan : Plan) (before after : FileSystem) : Prop where
  /-- Anywhere but at reported paths at most directories are made. -/
  elsewhere : ∀ location,
    (∀ path ∈ plan.changes.changed, after.locate (Path.join plan.directory path) ≠ .ok location) →
      after.lookup? location = before.lookup? location ∨
        before.lookup? location = none ∧ after.lookup? location = some .directory
  /-- A content that was rendered for a reported path stands there. -/
  changed : ∀ path ∈ plan.changes.changed, ∃ file ∈ plan.files, file.path = path ∧
    ∃ location, after.locate (Path.join plan.directory path) = .ok location ∧
      after.lookup? location = some (.file file.content.toUTF8)
  /-- An output that is reported as nothing but unchanged keeps its bytes. -/
  unchanged : ∀ path ∈ plan.changes.unchanged, path ∉ plan.changes.changed →
    ∃ location content, before.locate (Path.join plan.directory path) = .ok location ∧
      after.locate (Path.join plan.directory path) = .ok location ∧
      before.lookup? location = some (.file content) ∧ after.lookup? location = some (.file content)
  workingDirectory : after.workingDirectory = before.workingDirectory

theorem Plan.write_writesChanges {plan : Plan} {before : FileSystem}
    (compared : Changes.between before plan.directory plan.files = .ok plan.changes)
    (plain : ∀ file ∈ plan.files, file.path.IsPlain) (done : (plan.write before false).failure = none) :
    plan.WritesChanges before (plan.write before false).system := by
  have wrote := writeFiles_wroteAll done
  have reported : ∀ file ∈ plan.files.filter (fun file => false || plan.changes.includes file.path),
      file ∈ plan.files ∧ file.path ∈ plan.changes.changed := by
    intro file chosen
    obtain ⟨listed, included⟩ := List.mem_filter.mp chosen
    rw [Bool.false_or] at included
    exact ⟨listed, (Changes.includes_iff compared plain (plain file listed)).mp included⟩
  refine ⟨?elsewhere, ?changed, ?unchanged, wrote.extended.workingDirectory⟩
  case elsewhere =>
    intro location others
    have notWritten : ¬ ∃ file ∈ plan.files.filter (fun file => false || plan.changes.includes file.path),
        BelongsAt (plan.write before false).system plan.directory file location := by
      rintro ⟨file, chosen, belongs⟩
      exact others file.path (reported file chosen).2 belongs
    cases was : before.lookup? location with
    | some entry => exact .inl ((wrote.kept location entry was).resolve_right notWritten)
    | none =>
        cases held : (plan.write before false).system.lookup? location with
        | none => exact .inl rfl
        | some entry =>
            obtain earlier | directory | written := wrote.made location entry held
            · cases was.symm.trans earlier
            · exact .inr ⟨rfl, congrArg some directory⟩
            · exact absurd written notWritten
  case changed =>
    intro path listed
    obtain ⟨file, inFiles, rfl⟩ := Changes.exists_file_of_mem_changed compared listed
    have included := (Changes.includes_iff compared plain (plain file inFiles)).mpr listed
    obtain ⟨location, belongs, left, leftChosen, leftThere, found⟩ :=
      wrote.written file (List.mem_filter.mpr ⟨inFiles, included⟩)
    have leftInFiles := (reported left leftChosen).1
    have same := FileSystem.eq_of_locate_join (plain left leftInFiles) (plain file inFiles) leftThere belongs
    exact ⟨left, leftInFiles, same, location, belongs, found⟩
  case unchanged =>
    intro path listed others
    obtain ⟨file, inFiles, rfl, was⟩ := Changes.exists_file_of_mem compared (Changes.mem_withStatus_iff.mp listed)
    obtain ⟨location, text, located, found, _⟩ := Changes.statusOf_eq_unchanged_iff.mp was
    have belongs := FileSystem.locate_extendedBy wrote.extended located
    refine ⟨location, _, located, belongs, found, ?_⟩
    obtain still | ⟨newer, newerChosen, newerThere⟩ := wrote.kept location _ found
    · exact still
    · obtain ⟨newerInFiles, newerReported⟩ := reported newer newerChosen
      have same := FileSystem.eq_of_locate_join (plain newer newerInFiles) (plain file inFiles) newerThere belongs
      exact absurd (same ▸ newerReported) others

/-- Files are written until one cannot be written. -/
theorem writeFiles_failure {directory : Path} {system : FileSystem} {files : List RenderedFile} {reason : Failure}
    (failed : (writeFiles directory system files).failure = some reason) : ∃ cause, reason = .output cause := by
  induction files generalizing system with
  | nil => cases failed
  | cons file rest ih =>
      rw [writeFiles_cons] at failed
      rcases written : system.writeBelow (Path.join directory file.path) file.content.toUTF8 with
        ⟨middle, cause | ⟨⟩⟩
      · rw [written] at failed
        exact ⟨cause, (Option.some.inj failed).symm⟩
      · rw [written] at failed
        exact ih failed

variable {surroundings : Surroundings} {config : Config} {before : FileSystem}

/-- A command documents a source, or else the roots of each pass, in a directory. -/
inductive Documents (config : Config) : Command → Option Path → Path → Prop where
  | generate (source output : Option Path) (force : Bool) :
      Documents config (.generate source output force) source (output.getD config.docsDirectory)
  | sync (dryRun failOnChanges : Bool) :
      Documents config (.sync dryRun failOnChanges) none config.docsDirectory

/-- A command that documents writes no more than what has changed. -/
inductive WritesWhatChanged (config : Config) : Command → Option Path → Path → Prop where
  | generate (source output : Option Path) :
      WritesWhatChanged config (.generate source output false) source (output.getD config.docsDirectory)
  | sync : WritesWhatChanged config (.sync false false) none config.docsDirectory

theorem execute_of_plan_eq_error {command : Command} {source : Option Path} {directory : Path}
    {reason : Failure} (documents : Documents config command source directory)
    (failed : plan surroundings config before source directory = .error reason) :
    execute surroundings config before command = .unchanged before (some reason) := by
  cases documents with
  | generate => rw [execute, generate, failed]
  | sync => rw [execute, sync, failed]

/-- With a plan a run leaves everything as it was, which it may call out of date, or it writes the plan. -/
theorem execute_of_plan_eq_ok {command : Command} {source : Option Path} {directory : Path} {prepared : Plan}
    (documents : Documents config command source directory)
    (planned : plan surroundings config before source directory = .ok prepared) :
    execute surroundings config before command = .unchanged before none ∨
      (∃ count, execute surroundings config before command = .unchanged before (some (.stale count))) ∨
        ∃ force, execute surroundings config before command = prepared.write before force := by
  cases documents with
  | generate source output force =>
      refine .inr (.inr ⟨force, ?_⟩)
      rw [execute, generate, planned]
  | sync dryRun failOnChanges =>
      rw [execute, sync, planned]
      simp only
      split
      · exact .inl rfl
      · split
        · exact .inr (.inl ⟨_, rfl⟩)
        · split
          · exact .inl rfl
          · exact .inr (.inr ⟨false, rfl⟩)

theorem execute_of_writesWhatChanged {command : Command} {source : Option Path} {directory : Path}
    (writes : WritesWhatChanged config command source directory)
    (done : (execute surroundings config before command).failure = none) :
    ∃ prepared, plan surroundings config before source directory = .ok prepared ∧
      execute surroundings config before command = prepared.write before false := by
  have documents : Documents config command source directory := by
    cases writes with
    | generate source output => exact .generate source output false
    | sync => exact .sync false false
  cases planned : plan surroundings config before source directory with
  | error reason =>
      rw [execute_of_plan_eq_error documents planned] at done
      cases done
  | ok prepared =>
      refine ⟨prepared, rfl, ?_⟩
      cases writes with
      | generate => rw [execute, generate, planned]
      | sync => exact sync_eq_write planned

/-- Told to look, a run leaves everything as it was. -/
theorem sync_eq_unchanged {dryRun failOnChanges : Bool} (look : (dryRun || failOnChanges) = true) :
    ∃ failure, sync surroundings config before dryRun failOnChanges = .unchanged before failure := by
  rw [sync]
  cases plan surroundings config before none config.docsDirectory with
  | error reason => exact ⟨_, rfl⟩
  | ok prepared =>
      by_cases nothing : prepared.changes.count = 0
      · exact ⟨none, by simp only [nothing, if_true]⟩
      · cases failOnChanges with
        | true => exact ⟨some (.stale prepared.changes.count), by simp only [nothing, if_false, if_true]⟩
        | false =>
            rw [Bool.or_false] at look
            exact ⟨none, by simp only [nothing, if_false, Bool.false_eq_true, look, if_true]⟩

/-- With a plan, a run says how many changes there are if it is told to and there are any, and only then. -/
theorem sync_stale_iff_of_plan {dryRun failOnChanges : Bool} {count : Nat} {prepared : Plan}
    (planned : plan surroundings config before none config.docsDirectory = .ok prepared) :
    (sync surroundings config before dryRun failOnChanges).failure = some (.stale count) ↔
      failOnChanges = true ∧ 0 < count ∧ prepared.changes.count = count := by
  rw [sync, planned]
  by_cases nothing : prepared.changes.count = 0
  · simp only [nothing, if_true]
    constructor
    · intro stale
      cases stale
    · rintro ⟨_, positive, rfl⟩
      exact absurd positive (Nat.lt_irrefl 0)
  · cases failOnChanges with
    | true =>
        simp only [nothing, if_false, if_true]
        constructor
        · intro stale
          cases Option.some.inj stale
          exact ⟨trivial, Nat.pos_of_ne_zero nothing, rfl⟩
        · rintro ⟨_, _, rfl⟩
          rfl
    | false =>
        simp only [nothing, if_false, Bool.false_eq_true, false_and, iff_false]
        intro stale
        split at stale
        · cases stale
        · obtain ⟨cause, same⟩ := writeFiles_failure stale
          cases same

/-- A run says how many files are out of date if it is told to and there are any, and only then. -/
theorem sync_stale_iff {dryRun failOnChanges : Bool} {count : Nat} :
    (sync surroundings config before dryRun failOnChanges).failure = some (.stale count) ↔
      failOnChanges = true ∧ 0 < count ∧
        ∃ prepared, plan surroundings config before none config.docsDirectory = .ok prepared ∧
          prepared.files.countP (RenderedFile.isOutdated before config.docsDirectory) = count := by
  cases planned : plan surroundings config before none config.docsDirectory with
  | error reason =>
      have early := (obstacle_of_plan planned).1
      rw [sync, planned]
      constructor
      · intro stale
        cases Option.some.inj stale
        exact early.elim
      · rintro ⟨_, _, prepared, noPlan, _⟩
        cases noPlan
  | ok prepared =>
      obtain ⟨_, _, _, _, _, _, _, compared⟩ := plan_eq_ok_iff.mp planned
      rw [sync_stale_iff_of_plan planned, Changes.count_eq_countP_outdated compared]
      refine and_congr_right fun _ => and_congr_right fun _ => ?_
      constructor
      · intro number
        exact ⟨prepared, rfl, number⟩
      · rintro ⟨found, same, number⟩
        cases Except.ok.inj same
        exact number

/-- No package that is documented has a slash in its name. -/
def SlashFree (surroundings : Surroundings) (config : Config) (system : FileSystem) (source : Option Path) : Prop :=
  ∀ documented sourceHash, document surroundings config system source = .ok (documented, sourceHash) →
    ∀ package ∈ documented.packages, '/' ∉ package.name.toList

/-- Names of packages without slashes make plain paths. -/
theorem isPlain_of_plan {source : Option Path} {directory : Path} {prepared : Plan}
    (names : SlashFree surroundings config before source)
    (planned : plan surroundings config before source directory = .ok prepared) :
    ∀ file ∈ prepared.files, file.path.IsPlain := by
  obtain ⟨documented, sourceHash, formats, read, _, _, files, _⟩ := plan_eq_ok_iff.mp planned
  intro file listed
  exact (Module.isOutput_of_mem_renderAll (names documented sourceHash read) (files ▸ listed)).plain

/-- What a run does to a file system, and what it says about that. -/
structure Reports (surroundings : Surroundings) (config : Config) (before : FileSystem) : Prop where
  /-- A run that is only to look leaves everything as it was. -/
  looks : ∀ dryRun failOnChanges, (dryRun || failOnChanges) = true →
    ∃ failure, execute surroundings config before (.sync dryRun failOnChanges) = .unchanged before failure
  /-- It says how many files are outdated if it is told to and there are any. -/
  stale : ∀ dryRun failOnChanges count,
    (execute surroundings config before (.sync dryRun failOnChanges)).failure = some (.stale count) ↔
      failOnChanges = true ∧ 0 < count ∧
        ∃ prepared, plan surroundings config before none config.docsDirectory = .ok prepared ∧
          prepared.files.countP (RenderedFile.isOutdated before config.docsDirectory) = count
  /-- Outdated files are missing or differ, and those that are missing or differ are outdated unless digests
  collide. -/
  outdated : ∀ source directory prepared, plan surroundings config before source directory = .ok prepared →
    ∀ file ∈ prepared.files,
      (file.isOutdated before directory = true → file.IsMissingOrDiffers before directory) ∧
        (file.HasOwnDigest before directory →
          file.IsMissingOrDiffers before directory → file.isOutdated before directory = true)
  /-- A run that meets an obstacle fails and leaves everything as it was. -/
  obstacle : ∀ command source directory, Documents config command source directory →
    Obstacle surroundings config before source directory →
      ∃ reason, execute surroundings config before command = .unchanged before (some reason)
  /-- A run that fails has met an obstacle or found outdated files, and leaves everything as it was, unless
  something could not be written. -/
  failure : ∀ command source directory, Documents config command source directory →
    ∀ reason, (execute surroundings config before command).failure = some reason →
      execute surroundings config before command = .unchanged before (some reason) ∧
          (reason.IsEarly ∧ Obstacle surroundings config before source directory ∨
            ∃ count, reason = .stale count) ∨
        ∃ cause, reason = .output cause
  /-- A run that is not to write everything writes the changes of its plan. -/
  writes : ∀ command source directory, WritesWhatChanged config command source directory →
    SlashFree surroundings config before source → (execute surroundings config before command).failure = none →
      ∃ prepared, plan surroundings config before source directory = .ok prepared ∧
        prepared.WritesChanges before (execute surroundings config before command).system

/-- Runs change nothing but what they report. -/
theorem execute_reports (surroundings : Surroundings) (config : Config) (before : FileSystem) :
    Reports surroundings config before where
  looks _ _ look := sync_eq_unchanged look
  stale _ _ _ := sync_stale_iff
  outdated source directory prepared planned file listed := by
    obtain ⟨_, _, _, _, _, _, _, compared⟩ := plan_eq_ok_iff.mp planned
    have readable := Changes.not_unreadable_of_between compared listed
    exact ⟨RenderedFile.isMissingOrDiffers_of_isOutdated readable, RenderedFile.isOutdated_of_isMissingOrDiffers⟩
  obstacle command source directory documents obstacle := by
    obtain ⟨reason, failed⟩ := obstacle.exists_plan_eq_error
    exact ⟨reason, execute_of_plan_eq_error documents failed⟩
  failure command source directory documents reason failed := by
    cases planned : plan surroundings config before source directory with
    | error cause =>
        have same := execute_of_plan_eq_error documents planned
        rw [same] at failed
        obtain rfl : cause = reason := Option.some.inj failed
        exact .inl ⟨same, .inl (obstacle_of_plan planned)⟩
    | ok prepared =>
        obtain same | ⟨count, same⟩ | ⟨force, same⟩ := execute_of_plan_eq_ok documents planned
        · rw [same] at failed
          cases failed
        · rw [same] at failed
          obtain rfl : .stale count = reason := Option.some.inj failed
          exact .inl ⟨same, .inr ⟨count, rfl⟩⟩
        · rw [same] at failed
          exact .inr (writeFiles_failure failed)
  writes command source directory writes names done := by
    obtain ⟨prepared, planned, executed⟩ := execute_of_writesWhatChanged writes done
    obtain ⟨_, _, _, _, _, rfl, _, compared⟩ := plan_eq_ok_iff.mp planned
    rw [executed] at done ⊢
    exact ⟨prepared, planned, Plan.write_writesChanges compared (isPlain_of_plan names planned) done⟩

/-- Three files are to be added to the sample; a run that is told to fail says so and writes none of them. -/
theorem execute_reports_sampleSystem :
    (execute sampleSurroundings sampleConfig sampleSystem (.sync false true)).failure = some (.stale 3) ∧
      (execute sampleSurroundings sampleConfig sampleSystem (.sync false true)).system = sampleSystem ∧
      (execute sampleSurroundings sampleConfig sampleSystem (.generate (some "lost") none true)).system =
        sampleSystem ∧
      ∃ prepared, plan sampleSurroundings sampleConfig sampleSystem none "docs" = .ok prepared ∧
        prepared.WritesChanges sampleSystem
          (execute sampleSurroundings sampleConfig sampleSystem (.generate none none false)).system := by
  have reports := execute_reports sampleSurroundings sampleConfig sampleSystem
  refine ⟨?stale, ?looks, ?obstacle, ?writes⟩
  case stale =>
    refine (reports.stale _ _ _).mpr ⟨rfl, by decide, ?_⟩
    have outdated : (plan sampleSurroundings sampleConfig sampleSystem none sampleConfig.docsDirectory).toOption.map
        (fun found => found.files.countP (RenderedFile.isOutdated sampleSystem sampleConfig.docsDirectory)) =
          some 3 := by
      decide +kernel
    cases planned : plan sampleSurroundings sampleConfig sampleSystem none sampleConfig.docsDirectory with
    | error reason =>
        rw [planned] at outdated
        cases outdated
    | ok prepared =>
        rw [planned] at outdated
        exact ⟨prepared, rfl, Option.some.inj outdated⟩
  case looks =>
    obtain ⟨failure, same⟩ := reports.looks false true rfl
    rw [same]
    rfl
  case obstacle =>
    have lost : Obstacle sampleSurroundings sampleConfig sampleSystem (some "lost") sampleConfig.docsDirectory :=
      .missingRoot List.mem_cons_self List.mem_cons_self (by decide)
    obtain ⟨reason, same⟩ := reports.obstacle _ _ _ (.generate (some "lost") none true) lost
    rw [same]
    rfl
  case writes =>
    refine reports.writes _ _ _ (.generate none none) ?_ sample_done
    intro documented sourceHash read package held
    exact (sample_orderly.packageNames documented sourceHash read package held).2

end Project

end ApiDocs
