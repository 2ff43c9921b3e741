import ApiDocs.Proofs.Project.WellFormed
import ApiDocs.Proofs.Source

/-!
# Updates of the documentation

A run that brings the documentation up to date writes a plan.  What it writes is no source, so that the next run
reads the sources as this one has.
-/

namespace ApiDocs

namespace Surroundings

/-- The surroundings of a run at another time. -/
def withClock (surroundings : Surroundings) (clock : Nat → String) : Surroundings :=
  { surroundings with clock }

end Surroundings

namespace Changes

theorem includes_eq_false_of_count {changes : Changes} (none : changes.count = 0) (path : Path) :
    changes.includes path = false := by
  obtain ⟨noneAdded, noneModified⟩ := Nat.add_eq_zero_iff.mp none
  rw [includes, List.length_eq_zero_iff.mp noneAdded, List.length_eq_zero_iff.mp noneModified]
  rfl

end Changes

namespace Project

variable {surroundings : Surroundings} {config : Config} {before after : FileSystem}

/-- The commands that bring the documentation of a project up to date. -/
inductive Updates : Command → Prop where
  | generate (force : Bool) : Updates (.generate none none force)
  | sync : Updates (.sync false false)

/-- From the roots of all passes the same sources are read. -/
def SameSources (surroundings : Surroundings) (config : Config) (before after : FileSystem) : Prop :=
  ∀ pass ∈ config.passes, ∀ root ∈ pass.sourceRoots,
    Source.readBelow surroundings.syntaxOf config.ignorePatterns config.maxFileSize after root =
      Source.readBelow surroundings.syntaxOf config.ignorePatterns config.maxFileSize before root

/-- The names in a project can stand in front matter and in file names, and no two rendered files dispute a
path. -/
structure Orderly (surroundings : Surroundings) (config : Config) (system : FileSystem) : Prop where
  moduleName : OneLine config.name
  packageNames : ∀ documented sourceHash,
    document surroundings config system none = .ok (documented, sourceHash) →
      ∀ package ∈ documented.packages, OneLine package.name ∧ '/' ∉ package.name.toList
  files : ∀ prepared, plan surroundings config system none config.docsDirectory = .ok prepared →
    Agree prepared.files

/-- A plan that has nothing to change writes nothing. -/
theorem write_of_count_eq_zero {prepared : Plan} (nothing : prepared.changes.count = 0)
    (system : FileSystem) : prepared.write system false = .unchanged system none := by
  rw [Plan.write, List.filter_eq_nil_iff.mpr]
  · rfl
  · intro file _
    rw [Changes.includes_eq_false_of_count nothing]
    exact Bool.false_ne_true

/-- With a plan, a synchronization that is to do more than look writes it. -/
theorem sync_eq_write {prepared : Plan}
    (planned : plan surroundings config before none config.docsDirectory = .ok prepared) :
    sync surroundings config before false false = prepared.write before false := by
  rw [sync, planned]
  by_cases nothing : prepared.changes.count = 0
  · simp only [nothing, if_true, write_of_count_eq_zero nothing]
  · simp only [nothing, if_false, Bool.false_eq_true]

/-- An update that does not fail writes a plan. -/
theorem exists_plan_of_updates {command : Command} (updates : Updates command)
    (done : (execute surroundings config before command).failure = none) :
    ∃ prepared force, plan surroundings config before none config.docsDirectory = .ok prepared ∧
      execute surroundings config before command = prepared.write before force := by
  cases planned : plan surroundings config before none config.docsDirectory with
  | error reason =>
      cases updates with
      | generate force =>
          rw [execute, Option.getD_none, generate, planned] at done
          cases done
      | sync =>
          rw [execute, sync, planned] at done
          cases done
  | ok prepared =>
      cases updates with
      | generate force =>
          refine ⟨prepared, force, rfl, ?_⟩
          rw [execute, Option.getD_none, generate, planned]
      | sync =>
          exact ⟨prepared, false, rfl, sync_eq_write planned⟩

/-- What is documented does not depend on the time, and on nothing in the file system but the sources. -/
theorem document_eq_of_sameSources (same : SameSources surroundings config before after)
    (clock : Nat → String) :
    document (surroundings.withClock clock) config after none = document surroundings config before none := by
  have passes : config.passes.mapM (documentPass (surroundings.withClock clock) config after none) =
      config.passes.mapM (documentPass surroundings config before none) := by
    refine Except.mapM_congr fun pass listed => ?_
    have sources : pass.sourceRoots.mapM (Source.readBelow surroundings.syntaxOf config.ignorePatterns
          config.maxFileSize after) =
        pass.sourceRoots.mapM (Source.readBelow surroundings.syntaxOf config.ignorePatterns
          config.maxFileSize before) :=
      Except.mapM_congr (same pass listed)
    simp only [documentPass, Surroundings.withClock, sources]
  rw [document, document, passes]

theorem name_of_document {documented : Module} {sourceHash : String}
    (read : document surroundings config before none = .ok (documented, sourceHash)) :
    documented.name = config.name := by
  obtain ⟨passes, _, same⟩ := Except.bind_eq_ok_iff.mp read
  obtain ⟨rfl, _⟩ := Prod.mk.inj (Except.ok.inj same)
  rfl

/-- The parts of a plan. -/
theorem plan_eq_ok_iff {system : FileSystem} {source : Option Path} {directory : Path} {prepared : Plan} :
    plan surroundings config system source directory = .ok prepared ↔
      ∃ documented sourceHash formats,
        document surroundings config system source = .ok (documented, sourceHash) ∧
        Project.formats config = .ok formats ∧
        prepared.directory = directory ∧
        prepared.files =
          documented.renderAll ⟨config.includeMetadata, sourceHash, surroundings.clock⟩ formats ∧
        Changes.between system directory prepared.files = .ok prepared.changes := by
  rw [plan, Except.bind_eq_ok_iff]
  constructor
  · rintro ⟨⟨documented, sourceHash⟩, read, later⟩
    obtain ⟨formats, named, later⟩ := Except.bind_eq_ok_iff.mp later
    obtain ⟨changes, compared, same⟩ := Except.bind_eq_ok_iff.mp later
    obtain rfl := Except.ok.inj same
    exact ⟨documented, sourceHash, formats, read, named, rfl, rfl, Except.mapError_eq_ok_iff.mp compared⟩
  · rintro ⟨documented, sourceHash, formats, read, named, rfl, files, compared⟩
    refine ⟨(documented, sourceHash), read, Except.bind_eq_ok_iff.mpr ⟨formats, named, ?_⟩⟩
    rw [← files]
    exact Except.bind_eq_ok_iff.mpr ⟨prepared.changes, Except.mapError_eq_ok_iff.mpr compared, rfl⟩

/-- What is written is no source and no ignore file; only a repository that a directory makes can matter. -/
theorem WroteAll.undisturbed {directory : Path} {files : List RenderedFile}
    (wrote : WroteAll directory files before after) (outputs : ∀ file ∈ files, file.path.IsOutput)
    (noRepository : ∀ location, (after.lookup? (location ++ [".git"])).isSome →
      (before.lookup? (location ++ [".git"])).isSome) : before.Undisturbed after where
  extended := wrote.extended
  repository := noRepository
  present location was := by
    obtain ⟨entry, found⟩ := Option.isSome_iff_exists.mp was
    obtain still | ⟨file, listed, belongs⟩ := wrote.kept location entry found
    · rw [still]
      rfl
    · obtain ⟨place, belongsThere, left, _, _, held⟩ := wrote.written file listed
      obtain rfl : place = location := Except.ok.inj (belongsThere.symm.trans belongs)
      rw [held]
      rfl
  file location content noOutput := by
    have elsewhere : ¬ ∃ file ∈ files, BelongsAt after directory file location := by
      rintro ⟨file, listed, belongs⟩
      obtain ⟨front, name, ends, output⟩ := (outputs file listed).name
      obtain ⟨base, rfl⟩ := FileSystem.exists_append_of_locate_join (outputs file listed).plain belongs
      refine noOutput ⟨base ++ front, name, ?_, output⟩
      rw [ends, List.append_assoc]
    constructor
    · intro found
      obtain was | directory | written := wrote.made location _ found
      · exact was
      · cases directory
      · exact absurd written elsewhere
    · intro found
      exact (wrote.kept location _ found).resolve_right elsewhere

/-- The roots that a run has documented are there. -/
theorem isPresent_of_document {documented : Module} {sourceHash : String}
    (read : document surroundings config before none = .ok (documented, sourceHash)) {pass : PassConfig}
    (listed : pass ∈ config.passes) {root : Path} (given : root ∈ pass.sourceRoots) :
    before.isPresent root := by
  obtain ⟨passes, all, _⟩ := Except.bind_eq_ok_iff.mp read
  obtain ⟨found, _, one⟩ := (Except.mapM_eq_ok_iff.mp all).exists_mem listed
  obtain ⟨platform, _, later⟩ := Except.bind_eq_ok_iff.mp one
  obtain ⟨sources, roots, _⟩ := Except.bind_eq_ok_iff.mp later
  obtain ⟨below, _, readBelow⟩ := (Except.mapM_eq_ok_iff.mp roots).exists_mem given
  exact (Source.isPresent_of_readBelow readBelow).1

/-- An update leaves the sources as they were, unless it makes a directory that is taken for a repository. -/
theorem sameSources_of_update (wellFormed : before.WellFormed) (orderly : Orderly surroundings config before)
    {command : Command} (updates : Updates command)
    (done : (execute surroundings config before command).failure = none)
    (noRepository : ∀ location,
      ((execute surroundings config before command).system.lookup? (location ++ [".git"])).isSome →
        (before.lookup? (location ++ [".git"])).isSome) :
    SameSources surroundings config before (execute surroundings config before command).system := by
  have wellFormedAfter := execute_wellFormed surroundings config wellFormed command
  obtain ⟨prepared, force, planned, executed⟩ := exists_plan_of_updates updates done
  rw [executed] at done noRepository wellFormedAfter ⊢
  obtain ⟨documented, sourceHash, formats, read, _, _, files, _⟩ := plan_eq_ok_iff.mp planned
  have names := orderly.packageNames documented sourceHash read
  have undisturbed : before.Undisturbed (prepared.write before force).system := by
    refine (writeFiles_wroteAll done).undisturbed (fun file chosen => ?_) noRepository
    have listed := List.mem_of_mem_filter chosen
    exact Module.isOutput_of_mem_renderAll (fun package held => (names package held).2) (files ▸ listed)
  intro pass listed root given
  exact Source.readBelow_eq undisturbed wellFormed wellFormedAfter _ _ _
    (isPresent_of_document read listed given)

end Project

end ApiDocs
