import ApiDocs.Proofs.Project.Updates

/-!
# Convergence

A run that has brought the documentation up to date leaves nothing to do for the next one, at whatever time that
one renders: as long as the sources stay the same, it finds no changes.  The run itself does not change them: in a
well-formed file system `sameSources_of_update` shows that the sources are the same right after it, unless it has
made a directory `.git`, which brings ignore files into effect.
-/

namespace ApiDocs

namespace Project

variable {surroundings : Surroundings} {config : Config} {before : FileSystem}

/-- After an update that has not failed, and as long as the sources stay the same, the next run finds no changes
at any later time: it succeeds even if it is told to fail on changes, and it writes nothing. -/
theorem update_converges (orderly : Orderly surroundings config before)
    (times : ∀ place, OneLine (surroundings.clock place)) {command : Command} (updates : Updates command)
    (done : (execute surroundings config before command).failure = none)
    (same : SameSources surroundings config before (execute surroundings config before command).system)
    {later : Nat → String} (laterTimes : ∀ place, OneLine (later place)) :
    (∃ prepared,
      plan (surroundings.withClock later) config (execute surroundings config before command).system none
        config.docsDirectory = .ok prepared ∧ prepared.changes.count = 0) ∧
      ∀ dryRun failOnChanges,
        execute (surroundings.withClock later) config (execute surroundings config before command).system
            (.sync dryRun failOnChanges) =
          .unchanged (execute surroundings config before command).system none := by
  obtain ⟨prepared, force, planned, executed⟩ := exists_plan_of_updates updates done
  rw [executed] at done same ⊢
  obtain ⟨documented, sourceHash, formats, read, named, directory, files, compared⟩ :=
    plan_eq_ok_iff.mp planned
  have names := orderly.packageNames documented sourceHash read
  have oneModule : OneLine documented.name := name_of_document read ▸ orderly.moduleName
  have upToDate := Plan.write_upToDate (directory ▸ compared)
    (fun file listed => (Module.isOutput_of_mem_renderAll (fun package held => (names package held).2)
      (files ▸ listed)).plain) (orderly.files prepared planned) done
  have rendered := Module.digested_renderAll oneModule (fun package held => (names package held).1)
    ⟨config.includeMetadata, sourceHash, surroundings.clock⟩ times laterTimes formats
  rw [← files] at rendered
  have upToDateLater : ∀ file ∈ documented.renderAll ⟨config.includeMetadata, sourceHash, later⟩ formats,
      file.UpToDate (prepared.write before force).system config.docsDirectory := by
    intro file listed
    have inMap : file.digested ∈ prepared.files.map RenderedFile.digested :=
      rendered ▸ List.mem_map_of_mem listed
    obtain ⟨earlier, inFiles, digests⟩ := List.mem_map.mp inMap
    exact directory ▸ (upToDate earlier inFiles).of_digested_eq digests
  obtain ⟨changes, comparedLater, nothing⟩ := Changes.exists_between_of_upToDate upToDateLater
  have plannedLater : plan (surroundings.withClock later) config (prepared.write before force).system none
      config.docsDirectory = .ok ⟨config.docsDirectory, _, changes⟩ :=
    plan_eq_ok_iff.mpr ⟨documented, sourceHash, formats,
      (document_eq_of_sameSources same later).trans read, named, rfl, rfl, comparedLater⟩
  refine ⟨⟨_, plannedLater, nothing⟩, fun dryRun failOnChanges => ?_⟩
  rw [execute, sync, plannedLater]
  simp only [nothing, if_true]

/-! A project with one source file and no documentation yet, which is documented on one day and looked at on the
next. -/

/-- The tree of a source that declares one class, which has no members. -/
def sampleTree (className : String) : SyntaxNode :=
  let token (text : String) : SyntaxNode := ⟨text, "", false, false, text, []⟩
  let declared : SyntaxNode :=
    ⟨"class_declaration", "", true, false, "class " ++ className ++ " {}",
      [token "class", ⟨"identifier", "name", true, false, className, []⟩,
        ⟨"class_body", "body", true, false, "{}", [token "\x7b", token "\x7d"]⟩]⟩
  ⟨"program", "", true, false, declared.text, [declared]⟩

/-- A reader that has the trees of two sources, on a fixed day. -/
def sampleSurroundings : Surroundings :=
  let trees := [("class A {}", sampleTree "A"), ("class B {}", sampleTree "B")]
  { syntaxOf := fun source => (trees.lookup source).getD ⟨"program", "", true, false, "", []⟩
    clock := fun _ => "2024-01-01T00:00:00Z" }

/-- The default configuration, with nothing to leave out. -/
def sampleConfig : Config :=
  { Config.default with ignorePatterns := [] }

def sampleSystem : FileSystem :=
  ⟨.ofList [(["work"], .directory), (["work", "src"], .directory),
    (["work", "src", "A.java"], .file "class A {}".toUTF8)], ["work"]⟩

theorem sample_wellFormed : sampleSystem.WellFormed := by
  intro location entry found
  have listed := (SortedMap.get?_eq_some_iff _).mp found
  have entries : sampleSystem.entries.entries = [(["work"], .directory), (["work", "src"], .directory),
      (["work", "src", "A.java"], .file "class A {}".toUTF8)] := rfl
  simp only [entries, List.mem_cons, Prod.mk.injEq, List.not_mem_nil, or_false] at listed
  obtain ⟨rfl, _⟩ | ⟨rfl, _⟩ | ⟨rfl, _⟩ := listed
  · exact ⟨[], "work", rfl, ⟨by decide, by decide, by decide, by decide⟩, rfl⟩
  · exact ⟨["work"], "src", rfl, ⟨by decide, by decide, by decide, by decide⟩, rfl⟩
  · exact ⟨["work", "src"], "A.java", rfl, ⟨by decide, by decide, by decide, by decide⟩, rfl⟩

theorem sample_orderly : Orderly sampleSurroundings sampleConfig sampleSystem where
  moduleName := by decide
  packageNames documented sourceHash read package held := by
    have names : (document sampleSurroundings sampleConfig sampleSystem none).toOption.map
        (fun found => found.1.packages.map Package.name) = some [""] := by
      decide +kernel
    rw [read] at names
    have nameless : package.name ∈ [""] := Option.some.inj names ▸ List.mem_map_of_mem held
    rw [List.mem_singleton.mp nameless]
    decide
  files prepared planned := by
    have paths : (plan sampleSurroundings sampleConfig sampleSystem none sampleConfig.docsDirectory).toOption.map
        (fun found => found.files.map RenderedFile.path) =
          some ["module.json", "index.md", "packages/default.md"] := by
      decide +kernel
    rw [planned] at paths
    have listed : prepared.files.map RenderedFile.path = ["module.json", "index.md", "packages/default.md"] :=
      Option.some.inj paths
    refine .of_nodup ?_
    rw [listed]
    decide

theorem sample_done :
    (execute sampleSurroundings sampleConfig sampleSystem (.generate none none false)).failure = none := by
  rw [← Option.isNone_iff_eq_none]
  decide +kernel

theorem sample_sameSources :
    SameSources sampleSurroundings sampleConfig sampleSystem
      (execute sampleSurroundings sampleConfig sampleSystem (.generate none none false)).system := by
  refine sameSources_of_update sample_wellFormed sample_orderly (.generate false) sample_done fun location held => ?_
  have others : ∀ place ∈ (execute sampleSurroundings sampleConfig sampleSystem
      (.generate none none false)).system.entries.keys, place.getLast? ≠ some ".git" := by
    decide +kernel
  rw [FileSystem.lookup?, if_neg (List.concat_ne_nil _ _), ← SortedMap.mem_keys_iff] at held
  exact absurd List.getLast?_concat (others _ held)

theorem update_converges_sampleSystem :
    let after := (execute sampleSurroundings sampleConfig sampleSystem (.generate none none false)).system
    (∃ prepared,
      plan (sampleSurroundings.withClock fun _ => "2024-01-02T00:00:00Z") sampleConfig after none "docs" =
          .ok prepared ∧ prepared.changes.count = 0) ∧
      ∀ dryRun failOnChanges,
        execute (sampleSurroundings.withClock fun _ => "2024-01-02T00:00:00Z") sampleConfig after
            (.sync dryRun failOnChanges) = .unchanged after none := by
  have times (place : Nat) : OneLine (sampleSurroundings.clock place) := by
    change OneLine "2024-01-01T00:00:00Z"
    decide
  have laterTimes (_ : Nat) : OneLine "2024-01-02T00:00:00Z" := by
    decide
  exact update_converges sample_orderly times (.generate false) sample_done sample_sameSources laterTimes

end Project

end ApiDocs
