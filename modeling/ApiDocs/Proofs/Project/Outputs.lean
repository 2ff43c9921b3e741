import ApiDocs.Project
import ApiDocs.Proofs.Changes
import ApiDocs.Proofs.FileSystem.Write
import Mathlib.Data.List.Nodup

/-!
# Outputs that have been written

A run that writes a plan without a failure leaves every file of the plan up to date, whether it has written the
file or passed it over.
-/

namespace ApiDocs

namespace Project

/-- A rendered file belongs at a location. -/
def BelongsAt (system : FileSystem) (directory : Path) (file : RenderedFile) (location : Location) : Prop :=
  system.locate (Path.join directory file.path) = .ok location

/-- What is left behind when files have been written below a directory.  Of several files that belong at one
location one is left there. -/
structure WroteAll (directory : Path) (files : List RenderedFile) (before after : FileSystem) : Prop where
  extended : before.ExtendedBy after
  written : ∀ file ∈ files, ∃ location, BelongsAt after directory file location ∧
    ∃ left ∈ files, BelongsAt after directory left location ∧
      after.lookup? location = some (.file left.content.toUTF8)
  kept : ∀ location entry, before.lookup? location = some entry →
    after.lookup? location = some entry ∨ ∃ file ∈ files, BelongsAt after directory file location
  made : ∀ location entry, after.lookup? location = some entry →
    before.lookup? location = some entry ∨ entry = .directory ∨
      ∃ file ∈ files, BelongsAt after directory file location

namespace WroteAll

variable {directory : Path} {file : RenderedFile} {files : List RenderedFile}
  {before middle after : FileSystem}

theorem nil (system : FileSystem) : WroteAll directory [] system system where
  extended := .refl system
  written _ listed := absurd listed List.not_mem_nil
  kept _ _ found := .inl found
  made _ _ found := .inl found

/-- One more file is written first. -/
theorem cons {location : Location}
    (first : before.Wrote (Path.join directory file.path) file.content.toUTF8 location middle)
    (rest : WroteAll directory files middle after) : WroteAll directory (file :: files) before after where
  extended := first.extended.trans rest.extended
  written other listed := by
    obtain rfl | later := List.mem_cons.mp listed
    · have belongs : BelongsAt after directory other location :=
        FileSystem.locate_extendedBy rest.extended first.located
      refine ⟨location, belongs, ?_⟩
      obtain still | ⟨newer, inRest, overwrites⟩ := rest.kept _ _ first.found
      · exact ⟨other, List.mem_cons_self, belongs, still⟩
      · obtain ⟨place, belongsThere, left, inFiles, leftThere, found⟩ := rest.written newer inRest
        obtain rfl : place = location := Except.ok.inj (belongsThere.symm.trans overwrites)
        exact ⟨left, List.mem_cons_of_mem _ inFiles, leftThere, found⟩
    · obtain ⟨place, belongs, left, inFiles, leftThere, found⟩ := rest.written other later
      exact ⟨place, belongs, left, List.mem_cons_of_mem _ inFiles, leftThere, found⟩
  kept place entry found := by
    by_cases same : place = location
    · subst same
      exact .inr ⟨file, List.mem_cons_self, FileSystem.locate_extendedBy rest.extended first.located⟩
    · obtain still | ⟨newer, inRest, overwrites⟩ := rest.kept place entry (first.kept place entry same found)
      · exact .inl still
      · exact .inr ⟨newer, List.mem_cons_of_mem _ inRest, overwrites⟩
  made place entry found := by
    obtain earlier | directory | ⟨newer, inRest, overwrites⟩ := rest.made place entry found
    · by_cases same : place = location
      · subst same
        exact .inr (.inr ⟨file, List.mem_cons_self, FileSystem.locate_extendedBy rest.extended first.located⟩)
      · exact (first.made place entry same earlier).imp_right .inl
    · exact .inr (.inl directory)
    · exact .inr (.inr ⟨newer, List.mem_cons_of_mem _ inRest, overwrites⟩)

end WroteAll

-- The equation is checked without looking into how a file is written.
attribute [local irreducible] FileSystem.writeBelow FileSystem.locate in
theorem writeFiles_cons (directory : Path) (system : FileSystem) (file : RenderedFile)
    (rest : List RenderedFile) :
    writeFiles directory system (file :: rest) =
      match system.writeBelow (Path.join directory file.path) file.content.toUTF8 with
      | (after, .error reason) => .unchanged after (some (.output reason))
      | (after, .ok ()) =>
          let outcome := writeFiles directory after rest
          { outcome with
            written := (after.locate (Path.join directory file.path)).toOption.toList ++ outcome.written } := by
  rfl

theorem writeFiles_wroteAll {directory : Path} {files : List RenderedFile} {system : FileSystem}
    (done : (writeFiles directory system files).failure = none) :
    WroteAll directory files system (writeFiles directory system files).system := by
  induction files generalizing system with
  | nil => exact .nil system
  | cons file rest ih =>
      rw [writeFiles_cons] at done ⊢
      rcases written : system.writeBelow (Path.join directory file.path) file.content.toUTF8 with
        ⟨middle, reason | ⟨⟩⟩
      · rw [written] at done
        cases done
      · rw [written] at done
        obtain ⟨location, first⟩ := FileSystem.writeBelow_wrote written
        exact .cons first (ih done)

/-- Files at one path have one digest. -/
def Agree (files : List RenderedFile) : Prop :=
  ∀ first ∈ files, ∀ second ∈ files, first.path = second.path →
    contentDigest first.content = contentDigest second.content

theorem Agree.of_nodup {files : List RenderedFile} (distinct : (files.map RenderedFile.path).Nodup) :
    Agree files := by
  intro first inFirst second inSecond same
  rw [List.inj_on_of_nodup_map distinct inFirst inSecond same]

namespace Plan

variable {plan : Plan} {system : FileSystem} {force : Bool}

/-- A file is written, or it was up to date before. -/
theorem write_upToDate (compared : Changes.between system plan.directory plan.files = .ok plan.changes)
    (plain : ∀ file ∈ plan.files, file.path.IsPlain) (agree : Agree plan.files)
    (done : (plan.write system force).failure = none) :
    ∀ file ∈ plan.files, file.UpToDate (plan.write system force).system plan.directory := by
  have wrote := writeFiles_wroteAll done
  intro file listed
  by_cases chosen : (force || plan.changes.includes file.path) = true
  · obtain ⟨location, belongs, left, inFiles, leftThere, found⟩ :=
      wrote.written file (List.mem_filter.mpr ⟨listed, chosen⟩)
    have leftListed := List.mem_of_mem_filter inFiles
    have paths := FileSystem.eq_of_locate_join (plain left leftListed) (plain file listed) leftThere belongs
    exact ⟨location, left.content, belongs, found, agree left leftListed file listed paths⟩
  · obtain ⟨_, notIncluded⟩ := Bool.or_eq_false_iff.mp (Bool.not_eq_true _ ▸ chosen)
    obtain ⟨⟨path, status⟩, inStatuses, rfl, was⟩ :=
      (Changes.between_eq_ok_iff.mp compared).exists_mem listed
    obtain rfl := Changes.unchanged_of_not_includes inStatuses notIncluded
    obtain ⟨location, text, located, found, digest⟩ := Changes.statusOf_eq_unchanged_iff.mp was
    have belongs := FileSystem.locate_extendedBy wrote.extended located
    refine ⟨location, text, belongs, ?_, digest⟩
    obtain still | ⟨newer, inFiles, newerThere⟩ := wrote.kept location _ found
    · exact still
    · have newerListed := List.mem_of_mem_filter inFiles
      have paths := FileSystem.eq_of_locate_join (plain newer newerListed) (plain file listed) newerThere belongs
      exact absurd (paths ▸ (List.mem_filter.mp inFiles).2) chosen

end Plan

end Project

end ApiDocs
