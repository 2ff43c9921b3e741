import ApiDocs.Proofs.FileSystem.Read
import ApiDocs.Proofs.Rendering

/-!
# Files that are up to date

A rendered file counts as unchanged when a text with its digest stands where it belongs.
-/

namespace ApiDocs

namespace RenderedFile

/-- Where a rendered file belongs stands a text with its digest. -/
def UpToDate (system : FileSystem) (directory : Path) (file : RenderedFile) : Prop :=
  ∃ location text, system.locate (Path.join directory file.path) = .ok location ∧
    system.lookup? location = some (.file text.toUTF8) ∧ contentDigest text = contentDigest file.content

theorem UpToDate.of_digested_eq {system : FileSystem} {directory : Path} {first second : RenderedFile}
    (upToDate : first.UpToDate system directory) (same : first.digested = second.digested) :
    second.UpToDate system directory := by
  obtain ⟨location, text, located, found, digest⟩ := upToDate
  obtain ⟨path, content⟩ := Prod.mk.inj same
  exact ⟨location, text, path ▸ located, found, digest.trans content⟩

end RenderedFile

namespace Changes

theorem statusOf_eq_unchanged_iff {system : FileSystem} {directory : Path} {file : RenderedFile} :
    statusOf system directory file = .ok .unchanged ↔ file.UpToDate system directory := by
  rw [statusOf]
  constructor
  · intro compared
    split at compared
    · obtain ⟨text, read, status⟩ := Except.bind_eq_ok_iff.mp compared
      obtain ⟨location, located, found⟩ := FileSystem.readText_eq_ok_iff.mp read
      refine ⟨location, text, located, found, ?_⟩
      by_contra differ
      rw [hasContentChanged, if_pos (bne_iff_ne.mpr differ)] at status
      cases status
    · cases compared
  · rintro ⟨location, text, located, found, digest⟩
    rw [if_pos (FileSystem.isPresent_iff.mpr ⟨location, _, located, found⟩)]
    refine Except.bind_eq_ok_iff.mpr ⟨text, FileSystem.readText_eq_ok_iff.mpr ⟨location, located, found⟩, ?_⟩
    rw [hasContentChanged, if_neg (by rw [digest, bne_self_eq_false]; exact Bool.false_ne_true)]
    rfl

theorem between_eq_ok_iff {system : FileSystem} {directory : Path} {files : List RenderedFile}
    {changes : Changes} :
    between system directory files = .ok changes ↔
      List.Forall₂ (fun file entry => entry.1 = file.path ∧ statusOf system directory file = .ok entry.2)
        files changes.statuses := by
  rw [between, Except.bind_eq_ok_iff]
  constructor
  · rintro ⟨statuses, compared, same⟩
    obtain rfl := Except.ok.inj same
    refine (Except.mapM_eq_ok_iff.mp compared).imp fun file entry computed => ?_
    obtain ⟨status, found, same⟩ := Except.bind_eq_ok_iff.mp computed
    obtain rfl := Except.ok.inj same
    exact ⟨rfl, found⟩
  · intro compared
    refine ⟨changes.statuses, Except.mapM_eq_ok_iff.mpr (compared.imp fun file entry found => ?_), rfl⟩
    obtain ⟨path, status⟩ := entry
    obtain ⟨rfl, found⟩ := found
    exact Except.bind_eq_ok_iff.mpr ⟨status, found, rfl⟩

theorem count_eq_zero_iff {changes : Changes} :
    changes.count = 0 ↔ ∀ entry ∈ changes.statuses, entry.2 = .unchanged := by
  rw [count, Nat.add_eq_zero_iff, added, modified, withStatus, withStatus]
  simp only [List.length_map, List.length_eq_zero_iff, List.filter_eq_nil_iff, beq_iff_eq]
  constructor
  · rintro ⟨noneAdded, noneModified⟩ entry listed
    cases status : entry.2 with
    | added => exact absurd status (noneAdded entry listed)
    | modified => exact absurd status (noneModified entry listed)
    | unchanged => rfl
  · intro unchanged
    constructor
    all_goals
      intro entry listed status
      cases (unchanged entry listed).symm.trans status

/-- A file that is not among the changed ones has not changed. -/
theorem unchanged_of_not_includes {changes : Changes} {path : Path} {status : FileStatus}
    (listed : (path, status) ∈ changes.statuses) (others : changes.includes path = false) :
    status = .unchanged := by
  have absent : path ∉ changes.added ++ changes.modified := by
    intro changed
    have included : changes.includes path = true := List.any_eq_true.mpr ⟨path, changed, beq_self_eq_true _⟩
    cases others.symm.trans included
  cases status with
  | added =>
      have changed : path ∈ changes.added :=
        List.mem_map.mpr ⟨_, List.mem_filter.mpr ⟨listed, rfl⟩, rfl⟩
      exact absurd (List.mem_append_left _ changed) absent
  | modified =>
      have changed : path ∈ changes.modified :=
        List.mem_map.mpr ⟨_, List.mem_filter.mpr ⟨listed, rfl⟩, rfl⟩
      exact absurd (List.mem_append_right _ changed) absent
  | unchanged => rfl

/-- Files that are all up to date have no changes. -/
theorem exists_between_of_upToDate {system : FileSystem} {directory : Path} {files : List RenderedFile}
    (upToDate : ∀ file ∈ files, file.UpToDate system directory) :
    ∃ changes, between system directory files = .ok changes ∧ changes.count = 0 := by
  refine ⟨⟨files.map fun file => (file.path, .unchanged)⟩, between_eq_ok_iff.mpr ?_, ?_⟩
  · rw [List.forall₂_map_right_iff, List.forall₂_same]
    exact fun file listed => ⟨rfl, statusOf_eq_unchanged_iff.mpr (upToDate file listed)⟩
  · refine count_eq_zero_iff.mpr fun entry listed => ?_
    obtain ⟨file, _, rfl⟩ := List.mem_map.mp listed
    rfl

end Changes

end ApiDocs
