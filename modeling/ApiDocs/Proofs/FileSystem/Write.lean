import ApiDocs.Proofs.FileSystem.Locate

/-!
# Writes to file systems

A write below a path makes the directories that are missing and puts one file.  Directories stay what they are,
and a path leads where it has led before.
-/

namespace ApiDocs

namespace FileSystem

/-- Every directory is still there. -/
structure ExtendedBy (before after : FileSystem) : Prop where
  workingDirectory : after.workingDirectory = before.workingDirectory
  directory : ∀ location, before.lookup? location = some .directory → after.lookup? location = some .directory

namespace ExtendedBy

variable {before middle after : FileSystem}

theorem refl (system : FileSystem) : system.ExtendedBy system :=
  ⟨rfl, fun _ found => found⟩

theorem trans (first : before.ExtendedBy middle) (second : middle.ExtendedBy after) :
    before.ExtendedBy after :=
  ⟨second.workingDirectory.trans first.workingDirectory,
    fun location found => second.directory location (first.directory location found)⟩

end ExtendedBy

theorem requireDirectory_eq_ok {system : FileSystem} {location : Location} :
    system.requireDirectory location = .ok () ↔ system.lookup? location = some .directory := by
  unfold requireDirectory
  split <;> simp_all

/-- A step starts from a directory, and nothing else of the file system matters. -/
theorem step_of_directory {before after : FileSystem} {location next : Location} {piece : String}
    (stepped : before.step location piece = .ok next) (directory : after.lookup? location = some .directory) :
    after.step location piece = .ok next := by
  obtain ⟨_, _, led⟩ := Except.bind_eq_ok_iff.mp stepped
  exact Except.bind_eq_ok_iff.mpr ⟨(), requireDirectory_eq_ok.mpr directory, led⟩

theorem directory_of_step {system : FileSystem} {location next : Location} {piece : String}
    (stepped : system.step location piece = .ok next) : system.lookup? location = some .directory := by
  obtain ⟨_, required, _⟩ := Except.bind_eq_ok_iff.mp stepped
  exact requireDirectory_eq_ok.mp required

theorem foldlM_step_extendedBy {before after : FileSystem} (extended : before.ExtendedBy after)
    {start location : Location} {pieces : List String}
    (followed : pieces.foldlM before.step start = .ok location) :
    pieces.foldlM after.step start = .ok location := by
  induction pieces generalizing start with
  | nil => exact followed
  | cons first rest ih =>
      rw [List.foldlM_cons] at followed ⊢
      obtain ⟨next, stepped, later⟩ := Except.bind_eq_ok_iff.mp followed
      have directory := extended.directory _ (directory_of_step stepped)
      exact Except.bind_eq_ok_iff.mpr ⟨next, step_of_directory stepped directory, ih later⟩

/-- A path leads where it has led before. -/
theorem locate_extendedBy {before after : FileSystem} (extended : before.ExtendedBy after) {path : Path}
    {location : Location} (located : before.locate path = .ok location) :
    after.locate path = .ok location := by
  obtain ⟨nonempty, short, followed⟩ := locate_eq_ok_iff.mp located
  refine locate_eq_ok_iff.mpr ⟨nonempty, short, ?_⟩
  rw [startOf, extended.workingDirectory]
  exact foldlM_step_extendedBy extended followed

/-- At most directories have been made. -/
structure PreparedBy (before after : FileSystem) : Prop where
  workingDirectory : after.workingDirectory = before.workingDirectory
  kept : ∀ location entry, before.lookup? location = some entry → after.lookup? location = some entry
  made : ∀ location entry, after.lookup? location = some entry →
    before.lookup? location = some entry ∨ entry = .directory

namespace PreparedBy

variable {before middle after : FileSystem}

theorem refl (system : FileSystem) : system.PreparedBy system :=
  ⟨rfl, fun _ _ found => found, fun _ _ found => .inl found⟩

theorem trans (first : before.PreparedBy middle) (second : middle.PreparedBy after) :
    before.PreparedBy after where
  workingDirectory := second.workingDirectory.trans first.workingDirectory
  kept location entry found := second.kept location entry (first.kept location entry found)
  made location entry found := by
    obtain older | rfl := second.made location entry found
    · exact first.made location entry older
    · exact .inr rfl

theorem extendedBy (prepared : before.PreparedBy after) : before.ExtendedBy after :=
  ⟨prepared.workingDirectory, fun location => prepared.kept location .directory⟩

end PreparedBy

theorem ne_nil_of_lookup?_ne {system : FileSystem} {location : Location}
    (noDirectory : system.lookup? location ≠ some .directory) : location ≠ [] := by
  rintro rfl
  exact noDirectory rfl

theorem ne_nil_of_lookup?_eq_file {system : FileSystem} {location : Location} {content : ByteArray}
    (found : system.lookup? location = some (.file content)) : location ≠ [] := by
  apply ne_nil_of_lookup?_ne
  intro directory
  cases found.symm.trans directory

theorem preparedBy_put {system : FileSystem} {location : Location}
    (nothing : system.lookup? location = none) : system.PreparedBy (system.put location .directory) where
  workingDirectory := rfl
  kept other entry found := by
    have different : other ≠ location := by
      rintro rfl
      cases nothing.symm.trans found
    rw [lookup?_put_of_ne _ _ different, found]
  made other entry found := by
    by_cases same : other = location
    · subst same
      have inside : other ≠ [] := ne_nil_of_lookup?_ne (by rw [nothing]; exact nofun)
      rw [lookup?_put_self _ _ inside, Option.some.injEq] at found
      exact .inr found.symm
    · rw [lookup?_put_of_ne _ _ same] at found
      exact .inl found

/-- A directory is made where nothing stands. -/
theorem makeDirectory_eq_ok {before after : FileSystem} {path : Path}
    (made : before.makeDirectory path = .ok after) :
    ∃ location, before.locate path = .ok location ∧ before.lookup? location = none ∧
      after = before.put location .directory := by
  obtain ⟨location, located, put⟩ := Except.bind_eq_ok_iff.mp made
  split at put
  · cases put
  · rename_i nothing
    exact ⟨location, located, nothing, (Except.ok.inj put).symm⟩

/-- Directories are made one by one, whether all of them can be made or not.  What making one keeps, making
several keeps. -/
theorem makeDirectoriesTo_keeps {holds : FileSystem → Prop}
    (keeps : ∀ before path after, holds before → before.makeDirectory path = .ok after → holds after)
    {system : FileSystem} (start : holds system) (components : List Path.Component) :
    holds (system.makeDirectoriesTo components).1 := by
  induction components with
  | nil => exact start
  | cons last above ih =>
      rw [makeDirectoriesTo]
      split
      · rename_i made
        exact keeps _ _ _ start made
      · split
        · rename_i prepared reason same
          rwa [same] at ih
        · rename_i prepared same
          rw [same] at ih
          split
          · rename_i made
            exact keeps _ _ _ ih made
          · exact ih
      · exact start

theorem preparedBy_makeDirectoriesTo (system : FileSystem) (components : List Path.Component) :
    system.PreparedBy (system.makeDirectoriesTo components).1 := by
  refine makeDirectoriesTo_keeps (fun before path after ready made => ?_) (.refl system) components
  obtain ⟨location, _, nothing, rfl⟩ := makeDirectory_eq_ok made
  exact ready.trans (preparedBy_put nothing)

/-- What a write of a file below a path leaves behind. -/
structure Wrote (before : FileSystem) (path : Path) (content : ByteArray) (location : Location)
    (after : FileSystem) : Prop where
  extended : before.ExtendedBy after
  located : after.locate path = .ok location
  found : after.lookup? location = some (.file content)
  kept : ∀ other entry, other ≠ location → before.lookup? other = some entry →
    after.lookup? other = some entry
  made : ∀ other entry, other ≠ location → after.lookup? other = some entry →
    before.lookup? other = some entry ∨ entry = .directory

/-- A file is put where nothing or another file stands. -/
theorem write_eq_ok {before after : FileSystem} {path : Path} {content : ByteArray}
    (written : before.write path content = .ok after) :
    ∃ location, before.locate path = .ok location ∧ before.lookup? location ≠ some .directory ∧
      after = before.put location (.file content) := by
  obtain ⟨location, located, put⟩ := Except.bind_eq_ok_iff.mp written
  split at put
  · cases put
  · rename_i noDirectory
    refine ⟨location, located, fun directory => ?_, (Except.ok.inj put).symm⟩
    exact noDirectory (by rw [isDirectoryAt, directory])

theorem writeBelow_wrote {before after : FileSystem} {path : Path} {content : ByteArray}
    (written : before.writeBelow path content = (after, .ok ())) :
    ∃ location, before.Wrote path content location after := by
  unfold writeBelow at written
  have ready := preparedBy_makeDirectoriesTo before (Path.components path).dropLast.reverse
  split at written
  · cases congrArg Prod.snd written
  · rename_i prepared same
    rw [same] at ready
    split at written
    · rename_i put
      obtain ⟨location, located, noDirectory, rfl⟩ := write_eq_ok put
      obtain rfl := congrArg Prod.fst written
      have inside := ne_nil_of_lookup?_ne noDirectory
      have extended : prepared.ExtendedBy (prepared.put location (.file content)) := by
        refine ⟨rfl, fun other directory => ?_⟩
        have different : other ≠ location := by
          rintro rfl
          exact noDirectory directory
        rw [lookup?_put_of_ne _ _ different, directory]
      refine ⟨location, ⟨ready.extendedBy.trans extended, locate_extendedBy extended located,
        lookup?_put_self _ _ inside, ?_, ?_⟩⟩
      · intro other entry different found
        rw [lookup?_put_of_ne _ _ different]
        exact ready.kept other entry found
      · intro other entry different found
        rw [lookup?_put_of_ne _ _ different] at found
        exact ready.made other entry found
    · cases congrArg Prod.snd written

end FileSystem

end ApiDocs
