import ApiDocs.Proofs.FileSystem.Write
import Mathlib.Data.List.Induction

/-!
# Well-formed file systems

In a well-formed file system everything has a proper name and stands in a directory.  A path then leads to a
directory or to the name at its end, and whatever is written keeps it so.
-/

namespace ApiDocs

namespace FileSystem

/-- A location is that of a proper name in a directory. -/
def StandsAt (system : FileSystem) (location : Location) : Prop :=
  ∃ above name, location = above ++ [name] ∧ Path.IsName name ∧ system.lookup? above = some .directory

def WellFormed (system : FileSystem) : Prop :=
  ∀ location entry, system.entries.get? location = some entry → system.StandsAt location

namespace WellFormed

variable {system : FileSystem}

theorem standsAt (wellFormed : system.WellFormed) {location : Location} {entry : FileEntry}
    (found : system.lookup? location = some entry) (inside : location ≠ []) : system.StandsAt location := by
  rw [lookup?, if_neg inside] at found
  exact wellFormed location entry found

/-- A path leads to a directory, or to the name at its end. -/
theorem locate_cases (wellFormed : system.WellFormed) {path : Path} {location : Location}
    (located : system.locate path = .ok location) :
    system.lookup? location = some .directory ∨
      ∃ above name, location = above ++ [name] ∧ Path.IsName name ∧
        system.lookup? above = some .directory ∧ Path.fileName? path = some name := by
  obtain ⟨front, piece, ends⟩ : ∃ front piece, Text.fields '/' path = front ++ [piece] := by
    have nonempty : Text.fields '/' path ≠ [] :=
      fun none => List.splitOn_ne_nil _ _ (List.map_eq_nil_iff.mp none)
    exact ⟨_, _, (List.dropLast_append_getLast nonempty).symm⟩
  obtain ⟨_, _, followed⟩ := locate_eq_ok_iff.mp located
  rw [ends, List.foldlM_append] at followed
  obtain ⟨above, _, last⟩ := Except.bind_eq_ok_iff.mp followed
  obtain ⟨_, stepped, same⟩ := Except.bind_eq_ok_iff.mp last
  obtain rfl := Except.ok.inj same
  have directory := directory_of_step stepped
  obtain ⟨_, _, led⟩ := Except.bind_eq_ok_iff.mp stepped
  by_cases here : piece = "" ∨ piece = "."
  · rw [if_pos here] at led
    obtain rfl := Except.ok.inj led
    exact .inl directory
  · rw [if_neg here] at led
    obtain ⟨nonempty, notHere⟩ := not_or.mp here
    by_cases up : piece = ".."
    · rw [if_pos up] at led
      obtain rfl := Except.ok.inj led
      left
      by_cases top : above = []
      · rw [top]
        rfl
      · obtain ⟨parent, name, rfl, _, found⟩ := wellFormed.standsAt directory top
        rwa [List.dropLast_concat]
    · rw [if_neg up] at led
      split at led
      · cases led
      · obtain rfl := Except.ok.inj led
        have listed : piece ∈ Text.fields '/' path := by simp [ends]
        have proper : Path.IsName piece := ⟨nonempty, notHere, up, Path.not_mem_of_mem_fields listed⟩
        exact .inr ⟨above, piece, rfl, proper, directory, Path.fileName?_of_fields proper ends⟩

theorem get?_eq_file_iff (wellFormed : system.WellFormed) {location : Location} {content : ByteArray} :
    system.entries.get? location = some (.file content) ↔ system.lookup? location = some (.file content) := by
  constructor
  · intro held
    obtain ⟨above, name, rfl, _⟩ := wellFormed location _ held
    rwa [lookup?, if_neg (List.concat_ne_nil name above)]
  · intro found
    have inside := ne_nil_of_lookup?_eq_file found
    rwa [lookup?, if_neg inside] at found

/-- What lies below a location lies in directories and under proper names. -/
theorem directory_of_below (wellFormed : system.WellFormed) {location names : Location} {entry : FileEntry}
    (found : system.lookup? (location ++ names) = some entry) :
    (names ≠ [] → system.lookup? location = some .directory) ∧ ∀ name ∈ names, Path.IsName name := by
  induction names using List.reverseRecOn generalizing entry with
  | nil => exact ⟨fun nonempty => absurd rfl nonempty, fun _ listed => absurd listed List.not_mem_nil⟩
  | append_singleton front last ih =>
      rw [← List.append_assoc] at found
      obtain ⟨above, name, same, proper, directory⟩ :=
        wellFormed.standsAt found (List.concat_ne_nil last (location ++ front))
      obtain ⟨rfl, ends⟩ := List.append_inj' same rfl
      obtain rfl : last = name := (List.cons.inj ends).1
      obtain ⟨directoryAbove, properAbove⟩ := ih directory
      refine ⟨fun _ => ?_, fun name listed => ?_⟩
      · by_cases none : front = []
        · rwa [none, List.append_nil] at directory
        · exact directoryAbove none
      · obtain inFront | here := List.mem_append.mp listed
        · exact properAbove name inFront
        · exact List.mem_singleton.mp here ▸ proper

/-- A file below a root has the name at the end of its path. -/
theorem fileName?_below (wellFormed : system.WellFormed) {root : Path} {location names : Location}
    {content : ByteArray} (located : system.locate root = .ok location)
    (found : system.lookup? (location ++ names) = some (.file content)) :
    ∃ above name, location ++ names = above ++ [name] ∧
      Path.fileName? (names.foldl Path.join root) = some name := by
  have inside : location ++ names ≠ [] := ne_nil_of_lookup?_eq_file found
  obtain ⟨above, name, same, proper, _⟩ := wellFormed.standsAt found inside
  refine ⟨above, name, same, ?_⟩
  obtain rfl | ⟨front, last, rfl⟩ := List.eq_nil_or_concat names
  · rw [List.append_nil] at same found
    obtain directory | ⟨other, otherName, otherSame, _, _, named⟩ := wellFormed.locate_cases located
    · cases directory.symm.trans found
    · obtain ⟨_, last⟩ := List.append_inj' (same.symm.trans otherSame) rfl
      obtain rfl : name = otherName := (List.cons.inj last).1
      exact named
  · rw [List.concat_eq_append, ← List.append_assoc] at same
    obtain ⟨_, ends⟩ := List.append_inj' same rfl
    obtain rfl : last = name := (List.cons.inj ends).1
    rw [List.concat_eq_append, List.foldl_append]
    exact Path.fileName?_join proper

theorem foldlM_step_of_extendedBy (wellFormed : system.WellFormed) {after : FileSystem}
    {location names place : Location} {entry : FileEntry}
    (found : system.lookup? (location ++ names) = some entry)
    (again : names.foldlM after.step location = .ok place) :
    names.foldlM system.step location = .ok place := by
  induction names generalizing location with
  | nil => exact again
  | cons first rest ih =>
      obtain ⟨directory, proper⟩ := wellFormed.directory_of_below found
      rw [List.foldlM_cons] at again ⊢
      obtain ⟨next, stepped, later⟩ := Except.bind_eq_ok_iff.mp again
      have one : [first].foldlM after.step location = .ok next := by
        rw [List.foldlM_cons]
        exact Except.bind_eq_ok_iff.mpr ⟨next, stepped, rfl⟩
      have first := proper first List.mem_cons_self
      obtain rfl := foldlM_step_plain (by simpa using ⟨first.nonempty, first.notHere, first.notParent⟩) one
      have further := step_of_directory stepped (directory (List.cons_ne_nil _ _))
      exact Except.bind_eq_ok_iff.mpr ⟨_, further, ih (by rwa [List.append_assoc]) later⟩

/-- The way to what is there already leads through directories that are there already. -/
theorem locate_of_extendedBy (wellFormed : system.WellFormed) {after : FileSystem}
    (extended : system.ExtendedBy after) {root : Path} {location names place : Location} {entry : FileEntry}
    (located : system.locate root = .ok location) (found : system.lookup? (location ++ names) = some entry)
    (again : after.locate (names.foldl Path.join root) = .ok place) :
    system.locate (names.foldl Path.join root) = .ok place := by
  by_cases here : names = []
  · subst here
    have same := (locate_extendedBy extended located).symm.trans again
    rw [← Except.ok.inj same]
    exact located
  · obtain ⟨front, pieces, joined⟩ := Path.fields_foldl_join root
    obtain ⟨_, proper⟩ := wellFormed.directory_of_below found
    obtain ⟨down, absolute⟩ := joined names here proper
    obtain ⟨_, _, followed⟩ := locate_eq_ok_iff.mp located
    obtain ⟨nonempty, short, followedAgain⟩ := locate_eq_ok_iff.mp again
    have reached := foldlM_step_front pieces followed
    rw [down, List.foldlM_append, startOf, absolute, extended.workingDirectory] at followedAgain
    obtain ⟨same, reachedAgain, below⟩ := Except.bind_eq_ok_iff.mp followedAgain
    obtain rfl : location = same :=
      Except.ok.inj ((foldlM_step_extendedBy extended reached).symm.trans reachedAgain)
    refine locate_eq_ok_iff.mpr ⟨nonempty, short, ?_⟩
    rw [down, List.foldlM_append, startOf, absolute]
    exact Except.bind_eq_ok_iff.mpr ⟨location, reached, wellFormed.foldlM_step_of_extendedBy found below⟩

/-- What is not at a directory can be put there. -/
theorem put (wellFormed : system.WellFormed) {path : Path} {location : Location}
    (located : system.locate path = .ok location) (noDirectory : system.lookup? location ≠ some .directory)
    (entry : FileEntry) : (system.put location entry).WellFormed := by
  intro other held found
  have stands : system.StandsAt other := by
    by_cases same : other = location
    · obtain directory | ⟨above, name, rfl, proper, directory, _⟩ := wellFormed.locate_cases located
      · exact absurd directory noDirectory
      · exact ⟨above, name, same, proper, directory⟩
    · exact wellFormed other held ((SortedMap.get?_insert_of_ne _ _ same).symm.trans found)
  obtain ⟨above, name, rfl, proper, directory⟩ := stands
  refine ⟨above, name, rfl, proper, ?_⟩
  have different : above ≠ location := by
    rintro rfl
    exact noDirectory directory
  rwa [lookup?_put_of_ne _ _ different]

theorem makeDirectoriesTo (wellFormed : system.WellFormed) (components : List Path.Component) :
    (system.makeDirectoriesTo components).1.WellFormed := by
  refine makeDirectoriesTo_keeps (fun before path after wellFormed made => ?_) wellFormed components
  obtain ⟨location, located, nothing, rfl⟩ := makeDirectory_eq_ok made
  exact wellFormed.put located (by rw [nothing]; exact nofun) _

theorem write (wellFormed : system.WellFormed) {path : Path} {content : ByteArray} {after : FileSystem}
    (written : system.write path content = .ok after) : after.WellFormed := by
  obtain ⟨location, located, noDirectory, rfl⟩ := write_eq_ok written
  exact wellFormed.put located noDirectory _

theorem writeBelow (wellFormed : system.WellFormed) (path : Path) (content : ByteArray) :
    (system.writeBelow path content).1.WellFormed := by
  have prepared := wellFormed.makeDirectoriesTo (Path.components path).dropLast.reverse
  unfold FileSystem.writeBelow
  split
  · rename_i same
    rwa [same] at prepared
  · rename_i same
    rw [same] at prepared
    split
    · rename_i written
      exact prepared.write written
    · exact prepared

end WellFormed

end FileSystem

end ApiDocs
