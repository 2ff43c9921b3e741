import ApiDocs.FileSystem
import ApiDocs.Proofs.Except

/-!
# What is read from file systems

A path can be read if it leads to a location at which a file stands.
-/

namespace ApiDocs

/-- The bytes of a text are those that are decoded to it. -/
theorem fromUTF8?_eq_some_iff {bytes : ByteArray} {text : String} :
    String.fromUTF8? bytes = some text ↔ bytes = text.toUTF8 := by
  rw [String.toUTF8_eq_toByteArray, String.fromUTF8?]
  constructor
  · intro decoded
    split at decoded
    · rw [← Option.some.inj decoded]
      rfl
    · cases decoded
  · rintro rfl
    rw [dif_pos text.isValidUTF8]
    rfl

namespace FileSystem

variable {system : FileSystem} {path : Path}

theorem find_eq_ok_iff {entry : FileEntry} :
    system.find path = .ok entry ↔
      ∃ location, system.locate path = .ok location ∧ system.lookup? location = some entry := by
  rw [find, Except.bind_eq_ok_iff]
  refine exists_congr fun location => and_congr_right fun _ => ?_
  cases system.lookup? location with
  | none => exact ⟨nofun, nofun⟩
  | some found =>
      exact ⟨fun same => congrArg some (Except.ok.inj same), fun same => congrArg _ (Option.some.inj same)⟩

theorem read_eq_ok_iff {content : ByteArray} :
    system.read path = .ok content ↔
      ∃ location, system.locate path = .ok location ∧ system.lookup? location = some (.file content) := by
  rw [← find_eq_ok_iff, read, Except.bind_eq_ok_iff]
  constructor
  · rintro ⟨entry, found, same⟩
    cases entry with
    | directory => cases same
    | file held =>
        obtain rfl := Except.ok.inj same
        exact found
  · exact fun found => ⟨.file content, found, rfl⟩

theorem readText_eq_ok_iff {text : String} :
    system.readText path = .ok text ↔
      ∃ location, system.locate path = .ok location ∧
        system.lookup? location = some (.file text.toUTF8) := by
  rw [← read_eq_ok_iff, readText, Except.bind_eq_ok_iff]
  constructor
  · rintro ⟨bytes, read, same⟩
    split at same
    · rename_i decoded
      obtain rfl := Except.ok.inj same
      rwa [← fromUTF8?_eq_some_iff.mp decoded]
    · cases same
  · intro read
    refine ⟨text.toUTF8, read, ?_⟩
    rw [fromUTF8?_eq_some_iff.mpr rfl]
    rfl

theorem isPresent_iff :
    system.isPresent path ↔
      ∃ location entry, system.locate path = .ok location ∧ system.lookup? location = some entry := by
  rw [isPresent]
  cases found : system.find path with
  | error reason =>
      refine ⟨nofun, fun ⟨location, entry, located, held⟩ => ?_⟩
      cases found.symm.trans (find_eq_ok_iff.mpr ⟨location, located, held⟩)
  | ok entry =>
      obtain ⟨location, located, held⟩ := find_eq_ok_iff.mp found
      exact ⟨fun _ => ⟨location, entry, located, held⟩, fun _ => rfl⟩

end FileSystem

end ApiDocs
