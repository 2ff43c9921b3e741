import ApiDocs.Platform
import ApiDocs.Proofs.Except
import ApiDocs.Proofs.Fields
import ApiDocs.Proofs.Trimming

/-!
# The text form of platforms

A platform and its targets are read back from their text, as long as the targets can stand between commas.
-/

namespace ApiDocs

theorem Platform.parse_display (platform : Platform) : parse platform.display.toList = .ok platform := by
  cases platform <;> decide

namespace PlatformData

/-- The targets are not empty, have no blanks around them and can stand between commas. -/
def Clean (data : PlatformData) : Prop :=
  ∀ target ∈ data.targets, target ≠ "" ∧ Text.trim target.toList = target.toList ∧ ',' ∉ target.toList

variable {data : PlatformData}

theorem Clean.parseTargets_eq (clean : data.Clean) :
    parseTargets (String.intercalate "," data.targets).toList = data.targets := by
  rw [parseTargets, String.toList_intercalate]
  cases some : data.targets with
  | nil => rfl
  | cons first rest =>
      rw [← some]
      have apart : ∀ piece ∈ data.targets.map String.toList, ',' ∉ piece := by
        intro piece listed
        obtain ⟨target, inTargets, rfl⟩ := List.mem_map.mp listed
        exact (clean target inTargets).2.2
      have several : data.targets.map String.toList ≠ [] := by
        rw [some]
        exact List.cons_ne_nil _ _
      have pieces : (List.intercalate ",".toList (data.targets.map String.toList)).splitOn ',' =
          data.targets.map String.toList := List.splitOn_intercalate ',' apart several
      have trimmed : (data.targets.map String.toList).map Text.trim = data.targets.map String.toList := by
        rw [List.map_map]
        exact List.map_congr_left fun target inTargets => (clean target inTargets).2.1
      have kept : (data.targets.map String.toList).filter (· ≠ []) = data.targets.map String.toList := by
        apply List.filter_eq_self.mpr
        intro piece listed
        obtain ⟨target, inTargets, rfl⟩ := List.mem_map.mp listed
        have nonempty : target.toList ≠ [] := fun none => (clean target inTargets).1 (String.toList_inj.mp none)
        exact decide_eq_true nonempty
      have same : String.ofList ∘ String.toList = id := funext fun _ => String.ofList_toList
      rw [pieces, trimmed, kept, List.map_map, same, List.map_id]

/-- The text of a platform can be read, whatever its targets. -/
theorem parse_display (data : PlatformData) :
    parse data.display = .ok ⟨data.platform, parseTargets (String.intercalate "," data.targets).toList⟩ := by
  have noBracket : '[' ∉ data.platform.display.toList := by
    cases data.platform <;> decide
  have text : data.display.toList =
      data.platform.display.toList ++ '[' :: ((String.intercalate "," data.targets).toList ++ [']']) := by
    simp [display, String.toList_append]
  rw [parse, text, Text.cutAt?_append noBracket]
  simp only [Text.withoutTail?_append, Platform.parse_display]
  rfl

theorem Clean.parse_display (clean : data.Clean) : parse data.display = .ok data := by
  rw [PlatformData.parse_display, clean.parseTargets_eq]

/-- Targets that were read are clean. -/
theorem clean_parseTargets (platform : Platform) (text : List Char) : Clean ⟨platform, parseTargets text⟩ := by
  intro target listed
  obtain ⟨trimmed, kept, rfl⟩ := List.mem_map.mp listed
  obtain ⟨fromPiece, nonempty⟩ := List.mem_filter.mp kept
  obtain ⟨piece, cut, rfl⟩ := List.mem_map.mp fromPiece
  rw [String.toList_ofList]
  refine ⟨?nonempty, Text.trim_trim piece, ?apart⟩
  case nonempty => simpa using nonempty
  case apart => exact fun inTrimmed => Text.not_mem_of_mem_splitOn cut (Text.mem_of_mem_trim inTrimmed)

/-- What was read from a text is clean. -/
theorem clean_of_parse {text : String} (read : parse text = .ok data) : data.Clean := by
  unfold parse at read
  split at read
  next =>
    obtain ⟨platform, _, same⟩ := Except.bind_eq_ok_iff.mp read
    obtain rfl := Except.ok.inj same
    exact nofun
  next =>
    split at read
    next => cases read
    next inner _ =>
      obtain ⟨platform, _, same⟩ := Except.bind_eq_ok_iff.mp read
      obtain rfl := Except.ok.inj same
      exact clean_parseTargets platform inner

/-- Platforms that can be read back have different texts. -/
theorem Clean.eq_of_display_eq {other : PlatformData} (clean : data.Clean) (cleanOther : other.Clean)
    (same : data.display = other.display) : data = other := by
  have parsed := clean.parse_display
  rw [same, cleanOther.parse_display] at parsed
  exact (Except.ok.inj parsed).symm

/-- The text of every platform can be read, and gives the platform back exactly if it is clean; what was read from any
text is given back by its own text. -/
theorem display_roundTrips :
    (∀ data : PlatformData, ∃ read, parse data.display = .ok read) ∧
      (∀ data : PlatformData, parse data.display = .ok data ↔ data.Clean) ∧
      ∀ (text : String) (read : PlatformData), parse text = .ok read → parse read.display = .ok read := by
  refine ⟨fun data => ⟨_, parse_display data⟩, fun data => ⟨clean_of_parse, Clean.parse_display⟩, ?_⟩
  exact fun text read found => (clean_of_parse found).parse_display

/-- Brackets are left in targets, and blanks and empty targets are not. -/
theorem display_roundTrips_sampleText :
    parse " JS[ a]b ,, [c\u2003]" = .ok ⟨.js, ["a]b", "[c"]⟩ ∧
      parse (PlatformData.display ⟨.js, ["a]b", "[c"]⟩) = .ok ⟨.js, ["a]b", "[c"]⟩ := by
  have read : parse " JS[ a]b ,, [c\u2003]" = .ok ⟨.js, ["a]b", "[c"]⟩ := by decide
  exact ⟨read, display_roundTrips.2.2 _ _ read⟩

end PlatformData

end ApiDocs
