import ApiDocs.Text.Blank
import ApiDocs.Text.Word
import Mathlib.Data.List.TakeWhile

/-!
# Words

A word is cut off where its last word character stands, and blanks are no word characters.
-/

namespace ApiDocs.Text

theorem exists_range_of_inRanges {code : Nat} {ranges : List CharRange} (inside : inRanges code ranges = true) :
    ∃ range ∈ ranges, range.1 ≤ code ∧ code ≤ range.2 := by
  induction ranges with
  | nil => cases inside
  | cons range rest ih =>
      simp only [inRanges, Bool.and_eq_true, Bool.or_eq_true, decide_eq_true_eq] at inside
      obtain ⟨above, below | later⟩ := inside
      · exact ⟨range, List.mem_cons_self, above, below⟩
      · obtain ⟨other, listed, bounds⟩ := ih later
        exact ⟨other, List.mem_cons_of_mem _ listed, bounds⟩

theorem blankRanges_apart_wordRanges :
    ∀ blanks ∈ blankRanges, ∀ letters ∈ wordRanges, blanks.2 < letters.1 ∨ letters.2 < blanks.1 := by
  decide +kernel

theorem isWordChar_of_isBlank {char : Char} (blank : isBlank char = true) : isWordChar char = false := by
  refine Bool.eq_false_iff.mpr fun isWord => ?_
  obtain ⟨blanks, areBlanks, _, _⟩ := exists_range_of_inRanges blank
  obtain ⟨letters, areLetters, _, _⟩ := exists_range_of_inRanges isWord
  have apart := blankRanges_apart_wordRanges blanks areBlanks letters areLetters
  omega

/-- A word is cut off a text: nothing is lost, and the word could not be longer. -/
structure IsWordOf (text word rest : List Char) : Prop where
  covers : text = word ++ rest
  isWord : ∀ char ∈ word, isWordChar char = true
  ends : ∀ char ∈ rest.head?, isWordChar char = false

theorem spanWord_eq_iff {text word rest : List Char} : spanWord text = (word, rest) ↔ IsWordOf text word rest := by
  constructor
  · intro spanned
    obtain ⟨rfl, rfl⟩ := Prod.mk.inj spanned
    refine ⟨List.takeWhile_append_dropWhile.symm, fun _ => List.mem_takeWhile_imp, ?_⟩
    intro char begins
    have noWord := List.head?_dropWhile_not isWordChar text
    rwa [begins] at noWord
  · rintro ⟨rfl, isWord, ends⟩
    cases rest with
    | nil => simp [spanWord, List.takeWhile_eq_self_iff.mpr isWord, List.dropWhile_eq_nil_iff.mpr isWord]
    | cons first others =>
        have noWord : ¬ isWordChar first = true := Bool.eq_false_iff.mp (ends first rfl)
        rw [spanWord, List.takeWhile_append_of_pos isWord, List.dropWhile_append_of_pos isWord,
          List.takeWhile_cons_of_neg noWord, List.dropWhile_cons_of_neg noWord, List.append_nil]

end ApiDocs.Text
