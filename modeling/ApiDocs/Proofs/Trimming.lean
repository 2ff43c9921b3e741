import ApiDocs.Text.Blank
import Mathlib.Data.List.DropRight

/-!
# Trimming

A trimmed text neither begins nor ends with a blank, and trimming changes no text that does not.
-/

namespace ApiDocs.Text

variable {text : List Char}

theorem trimEnd_eq_rdropWhile (text : List Char) : trimEnd text = text.rdropWhile isBlank :=
  rfl

theorem isSuffix_trimStart (text : List Char) : trimStart text <:+ text :=
  List.dropWhile_suffix isBlank

theorem isPrefix_trimEnd (text : List Char) : trimEnd text <+: text :=
  List.rdropWhile_prefix isBlank text

theorem isInfix_trim (text : List Char) : trim text <:+: text :=
  (isPrefix_trimEnd _).isInfix.trans (isSuffix_trimStart text).isInfix

theorem head?_trimStart (text : List Char) : ∀ char ∈ (trimStart text).head?, isBlank char = false := by
  intro char begins
  have dark := List.head?_dropWhile_not isBlank text
  rw [trimStart] at begins
  rwa [begins] at dark

theorem trimStart_eq_self (dark : ∀ char ∈ text.head?, isBlank char = false) : trimStart text = text := by
  rw [trimStart, List.dropWhile_eq_self_iff]
  intro nonempty isBlank
  rw [dark _ (List.head?_eq_getElem? ▸ List.getElem?_eq_getElem nonempty)] at isBlank
  cases isBlank

theorem getLast?_trimEnd (text : List Char) : ∀ char ∈ (trimEnd text).getLast?, isBlank char = false := by
  intro char ends
  rw [trimEnd_eq_rdropWhile] at ends
  obtain ⟨nonempty, rfl⟩ := List.mem_getLast?_eq_getLast ends
  exact Bool.eq_false_iff.mpr (List.rdropWhile_last_not isBlank text nonempty)

theorem trimEnd_eq_self (dark : ∀ char ∈ text.getLast?, isBlank char = false) : trimEnd text = text := by
  rw [trimEnd_eq_rdropWhile, List.rdropWhile_eq_self_iff]
  intro nonempty isBlank
  rw [dark _ (List.getLast?_eq_some_getLast nonempty)] at isBlank
  cases isBlank

/-- The beginning of a text that is not trimmed away is its own beginning. -/
theorem head?_trimEnd (text : List Char) : ∀ char ∈ (trimEnd text).head?, char ∈ text.head? := by
  intro char begins
  obtain ⟨blanks, whole⟩ := List.rdropWhile_prefix isBlank text
  rw [← whole, List.head?_append, ← trimEnd_eq_rdropWhile, begins]
  rfl

/-- The end of a text that is not trimmed away is its own end. -/
theorem getLast?_trimStart (text : List Char) : ∀ char ∈ (trimStart text).getLast?, char ∈ text.getLast? := by
  intro char ends
  obtain ⟨blanks, whole⟩ := List.dropWhile_suffix isBlank (l := text)
  rw [← whole, List.getLast?_append, ← trimStart, ends]
  rfl

/-- A text that does not end with a blank is trimmed at its beginning only. -/
theorem trim_eq_trimStart (dark : ∀ char ∈ text.getLast?, isBlank char = false) : trim text = trimStart text :=
  trimEnd_eq_self fun char ends => dark char (getLast?_trimStart text char ends)

theorem head?_trim (text : List Char) : ∀ char ∈ (trim text).head?, isBlank char = false :=
  fun char begins => head?_trimStart text char (head?_trimEnd _ char begins)

/-- What is trimmed away is blank. -/
theorem exists_blank_trim_blank (text : List Char) :
    ∃ lead trail, text = lead ++ trim text ++ trail ∧ (∀ char ∈ lead, isBlank char = true) ∧
      ∀ char ∈ trail, isBlank char = true := by
  refine ⟨text.takeWhile isBlank, (trimStart text).rtakeWhile isBlank, ?_, fun _ => List.mem_takeWhile_imp,
    fun _ => List.mem_rtakeWhile_imp⟩
  rw [List.append_assoc, trim, trimEnd_eq_rdropWhile, List.rdropWhile_append_rtakeWhile, trimStart,
    List.takeWhile_append_dropWhile]

theorem mem_of_mem_trim {char : Char} (listed : char ∈ trim text) : char ∈ text := by
  obtain ⟨lead, trail, whole, _⟩ := exists_blank_trim_blank text
  rw [whole]
  exact List.mem_append_left _ (List.mem_append_right _ listed)

theorem trimStart_trim (text : List Char) : trimStart (trim text) = trim text :=
  trimStart_eq_self (head?_trim text)

theorem trim_trim (text : List Char) : trim (trim text) = trim text := by
  rw [trim, trimStart_trim]
  exact List.rdropWhile_idempotent isBlank (trimStart text)

theorem trim_trimStart (text : List Char) : trim (trimStart text) = trim text := by
  rw [trim, trimStart_eq_self (head?_trimStart text), trim]

theorem trimStart_append_of_blank {lead : List Char} (blank : ∀ char ∈ lead, isBlank char = true) (text : List Char) :
    trimStart (lead ++ text) = trimStart text :=
  List.dropWhile_append_of_pos blank

theorem trimEnd_append_of_blank {trail : List Char} (blank : ∀ char ∈ trail, isBlank char = true) (text : List Char) :
    trimEnd (text ++ trail) = trimEnd text := by
  have blankReversed : ∀ char ∈ trail.reverse, isBlank char = true :=
    fun char listed => blank char (List.mem_reverse.mp listed)
  rw [trimEnd, List.reverse_append, List.dropWhile_append_of_pos blankReversed, trimEnd]

/-- What is left by trimming is what neither begins nor ends with a blank and has nothing but blanks around it. -/
theorem trim_eq_of_blank_around {lead core trail : List Char} (leadBlank : ∀ char ∈ lead, isBlank char = true)
    (trailBlank : ∀ char ∈ trail, isBlank char = true) (begins : ∀ char ∈ core.head?, isBlank char = false)
    (ends : ∀ char ∈ core.getLast?, isBlank char = false) : trim (lead ++ core ++ trail) = core := by
  rw [trim, List.append_assoc, trimStart_append_of_blank leadBlank]
  cases core with
  | nil =>
      have nothing : trimStart trail = [] := List.dropWhile_eq_nil_iff.mpr trailBlank
      rw [List.nil_append, nothing]
      rfl
  | cons first rest =>
      have begun : trimStart (first :: rest ++ trail) = first :: rest ++ trail :=
        trimStart_eq_self begins
      rw [begun, trimEnd_append_of_blank trailBlank, trimEnd_eq_self ends]

theorem trim_append_of_blank {trail : List Char} (blank : ∀ char ∈ trail, isBlank char = true) (text : List Char) :
    trim (text ++ trail) = trim text := by
  obtain ⟨lead, behind, whole, leadBlank, behindBlank⟩ := exists_blank_trim_blank text
  have trailBlank : ∀ char ∈ behind ++ trail, isBlank char = true :=
    fun char listed => (List.mem_append.mp listed).elim (behindBlank char) (blank char)
  have regrouped : text ++ trail = lead ++ trim text ++ (behind ++ trail) := by
    rw [← List.append_assoc, ← whole]
  rw [regrouped, trim_eq_of_blank_around leadBlank trailBlank (head?_trim text) (getLast?_trimEnd _)]

theorem exists_blank_trimEnd (text : List Char) :
    ∃ trail, text = trimEnd text ++ trail ∧ ∀ char ∈ trail, isBlank char = true := by
  refine ⟨text.rtakeWhile isBlank, ?_, fun _ => List.mem_rtakeWhile_imp⟩
  rw [trimEnd_eq_rdropWhile, List.rdropWhile_append_rtakeWhile]

theorem trim_trimEnd (text : List Char) : trim (trimEnd text) = trim text := by
  obtain ⟨trail, whole, blank⟩ := exists_blank_trimEnd text
  conv_rhs => rw [whole, trim_append_of_blank blank]

theorem head?_trimStart_append {behind : List Char} (dark : ∀ char ∈ behind.head?, isBlank char = false)
    (text : List Char) : ∀ char ∈ (trimStart text ++ behind).head?, isBlank char = false := by
  intro char begins
  rw [List.head?_append] at begins
  cases first : (trimStart text).head? with
  | none =>
      rw [first] at begins
      exact dark char begins
  | some own =>
      rw [first] at begins
      obtain rfl := Option.some.inj begins
      exact head?_trimStart text own first

theorem getLast?_append_trimEnd {front : List Char} (dark : ∀ char ∈ front.getLast?, isBlank char = false)
    (text : List Char) : ∀ char ∈ (front ++ trimEnd text).getLast?, isBlank char = false := by
  intro char ends
  rw [List.getLast?_append] at ends
  cases last : (trimEnd text).getLast? with
  | none =>
      rw [last] at ends
      exact dark char ends
  | some own =>
      rw [last] at ends
      obtain rfl := Option.some.inj ends
      exact getLast?_trimEnd text own last

end ApiDocs.Text
