import ApiDocs.Markdown.View
import Mathlib.Algebra.Group.Nat.Even
import Mathlib.Data.List.DropRight

/-!
# The cells of a table

A bar separates two cells of a row, but not behind an odd number of backslashes.  A text becomes a cell with one more
backslash in front of each bar, which keeps the bar from separating cells only if it stands behind an even number of
backslashes in the text.
-/

namespace ApiDocs.Markdown

/-! ### Cells -/

/-- How many backslashes stand at the end of a text. -/
def endingBackslashes (text : List Char) : Nat :=
  (text.rtakeWhile fun char => char = '\\').length

/-- The cells of a text behind what stands before it.  A bar separates cells unless an odd number of backslashes stands
directly before it. -/
def cellsBehind (before : List Char) : List Char → List (List Char)
  | [] => [[]]
  | char :: rest =>
      let later := cellsBehind (before ++ [char]) rest
      if char = '|' ∧ Even (endingBackslashes before) then [] :: later else later.modifyHead (char :: ·)

theorem endingBackslashes_concat (text : List Char) (char : Char) :
    endingBackslashes (text ++ [char]) = if char = '\\' then endingBackslashes text + 1 else 0 := by
  rw [endingBackslashes, List.rtakeWhile_concat]
  split <;> simp_all [endingBackslashes]

theorem endingBackslashes_concat_of_ne {char : Char} (other : char ≠ '\\') (text : List Char) :
    endingBackslashes (text ++ [char]) = 0 := by
  rw [endingBackslashes_concat, if_neg other]

theorem endingBackslashes_append_congr {before other : List Char}
    (same : endingBackslashes before = endingBackslashes other) (text : List Char) :
    endingBackslashes (before ++ text) = endingBackslashes (other ++ text) := by
  induction text using List.reverseRecOn with
  | nil => rwa [List.append_nil, List.append_nil]
  | append_singleton text char ih =>
      rw [← List.append_assoc, ← List.append_assoc, endingBackslashes_concat, endingBackslashes_concat, ih]

theorem cellsBehind_ne_nil (before text : List Char) : cellsBehind before text ≠ [] := by
  induction text generalizing before with
  | nil => exact List.cons_ne_nil _ _
  | cons char rest ih =>
      rw [cellsBehind]
      split
      · exact List.cons_ne_nil _ _
      · exact fun none => ih _ (List.modifyHead_eq_nil_iff.mp none)

/-- The cells with bars between them are the text. -/
theorem intercalate_cellsBehind (before text : List Char) : ['|'].intercalate (cellsBehind before text) = text := by
  induction text generalizing before with
  | nil => rfl
  | cons char rest ih =>
      have joined := ih (before ++ [char])
      rw [cellsBehind]
      obtain ⟨cell, others, later⟩ := List.exists_cons_of_ne_nil (cellsBehind_ne_nil (before ++ [char]) rest)
      rw [later] at joined ⊢
      split
      next separates =>
        rw [List.intercalate_cons_cons, joined, separates.1]
        rfl
      next =>
        cases others with
        | nil =>
            rw [List.intercalate_singleton] at joined
            rw [List.modifyHead_cons, List.intercalate_singleton, joined]
        | cons second others =>
            rw [List.intercalate_cons_cons] at joined
            rw [List.modifyHead_cons, List.intercalate_cons_cons, List.cons_append, List.cons_append, joined]

theorem cellsBehind_eq_singleton {before text : List Char} (single : (cellsBehind before text).length = 1) :
    cellsBehind before text = [text] := by
  obtain ⟨cell, only⟩ := List.length_eq_one_iff.mp single
  have joined := intercalate_cellsBehind before text
  rw [only, List.intercalate_singleton] at joined
  rw [only, joined]

theorem cellsBehind_congr {before other : List Char} (same : endingBackslashes before = endingBackslashes other)
    (text : List Char) : cellsBehind before text = cellsBehind other text := by
  induction text generalizing before other with
  | nil => rfl
  | cons char rest ih =>
      rw [cellsBehind, cellsBehind, ih (endingBackslashes_append_congr same [char]), same]

theorem cellsBehind_of_notMem {text : List Char} (noBar : '|' ∉ text) (before : List Char) :
    cellsBehind before text = [text] := by
  induction text generalizing before with
  | nil => rfl
  | cons char rest ih =>
      obtain ⟨noFirst, noLater⟩ := not_or.mp (mt List.mem_cons.mpr noBar)
      rw [cellsBehind, ih noLater, if_neg fun both => noFirst both.1.symm, List.modifyHead_cons]

/-- At a bar that separates cells the text can be cut. -/
theorem cellsBehind_append_bar {before text : List Char} (even : Even (endingBackslashes (before ++ text)))
    (rest : List Char) :
    cellsBehind before (text ++ '|' :: rest) =
      cellsBehind before text ++ cellsBehind (before ++ text ++ ['|']) rest := by
  induction text generalizing before with
  | nil =>
      rw [List.append_nil] at even ⊢
      exact if_pos ⟨rfl, even⟩
  | cons char text ih =>
      have regrouped : before ++ char :: text = before ++ [char] ++ text := List.append_cons ..
      rw [regrouped] at even ⊢
      rw [List.cons_append, cellsBehind, cellsBehind, ih even]
      obtain ⟨cell, others, later⟩ := List.exists_cons_of_ne_nil (cellsBehind_ne_nil (before ++ [char]) text)
      rw [later]
      split <;> rfl

/-! ### Escaped bars -/

/-- A cell starts and ends with a space. -/
def padded (content : List Char) : List Char :=
  ' ' :: content ++ [' ']

/-- A row has the cells of its contents, one after the other. -/
theorem cellsBehind_row (before : List Char) (contents : List (List Char)) :
    cellsBehind before (contents.flatMap fun content => padded content ++ ['|']) =
      contents.flatMap (fun content => cellsBehind [] (padded content)) ++ [[]] := by
  have closes (before content : List Char) : endingBackslashes (before ++ padded content) = 0 := by
    rw [padded, ← List.append_assoc]
    exact endingBackslashes_concat_of_ne (by decide) _
  induction contents generalizing before with
  | nil => rfl
  | cons content rest ih =>
      -- The space at the start of a cell keeps what stands before it from mattering.
      have opens : cellsBehind before (padded content) = cellsBehind [] (padded content) := by
        have same : endingBackslashes (before ++ [' ']) = endingBackslashes ([] ++ [' ']) := by
          rw [endingBackslashes_concat_of_ne (by decide), endingBackslashes_concat_of_ne (by decide)]
        have noBar (before : List Char) : ¬ (' ' = '|' ∧ Even (endingBackslashes before)) :=
          fun both => absurd both.1 (by decide)
        rw [padded, List.cons_append, cellsBehind, cellsBehind, if_neg (noBar _), if_neg (noBar _),
          cellsBehind_congr same]
      rw [List.flatMap_cons, List.flatMap_cons, List.append_assoc, List.singleton_append,
        cellsBehind_append_bar (by rw [closes]; exact Even.zero), opens, ih, List.append_assoc]

/-- No bar of the text stands directly behind an odd number of backslashes, with what stands before the text. -/
def EvenBarsBehind (before text : List Char) : Prop :=
  ∀ front back, text = front ++ '|' :: back → Even (endingBackslashes (before ++ front))

theorem evenBarsBehind_cons_iff {before rest : List Char} {char : Char} :
    EvenBarsBehind before (char :: rest) ↔
      (char = '|' → Even (endingBackslashes before)) ∧ EvenBarsBehind (before ++ [char]) rest := by
  constructor
  · intro even
    refine ⟨?_, ?_⟩
    · rintro rfl
      simpa using even [] rest rfl
    · rintro front back rfl
      simpa using even (char :: front) back rfl
  · rintro ⟨first, later⟩ front back split
    obtain ⟨rfl, bar⟩ | ⟨others, rfl, inRest⟩ := List.cons_eq_append_iff.mp split
    · rw [List.append_nil]
      exact first (List.cons.inj bar).1.symm
    · simpa using later others back inRest

theorem evenBarsBehind_concat_iff {before text : List Char} {char : Char} (noBar : char ≠ '|') :
    EvenBarsBehind before (text ++ [char]) ↔ EvenBarsBehind before text := by
  constructor
  · rintro even front back rfl
    exact even front (back ++ [char]) (List.append_assoc ..)
  · intro even front back split
    obtain rfl | ⟨others, last, rfl⟩ := List.eq_nil_or_concat back
    · exact absurd (List.append_inj' split rfl).2 (by simpa using noBar)
    · rw [List.concat_eq_append, ← List.cons_append, ← List.append_assoc] at split
      exact even front others (List.append_inj' split rfl).1

/-- A text without backslashes escapes none of its bars. -/
theorem evenBarsBehind_of_notMem {text : List Char} (noBackslash : '\\' ∉ text) : EvenBarsBehind [] text := by
  rintro front back rfl
  obtain rfl | ⟨others, last, rfl⟩ := List.eq_nil_or_concat front
  · exact Even.zero
  · have other : last ≠ '\\' := by
      rintro rfl
      exact noBackslash (by simp)
    rw [List.nil_append, List.concat_eq_append, endingBackslashes_concat_of_ne other]
    exact Even.zero

theorem length_cellsBehind_cons_iff {before rest : List Char} {char : Char} :
    (cellsBehind before (char :: rest)).length = 1 ↔
      (char = '|' → ¬ Even (endingBackslashes before)) ∧ (cellsBehind (before ++ [char]) rest).length = 1 := by
  rw [cellsBehind, ← not_and]
  split
  next separates => simp [separates, cellsBehind_ne_nil]
  next whole => rw [List.length_modifyHead, and_iff_right whole]

/-- What stands for a character in a cell. -/
def cellChars (char : Char) : List Char :=
  if char = '\n' then [' '] else if char = '|' then ['\\', '|'] else [char]

theorem toList_tableCell (text : String) : (tableCell text).toList = text.toList.flatMap cellChars := by
  rw [tableCell, String.toList_ofList, onOneLine, String.toList_ofList, List.flatMap_map]
  refine List.flatMap_congr fun char _ => ?_
  by_cases isFeed : char = '\n'
  · simp [cellChars, isFeed]
  · simp [cellChars, isFeed]

/-- The backslash in front of a bar is one more, so that an even number of backslashes becomes odd. -/
theorem length_cellsBehind_flatMap {before above : List Char}
    (same : endingBackslashes before = endingBackslashes above) (text : List Char) :
    (cellsBehind before (text.flatMap cellChars)).length = 1 ↔ EvenBarsBehind above text := by
  induction text generalizing before above with
  | nil => exact iff_of_true rfl fun front back split => absurd split (by simp)
  | cons char rest ih =>
      rw [List.flatMap_cons, evenBarsBehind_cons_iff]
      -- Only a bar becomes two characters; all others become one that counts the same.
      by_cases isBar : char = '|'
      · have reset : endingBackslashes (before ++ ['\\'] ++ ['|']) = endingBackslashes (above ++ ['|']) := by
          rw [endingBackslashes_concat_of_ne (by decide), endingBackslashes_concat_of_ne (by decide)]
        have chars : cellChars char = ['\\', '|'] := by rw [isBar]; rfl
        rw [chars, List.cons_append, List.singleton_append, length_cellsBehind_cons_iff, length_cellsBehind_cons_iff,
          endingBackslashes_concat, if_pos rfl, Nat.even_add_one, not_not, isBar, ih reset, same]
        simp
      · have one : ∃ shown, cellChars char = [shown] ∧ shown ≠ '|' ∧
            endingBackslashes (before ++ [shown]) = endingBackslashes (above ++ [char]) := by
          by_cases isFeed : char = '\n'
          · refine ⟨' ', by rw [cellChars, if_pos isFeed], by decide, ?_⟩
            rw [isFeed, endingBackslashes_concat_of_ne (by decide), endingBackslashes_concat_of_ne (by decide)]
          · exact ⟨char, by rw [cellChars, if_neg isFeed, if_neg isBar], isBar, endingBackslashes_append_congr same _⟩
        obtain ⟨shown, chars, noBar, sameLater⟩ := one
        rw [chars, List.singleton_append, length_cellsBehind_cons_iff, ih sameLater]
        simp [noBar, isBar]

/-- A description stays in its cell if and only if it escapes none of its bars itself. -/
theorem length_cellsBehind_padded (text : List Char) :
    (cellsBehind [] (padded (text.flatMap cellChars))).length = 1 ↔ EvenBarsBehind [] text := by
  have escaped : padded (text.flatMap cellChars) = ' ' :: (text ++ [' ']).flatMap cellChars := by
    rw [List.flatMap_append]
    rfl
  have opened : endingBackslashes ([] ++ [' ']) = endingBackslashes [] := rfl
  rw [escaped, length_cellsBehind_cons_iff, length_cellsBehind_flatMap opened, evenBarsBehind_concat_iff (by decide)]
  simp

end ApiDocs.Markdown
