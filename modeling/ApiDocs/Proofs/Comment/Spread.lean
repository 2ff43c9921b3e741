import ApiDocs.Proofs.Comment.Characters

/-!
# Texts over several lines

The body of a block tag goes over several lines of the comment if at least two of them are not blank.  Then, and only
then, there is a line feed in it after trimming.
-/

namespace ApiDocs

namespace Text

/-- A text is written if not all of it is blank. -/
def isWritten (text : List Char) : Bool :=
  text.any fun char => !isBlank char

theorem isWritten_iff {text : List Char} : isWritten text = true ↔ ∃ char ∈ text, isBlank char = false := by
  simp [isWritten]

theorem isWritten_append (first second : List Char) :
    isWritten (first ++ second) = (isWritten first || isWritten second) :=
  List.any_append

theorem isWritten_trim (text : List Char) : isWritten (trim text) = isWritten text := by
  obtain ⟨lead, trail, whole, leadBlank, trailBlank⟩ := exists_blank_trim_blank text
  have noLead : isWritten lead = false := by simpa [isWritten] using leadBlank
  have noTrail : isWritten trail = false := by simpa [isWritten] using trailBlank
  conv_rhs => rw [whole, isWritten_append, isWritten_append, noLead, noTrail, Bool.false_or, Bool.or_false]

theorem isWritten_trimStart (text : List Char) : isWritten (trimStart text) = isWritten text := by
  rw [← isWritten_trim, trim_trimStart, isWritten_trim]

theorem trimStart_append_of_isWritten {first : List Char} (written : isWritten first = true) (second : List Char) :
    trimStart (first ++ second) = trimStart first ++ second := by
  obtain ⟨char, listed, dark⟩ := isWritten_iff.mp written
  have remains : ¬ (first.dropWhile isBlank).isEmpty = true := by
    intro none
    have blank := List.dropWhile_eq_nil_iff.mp (List.isEmpty_iff.mp none) char listed
    rw [dark] at blank
    cases blank
  rw [trimStart, List.dropWhile_append, if_neg remains, trimStart]

theorem trimEnd_append_of_isWritten (first : List Char) {second : List Char} (written : isWritten second = true) :
    trimEnd (first ++ second) = first ++ trimEnd second := by
  have reversed : isWritten second.reverse = true := by rwa [isWritten, List.any_reverse]
  have begun := trimStart_append_of_isWritten reversed first.reverse
  rw [trimStart, trimStart] at begun
  rw [trimEnd, List.reverse_append, begun, List.reverse_append, List.reverse_reverse, trimEnd]

/-- A text can be cut at a line feed so that something is written on both sides. -/
def IsSpread (text : List Char) : Prop :=
  ∃ front back, text = front ++ '\n' :: back ∧ isWritten front = true ∧ isWritten back = true

/-- Trimming leaves the line feeds that have something written before and behind them. -/
theorem newLine_mem_trim_iff {text : List Char} : '\n' ∈ trim text ↔ IsSpread text := by
  constructor
  · intro feeds
    obtain ⟨lead, trail, whole, _⟩ := exists_blank_trim_blank text
    obtain ⟨front, back, cut⟩ := List.append_of_mem feeds
    refine ⟨lead ++ front, back ++ trail, by rw [whole, cut]; simp, ?before, ?behind⟩
    case before =>
      have begins := head?_trim text
      rw [cut] at begins
      cases front with
      | nil => exact absurd (begins '\n' rfl) (by decide)
      | cons first others => exact isWritten_iff.mpr ⟨first, by simp, begins first rfl⟩
    case behind =>
      have ends : ∀ char ∈ (trim text).getLast?, isBlank char = false := getLast?_trimEnd _
      rw [cut] at ends
      obtain rfl | ⟨others, last, rfl⟩ := List.eq_nil_or_concat back
      · exact absurd (ends '\n' (by simp)) (by decide)
      · rw [List.concat_eq_append, ← List.cons_append, ← List.append_assoc] at ends
        exact isWritten_iff.mpr ⟨last, by simp, ends last (by rw [List.getLast?_concat]; rfl)⟩
  · rintro ⟨front, back, rfl, before, behind⟩
    have kept : trim (front ++ '\n' :: back) = trimStart front ++ ['\n'] ++ trimEnd back := by
      rw [trim, trimStart_append_of_isWritten before, ← List.singleton_append, ← List.append_assoc,
        trimEnd_append_of_isWritten _ behind]
    rw [kept]
    simp

theorem isWritten_newLine_cons (rest : List Char) : isWritten ('\n' :: rest) = isWritten rest :=
  rfl

theorem isSpread_append_newLine_iff {line rest : List Char} (oneLine : '\n' ∉ line) :
    IsSpread (line ++ '\n' :: rest) ↔ isWritten line = true ∧ isWritten rest = true ∨ IsSpread rest := by
  constructor
  · rintro ⟨front, back, cut, before, behind⟩
    obtain ⟨between, rfl, atFeed⟩ | ⟨between, rfl, atFeed⟩ := List.append_eq_append_iff.mp cut
    · cases between with
      | nil =>
          obtain rfl := (List.cons.inj atFeed).2
          exact .inl ⟨by rwa [List.append_nil] at before, behind⟩
      | cons first others =>
          obtain ⟨rfl, remains⟩ := List.cons.inj atFeed
          rw [List.append_eq] at remains
          subst remains
          rw [isWritten_append, Bool.or_eq_true, isWritten_newLine_cons] at before
          rcases before with inLine | inRest
          · exact .inl ⟨inLine, by rw [isWritten_append, isWritten_newLine_cons, behind, Bool.or_true]⟩
          · exact .inr ⟨others, back, rfl, inRest, behind⟩
    · cases between with
      | nil =>
          obtain rfl := (List.cons.inj atFeed).2
          exact .inl ⟨by rwa [List.append_nil], behind⟩
      | cons first others =>
          obtain ⟨rfl, _⟩ := List.cons.inj atFeed
          exact absurd (by simp) oneLine
  · rintro (⟨before, behind⟩ | ⟨front, back, rfl, before, behind⟩)
    · exact ⟨line, rest, rfl, before, behind⟩
    · refine ⟨line ++ '\n' :: front, back, by simp, ?_, behind⟩
      rw [isWritten_append, isWritten_newLine_cons, before, Bool.or_true]

end Text

namespace Comment

open Text

theorem isWritten_joinLines_iff {lines : List (List Char)} :
    isWritten (joinLines lines) = true ↔ 0 < lines.countP isWritten := by
  rw [List.countP_pos_iff]
  constructor
  · intro written
    obtain ⟨char, listed, dark⟩ := isWritten_iff.mp written
    rcases mem_of_mem_intercalate listed with isFeed | ⟨line, among, inLine⟩
    · rw [List.mem_singleton.mp isFeed] at dark
      exact absurd dark (by decide)
    · exact ⟨line, among, isWritten_iff.mpr ⟨char, inLine, dark⟩⟩
  · rintro ⟨line, among, written⟩
    obtain ⟨char, inLine, dark⟩ := isWritten_iff.mp written
    exact isWritten_iff.mpr ⟨char, (isInfix_intercalate among).subset inLine, dark⟩

/-- Joined lines are spread if at least two of them are written. -/
theorem isSpread_joinLines_iff {lines : List (List Char)} (oneLine : ∀ line ∈ lines, '\n' ∉ line) :
    IsSpread (joinLines lines) ↔ 2 ≤ lines.countP isWritten := by
  induction lines with
  | nil => 
      refine iff_of_false ?_ (by simp)
      rintro ⟨front, back, cut, _⟩
      simp [joinLines] at cut
  | cons first rest ih =>
      obtain ⟨here, later⟩ := List.forall_mem_cons.mp oneLine
      cases rest with
      | nil =>
          refine iff_of_false ?_ ?_
          · rintro ⟨front, back, cut, _⟩
            rw [joinLines, List.intercalate_singleton] at cut
            exact here (by simp [cut])
          · have few := List.countP_le_length (p := isWritten) (l := [first])
            rw [List.length_singleton] at few
            omega
      | cons second others =>
          have joined : joinLines (first :: second :: others) = first ++ '\n' :: joinLines (second :: others) := by
            rw [joinLines, List.intercalate_cons_cons, List.append_assoc]
            rfl
          rw [joined, isSpread_append_newLine_iff here, ih later, isWritten_joinLines_iff,
            List.countP_cons (a := first)]
          cases isWritten first
          · simp
          · simp only [true_and, if_true]
            omega

end Comment

end ApiDocs
