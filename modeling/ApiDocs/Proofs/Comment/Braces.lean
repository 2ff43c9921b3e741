import ApiDocs.Comment.Inline
import Mathlib.Data.List.Basic

/-!
# Balanced braces

A tag reaches from its opening brace to the first brace behind which as many are closed as were opened.  The search
for the closing brace finds the end of such a tag if there is one.
-/

namespace ApiDocs.Comment

/-- Nowhere in a text are more braces closed than are open, if so many are open before it. -/
def StaysOpen (opened : Nat) (text : List Char) : Prop :=
  ∀ front, front <+: text → front.count '\x7d' ≤ opened + front.count '\x7b'

namespace StaysOpen

theorem nil (opened : Nat) : StaysOpen opened [] := by
  intro front begins
  rw [List.prefix_nil.mp begins]
  exact Nat.zero_le _

/-- One character changes how many braces are open. -/
theorem cons {opened later : Nat} {char : Char} {text : List Char} (rest : StaysOpen later text)
    (step : later + [char].count '\x7d' = opened + [char].count '\x7b') : StaysOpen opened (char :: text) := by
  intro front begins
  obtain rfl | ⟨inner, rfl, beginsRest⟩ := List.prefix_cons_iff.mp begins
  · exact Nat.zero_le _
  · have inRest := rest inner beginsRest
    rw [← List.singleton_append, List.count_append, List.count_append]
    omega

end StaysOpen

/-- What stands before the closing brace closes all braces that it opens, and those that were open. -/
structure Closes (opened : Nat) (inside : List Char) : Prop where
  staysOpen : StaysOpen opened inside
  whole : inside.count '\x7d' = opened + inside.count '\x7b'

theorem Closes.cons {opened later : Nat} {char : Char} {inside : List Char} (rest : Closes later inside)
    (step : later + [char].count '\x7d' = opened + [char].count '\x7b') : Closes opened (char :: inside) where
  staysOpen := rest.staysOpen.cons step
  whole := by
    have inRest := rest.whole
    rw [← List.singleton_append, List.count_append, List.count_append]
    omega

/-- The search passes a character that is no closing brace, at every depth. -/
theorem ne_closingBrace {opened : Nat} {char : Char} (noClosing : opened = 0 → char = '\x7d' → False)
    (noClosingInside : ∀ inner, opened = inner + 1 → char = '\x7d' → False) : char ≠ '\x7d' := by
  cases opened with
  | zero => exact noClosing rfl
  | succ inner => exact noClosingInside inner rfl

/-- A character that is no brace leaves open what is open. -/
theorem step_of_noBrace {opened : Nat} {char : Char} (noOpening : char ≠ '\x7b') (noClosing : char ≠ '\x7d') :
    opened + [char].count '\x7d' = opened + [char].count '\x7b' := by
  rw [List.count_singleton, List.count_singleton, beq_false_of_ne noClosing, beq_false_of_ne noOpening]

theorem closes_of_splitClosing? {opened : Nat} {text inside after : List Char}
    (split : splitClosing? opened text = some (inside, after)) : Closes opened inside := by
  fun_induction splitClosing? opened text generalizing inside after with
  | case1 => cases split
  | case2 opened rest ih =>
      obtain ⟨⟨inner, behind⟩, found, same⟩ := Option.map_eq_some_iff.mp split
      obtain ⟨rfl, rfl⟩ := Prod.mk.inj same
      exact (ih found).cons rfl
  | case3 rest =>
      obtain ⟨rfl, rfl⟩ := Prod.mk.inj (Option.some.inj split)
      exact ⟨.nil 0, rfl⟩
  | case4 rest opened ih =>
      obtain ⟨⟨inner, behind⟩, found, same⟩ := Option.map_eq_some_iff.mp split
      obtain ⟨rfl, rfl⟩ := Prod.mk.inj same
      exact (ih found).cons rfl
  | case5 opened char rest noOpening noClosing noClosingInside ih =>
      obtain ⟨⟨inner, behind⟩, found, same⟩ := Option.map_eq_some_iff.mp split
      obtain ⟨rfl, rfl⟩ := Prod.mk.inj same
      exact (ih found).cons (step_of_noBrace noOpening (ne_closingBrace noClosing noClosingInside))

theorem staysOpen_of_splitClosing? {opened : Nat} {text : List Char} (split : splitClosing? opened text = none) :
    StaysOpen opened text := by
  fun_induction splitClosing? opened text with
  | case1 opened => exact .nil opened
  | case2 opened rest ih => exact (ih (Option.map_eq_none_iff.mp split)).cons rfl
  | case3 => cases split
  | case4 rest opened ih => exact (ih (Option.map_eq_none_iff.mp split)).cons rfl
  | case5 opened char rest noOpening noClosing noClosingInside ih =>
      exact (ih (Option.map_eq_none_iff.mp split)).cons (step_of_noBrace noOpening (ne_closingBrace noClosing noClosingInside))

theorem splitClosing?_eq_none_iff {opened : Nat} {text : List Char} :
    splitClosing? opened text = none ↔ StaysOpen opened text := by
  refine ⟨staysOpen_of_splitClosing?, fun staysOpen => ?_⟩
  cases split : splitClosing? opened text with
  | none => rfl
  | some found =>
      obtain ⟨inside, after⟩ := found
      have whole := (closes_of_splitClosing? split).whole
      have tooMany := staysOpen (inside ++ ['\x7d']) ⟨after, by simp [eq_of_splitClosing? split]⟩
      have closes : ['\x7d'].count '\x7d' = 1 ∧ ['\x7d'].count '\x7b' = 0 := ⟨rfl, rfl⟩
      rw [List.count_append, List.count_append, whole, closes.1, closes.2] at tooMany
      omega

/-- A text ends in the brace that closes its first one: before its end it has more braces opened than closed. -/
structure IsBalanced (text : List Char) : Prop where
  nonempty : text ≠ []
  whole : text.count '\x7b' = text.count '\x7d'
  inside : ∀ front, front <+: text → front ≠ [] → front ≠ text → front.count '\x7d' < front.count '\x7b'

/-- A text begins with a brace, and this one is closed in it. -/
def HasClosing (text : List Char) : Prop :=
  ∃ tag after, text = tag ++ after ∧ IsBalanced tag

/-- What the search cuts out behind the opening of a tag is a balanced text. -/
theorem isBalanced_of_splitClosing? {text inside after : List Char}
    (split : splitClosing? 0 text = some (inside, after)) :
    IsBalanced ('\x7b' :: '@' :: inside ++ ['\x7d']) := by
  obtain ⟨staysOpen, whole⟩ := closes_of_splitClosing? split
  refine ⟨List.cons_ne_nil _ _, ?whole, ?inside⟩
  case whole =>
    simp [whole]
  case inside =>
    intro front begins someFront notAll
    obtain all | begins := List.prefix_concat_iff.mp begins
    · exact absurd all notAll
    · obtain none | ⟨behindBrace, rfl, beginsBehind⟩ := List.prefix_cons_iff.mp begins
      · exact absurd none someFront
      · obtain rfl | ⟨inner, rfl, beginsInside⟩ := List.prefix_cons_iff.mp beginsBehind
        · decide
        · have stays := staysOpen inner beginsInside
          simp
          omega

/-- A tag is closed somewhere if and only if the search finds its closing brace. -/
theorem hasClosing_iff {text : List Char} :
    HasClosing ('\x7b' :: '@' :: text) ↔ (splitClosing? 0 text).isSome := by
  constructor
  · rintro ⟨tag, after, cut, balanced⟩
    cases split : splitClosing? 0 text with
    | some found => rfl
    | none =>
        have stays := staysOpen_of_splitClosing? split
        have begins : tag <+: '\x7b' :: '@' :: text := cut ▸ List.prefix_append tag after
        have whole := balanced.whole
        obtain none | ⟨behindBrace, rfl, beginsBehind⟩ := List.prefix_cons_iff.mp begins
        · exact absurd none balanced.nonempty
        · obtain rfl | ⟨inner, rfl, beginsInside⟩ := List.prefix_cons_iff.mp beginsBehind
          · cases whole
          · have noMore := stays inner beginsInside
            simp at whole
            omega
  · intro isSome
    obtain ⟨⟨inside, after⟩, split⟩ := Option.isSome_iff_exists.mp isSome
    refine ⟨_, after, ?_, isBalanced_of_splitClosing? split⟩
    simp [eq_of_splitClosing? split]

/-- Text without a closing brace behind it does not close a tag. -/
theorem hasClosing_append_iff {text trail : List Char} (noBrace : '\x7d' ∉ trail) :
    HasClosing ('\x7b' :: '@' :: (text ++ trail)) ↔ HasClosing ('\x7b' :: '@' :: text) := by
  have same : StaysOpen 0 (text ++ trail) ↔ StaysOpen 0 text := by
    refine ⟨fun stays front begins => stays front (List.prefix_append_of_prefix begins), fun stays front begins => ?_⟩
    obtain inText | ⟨more, rfl⟩ := List.prefix_or_prefix_of_prefix begins (List.prefix_append text trail)
    · exact stays front inText
    · have inTrail : more <+: trail := (List.prefix_append_right_inj text).mp begins
      have noMore : more.count '\x7d' = 0 := List.count_eq_zero.mpr fun listed => noBrace (inTrail.mem listed)
      have whole := stays text List.prefix_rfl
      rw [List.count_append, List.count_append]
      omega
  rw [hasClosing_iff, hasClosing_iff, Option.isSome_iff_ne_none, Option.isSome_iff_ne_none, Ne, Ne,
    splitClosing?_eq_none_iff, splitClosing?_eq_none_iff, same]

/-- The closing brace that is found does not depend on what follows it. -/
theorem splitClosing?_append {opened : Nat} {text inside after : List Char}
    (split : splitClosing? opened text = some (inside, after)) (more : List Char) :
    splitClosing? opened (text ++ more) = some (inside, after ++ more) := by
  fun_induction splitClosing? opened text generalizing inside after with
  | case1 => cases split
  | case2 opened rest ih =>
      obtain ⟨⟨inner, behind⟩, found, same⟩ := Option.map_eq_some_iff.mp split
      obtain ⟨rfl, rfl⟩ := Prod.mk.inj same
      rw [List.cons_append, splitClosing?, ih found]
      rfl
  | case3 rest =>
      obtain ⟨rfl, rfl⟩ := Prod.mk.inj (Option.some.inj split)
      rfl
  | case4 rest opened ih =>
      obtain ⟨⟨inner, behind⟩, found, same⟩ := Option.map_eq_some_iff.mp split
      obtain ⟨rfl, rfl⟩ := Prod.mk.inj same
      rw [List.cons_append, splitClosing?, ih found]
      rfl
  | case5 opened char rest noOpening noClosing noClosingInside ih =>
      obtain ⟨⟨inner, behind⟩, found, same⟩ := Option.map_eq_some_iff.mp split
      obtain ⟨rfl, rfl⟩ := Prod.mk.inj same
      rw [List.cons_append, splitClosing?, ih found]
      · rfl
      · exact noOpening
      · exact noClosing
      · exact noClosingInside

/-- Of two balanced texts at one place neither goes on behind the end of the other. -/
theorem IsBalanced.eq_of_append_eq {first second after behind : List Char} (isFirst : IsBalanced first)
    (isSecond : IsBalanced second) (same : first ++ after = second ++ behind) : first = second := by
  have ends {short long : List Char} (isShort : IsBalanced short) (isLong : IsBalanced long) (begins : short <+: long) :
      short = long := by
    by_contra differs
    have stillOpen := isLong.inside short begins isShort.nonempty differs
    rw [isShort.whole] at stillOpen
    exact absurd stillOpen (Nat.lt_irrefl _)
  obtain begins | begins := List.prefix_or_prefix_of_prefix (List.prefix_append first after)
    (same ▸ List.prefix_append second behind)
  · exact ends isFirst isSecond begins
  · exact (ends isSecond isFirst begins).symm

end ApiDocs.Comment
