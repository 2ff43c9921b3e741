import ApiDocs.Proofs.Comment.Braces
import ApiDocs.Proofs.Words

/-!
# Inline markup conserves text

The pieces of a text follow one another without a gap, and every tag that can be closed is a piece of its own.  The
fragments are the images of the pieces.  Texts in them are compared character by character, since neighbouring texts
are joined.
-/

namespace ApiDocs.Comment

namespace Piece

/-- The part of the text that a piece covers. -/
def source : Piece → List Char
  | plain text => text
  | tag name inside => '\x7b' :: '@' :: (name ++ inside) ++ ['\x7d']

def IsPlain : Piece → Prop
  | plain _ => True
  | tag _ _ => False

/-- What a piece becomes, by the name of the tag. -/
def image : Piece → Fragment
  | plain text => .text (String.ofList text)
  | tag name inside =>
      let content := Text.trim inside
      if String.ofList name ∈ ["link", "linkplain"] then
        let target := content.takeWhile fun char => !Text.isBlank char
        let label := Text.trim (content.dropWhile fun char => !Text.isBlank char)
        .link (String.ofList target) (if label = [] then none else some (String.ofList label))
      else if String.ofList name ∈ ["code", "literal"] then .code (String.ofList content)
      else .text (String.ofList content)

end Piece

/-- A tag has a name, which is a whole word, and ends at the brace that closes it. -/
structure IsTag (name inside : List Char) : Prop where
  named : name ≠ []
  word : ∀ char ∈ name, Text.isWordChar char = true
  wholeWord : ∀ char ∈ inside.head?, Text.isWordChar char = false
  balanced : IsBalanced (Piece.tag name inside).source

/-- Every opening in a plain text, with what follows the text, that a word follows and that is closed stands behind one
in the same text that is not closed. -/
def MissesNoTag (text following : List Char) : Prop :=
  ∀ front back, text = front ++ '\x7b' :: '@' :: back → (∃ char ∈ (back ++ following).head?, Text.isWordChar char) →
    HasClosing ('\x7b' :: '@' :: (back ++ following)) →
    ∃ earlier rest, text = earlier ++ '\x7b' :: '@' :: rest ∧ earlier.length < front.length ∧
      ¬ HasClosing ('\x7b' :: '@' :: (rest ++ following))

/-- A plain text holds an opening that is not closed. -/
def HasUnclosed (text following : List Char) : Prop :=
  ∃ front back, text = front ++ '\x7b' :: '@' :: back ∧ ¬ HasClosing ('\x7b' :: '@' :: (back ++ following))

/-- What holds of a plain piece with the pieces behind it, and the text behind these. -/
structure PlainEnough (text : List Char) (after : List Piece) (trail : List Char) : Prop where
  nonempty : text ≠ []
  missesNoTag : MissesNoTag text (after.flatMap Piece.source ++ trail)
  /-- Behind an opening that is not closed all is plain. -/
  unclosed : HasUnclosed text (after.flatMap Piece.source ++ trail) → after = []
  /-- A plain piece reaches as far as it can. -/
  maximal : ∀ next ∈ after.head?, ¬ next.IsPlain

/-- Pieces are cut as inline markup asks for, with the trail of the text behind them. -/
def WellCut (trail : List Char) : List Piece → Prop
  | [] => True
  | .plain text :: after => PlainEnough text after trail ∧ WellCut trail after
  | .tag name inside :: after => IsTag name inside ∧ WellCut trail after

/-- No tag begins in a text, with what follows it: what opens there has no name, and it is closed. -/
def OpensNoTag (text following : List Char) : Prop :=
  ∀ ending back, ending <:+ text → ending ≠ [] → ending ++ following = '\x7b' :: '@' :: back →
    HasClosing ('\x7b' :: '@' :: back) ∧ ∀ char ∈ back.head?, Text.isWordChar char = false

namespace OpensNoTag

variable {text later following : List Char}

/-- An opening in a longer text is harmless, or stands in what was there before. -/
theorem opening_cases (opensNoTag : OpensNoTag text (later ++ following)) {front back : List Char}
    (split : text ++ later = front ++ '\x7b' :: '@' :: back) :
    (∃ behind, front = text ++ behind ∧ later = behind ++ '\x7b' :: '@' :: back) ∨
      HasClosing ('\x7b' :: '@' :: (back ++ following)) ∧
        ∀ char ∈ (back ++ following).head?, Text.isWordChar char = false := by
  obtain ⟨behind, rfl, rest⟩ | ⟨ending, rfl, rest⟩ := List.append_eq_append_iff.mp split
  · exact .inl ⟨behind, rfl, rest⟩
  · cases ending with
    | nil => exact .inl ⟨[], by simp, by simpa using rest.symm⟩
    | cons first others =>
        refine .inr (opensNoTag (first :: others) _ (List.suffix_append _ _) (List.cons_ne_nil _ _) ?_)
        rw [← List.append_assoc, ← rest]
        rfl

theorem missesNoTag (opensNoTag : OpensNoTag text (later ++ following)) (misses : MissesNoTag later following) :
    MissesNoTag (text ++ later) following := by
  rintro front back split ⟨char, begins, isWord⟩ closed
  obtain ⟨behind, rfl, inLater⟩ | ⟨_, noWord⟩ := opensNoTag.opening_cases split
  · obtain ⟨earlier, rest, rfl, shorter, notClosed⟩ := misses behind back inLater ⟨char, begins, isWord⟩ closed
    refine ⟨text ++ earlier, rest, (List.append_assoc ..).symm, ?_, notClosed⟩
    simpa using shorter
  · rw [noWord char begins] at isWord
    cases isWord

theorem hasUnclosed (opensNoTag : OpensNoTag text (later ++ following)) (unclosed : HasUnclosed (text ++ later) following) :
    HasUnclosed later following := by
  obtain ⟨front, back, split, notClosed⟩ := unclosed
  obtain ⟨behind, _, inLater⟩ | ⟨closed, _⟩ := opensNoTag.opening_cases split
  · exact ⟨behind, back, inLater, notClosed⟩
  · exact absurd closed notClosed

end OpensNoTag

theorem wellCut_prependPlain {text trail : List Char} {found : List Piece} (nonempty : text ≠ [])
    (opensNoTag : OpensNoTag text (found.flatMap Piece.source ++ trail)) (wellCut : WellCut trail found) :
    WellCut trail (prependPlain text found) := by
  have noOpening (following : List Char) : MissesNoTag [] following ∧ ¬ HasUnclosed [] following := by
    have none (front back : List Char) : [] ≠ front ++ '\x7b' :: '@' :: back :=
      fun same => List.append_ne_nil_of_right_ne_nil front (List.cons_ne_nil _ _) same.symm
    exact ⟨fun front back split => absurd split (none front back), fun ⟨front, back, split, _⟩ => none front back split⟩
  unfold prependPlain
  split
  next later after =>
    obtain ⟨enough, wellCut⟩ := wellCut
    rw [List.flatMap_cons, List.append_assoc] at opensNoTag
    refine ⟨⟨List.append_ne_nil_of_left_ne_nil nonempty later, ?missesNoTag, ?unclosed, enough.maximal⟩, wellCut⟩
    case missesNoTag => exact opensNoTag.missesNoTag enough.missesNoTag
    case unclosed => exact fun unclosed => enough.unclosed (opensNoTag.hasUnclosed unclosed)
  next noPlain =>
    have alone : OpensNoTag text ([] ++ (found.flatMap Piece.source ++ trail)) := opensNoTag
    rw [← List.append_nil text]
    refine ⟨⟨by simpa using nonempty, ?missesNoTag, ?unclosed, ?maximal⟩, wellCut⟩
    case missesNoTag => exact alone.missesNoTag (noOpening _).1
    case unclosed => exact fun unclosed => absurd (alone.hasUnclosed unclosed) (noOpening _).2
    case maximal =>
      intro next begins isPlain
      cases found with
      | nil => cases begins
      | cons first rest =>
          obtain rfl : first = next := Option.some.inj begins
          cases first with
          | plain later => exact noPlain later rest rfl
          | tag name inside => exact isPlain

/-! ### How pieces are cut -/

theorem pieces_of_unclosed {rest : List Char} (split : splitClosing? 0 rest = none) :
    pieces ('\x7b' :: '@' :: rest) = [.plain ('\x7b' :: '@' :: rest)] := by
  rw [pieces]
  split
  next => rfl
  next inside after found => rw [split] at found; cases found

theorem pieces_of_closed {rest inside after : List Char} (split : splitClosing? 0 rest = some (inside, after)) :
    pieces ('\x7b' :: '@' :: rest) =
      if (Text.spanWord inside).1 = [] then prependPlain ['\x7b', '@'] (pieces rest)
      else .tag (Text.spanWord inside).1 (Text.spanWord inside).2 :: pieces after := by
  rw [pieces]
  split
  next found => rw [split] at found; cases found
  next found =>
    obtain ⟨rfl, rfl⟩ := Prod.mk.inj (Option.some.inj (split.symm.trans found))
    rfl

theorem pieces_of_noOpening {char : Char} {rest : List Char}
    (noOpening : ∀ behind, char :: rest ≠ '\x7b' :: '@' :: behind) :
    pieces (char :: rest) = prependPlain [char] (pieces rest) := by
  rw [pieces]
  rintro behind rfl rfl
  exact noOpening behind rfl

theorem prependPlain_append_tag (text : List Char) (found : List Piece) (name inside : List Char) (later : List Piece) :
    prependPlain text (found ++ .tag name inside :: later) = prependPlain text found ++ .tag name inside :: later := by
  cases found with
  | nil => rfl
  | cons first rest => cases first <;> rfl

/-- The search finds the end of a tag. -/
theorem IsTag.splitClosing?_eq {name inside : List Char} (isTag : IsTag name inside) (after : List Char) :
    splitClosing? 0 (name ++ inside ++ '\x7d' :: after) = some (name ++ inside, after) := by
  have source : (Piece.tag name inside).source ++ after = '\x7b' :: '@' :: (name ++ inside ++ '\x7d' :: after) := by
    simp [Piece.source]
  have closed := hasClosing_iff.mp ⟨_, after, source.symm, isTag.balanced⟩
  obtain ⟨⟨found, behind⟩, split⟩ := Option.isSome_iff_exists.mp closed
  have wholes : (Piece.tag name inside).source ++ after = '\x7b' :: '@' :: found ++ ['\x7d'] ++ behind := by
    rw [source, eq_of_splitClosing? split]
    simp
  have same := isTag.balanced.eq_of_append_eq (isBalanced_of_splitClosing? split) wholes
  rw [← same, List.append_cancel_left_eq] at wholes
  rw [Piece.source, List.append_cancel_right_eq] at same
  obtain rfl : name ++ inside = found := (List.cons.inj (List.cons.inj same).2).2
  rw [split, wholes]

theorem IsTag.pieces_eq {name inside : List Char} (isTag : IsTag name inside) (back : List Char) :
    pieces ((Piece.tag name inside).source ++ back) = .tag name inside :: pieces back := by
  have source : (Piece.tag name inside).source ++ back = '\x7b' :: '@' :: (name ++ inside ++ '\x7d' :: back) := by
    simp [Piece.source]
  have spanned : Text.spanWord (name ++ inside) = (name, inside) :=
    Text.spanWord_eq_iff.mpr ⟨rfl, isTag.word, isTag.wholeWord⟩
  rw [source, pieces_of_closed (isTag.splitClosing?_eq back), spanned, if_neg isTag.named]

/-- How a text is cut into pieces, from its beginning on. -/
inductive Cuts : List Char → List Piece → Prop where
  | nil : Cuts [] []
  | unclosed {rest : List Char} (notClosed : ¬ HasClosing ('\x7b' :: '@' :: rest)) :
      Cuts ('\x7b' :: '@' :: rest) [.plain ('\x7b' :: '@' :: rest)]
  | nameless {rest : List Char} {found : List Piece} (closed : HasClosing ('\x7b' :: '@' :: rest))
      (noName : ∀ char ∈ rest.head?, Text.isWordChar char = false) (later : Cuts rest found) :
      Cuts ('\x7b' :: '@' :: rest) (prependPlain ['\x7b', '@'] found)
  | tag {name inside after : List Char} {found : List Piece} (isTag : IsTag name inside) (later : Cuts after found) :
      Cuts ((Piece.tag name inside).source ++ after) (.tag name inside :: found)
  | char {char : Char} {rest : List Char} {found : List Piece}
      (noOpening : ∀ behind, char :: rest ≠ '\x7b' :: '@' :: behind) (later : Cuts rest found) :
      Cuts (char :: rest) (prependPlain [char] found)

theorem cuts_pieces (text : List Char) : Cuts text (pieces text) := by
  fun_induction pieces text with
  | case1 => exact .nil
  | case2 rest split =>
      refine .unclosed ?_
      rw [hasClosing_iff, split]
      exact Bool.false_ne_true
  | case3 rest inside after split shorter content spanned ih =>
      refine .nameless (hasClosing_iff.mpr (by rw [split]; rfl)) ?_ ih
      have isWordOf := Text.spanWord_eq_iff.mp spanned
      -- The text goes on with what is inside, or with the closing brace.
      rw [eq_of_splitClosing? split, isWordOf.covers]
      cases content with
      | nil =>
          rintro char ⟨⟩
          decide
      | cons first others => exact isWordOf.ends
  | case4 rest inside after split shorter name content spanned named ih =>
      obtain ⟨rfl, isWord, ends⟩ := Text.spanWord_eq_iff.mp spanned
      have source : '\x7b' :: '@' :: rest = (Piece.tag name content).source ++ after := by
        simp [Piece.source, eq_of_splitClosing? split]
      rw [source]
      exact .tag ⟨named, isWord, ends, isBalanced_of_splitClosing? split⟩ ih
  | case5 char rest noOpening ih =>
      refine .char ?_ ih
      intro behind same
      obtain ⟨isBrace, isAt⟩ := List.cons.inj same
      exact noOpening behind isBrace isAt

theorem flatMap_source_prependPlain (text : List Char) (found : List Piece) :
    (prependPlain text found).flatMap Piece.source = text ++ found.flatMap Piece.source := by
  unfold prependPlain
  split <;> simp [Piece.source]

namespace Cuts

variable {text : List Char} {found : List Piece}

/-- The pieces cover the text without gaps. -/
theorem flatMap_source (cuts : Cuts text found) : found.flatMap Piece.source = text := by
  induction cuts with
  | nil => rfl
  | unclosed => simp [Piece.source]
  | nameless closed noName later ih => rw [flatMap_source_prependPlain, ih]; rfl
  | tag isTag later ih => rw [List.flatMap_cons, ih]
  | char noOpening later ih => rw [flatMap_source_prependPlain, ih]; rfl

theorem wellCut {trail : List Char} (blank : ∀ char ∈ trail, Text.isBlank char = true) (cuts : Cuts text found) :
    WellCut trail found := by
  have noBrace : '\x7d' ∉ trail := fun listed => absurd (blank _ listed) (by decide)
  induction cuts with
  | nil => trivial
  | @unclosed rest notClosed =>
      have notClosed := mt (hasClosing_append_iff noBrace).mp notClosed
      refine ⟨⟨List.cons_ne_nil _ _, ?_, fun _ => rfl, nofun⟩, trivial⟩
      intro front back split _ closed
      cases front with
      | nil =>
          obtain rfl : rest = back := (List.cons.inj (List.cons.inj split).2).2
          exact absurd closed notClosed
      | cons first others => exact ⟨[], rest, rfl, Nat.zero_lt_succ _, notClosed⟩
  | @nameless rest found closed noName later ih =>
      refine wellCut_prependPlain (List.cons_ne_nil _ _) ?_ ih
      rw [later.flatMap_source]
      intro ending back ends nonempty opens
      obtain rfl | ends := List.suffix_cons_iff.mp ends
      · obtain rfl : rest ++ trail = back := (List.cons.inj (List.cons.inj opens).2).2
        refine ⟨(hasClosing_append_iff noBrace).mpr closed, ?_⟩
        cases rest with
        | nil => exact absurd (hasClosing_iff.mp closed) Bool.false_ne_true
        | cons first others => exact noName
      · obtain rfl | none := List.suffix_cons_iff.mp ends
        · cases opens
        · exact absurd (List.suffix_nil.mp none) nonempty
  | tag isTag later ih => exact ⟨isTag, ih⟩
  | @char char rest found noOpening later ih =>
      refine wellCut_prependPlain (List.cons_ne_nil _ _) ?_ ih
      rw [later.flatMap_source]
      intro ending back ends nonempty opens
      obtain rfl | none := List.suffix_cons_iff.mp ends
      · -- An at sign that ends the opening stands in the text, since it is no blank.
        cases rest with
        | nil =>
            obtain rfl : trail = '@' :: back := (List.cons.inj opens).2
            exact absurd (blank '@' List.mem_cons_self) (by decide)
        | cons second others =>
            obtain ⟨rfl, behindBrace⟩ := List.cons.inj opens
            obtain ⟨rfl, _⟩ := List.cons.inj behindBrace
            exact absurd rfl (noOpening others)
      · exact absurd (List.suffix_nil.mp none) nonempty

end Cuts

end ApiDocs.Comment
