import Mathlib.Data.List.Infix
import ApiDocs.Proofs.Comment.Fragments
import ApiDocs.Proofs.Comment.Gutter

/-!
# Inline tags over several lines

The lines of a description are joined before its inline tags are looked for, so that a tag may reach over any number
of them.  A tag that is not inside another one, and has no unclosed opening before it, becomes one fragment.
-/

namespace ApiDocs.Comment

/-! ### Tags that stand free -/

/-- A tag stands free between what comes before and behind it: no opening before it stays unclosed, and none that has a
name is closed only behind it. -/
structure StandsFree (front tag back : List Char) : Prop where
  closed : ∀ earlier behind, front = earlier ++ '\x7b' :: '@' :: behind →
    HasClosing ('\x7b' :: '@' :: (behind ++ (tag ++ back)))
  apart : ∀ earlier behind, front = earlier ++ '\x7b' :: '@' :: behind →
    (∃ char ∈ behind.head?, Text.isWordChar char = true) → HasClosing ('\x7b' :: '@' :: behind)

theorem StandsFree.of_append (earlier : List Char) {front tag back : List Char}
    (free : StandsFree (earlier ++ front) tag back) : StandsFree front tag back where
  closed := by
    rintro before behind rfl
    exact free.closed (earlier ++ before) behind (List.append_assoc ..).symm
  apart := by
    rintro before behind rfl
    exact free.apart (earlier ++ before) behind (List.append_assoc ..).symm

/-- Every opening in a text is closed in it. -/
def closesOpenings (text : List Char) : Bool :=
  text.tails.all fun ending => match ending with
    | '\x7b' :: '@' :: behind => (splitClosing? 0 behind).isSome
    | _ => true

/-- Behind a text that closes its openings every tag stands free. -/
theorem standsFree_of_closesOpenings {front : List Char} (closes : closesOpenings front = true) (tag back : List Char) :
    StandsFree front tag back := by
  have closed {earlier behind : List Char} (opens : front = earlier ++ '\x7b' :: '@' :: behind) :
      ∃ content later, splitClosing? 0 behind = some (content, later) := by
    have ending : '\x7b' :: '@' :: behind ∈ front.tails := (List.mem_tails _ _).mpr ⟨earlier, opens.symm⟩
    obtain ⟨⟨content, later⟩, split⟩ := Option.isSome_iff_exists.mp (List.all_eq_true.mp closes _ ending)
    exact ⟨content, later, split⟩
  constructor
  · intro earlier behind opens
    obtain ⟨content, later, split⟩ := closed opens
    rw [hasClosing_iff, splitClosing?_append split]
    rfl
  · intro earlier behind opens _
    obtain ⟨content, later, split⟩ := closed opens
    rw [hasClosing_iff, split]
    rfl

section Reaches

variable {name inside back : List Char}

/-- The pieces of a text come to a tag, and go on behind it as if nothing were before. -/
def Reaches (front name inside back : List Char) : Prop :=
  ∃ found, found.flatMap Piece.source = front ∧
    pieces (front ++ ((Piece.tag name inside).source ++ back)) = found ++ .tag name inside :: pieces back

/-- A character that begins no opening leads on to the tag. -/
theorem Reaches.char {char : Char} {rest : List Char} (noOpening : ∀ behind, char :: rest ≠ '\x7b' :: '@' :: behind)
    (later : Reaches rest name inside back) : Reaches (char :: rest) name inside back := by
  obtain ⟨found, sources, cut⟩ := later
  have noOpeningYet : ∀ behind,
      char :: (rest ++ ((Piece.tag name inside).source ++ back)) ≠ '\x7b' :: '@' :: behind := by
    intro behind same
    cases rest with
    | nil => cases (List.cons.inj same).2
    | cons second others =>
        obtain ⟨rfl, sameBehind⟩ := List.cons.inj same
        obtain ⟨rfl, _⟩ := List.cons.inj sameBehind
        exact noOpening others rfl
  refine ⟨prependPlain [char] found, ?_, ?_⟩
  · rw [flatMap_source_prependPlain, sources]
    rfl
  · rw [List.cons_append, pieces_of_noOpening noOpeningYet, cut, prependPlain_append_tag]

/-- An opening without a name leads on to the tag, if it is closed somewhere. -/
theorem Reaches.nameless {rest content after : List Char}
    (split : splitClosing? 0 (rest ++ ((Piece.tag name inside).source ++ back)) = some (content, after))
    (nameless : (Text.spanWord content).1 = []) (later : Reaches rest name inside back) :
    Reaches ('\x7b' :: '@' :: rest) name inside back := by
  obtain ⟨found, sources, cut⟩ := later
  refine ⟨prependPlain ['\x7b', '@'] found, ?_, ?_⟩
  · rw [flatMap_source_prependPlain, sources]
    rfl
  · rw [List.cons_append, List.cons_append, pieces_of_closed split, if_pos nameless, cut, prependPlain_append_tag]

/-- Another tag leads on to the tag, if it ends before it. -/
theorem Reaches.tag {content rest : List Char} (named : (Text.spanWord content).1 ≠ [])
    (split : splitClosing? 0 (content ++ '\x7d' :: rest) = some (content, rest))
    (later : Reaches rest name inside back) :
    Reaches ('\x7b' :: '@' :: (content ++ '\x7d' :: rest)) name inside back := by
  obtain ⟨found, sources, cut⟩ := later
  have covers : (Text.spanWord content).1 ++ (Text.spanWord content).2 = content := List.takeWhile_append_dropWhile
  refine ⟨.tag (Text.spanWord content).1 (Text.spanWord content).2 :: found, ?_, ?_⟩
  · rw [List.flatMap_cons, sources, Piece.source, covers]
    simp
  · rw [List.cons_append, List.cons_append, pieces_of_closed (splitClosing?_append split _), if_neg named, cut,
      List.cons_append]

/-- What stands before a free tag is closed before it, if it has a name. -/
theorem StandsFree.splitClosing?_of_named {rest content after : List Char}
    (free : StandsFree ('\x7b' :: '@' :: rest) (Piece.tag name inside).source back)
    (split : splitClosing? 0 (rest ++ ((Piece.tag name inside).source ++ back)) = some (content, after))
    (named : (Text.spanWord content).1 ≠ []) : ∃ later, splitClosing? 0 rest = some (content, later) := by
  have begins : ∃ char ∈ rest.head?, Text.isWordChar char = true := by
    have covers := eq_of_splitClosing? split
    cases content with
    | nil => exact absurd rfl named
    | cons first others =>
        have isWord : Text.isWordChar first = true := by
          by_contra noWord
          exact named (List.takeWhile_cons_of_neg noWord)
        cases rest with
        | nil =>
            obtain rfl : '\x7b' = first := (List.cons.inj covers).1
            exact absurd isWord (by decide)
        | cons char behind =>
            obtain rfl : char = first := (List.cons.inj covers).1
            exact ⟨char, rfl, isWord⟩
  have hasClosing := hasClosing_iff.mp (free.apart [] rest rfl begins)
  obtain ⟨⟨closed, later⟩, splitFront⟩ := Option.isSome_iff_exists.mp hasClosing
  have same := (splitClosing?_append splitFront _).symm.trans split
  obtain ⟨rfl, _⟩ := Prod.mk.inj (Option.some.inj same)
  exact ⟨later, splitFront⟩

/-- A tag that stands free is a piece, whatever pieces the text around it is cut into. -/
theorem StandsFree.reaches {front : List Char} (isTag : IsTag name inside)
    (free : StandsFree front (Piece.tag name inside).source back) : Reaches front name inside back := by
  -- What is read of the front is one character, an opening without a name, or a whole tag.
  induction size : front.length using Nat.strong_induction_on generalizing front with
  | _ size ih =>
      subst size
      cases front with
      | nil => exact ⟨[], rfl, isTag.pieces_eq back⟩
      | cons char rest =>
          by_cases opening : ∃ behind, char :: rest = '\x7b' :: '@' :: behind
          · obtain ⟨behind, same⟩ := opening
            obtain ⟨rfl, rfl⟩ := List.cons.inj same
            have closed := hasClosing_iff.mp (free.closed [] behind rfl)
            obtain ⟨⟨content, after⟩, split⟩ := Option.isSome_iff_exists.mp closed
            by_cases nameless : (Text.spanWord content).1 = []
            · have shorter : behind.length < ('\x7b' :: '@' :: behind).length := by
                simp only [List.length_cons]
                omega
              exact .nameless split nameless (ih _ shorter (free.of_append ['\x7b', '@']) rfl)
            · obtain ⟨later, splitFront⟩ := free.splitClosing?_of_named split nameless
              obtain rfl := eq_of_splitClosing? splitFront
              have freeLater : StandsFree later (Piece.tag name inside).source back :=
                .of_append ('\x7b' :: '@' :: (content ++ ['\x7d'])) (by simpa using free)
              have shorter : later.length < ('\x7b' :: '@' :: (content ++ '\x7d' :: later)).length := by
                simp only [List.length_cons, List.length_append]
                omega
              exact .tag nameless splitFront (ih _ shorter freeLater rfl)
          · exact .char (not_exists.mp opening) (ih rest.length (Nat.lt_succ_self _) (free.of_append [char]) rfl)

end Reaches

/-- The blanks around a text hold no brace. -/
theorem StandsFree.trim {front tag back : List Char} (free : StandsFree front tag back) :
    StandsFree (Text.trimStart front) tag (Text.trimEnd back) := by
  have lead : front = front.takeWhile Text.isBlank ++ Text.trimStart front := List.takeWhile_append_dropWhile.symm
  obtain ⟨trail, whole, blank⟩ := Text.exists_blank_trimEnd back
  have noBrace : '\x7d' ∉ trail := fun listed => absurd (blank _ listed) (by decide)
  rw [lead] at free
  obtain ⟨closed, apart⟩ := free.of_append
  refine ⟨fun earlier behind opens => ?_, apart⟩
  have isClosed := closed earlier behind opens
  rw [whole, ← List.append_assoc, ← List.append_assoc, hasClosing_append_iff noBrace, List.append_assoc] at isClosed
  exact isClosed

/-! ### The fragment of a tag -/

/-- Text in front of a fragment that is no text is not joined with what follows it. -/
theorem prependText_append {fragment : Fragment} (noText : ¬ fragment.IsText) (text : List Char)
    (earlier later : List Fragment) :
    prependText text (earlier ++ fragment :: later) = prependText text earlier ++ fragment :: later := by
  unfold prependText
  by_cases empty : text = []
  · rw [if_pos empty, if_pos empty]
  · rw [if_neg empty, if_neg empty]
    cases earlier with
    | nil =>
        cases fragment with
        | text content => exact absurd trivial noText
        | code content => rfl
        | link target label => rfl
    | cons first rest => cases first <;> rfl

theorem prependTag_append {fragment : Fragment} (noText : ¬ fragment.IsText) (name inside : List Char)
    (earlier later : List Fragment) :
    prependTag name (Text.trim inside) (earlier ++ fragment :: later) =
      prependTag name (Text.trim inside) earlier ++ fragment :: later := by
  rw [prependTag_eq, prependTag_eq]
  split
  · exact prependText_append noText _ earlier later
  · rfl

theorem fragments_append_tag {name inside : List Char} (noText : ¬ (Piece.tag name inside).image.IsText)
    (found later : List Piece) :
    fragments (found ++ .tag name inside :: later) =
      fragments found ++ (Piece.tag name inside).image :: fragments later := by
  induction found with
  | nil =>
      have first : fragments (.tag name inside :: later) = prependTag name (Text.trim inside) (fragments later) := rfl
      rw [List.nil_append, first, prependTag_eq]
      split
      next content isText => exact absurd (isText ▸ trivial) noText
      next => rfl
  | cons piece rest ih =>
      cases piece with
      | plain text => rw [List.cons_append, fragments, ih, prependText_append noText, fragments]
      | tag other content => rw [List.cons_append, fragments, ih, prependTag_append noText, fragments]

/-- The image of a tag for code or for a link is no text. -/
theorem not_isText_image {name : List Char} (marked : String.ofList name ∈ ["code", "literal", "link", "linkplain"])
    (inside : List Char) : ¬ (Piece.tag name inside).image.IsText := by
  have known : String.ofList name ∈ ["link", "linkplain"] ∨ String.ofList name ∈ ["code", "literal"] := by
    simp only [List.mem_cons, List.not_mem_nil, or_false] at marked ⊢
    tauto
  simp only [Piece.image]
  split
  · exact not_false
  · next noLink => rw [if_pos (known.resolve_left noLink)]; exact not_false

/-- A tag in a text is kept as one fragment, between those of the text before it and of the text behind it. -/
structure KeepsTag (front name inside back : List Char) (fragments earlier later : List Fragment) : Prop where
  isFragment : fragments = earlier ++ (Piece.tag name inside).image :: later
  before : ∃ found, found.flatMap Piece.source = Text.trimStart front ∧ JoinsImages found earlier
  behind : JoinsImages (pieces (Text.trimEnd back)) later

theorem trim_append_tag (front name inside back : List Char) :
    Text.trim (front ++ ((Piece.tag name inside).source ++ back)) =
      Text.trimStart front ++ ((Piece.tag name inside).source ++ Text.trimEnd back) := by
  have source : (Piece.tag name inside).source = '\x7b' :: '@' :: (name ++ inside) ++ ['\x7d'] := rfl
  have begins : ∀ char ∈ ((Piece.tag name inside).source ++ Text.trimEnd back).head?, Text.isBlank char = false := by
    rintro _ ⟨⟩
    decide
  have ends : ∀ char ∈ (Text.trimStart front ++ (Piece.tag name inside).source).getLast?,
      Text.isBlank char = false := by
    intro char isLast
    rw [source, ← List.append_assoc, List.getLast?_concat] at isLast
    obtain rfl : '\x7d' = char := Option.some.inj isLast
    decide
  have lead : front = front.takeWhile Text.isBlank ++ Text.trimStart front := List.takeWhile_append_dropWhile.symm
  obtain ⟨trail, behind, blank⟩ := Text.exists_blank_trimEnd back
  have whole : front ++ ((Piece.tag name inside).source ++ back) = front.takeWhile Text.isBlank ++
      (Text.trimStart front ++ ((Piece.tag name inside).source ++ Text.trimEnd back)) ++ trail := by
    conv_lhs => rw [lead, behind]
    simp only [List.append_assoc]
  rw [whole]
  refine Text.trim_eq_of_blank_around (fun _ => List.mem_takeWhile_imp) blank
    (Text.head?_trimStart_append begins front) ?_
  rw [← List.append_assoc]
  exact Text.getLast?_append_trimEnd ends back

theorem StandsFree.keepsTag {front name inside back : List Char} (isTag : IsTag name inside)
    (noText : ¬ (Piece.tag name inside).image.IsText) (free : StandsFree front (Piece.tag name inside).source back) :
    ∃ earlier later, KeepsTag front name inside back
      (DocText.parse (front ++ ((Piece.tag name inside).source ++ back))).fragments earlier later := by
  obtain ⟨found, sources, cut⟩ := free.trim.reaches isTag
  rw [DocText.parse, trim_append_tag, cut]
  exact ⟨_, _, fragments_append_tag noText found _, ⟨found, sources, joinsImages_fragments found⟩,
    joinsImages_fragments _⟩

/-- The lines before the first block are told by where lines are cut. -/
theorem IsCut.cutBlocks_eq {lines before : List (List Char)} {sections : List Section}
    (isCut : IsCut lines before sections) : (cutBlocks lines).1 = before := by
  obtain ⟨rfl, notOpening, opening, _⟩ := isCut
  induction before with
  | nil =>
      cases sections with
      | nil => rfl
      | cons part rest =>
          obtain ⟨opened, found⟩ := Option.isSome_iff_exists.mp (isOpening_iff.mp (opening part List.mem_cons_self))
          rw [List.nil_append, List.flatMap_cons, Section.lines, List.cons_append, cutBlocks_cons_of_opening found]
  | cons line rest ih =>
      obtain ⟨plain, later⟩ := List.forall_mem_cons.mp notOpening
      have none : opening? line = .none := Option.not_isSome_iff_eq_none.mp (mt isOpening_iff.mpr plain)
      rw [List.cons_append, cutBlocks_cons_of_plain none]
      exact congrArg (line :: ·) (ih later)

end ApiDocs.Comment

namespace ApiDocs.Documentation

open Comment

/-- An inline tag for code or for a link that stands free in a description is one fragment of it, over however many
lines it reaches. -/
theorem ofComment_keepsTag {comment : String} {before : List (List Char)} {sections : List Section}
    {front name inside back : List Char} (isCut : IsCut (stripGutter comment.toList) before sections)
    (description : joinLines before = front ++ ((Piece.tag name inside).source ++ back)) (isTag : IsTag name inside)
    (marked : String.ofList name ∈ ["code", "literal", "link", "linkplain"])
    (free : StandsFree front (Piece.tag name inside).source back) :
    ∃ root earlier later, (ofComment comment).tags.head? = some (.description root) ∧
      KeepsTag front name inside back root.fragments earlier later := by
  obtain ⟨earlier, later, keeps⟩ := free.keepsTag isTag (not_isText_image marked inside)
  rw [← description] at keeps
  have nonempty : (DocText.parse (joinLines before)).fragments ≠ [] := by
    rw [keeps.isFragment]
    exact List.append_ne_nil_of_right_ne_nil _ (List.cons_ne_nil _ _)
  refine ⟨_, earlier, later, ?_, keeps⟩
  rw [ofComment_eq, ofLines, isCut.cutBlocks_eq, descriptionOf, if_neg nonempty]
  rfl

/-- A tag is what the word and the closing brace that are found make it. -/
theorem isTag_of_splitClosing? {name inside : List Char} (named : name ≠ [])
    (spanned : Text.spanWord (name ++ inside) = (name, inside))
    (split : splitClosing? 0 (name ++ inside ++ ['\x7d']) = some (name ++ inside, [])) : IsTag name inside := by
  obtain ⟨_, word, wholeWord⟩ := Text.spanWord_eq_iff.mp spanned
  exact ⟨named, word, wholeWord, isBalanced_of_splitClosing? split⟩

/-- A code sample with an at sign and a link, each over two lines. -/
def sampleSpanning : String :=
  "/**\n * Runs \x7b@code\n * @Test(1) void run() \x7b \x7d\x7d with \x7b@link Runner\n * the runner\x7d.\n * @see Runner\n */"

def sampleFront : List Char :=
  "\nRuns \x7b@code\n@Test(1) void run() \x7b \x7d\x7d with ".toList

def sampleLink : List Char :=
  " Runner\nthe runner".toList

theorem ofComment_keepsTag_sampleSpanning :
    ∃ before sections root earlier later,
      IsCut (stripGutter sampleSpanning.toList) before sections ∧
      joinLines before = sampleFront ++ ((Piece.tag "link".toList sampleLink).source ++ ['.']) ∧
      IsTag "link".toList sampleLink ∧ StandsFree sampleFront (Piece.tag "link".toList sampleLink).source ['.'] ∧
      (ofComment sampleSpanning).tags.head? = some (.description root) ∧
      KeepsTag sampleFront "link".toList sampleLink ['.'] root.fragments earlier later := by
  obtain ⟨sections, isCut, _⟩ := exists_isCut (stripGutter sampleSpanning.toList)
  have description : joinLines (cutBlocks (stripGutter sampleSpanning.toList)).1 =
      sampleFront ++ ((Piece.tag "link".toList sampleLink).source ++ ['.']) := by
    decide +kernel
  have isTag : IsTag "link".toList sampleLink :=
    isTag_of_splitClosing? (by decide) (by decide +kernel) (by decide +kernel)
  have closes : closesOpenings sampleFront = true := by decide +kernel
  have free := standsFree_of_closesOpenings closes (Piece.tag "link".toList sampleLink).source ['.']
  obtain ⟨root, earlier, later, first, keeps⟩ := ofComment_keepsTag isCut description isTag (by decide) free
  exact ⟨_, sections, root, earlier, later, isCut, description, isTag, free, first, keeps⟩

/-- A code sample behind an opening that is never closed. -/
def sampleUnclosed : String :=
  "/**\n * Opens \x7b@code \x7b and \x7b@code a\n * b\x7d here.\n */"

/-- A code sample inside another one. -/
def sampleNested : String :=
  "/**\n * Shows \x7b@literal a \x7b@code b\n * c\x7d\x7d here.\n */"

/-- A code sample that is cut where one of its lines looks like a block tag. -/
def sampleAnnotated : String :=
  "/**\n * Runs \x7b@code\n * @Override\n * void run() \x7b \x7d\x7d once.\n */"

/-- A tag over several lines is no fragment behind an opening that stays unclosed, nor inside another tag, nor if a line
that begins in it opens a block tag. -/
theorem spanningTag_fails :
    (joinLines (stripGutter sampleUnclosed.toList) = "\nOpens \x7b@code \x7b and ".toList ++
        ((Piece.tag "code".toList " a\nb".toList).source ++ " here.\n".toList) ∧
      IsTag "code".toList " a\nb".toList ∧
      (ofComment sampleUnclosed).tags = [.description ⟨[.text "Opens \x7b@code \x7b and \x7b@code a\nb\x7d here."]⟩]) ∧
    (joinLines (stripGutter sampleNested.toList) = "\nShows \x7b@literal a ".toList ++
        ((Piece.tag "code".toList " b\nc".toList).source ++ "\x7d here.\n".toList) ∧
      IsTag "code".toList " b\nc".toList ∧
      (ofComment sampleNested).tags =
        [.description ⟨[.text "Shows ", .code "a \x7b@code b\nc\x7d", .text " here."]⟩]) ∧
    (joinLines (stripGutter sampleAnnotated.toList) = "\nRuns ".toList ++
        ((Piece.tag "code".toList "\n@Override\nvoid run() \x7b \x7d".toList).source ++ " once.\n".toList) ∧
      IsTag "code".toList "\n@Override\nvoid run() \x7b \x7d".toList ∧
      (ofComment sampleAnnotated).tags =
        [.description ⟨[.text "Runs \x7b@code"]⟩, .custom "Override" ⟨[.text "void run() \x7b \x7d\x7d once."]⟩]) := by
  refine ⟨⟨by decide +kernel, ?_, by decide +kernel⟩, ⟨by decide +kernel, ?_, by decide +kernel⟩,
    by decide +kernel, ?_, by decide +kernel⟩
  · exact isTag_of_splitClosing? (by decide) (by decide +kernel) (by decide +kernel)
  · exact isTag_of_splitClosing? (by decide) (by decide +kernel) (by decide +kernel)
  · exact isTag_of_splitClosing? (by decide) (by decide +kernel) (by decide +kernel)

end ApiDocs.Documentation
