import ApiDocs.Proofs.Comment.Gutter

/-!
# Blanks behind the gutter

The gutter of a line is at most one star with at most one space behind it.  A line opens a block tag if the at sign
follows this gutter directly, so that a second blank behind the star hides the tag.  On all other lines the number of
blanks changes no block tag.
-/

namespace ApiDocs.Comment

/-- The lines of a comment without its delimiters, each with its gutter. -/
def bodyLines (comment : List Char) : List (List Char) :=
  let trimmed := Text.trim comment
  let opened := (Text.withoutHead? ['/', '*', '*'] trimmed).getD trimmed
  Text.lines ((Text.withoutTail? ['*', '/'] opened).getD opened)

theorem stripGutter_eq (comment : List Char) : stripGutter comment = (bodyLines comment).map stripGutterLine :=
  rfl

/-! ### Openings behind blanks -/

theorem IsOpening.exists_cons {line : List Char} (opening : IsOpening line) : ∃ rest, line = '@' :: rest := by
  obtain ⟨word, rest, opens⟩ := opening
  exact ⟨_, opens.isLine⟩

/-- Trailing blanks do not matter for whether a line opens a block tag. -/
theorem isOpening_trimEnd_iff {line : List Char} : IsOpening (Text.trimEnd line) ↔ IsOpening line := by
  constructor
  · rintro ⟨word, rest, isLine, named, isWord, ends⟩
    obtain ⟨trail, whole, blank⟩ := Text.exists_blank_trimEnd line
    refine ⟨word, rest ++ trail, ?_, named, isWord, ?_⟩
    · rw [whole, isLine, List.cons_append, List.append_assoc]
    · intro char begins
      cases rest with
      | nil => exact blank char (List.mem_of_mem_head? begins)
      | cons first others => exact ends char begins
  · rintro ⟨word, rest, rfl, named, isWord, ends⟩
    obtain ⟨trail, whole, blank⟩ := Text.exists_blank_trimEnd rest
    refine ⟨word, Text.trimEnd rest, ?_, named, isWord,
      fun char begins => ends char (Text.head?_trimEnd rest char begins)⟩
    have dark : ∀ char ∈ ('@' :: word).getLast?, Text.isBlank char = false := by
      intro char isLast
      obtain rfl | listed := List.mem_cons.mp (List.mem_of_mem_getLast? isLast)
      · decide
      · refine Bool.eq_false_iff.mpr fun isBlank => ?_
        have noWord := Text.isWordChar_of_isBlank isBlank
        rw [isWord char listed] at noWord
        cases noWord
    conv_lhs => rw [whole, ← List.append_assoc, ← List.cons_append, Text.trimEnd_append_of_blank blank]
    exact Text.trimEnd_eq_self (Text.getLast?_append_trimEnd dark rest)

/-- A line with blanks before an opening is none. -/
theorem isOpening_append_iff {blanks line : List Char} (blank : ∀ char ∈ blanks, Text.isBlank char = true) :
    IsOpening (blanks ++ line) ↔ blanks = [] ∧ IsOpening line := by
  constructor
  · intro opening
    cases blanks with
    | nil => exact ⟨rfl, opening⟩
    | cons first rest =>
        obtain ⟨behind, same⟩ := opening.exists_cons
        obtain rfl := (List.cons.inj same).1
        exact absurd (blank '@' List.mem_cons_self) (by decide)
  · rintro ⟨rfl, opening⟩
    exact opening

/-! ### Lines with a star -/

/-- The blanks between a star and the rest of its line belong to the gutter. -/
def IsNarrow (gap : List Char) : Prop :=
  gap = [] ∨ gap = [' ']

variable {indentation gap text : List Char}

/-- Behind the gutter stand the blanks that are too many for it, and the rest of the line. -/
theorem exists_stripGutterLine_eq (blank : ∀ char ∈ indentation, Text.isBlank char = true)
    (gapBlank : ∀ char ∈ gap, Text.isBlank char = true) (begins : ∀ char ∈ text.head?, Text.isBlank char = false) :
    ∃ blanks, (∀ char ∈ blanks, Text.isBlank char = true) ∧ (blanks = [] ↔ IsNarrow gap) ∧
      stripGutterLine (indentation ++ '*' :: (gap ++ text)) = Text.trimEnd (blanks ++ text) := by
  have unindented : Text.trimStart (indentation ++ '*' :: (gap ++ text)) = '*' :: (gap ++ text) := by
    rw [Text.trimStart_append_of_blank blank]
    exact Text.trimStart_eq_self (by rintro _ ⟨⟩; decide)
  have stripped : stripGutterLine (indentation ++ '*' :: (gap ++ text)) =
      Text.trimEnd ((Text.withoutHead? [' '] (gap ++ text)).getD (gap ++ text)) := by
    rw [stripGutterLine, unindented]
    rfl
  by_cases spaced : ∃ rest, gap = ' ' :: rest
  · obtain ⟨rest, rfl⟩ := spaced
    refine ⟨rest, fun char listed => gapBlank char (List.mem_cons_of_mem _ listed), ?_, stripped⟩
    simp [IsNarrow]
  · have noSpace : Text.withoutHead? [' '] (gap ++ text) = none := by
      rw [Option.eq_none_iff_forall_ne_some]
      intro rest found
      have same := Text.withoutHead?_eq_some_iff.mp found
      cases gap with
      | nil =>
          rw [List.nil_append] at same
          exact absurd (begins ' ' (by rw [same]; rfl)) (by decide)
      | cons first others =>
          obtain rfl := (List.cons.inj same).1
          exact spaced ⟨others, rfl⟩
    refine ⟨gap, gapBlank, ?_, by rw [stripped, noSpace, Option.getD_none]⟩
    refine ⟨.inl, fun narrow => narrow.resolve_right fun same => spaced ⟨[], same⟩⟩

theorem isOpening_stripGutterLine_starred_iff (blank : ∀ char ∈ indentation, Text.isBlank char = true)
    (gapBlank : ∀ char ∈ gap, Text.isBlank char = true) (begins : ∀ char ∈ text.head?, Text.isBlank char = false) :
    IsOpening (stripGutterLine (indentation ++ '*' :: (gap ++ text))) ↔ IsNarrow gap ∧ IsOpening text := by
  obtain ⟨blanks, areBlank, narrow, stripped⟩ := exists_stripGutterLine_eq blank gapBlank begins
  rw [stripped, isOpening_trimEnd_iff, isOpening_append_iff areBlank, narrow]

/-! ### Lines that open a block tag -/

/-- Behind white space and the gutter a line has nothing before its at sign. -/
def OpensBehindGutter (line : List Char) : Prop :=
  ∃ indentation gutter text, line = indentation ++ (gutter ++ text) ∧ (∀ char ∈ indentation, Text.isBlank char = true) ∧
    gutter ∈ [[], ['*'], ['*', ' ']] ∧ IsOpening text

theorem isOpening_stripGutterLine_iff {line : List Char} :
    IsOpening (stripGutterLine line) ↔ OpensBehindGutter line := by
  constructor
  · intro opening
    have whole : line = line.takeWhile Text.isBlank ++ Text.trimStart line := List.takeWhile_append_dropWhile.symm
    have blank : ∀ char ∈ line.takeWhile Text.isBlank, Text.isBlank char = true := fun _ => List.mem_takeWhile_imp
    rw [stripGutterLine, isOpening_trimEnd_iff] at opening
    cases star : Text.withoutHead? ['*'] (Text.trimStart line) with
    | none =>
        have noSpace : Text.withoutHead? [' '] (Text.trimStart line) = none := by
          rw [Option.eq_none_iff_forall_ne_some]
          intro rest found
          have same := Text.withoutHead?_eq_some_iff.mp found
          exact absurd (Text.head?_trimStart line ' ' (by rw [same]; rfl)) (by decide)
        rw [star, Option.getD_none, noSpace, Option.getD_none] at opening
        exact ⟨_, [], _, whole, blank, by decide, opening⟩
    | some unstarred =>
        have starred := Text.withoutHead?_eq_some_iff.mp star
        rw [star, Option.getD_some] at opening
        rw [starred] at whole
        cases space : Text.withoutHead? [' '] unstarred with
        | none =>
            rw [space, Option.getD_none] at opening
            exact ⟨_, ['*'], _, whole, blank, by decide, opening⟩
        | some text =>
            rw [space, Option.getD_some] at opening
            rw [Text.withoutHead?_eq_some_iff.mp space] at whole
            exact ⟨_, ['*', ' '], _, whole, blank, by decide, opening⟩
  · rintro ⟨indentation, gutter, text, rfl, blank, isGutter, opening⟩
    obtain ⟨rest, rfl⟩ := opening.exists_cons
    have begins : ∀ char ∈ ('@' :: rest).head?, Text.isBlank char = false := by
      rintro _ ⟨⟩
      decide
    simp only [List.mem_cons, List.not_mem_nil, or_false] at isGutter
    obtain rfl | rfl | rfl := isGutter
    · have unindented : Text.trimStart (indentation ++ '@' :: rest) = '@' :: rest := by
        rw [Text.trimStart_append_of_blank blank, Text.trimStart_eq_self begins]
      rw [List.nil_append, stripGutterLine, unindented]
      exact isOpening_trimEnd_iff.mpr opening
    · have narrow : IsOpening (stripGutterLine (indentation ++ '*' :: ([] ++ '@' :: rest))) :=
        (isOpening_stripGutterLine_starred_iff blank (List.forall_mem_nil _) begins).mpr ⟨.inl rfl, opening⟩
      exact narrow
    · have narrow : IsOpening (stripGutterLine (indentation ++ '*' :: ([' '] ++ '@' :: rest))) :=
        (isOpening_stripGutterLine_starred_iff blank (List.all_eq_true.mp rfl) begins).mpr ⟨.inr rfl, opening⟩
      exact narrow

instance (line : List Char) : Decidable (OpensBehindGutter line) :=
  decidable_of_iff ((opening? (stripGutterLine line)).isSome)
    (isOpening_iff.symm.trans isOpening_stripGutterLine_iff)

/-- There is one block for each line that opens a block tag. -/
theorem length_cutBlocks (lines : List (List Char)) :
    (cutBlocks lines).2.length = lines.countP fun line => (opening? line).isSome := by
  induction lines with
  | nil => rfl
  | cons line rest ih =>
      cases found : opening? line with
      | none => rw [cutBlocks_cons_of_plain found, List.countP_cons_of_neg (by rw [found]; decide), ih]
      | some opened =>
          rw [cutBlocks_cons_of_opening found, List.countP_cons_of_pos (by rw [found]; rfl), List.length_cons, ih]

/-! ### Lines with other blanks -/

/-- Two lines differ in nothing but the number of blanks behind their star; if a block tag could be opened behind these
blanks, they belong to the gutter in both lines or in none. -/
inductive Respaced : List Char → List Char → Prop where
  | same (line : List Char) : Respaced line line
  | star {indentation gap other text : List Char} (blank : ∀ char ∈ indentation, Text.isBlank char = true)
      (gapBlank : ∀ char ∈ gap, Text.isBlank char = true) (otherBlank : ∀ char ∈ other, Text.isBlank char = true)
      (begins : ∀ char ∈ text.head?, Text.isBlank char = false)
      (narrow : IsOpening text → (IsNarrow gap ↔ IsNarrow other)) :
      Respaced (indentation ++ '*' :: (gap ++ text)) (indentation ++ '*' :: (other ++ text))

/-- Lines are alike in a block: they open the same tag, or none, and are the same when trimmed. -/
structure AlikeInBlock (line other : List Char) : Prop where
  opening : opening? line = opening? other
  trimmed : Text.trim line = Text.trim other

theorem Respaced.alikeInBlock {line other : List Char} (respaced : Respaced line other) :
    AlikeInBlock (stripGutterLine line) (stripGutterLine other) := by
  cases respaced with
  | same => exact ⟨rfl, rfl⟩
  | @star indentation gap other text blank gapBlank otherBlank begins narrow =>
      have isOpening := isOpening_stripGutterLine_starred_iff blank gapBlank begins
      have otherOpening := isOpening_stripGutterLine_starred_iff blank otherBlank begins
      obtain ⟨blanks, areBlank, none, stripped⟩ := exists_stripGutterLine_eq blank gapBlank begins
      obtain ⟨otherBlanks, otherAreBlank, otherNone, otherStripped⟩ := exists_stripGutterLine_eq blank otherBlank begins
      refine ⟨?opening, ?trimmed⟩
      case opening =>
        by_cases opens : IsNarrow gap ∧ IsOpening text
        · -- Both lines have the same text behind their gutter.
          rw [stripped, otherStripped, none.mpr opens.1, otherNone.mpr ((narrow opens.2).mp opens.1)]
        · have otherOpens : ¬ (IsNarrow other ∧ IsOpening text) :=
            fun both => opens ⟨(narrow both.2).mpr both.1, both.2⟩
          have plain {line : List Char} (noOpening : ¬ IsOpening line) : opening? line = .none :=
            Option.not_isSome_iff_eq_none.mp (mt isOpening_iff.mpr noOpening)
          rw [plain (mt isOpening.mp opens), plain (mt otherOpening.mp otherOpens)]
      case trimmed =>
        rw [stripped, otherStripped, Text.trim_trimEnd, Text.trim_trimEnd, Text.trim, Text.trim,
          Text.trimStart_append_of_blank areBlank, Text.trimStart_append_of_blank otherAreBlank]

theorem cutBlocks_eq_of_alikeInBlock {lines others : List (List Char)}
    (alike : List.Forall₂ AlikeInBlock lines others) :
    (cutBlocks lines).2 = (cutBlocks others).2 ∧
      (cutBlocks lines).1.map Text.trim = (cutBlocks others).1.map Text.trim := by
  induction alike with
  | nil => exact ⟨rfl, rfl⟩
  | @cons line other rest others first later ih =>
      obtain ⟨blocks, before⟩ := ih
      cases found : opening? other with
      | none =>
          rw [cutBlocks_cons_of_plain found, cutBlocks_cons_of_plain (first.opening.trans found)]
          exact ⟨blocks, congrArg₂ List.cons first.trimmed before⟩
      | some opened =>
          rw [cutBlocks_cons_of_opening found, cutBlocks_cons_of_opening (first.opening.trans found), blocks, before]
          exact ⟨rfl, rfl⟩

end ApiDocs.Comment

namespace ApiDocs.Documentation

open Comment

/-- The tags that are not a description. -/
def blockTags (documentation : Documentation) : List Tag :=
  documentation.tags.filter fun tag => match tag with
    | .description _ => false
    | _ => true

theorem blockTags_ofLines (lines : List (List Char)) :
    (ofLines lines).blockTags = (cutBlocks lines).2.map Block.tag := by
  rw [blockTags, ofLines, List.filter_append]
  have noDescription : (descriptionOf (cutBlocks lines).1).filter (fun tag => match tag with
      | .description _ => false
      | _ => true) = [] := by
    unfold descriptionOf
    split <;> rfl
  rw [noDescription, List.nil_append, List.filter_eq_self]
  intro tag listed
  obtain ⟨block, _, rfl⟩ := List.mem_map.mp listed
  split
  next root isDescription => exact absurd isDescription ((makes_tag block).ne_description root)
  next => rfl

/-- A comment has one block tag for each line with an opening right behind its gutter, which takes in one star and one
space and no further blank; blanks behind the stars of all other lines change no block tag. -/
theorem blockTags_followGutter (comment : String) :
    (ofComment comment).blockTags.length =
        (bodyLines comment.toList).countP (fun line => decide (OpensBehindGutter line)) ∧
      (∀ indentation gap text : List Char, (∀ char ∈ indentation, Text.isBlank char = true) →
        (∀ char ∈ gap, Text.isBlank char = true) → IsOpening text →
        (OpensBehindGutter (indentation ++ '*' :: (gap ++ text)) ↔ gap = [] ∨ gap = [' '])) ∧
      ∀ other : String, List.Forall₂ Respaced (bodyLines comment.toList) (bodyLines other.toList) →
        (ofComment other).blockTags = (ofComment comment).blockTags := by
  refine ⟨?count, ?exact, ?respaced⟩
  case count =>
    rw [ofComment_eq, blockTags_ofLines, List.length_map, length_cutBlocks, stripGutter_eq, List.countP_map]
    refine List.countP_congr fun line _ => ?_
    rw [Function.comp, ← isOpening_iff, isOpening_stripGutterLine_iff, decide_eq_true_iff]
  case exact =>
    intro indentation gap text blank gapBlank opening
    obtain ⟨rest, rfl⟩ := opening.exists_cons
    have begins : ∀ char ∈ ('@' :: rest).head?, Text.isBlank char = false := by
      rintro _ ⟨⟩
      decide
    rw [← isOpening_stripGutterLine_iff, isOpening_stripGutterLine_starred_iff blank gapBlank begins]
    exact ⟨And.left, fun narrow => ⟨narrow, opening⟩⟩
  case respaced =>
    intro other respaced
    have alike : List.Forall₂ AlikeInBlock (stripGutter comment.toList) (stripGutter other.toList) := by
      rw [stripGutter_eq, stripGutter_eq, List.forall₂_map_left_iff, List.forall₂_map_right_iff]
      exact respaced.imp fun _ _ => Respaced.alikeInBlock
    rw [ofComment_eq, ofComment_eq, blockTags_ofLines, blockTags_ofLines, (cutBlocks_eq_of_alikeInBlock alike).1]

def sampleNarrow : String :=
  "/**\n * Gets it.\n * @param key the key\n */"

/-- The sample with other blanks behind its stars, none of them too many before the block tag. -/
def sampleSpread : String :=
  "/**\n *    Gets it.\n *@param key the key\n */"

/-- The sample with one more blank before the block tag. -/
def sampleWide : String :=
  "/**\n * Gets it.\n *  @param key the key\n */"

theorem blockTags_followGutter_sampleNarrow :
    (ofComment sampleNarrow).blockTags.length = 1 ∧
      List.Forall₂ Respaced (bodyLines sampleNarrow.toList) (bodyLines sampleSpread.toList) ∧
      (ofComment sampleSpread).blockTags = (ofComment sampleNarrow).blockTags := by
  have plain : Respaced " * Gets it.".toList " *    Gets it.".toList :=
    @Respaced.star [' '] [' '] "    ".toList "Gets it.".toList (List.all_eq_true.mp rfl) (List.all_eq_true.mp rfl)
      (List.all_eq_true.mp rfl) (by rintro _ ⟨⟩; decide)
      fun opening => absurd (isOpening_iff.mp opening) (by decide +kernel)
  have tag : Respaced " * @param key the key".toList " *@param key the key".toList :=
    @Respaced.star [' '] [' '] [] "@param key the key".toList (List.all_eq_true.mp rfl) (List.all_eq_true.mp rfl)
      (List.forall_mem_nil _) (by rintro _ ⟨⟩; decide) fun _ => ⟨fun _ => .inl rfl, fun _ => .inr rfl⟩
  have respaced : List.Forall₂ Respaced (bodyLines sampleNarrow.toList) (bodyLines sampleSpread.toList) :=
    .cons (.same []) (.cons plain (.cons tag (.cons (.same [' ']) .nil)))
  obtain ⟨count, _, follows⟩ := blockTags_followGutter sampleNarrow
  exact ⟨count.trans (by decide +kernel), respaced, follows sampleSpread respaced⟩

/-- A second blank behind the star hides a block tag, whose text becomes part of what stands before it. -/
theorem blockTags_hidden_sampleWide :
    " *  @param key the key".toList ∈ bodyLines sampleWide.toList ∧ IsOpening "@param key the key".toList ∧
      (ofComment sampleNarrow).tags =
        [.description ⟨[.text "Gets it."]⟩, .param "key" ⟨[.text "the key"]⟩] ∧
      (ofComment sampleWide).tags = [.description ⟨[.text "Gets it.\n @param key the key"]⟩] := by
  refine ⟨by decide, isOpening_iff.mpr ?_, ?_, ?_⟩ <;> decide +kernel

end ApiDocs.Documentation
