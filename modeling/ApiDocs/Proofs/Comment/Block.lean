import ApiDocs.Comment.Block
import ApiDocs.Proofs.Except
import ApiDocs.Proofs.Trimming
import ApiDocs.Proofs.Words

/-!
# Every line of a comment belongs to one tag

The lines of a comment are cut before each one that opens a block tag.  The lines before the first cut make the
description, and the lines from one cut up to the next make one tag each, in the order of the lines.
-/

namespace ApiDocs.Comment

/-! ### Lines that open a block tag -/

/-- A line opens a block tag: it starts with an at sign and a word, and a blank or the end of the line follows. -/
structure Opens (line word rest : List Char) : Prop where
  isLine : line = '@' :: (word ++ rest)
  named : word ≠ []
  isWord : ∀ char ∈ word, Text.isWordChar char = true
  ends : ∀ char ∈ rest.head?, Text.isBlank char = true

def IsOpening (line : List Char) : Prop :=
  ∃ word rest, Opens line word rest

theorem opening?_of_opens {line word rest : List Char} (opens : Opens line word rest) :
    opening? line = some (word, Text.trimStart rest) := by
  obtain ⟨rfl, named, isWord, ends⟩ := opens
  have spanned : Text.spanWord (word ++ rest) = (word, rest) :=
    Text.spanWord_eq_iff.mpr ⟨rfl, isWord, fun char begins => Text.isWordChar_of_isBlank (ends char begins)⟩
  rw [opening?, spanned]
  cases rest with
  | nil => simp [named, Text.trimStart]
  | cons first others => simp [named, ends first rfl]

theorem opens_of_opening? {line word first : List Char} (found : opening? line = some (word, first)) :
    ∃ rest, Opens line word rest ∧ first = Text.trimStart rest := by
  unfold opening? at found
  split at found
  next text =>
    obtain ⟨⟨name, behind⟩, spanned⟩ : ∃ cut, Text.spanWord text = cut := ⟨_, rfl⟩
    obtain ⟨rfl, isWord, _⟩ := Text.spanWord_eq_iff.mp spanned
    simp only [spanned] at found
    split at found
    · cases found
    next named =>
      split at found
      next =>
        obtain ⟨rfl, rfl⟩ := Prod.mk.inj (Option.some.inj found)
        exact ⟨[], ⟨rfl, named, isWord, nofun⟩, rfl⟩
      next char others _ =>
        split at found
        next blank =>
          obtain ⟨rfl, rfl⟩ := Prod.mk.inj (Option.some.inj found)
          refine ⟨char :: others, ⟨rfl, named, isWord, ?_⟩, rfl⟩
          rintro _ ⟨⟩
          exact blank
        next => cases found
  next => cases found

theorem isOpening_iff {line : List Char} : IsOpening line ↔ (opening? line).isSome := by
  constructor
  · rintro ⟨word, rest, opens⟩
    rw [opening?_of_opens opens]
    rfl
  · intro isSome
    obtain ⟨⟨word, first⟩, found⟩ := Option.isSome_iff_exists.mp isSome
    obtain ⟨rest, opens, _⟩ := opens_of_opening? found
    exact ⟨word, rest, opens⟩

theorem cutBlocks_cons_of_opening {line word first : List Char} (found : opening? line = some (word, first))
    (rest : List (List Char)) :
    cutBlocks (line :: rest) = ([], ⟨word, first :: (cutBlocks rest).1.map Text.trim⟩ :: (cutBlocks rest).2) := by
  rw [cutBlocks, found]

theorem cutBlocks_cons_of_plain {line : List Char} (found : opening? line = none) (rest : List (List Char)) :
    cutBlocks (line :: rest) = (line :: (cutBlocks rest).1, (cutBlocks rest).2) := by
  rw [cutBlocks, found]

/-! ### Sections -/

/-- A line that opens a block tag, and the lines behind it that belong to the tag. -/
structure Section where
  line : List Char
  following : List (List Char)

def Section.lines (part : Section) : List (List Char) :=
  part.line :: part.following

/-- Lines are cut before each one that opens a block tag, and nowhere else. -/
structure IsCut (lines before : List (List Char)) (sections : List Section) : Prop where
  covers : lines = before ++ sections.flatMap Section.lines
  before : ∀ line ∈ before, ¬ IsOpening line
  opening : ∀ part ∈ sections, IsOpening part.line
  following : ∀ part ∈ sections, ∀ line ∈ part.following, ¬ IsOpening line

theorem IsCut.line_mem {lines before : List (List Char)} {sections : List Section} (isCut : IsCut lines before sections)
    {part : Section} (listed : part ∈ sections) : part.line ∈ lines := by
  rw [isCut.covers]
  exact List.mem_append_right _ (List.mem_flatMap.mpr ⟨part, listed, List.mem_cons_self⟩)

/-- The word and the body of a section. -/
structure Section.IsBlock (part : Section) (block : Block) (rest : List Char) : Prop where
  opens : Opens part.line block.word rest
  body : block.body = Text.trimStart rest :: part.following.map Text.trim

theorem exists_isCut (lines : List (List Char)) :
    ∃ sections, IsCut lines (cutBlocks lines).1 sections ∧
      List.Forall₂ (fun part block => ∃ rest, part.IsBlock block rest) sections (cutBlocks lines).2 := by
  induction lines with
  | nil => exact ⟨[], ⟨rfl, nofun, nofun, nofun⟩, .nil⟩
  | cons line rest ih =>
      obtain ⟨sections, ⟨covers, before, opening, following⟩, blocks⟩ := ih
      rw [cutBlocks]
      cases found : opening? line with
      | none =>
          have plain : ¬ IsOpening line := by rw [isOpening_iff, found]; exact Bool.false_ne_true
          refine ⟨sections, ⟨congrArg (line :: ·) covers, ?_, opening, following⟩, blocks⟩
          exact List.forall_mem_cons.mpr ⟨plain, before⟩
      | some opened =>
          obtain ⟨behind, opens, first⟩ := opens_of_opening? found
          refine ⟨⟨line, (cutBlocks rest).1⟩ :: sections, ⟨congrArg (line :: ·) covers, nofun, ?_, ?_⟩, ?_⟩
          · exact List.forall_mem_cons.mpr ⟨⟨_, _, opens⟩, opening⟩
          · exact List.forall_mem_cons.mpr ⟨before, following⟩
          · exact .cons ⟨behind, opens, by rw [first]⟩ blocks

/-! ### Tags -/

/-- The first word of a text, wherever it stands, and what remains behind it. -/
structure IsFirstWord (text word remainder : List Char) : Prop where
  covers : ∃ blanks, text = blanks ++ word ++ remainder ∧ ∀ char ∈ blanks, Text.isBlank char = true
  isWord : ∀ char ∈ word, Text.isBlank char = false
  ends : ∀ char ∈ remainder.head?, Text.isBlank char = true
  /-- A text has no word only if it is blank. -/
  blank : word = [] → remainder = []

theorem isFirstWord_splitName (text : List Char) : IsFirstWord text (splitName text).1 (splitName text).2 := by
  have whole := List.takeWhile_append_dropWhile (p := fun char => !Text.isBlank char) (l := Text.trimStart text)
  have blanks := List.takeWhile_append_dropWhile (p := Text.isBlank) (l := text)
  refine ⟨⟨text.takeWhile Text.isBlank, ?covers, fun _ => List.mem_takeWhile_imp⟩, ?isWord, ?ends, ?blank⟩
  case covers => rw [List.append_assoc, splitName, whole, Text.trimStart, blanks]
  case isWord =>
    intro char listed
    simpa using List.mem_takeWhile_imp listed
  case ends =>
    intro char begins
    have noWord := List.head?_dropWhile_not (fun char => !Text.isBlank char) (Text.trimStart text)
    rw [splitName] at begins
    simp_all
  case blank =>
    intro noWord
    rw [splitName] at noWord ⊢
    cases body : Text.trimStart text with
    | nil => rfl
    | cons first others =>
        rw [body] at noWord
        have dark := Text.head?_trimStart text first (by rw [body]; rfl)
        simp [dark] at noWord

theorem parse_trim (text : List Char) : DocText.parse (Text.trim text) = DocText.parse text := by
  rw [DocText.parse, Text.trim_trim, DocText.parse]

/-- The tag that a word and a body make. -/
inductive Makes (word : String) (body : List Char) : Tag → Prop where
  | param {name remainder : List Char} (isWord : word = "param") (first : IsFirstWord body name remainder) :
      Makes word body (.param (String.ofList name) (.parse remainder))
  | returns (isWord : word = "return") : Makes word body (.returns (.parse body))
  | throws {name remainder : List Char} (isWord : word ∈ ["throws", "exception"])
      (first : IsFirstWord body name remainder) : Makes word body (.throws (String.ofList name) (.parse remainder))
  | see (isWord : word = "see") :
      Makes word body (.see (String.ofList (Text.trim body)) (.parse (Text.trim body)))
  | author (isWord : word = "author") : Makes word body (.author (.parse body))
  | since (isWord : word = "since") : Makes word body (.since (.parse body))
  | deprecated (isWord : word = "deprecated") : Makes word body (.deprecated (.parse body))
  | custom (isOther : word ∉ ["param", "return", "throws", "exception", "see", "author", "since", "deprecated"]) :
      Makes word body (.custom word (.parse body))

theorem makes_tag (block : Block) : Makes (String.ofList block.word) (joinLines block.body) block.tag := by
  have first := isFirstWord_splitName (joinLines block.body)
  unfold Block.tag
  split
  next isWord => exact .param isWord first
  next isWord => exact .returns isWord
  next isWord => exact .throws (by rw [isWord]; decide) first
  next isWord => exact .throws (by rw [isWord]; decide) first
  next isWord =>
    have see : Makes _ (joinLines block.body) _ := .see isWord
    rwa [parse_trim] at see
  next isWord => exact .author isWord
  next isWord => exact .since isWord
  next isWord => exact .deprecated isWord
  next => exact .custom (by simp_all)

/-- The tag that a section makes: its body is the rest of its first line with the lines behind it, all trimmed. -/
def Section.Shows (part : Section) (tag : Tag) : Prop :=
  ∃ word rest, Opens part.line word rest ∧
    Makes (String.ofList word) (joinLines ((rest :: part.following).map Text.trim)) tag

theorem getLast?_of_mem_stripGutter {comment line : List Char} (listed : line ∈ stripGutter comment) :
    ∀ char ∈ line.getLast?, Text.isBlank char = false := by
  obtain ⟨original, _, rfl⟩ := List.mem_map.mp listed
  exact Text.getLast?_trimEnd _

/-- A block whose first line does not end with a blank makes the tag of its section. -/
theorem Section.IsBlock.shows_tag {part : Section} {block : Block} {rest : List Char} (isBlock : part.IsBlock block rest)
    (dark : ∀ char ∈ part.line.getLast?, Text.isBlank char = false) : part.Shows block.tag := by
  have darkRest : ∀ char ∈ rest.getLast?, Text.isBlank char = false := by
    intro char ends
    refine dark char ?_
    rw [isBlock.opens.isLine, ← List.cons_append, List.getLast?_append, ends]
    rfl
  refine ⟨block.word, rest, isBlock.opens, ?_⟩
  rw [List.map_cons, Text.trim_eq_trimStart darkRest, ← isBlock.body]
  exact makes_tag block

theorem Makes.ne_description {word : String} {body : List Char} {tag : Tag} (makes : Makes word body tag)
    (root : DocText) : tag ≠ .description root := by
  cases makes <;> exact nofun

/-- The description in the lines before the first cut, unless these are empty. -/
def descriptionOf (before : List (List Char)) : List Tag :=
  if (DocText.parse (joinLines before)).fragments = [] then []
  else [.description (.parse (joinLines before))]

end ApiDocs.Comment

namespace ApiDocs.Documentation

open Comment

/-- The tags of a comment are its description and one tag for each section, in the order of the lines. -/
theorem tags_ofComment (comment : String) :
    ∃ before sections tags, IsCut (stripGutter comment.toList) before sections ∧
      (ofComment comment).tags = descriptionOf before ++ tags ∧ List.Forall₂ Section.Shows sections tags ∧
      ∀ root, Tag.description root ∉ tags := by
  obtain ⟨sections, isCut, blocks⟩ := exists_isCut (stripGutter comment.toList)
  obtain ⟨sameLength, isBlock⟩ := List.forall₂_iff_zip.mp blocks
  have shown : List.Forall₂ Section.Shows sections ((cutBlocks (stripGutter comment.toList)).2.map Block.tag) := by
    refine List.forall₂_map_right_iff.mpr (List.forall₂_iff_zip.mpr ⟨sameLength, ?_⟩)
    intro part block zipped
    obtain ⟨rest, isBlock⟩ := isBlock zipped
    exact isBlock.shows_tag (getLast?_of_mem_stripGutter (isCut.line_mem (List.of_mem_zip zipped).1))
  refine ⟨_, sections, _, isCut, ?_, shown, ?_⟩
  · rw [ofComment, descriptionOf]
    simp only [List.isEmpty_iff]
  · intro root listed
    have tagShown : List.Forall₂ (flip Section.Shows) _ sections := shown.flip
    obtain ⟨part, _, word, rest, _, makes⟩ := tagShown.exists_mem listed
    exact makes.ne_description root rfl

end ApiDocs.Documentation
