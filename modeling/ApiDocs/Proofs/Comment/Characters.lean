import ApiDocs.Proofs.Comment.Fragments
import ApiDocs.Proofs.Comment.Respaced

/-!
# Characters of a comment

The lines of a comment without its gutter are parts of the comment.  What is shown of a text is made of characters of
the text, and of the marks around its code and its links.
-/

namespace ApiDocs

namespace Fragment

/-- The marks around code and links. -/
def marks : List Char :=
  ['`', '[', ']', '(', ')']

def texts : Fragment → List String
  | text content => [content]
  | code content => [content]
  | link target label => target :: label.toList

/-- A fragment is shown by its texts, with marks around them. -/
theorem mem_of_mem_display {fragment : Fragment} {char : Char} (shown : char ∈ fragment.display.toList) :
    (∃ text ∈ fragment.texts, char ∈ text.toList) ∨ char ∈ marks := by
  have literals : ∀ literal ∈ ["`", "[", "](", ")"], literal.toList ⊆ marks := by decide
  simp only [List.forall_mem_cons] at literals
  obtain ⟨quote, opening, middle, closing, _⟩ := literals
  unfold display at shown
  split at shown
  case h_1 content => exact .inl ⟨content, List.mem_cons_self, shown⟩
  case h_2 content | h_4 content =>
    simp only [String.toList_append, List.mem_append] at shown
    rcases shown with (opens | inContent) | closes
    · exact .inr (quote opens)
    · exact .inl ⟨content, List.mem_cons_self, inContent⟩
    · exact .inr (quote closes)
  case h_3 target label =>
    simp only [String.toList_append, List.mem_append] at shown
    rcases shown with (((opens | inLabel) | between) | inTarget) | closes
    · exact .inr (opening opens)
    · exact .inl ⟨label, List.mem_cons_of_mem _ List.mem_cons_self, inLabel⟩
    · exact .inr (middle between)
    · exact .inl ⟨target, List.mem_cons_self, inTarget⟩
    · exact .inr (closing closes)

end Fragment

namespace Comment

/-! ### Lines -/

theorem isInfix_stripGutterLine (line : List Char) : stripGutterLine line <:+: line :=
  (Text.isPrefix_trimEnd _).isInfix.trans
    ((Text.isSuffix_withoutHead? _ _).trans
      ((Text.isSuffix_withoutHead? _ _).trans (Text.isSuffix_trimStart line))).isInfix

/-- A line without its gutter is a part of the comment, and no line feed stands in it. -/
theorem isInfix_of_mem_stripGutter {comment line : List Char} (listed : line ∈ stripGutter comment) :
    line <:+: comment ∧ '\n' ∉ line := by
  rw [stripGutter_eq] at listed
  obtain ⟨original, inBody, rfl⟩ := List.mem_map.mp listed
  obtain ⟨inside, oneLine⟩ := Text.isInfix_of_mem_lines inBody
  have body := (Text.isPrefix_withoutTail? ['*', '/'] _).isInfix.trans
    ((Text.isSuffix_withoutHead? ['/', '*', '*'] _).isInfix.trans (Text.isInfix_trim comment))
  exact ⟨(isInfix_stripGutterLine original).trans (inside.trans body),
    fun feeds => oneLine ((isInfix_stripGutterLine original).subset feeds)⟩

/-- Every carriage return in a text stands directly before a line feed. -/
def ReturnsEndLines (text : List Char) : Prop :=
  ∀ front back, text = front ++ '\r' :: back → back.head? = some '\n'

/-- Carriage returns at the ends of lines are removed with the lines' trailing blanks. -/
theorem return_notMem_of_mem_stripGutter {comment line : List Char} (endLines : ReturnsEndLines comment)
    (listed : line ∈ stripGutter comment) : '\r' ∉ line := by
  obtain ⟨⟨before, behind, whole⟩, oneLine⟩ := isInfix_of_mem_stripGutter listed
  intro returns
  obtain ⟨front, back, rfl⟩ := List.append_of_mem returns
  cases back with
  | nil =>
      have dark := getLast?_of_mem_stripGutter listed '\r' (by simp)
      exact absurd dark (by decide)
  | cons next others =>
      have split : comment = (before ++ front) ++ '\r' :: (next :: others ++ behind) := by simp [← whole]
      obtain rfl : next = '\n' := Option.some.inj (endLines _ _ split)
      exact oneLine (by simp)

/-! ### Texts -/

theorem display_prependText (text : List Char) (later : List Fragment) :
    (DocText.display ⟨prependText text later⟩).toList = text ++ (DocText.display ⟨later⟩).toList := by
  unfold prependText
  split
  next none => rw [none, List.nil_append]
  next => split <;> simp [DocText.display, String.toList_join, Fragment.display, String.toList_append]

/-- A text is shown as the images of its pieces are. -/
theorem display_fragments (found : List Piece) :
    (DocText.display ⟨fragments found⟩).toList = found.flatMap fun piece => piece.image.display.toList := by
  induction found with
  | nil => rfl
  | cons piece rest ih =>
      rw [List.flatMap_cons, ← ih]
      cases piece with
      | plain text => rw [fragments, display_prependText, Piece.image, Fragment.display, String.toList_ofList]
      | tag name inside =>
          rw [fragments, prependTag_eq]
          split
          next content isText => rw [display_prependText, isText, Fragment.display]
          next => simp [DocText.display, String.toList_join]

/-- The texts that a piece becomes are parts of it. -/
theorem subset_source_of_mem_texts {piece : Piece} {text : String} (held : text ∈ piece.image.texts) :
    text.toList ⊆ piece.source := by
  cases piece with
  | plain content =>
      rw [List.mem_singleton.mp held, String.toList_ofList]
      exact List.Subset.refl _
  | tag name inside =>
      have ofInside {part : List Char} (within : part <:+: Text.trim inside) :
          part ⊆ (Piece.tag name inside).source := by
        intro char listed
        simp [Piece.source, Text.mem_of_mem_trim (within.subset listed)]
      unfold Piece.image at held
      dsimp only at held
      split at held
      next =>
        rcases List.mem_cons.mp held with rfl | isLabel
        · rw [String.toList_ofList]
          exact ofInside (List.takeWhile_prefix _).isInfix
        · split at isLabel
          next => cases isLabel
          next =>
            rw [List.mem_singleton.mp isLabel, String.toList_ofList]
            exact ofInside ((Text.isInfix_trim _).trans (List.dropWhile_suffix _).isInfix)
      next =>
        have isContent : text = String.ofList (Text.trim inside) := by
          split at held <;> exact List.mem_singleton.mp held
        rw [isContent, String.toList_ofList]
        exact ofInside List.infix_rfl

/-- What is shown of a text is made of characters of the text and of marks. -/
theorem mem_of_mem_display_parse {text : List Char} {char : Char}
    (shown : char ∈ (DocText.parse text).display.toList) : char ∈ text ∨ char ∈ Fragment.marks := by
  rw [DocText.parse, display_fragments] at shown
  obtain ⟨piece, found, inImage⟩ := List.mem_flatMap.mp shown
  rcases Fragment.mem_of_mem_display inImage with ⟨content, held, inContent⟩ | isMark
  · have inPiece := subset_source_of_mem_texts held inContent
    have covered := (cuts_pieces (Text.trim text)).flatMap_source
    refine .inl (Text.mem_of_mem_trim ?_)
    rw [← covered]
    exact List.mem_flatMap.mpr ⟨piece, found, inPiece⟩
  · exact .inr isMark

end Comment

namespace Documentation

open Comment

theorem mem_tags_of_description? {documentation : Documentation} {root : DocText}
    (described : documentation.description? = some root) : .description root ∈ documentation.tags := by
  obtain ⟨tag, listed, found⟩ := List.exists_of_findSome?_eq_some described
  split at found
  · rwa [← Option.some.inj found]
  · cases found

/-- What is shown of the description of a comment is made of characters of its lines, of the line feeds between them,
and of marks. -/
theorem mem_of_mem_description {comment : String} {root : DocText} {char : Char}
    (described : (ofComment comment).description? = some root) (shown : char ∈ root.display.toList) :
    (∃ line ∈ stripGutter comment.toList, char ∈ line) ∨ char = '\n' ∨ char ∈ Fragment.marks := by
  obtain ⟨before, sections, tags, isCut, tagsEq, _, noDescription⟩ := tags_ofComment comment
  have listed := mem_tags_of_description? described
  rw [tagsEq, List.mem_append] at listed
  have isRoot : root = .parse (joinLines before) := by
    have listed := listed.resolve_right (noDescription root)
    rw [descriptionOf] at listed
    split at listed
    · cases listed
    · exact Tag.description.inj (List.mem_singleton.mp listed)
  rw [isRoot] at shown
  rcases mem_of_mem_display_parse shown with inText | isMark
  · rcases Text.mem_of_mem_intercalate inText with isFeed | ⟨line, among, inLine⟩
    · exact .inr (.inl (List.mem_singleton.mp isFeed))
    · refine .inl ⟨line, ?_, inLine⟩
      rw [isCut.covers]
      exact List.mem_append_left _ among
  · exact .inr (.inr isMark)

end Documentation

end ApiDocs
