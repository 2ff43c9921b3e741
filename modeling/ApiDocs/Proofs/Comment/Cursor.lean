import ApiDocs.Proofs.Comment.Fragments

/-!
# Inline markup by a cursor

The same search for tags, as a loop over a text that is addressed by bytes: a cursor stands behind what has been
read, slices are cut between positions, and braces are counted from the opening brace on.  A cut that falls out of
the text or into a character fails, and so does a count below zero.  The loop never fails, it makes at most one round
for each character, and it finds the fragments of the pieces.
-/

namespace ApiDocs.Comment

/-! ### Positions in a text -/

/-- The length of a text in bytes. -/
def byteSize : List Char → Nat
  | [] => 0
  | char :: rest => char.utf8Size + byteSize rest

/-- What stands before a position and what stands behind it, if the position lies between two characters. -/
def splitAt? : List Char → Nat → Option (List Char × List Char)
  | text, 0 => some ([], text)
  | [], _ + 1 => none
  | char :: rest, position =>
      if char.utf8Size ≤ position then
        (splitAt? rest (position - char.utf8Size)).map fun (before, after) => (char :: before, after)
      else none

/-- The text from one position up to another. -/
def slice? (text : List Char) (start stop : Nat) : Option (List Char) :=
  if start ≤ stop then
    (splitAt? text start).bind fun cut => (splitAt? cut.2 (stop - start)).map Prod.fst
  else none

/-- The position of the first opening of a tag. -/
def findOpening? : List Char → Option Nat
  | [] => none
  | '\x7b' :: '@' :: _ => some 0
  | char :: rest => (findOpening? rest).map (char.utf8Size + ·)

/-- The position of the brace that brings the depth back to zero, if there is one; the count fails below zero. -/
def countBraces? (depth position : Nat) : List Char → Option (Option Nat)
  | [] => some none
  | '\x7b' :: rest => countBraces? (depth + 1) (position + 1) rest
  | '\x7d' :: rest =>
      match depth with
      | 0 => none
      | 1 => some (some position)
      | inner + 1 => countBraces? inner (position + 1) rest
  | char :: rest => countBraces? depth (position + char.utf8Size) rest

/-- The name of the tag that a text opens, and the length of its opening with the blanks behind it. -/
def tagOpening? : List Char → Option (List Char × Nat)
  | '\x7b' :: '@' :: text =>
      let (name, content) := Text.spanWord text
      if name = [] then none
      else some (name, 2 + byteSize name + byteSize (content.takeWhile Text.isBlank))
  | _ => none

/-! ### The loop -/

/-- Put a text behind fragments; it becomes part of a last fragment that is text. -/
def pushText (fragments : List Fragment) (text : List Char) : List Fragment :=
  if text = [] then fragments
  else match fragments.getLast? with
    | some (.text previous) => fragments.dropLast ++ [.text (previous ++ String.ofList text)]
    | _ => fragments ++ [.text (String.ofList text)]

/-- Put the image of an inline tag behind fragments. -/
def pushTag (fragments : List Fragment) (name content : List Char) : List Fragment :=
  match String.ofList name with
  | "link" | "linkplain" =>
      let (target, rest) := splitName content
      let label := Text.trim rest
      fragments ++ [.link (String.ofList target) (if label = [] then none else some (String.ofList label))]
  | "code" | "literal" => fragments ++ [.code (String.ofList content)]
  | _ => pushText fragments content

/-- Read a text from the cursor on, in a limited number of rounds. -/
def scan? (text : List Char) : (rounds cursor : Nat) → List Fragment → Option (List Fragment)
  | 0, _, _ => none
  | rounds + 1, cursor, fragments => do
      let (_, ahead) ← splitAt? text cursor
      let some offset := findOpening? ahead | return pushText fragments ahead
      let start := cursor + offset
      let (_, opened) ← splitAt? text start
      let some index ← countBraces? 0 0 opened | return pushText fragments ahead
      let stop := start + index
      match tagOpening? (← slice? text start stop) with
      | none => scan? text rounds (start + 2) (pushText fragments (← slice? text cursor (start + 2)))
      | some (name, size) =>
          let before := pushText fragments (← slice? text cursor start)
          let content := Text.trim (← slice? text (start + size) stop)
          scan? text rounds (stop + 1) (pushTag before name content)

/-! ### Cuts fall between characters -/

@[simp] theorem byteSize_nil : byteSize [] = 0 :=
  rfl

@[simp] theorem byteSize_cons (char : Char) (rest : List Char) :
    byteSize (char :: rest) = char.utf8Size + byteSize rest :=
  rfl

@[simp] theorem byteSize_append (first second : List Char) :
    byteSize (first ++ second) = byteSize first + byteSize second := by
  induction first with
  | nil => simp
  | cons char rest ih => rw [List.cons_append, byteSize_cons, byteSize_cons, ih, Nat.add_assoc]

theorem byteSize_opening (rest : List Char) : byteSize ('\x7b' :: '@' :: rest) = 2 + byteSize rest := by
  rw [byteSize_cons, byteSize_cons, ← Nat.add_assoc]
  rfl

theorem splitAt?_append (before after : List Char) :
    splitAt? (before ++ after) (byteSize before) = some (before, after) := by
  induction before with
  | nil => rw [byteSize_nil, List.nil_append, splitAt?]
  | cons char rest ih =>
      have someByte : char.utf8Size + byteSize rest ≠ 0 := by
        have := char.utf8Size_pos
        omega
      obtain ⟨position, isPosition⟩ := Nat.exists_eq_succ_of_ne_zero someByte
      rw [List.cons_append, byteSize_cons, isPosition, splitAt?, ← isPosition, if_pos (Nat.le_add_right _ _),
        Nat.add_sub_cancel_left, ih]
      · rfl
      · exact Nat.succ_ne_zero position

theorem splitAt?_eq {text : List Char} {position : Nat} (before after : List Char) (whole : text = before ++ after)
    (isPosition : position = byteSize before) : splitAt? text position = some (before, after) := by
  rw [whole, isPosition, splitAt?_append]

theorem slice?_eq {text : List Char} {start stop : Nat} (before inside after : List Char)
    (whole : text = before ++ inside ++ after) (isStart : start = byteSize before) (isStop : stop = byteSize before + byteSize inside) :
    slice? text start stop = some inside := by
  rw [slice?, whole, isStart, isStop, if_pos (Nat.le_add_right _ _), Nat.add_sub_cancel_left, List.append_assoc,
    splitAt?_append, Option.bind_some, splitAt?_append, Option.map_some]

/-! ### What one round finds -/

theorem imageUnits_prependPlain (text : List Char) (found : List Piece) :
    imageUnits (prependPlain text found) = text.map .inl ++ imageUnits found := by
  unfold prependPlain
  split <;> simp [imageUnits, Piece.image, Fragment.units]

/-- Up to the first opening of a tag all is plain. -/
theorem imageUnits_pieces_of_findOpening? (ahead : List Char) :
    match findOpening? ahead with
    | none => imageUnits (pieces ahead) = ahead.map .inl
    | some offset =>
        ∃ passed rest, ahead = passed ++ '\x7b' :: '@' :: rest ∧ offset = byteSize passed ∧
          imageUnits (pieces ahead) = passed.map .inl ++ imageUnits (pieces ('\x7b' :: '@' :: rest)) := by
  fun_induction findOpening? ahead with
  | case1 => rw [pieces]; rfl
  | case2 rest => exact ⟨[], rest, rfl, rfl, rfl⟩
  | case3 char rest noOpening ih =>
      have plain : pieces (char :: rest) = prependPlain [char] (pieces rest) :=
        pieces_of_noOpening fun behind same => noOpening behind (List.cons.inj same).1 (List.cons.inj same).2
      rw [plain, imageUnits_prependPlain]
      cases found : findOpening? rest with
      | none =>
          rw [found] at ih
          rw [ih]
          rfl
      | some offset =>
          rw [found] at ih
          obtain ⟨passed, behind, rfl, rfl, units⟩ := ih
          refine ⟨char :: passed, behind, rfl, by rw [byteSize_cons], ?_⟩
          rw [units]
          rfl

/-- The count of braces finds the end that the search for the closing brace finds, and does not fail. -/
theorem countBraces?_eq (nested position : Nat) (text : List Char) :
    countBraces? (nested + 1) position text =
      some ((splitClosing? nested text).map fun found => position + byteSize found.1) := by
  -- A character before the brace moves the position of the brace by its length.
  have moved (position : Nat) (char : Char) (found : Option (List Char × List Char)) :
      found.map (fun split => position + char.utf8Size + byteSize split.1) =
        (found.map fun split => (char :: split.1, split.2)).map fun split => position + byteSize split.1 := by
    simp [Function.comp_def, Nat.add_assoc]
  fun_induction splitClosing? nested text generalizing position with
  | case1 => rfl
  | case2 nested rest ih =>
      rw [countBraces?, ih]
      exact congrArg some (moved position '\x7b' _)
  | case3 rest => rfl
  | case4 rest nested ih =>
      rw [countBraces?, ih]
      · exact congrArg some (moved position '\x7d' _)
      · exact Nat.succ_ne_zero _
  | case5 nested char rest noOpening noClosing noClosingInside ih =>
      rw [countBraces?, ih]
      · exact congrArg some (moved position char _)
      · exact noOpening
      · exact ne_closingBrace noClosing noClosingInside

/-! ### Fragments grow at their end -/

theorem areJoined_concat_iff {front : List Fragment} {last : Fragment} :
    AreJoined (front ++ [last]) ↔
      AreJoined front ∧ last ≠ .text "" ∧ ∀ previous ∈ front.getLast?, ¬ (previous.IsText ∧ last.IsText) := by
  constructor
  · rintro ⟨nonempty, apart⟩
    obtain ⟨apartFront, _, between⟩ := List.isChain_append.mp apart
    refine ⟨⟨fun listed => nonempty (List.mem_append_left _ listed), apartFront⟩, ?_, ?_⟩
    · rintro rfl
      exact nonempty (List.mem_append_right front List.mem_cons_self)
    · exact fun previous ends => between previous ends last rfl
  · rintro ⟨⟨nonempty, apart⟩, lastNonempty, between⟩
    refine ⟨?_, List.isChain_append.mpr ⟨apart, .singleton last, ?_⟩⟩
    · rw [List.mem_append, List.mem_singleton]
      exact not_or.mpr ⟨nonempty, Ne.symm lastNonempty⟩
    · rintro previous ends next begins
      obtain rfl : last = next := Option.some.inj begins
      exact between previous ends

theorem units_pushText (fragments : List Fragment) (text : List Char) :
    (pushText fragments text).flatMap Fragment.units = fragments.flatMap Fragment.units ++ text.map .inl := by
  unfold pushText
  split
  next none => rw [none, List.map_nil, List.append_nil]
  next =>
    split
    next previous ends =>
      obtain ⟨front, rfl⟩ := List.getLast?_eq_some_iff.mp ends
      simp [Fragment.units]
    next => simp [Fragment.units]

theorem areJoined_pushText {fragments : List Fragment} (joined : AreJoined fragments) (text : List Char) :
    AreJoined (pushText fragments text) := by
  unfold pushText
  split
  · exact joined
  next nonempty =>
    split
    next previous ends =>
      obtain ⟨front, rfl⟩ := List.getLast?_eq_some_iff.mp ends
      obtain ⟨joined, _, between⟩ := areJoined_concat_iff.mp joined
      rw [List.dropLast_concat]
      exact areJoined_concat_iff.mpr ⟨joined, by simp [nonempty], between⟩
    next noText =>
      refine areJoined_concat_iff.mpr ⟨joined, by simp [nonempty], ?_⟩
      intro previous ends both
      refine Fragment.not_isText_of_forall_ne ?_ both.1
      rintro content rfl
      exact noText content ends

/-- A tag puts its image behind what is there. -/
theorem pushTag_eq (fragments : List Fragment) (name inside : List Char) :
    pushTag fragments name (Text.trim inside) =
      match (Piece.tag name inside).image with
      | .text content => pushText fragments content.toList
      | fragment => fragments ++ [fragment] := by
  unfold pushTag Piece.image
  rw [splitName_trim]
  split <;> simp_all

theorem units_pushTag (fragments : List Fragment) (name inside : List Char) :
    (pushTag fragments name (Text.trim inside)).flatMap Fragment.units =
      fragments.flatMap Fragment.units ++ (Piece.tag name inside).image.units := by
  rw [pushTag_eq]
  split
  next content isText => rw [units_pushText, isText]; rfl
  next => simp

theorem areJoined_pushTag {fragments : List Fragment} (joined : AreJoined fragments) (name inside : List Char) :
    AreJoined (pushTag fragments name (Text.trim inside)) := by
  rw [pushTag_eq]
  split
  next => exact areJoined_pushText joined _
  next noText =>
    refine areJoined_concat_iff.mpr ⟨joined, noText "", ?_⟩
    exact fun previous _ both => Fragment.not_isText_of_forall_ne noText both.2

/-! ### The loop finds the fragments -/

theorem tagOpening?_eq {inside name content : List Char} (spanned : Text.spanWord inside = (name, content)) :
    tagOpening? ('\x7b' :: '@' :: inside) =
      if name = [] then none else some (name, 2 + byteSize name + byteSize (content.takeWhile Text.isBlank)) := by
  rw [tagOpening?, spanned]

/-- A round that finds a tag, or an opening without a name. -/
theorem scan?_of_closed (rounds : Nat) (read before : List Char) (fragments : List Fragment)
    {inside after name content : List Char}
    (found : findOpening? (before ++ '\x7b' :: '@' :: (inside ++ '\x7d' :: after)) = some (byteSize before))
    (split : splitClosing? 0 (inside ++ '\x7d' :: after) = some (inside, after))
    (spanned : Text.spanWord inside = (name, content)) :
    let text := read ++ (before ++ '\x7b' :: '@' :: (inside ++ '\x7d' :: after))
    scan? text (rounds + 1) (byteSize read) fragments =
      if name = [] then
        scan? text rounds (byteSize (read ++ (before ++ ['\x7b', '@'])))
          (pushText fragments (before ++ ['\x7b', '@']))
      else
        scan? text rounds (byteSize (read ++ (before ++ '\x7b' :: '@' :: (inside ++ ['\x7d']))))
          (pushTag (pushText fragments before) name (Text.trim content)) := by
  intro text
  have atCursor : splitAt? text (byteSize read) = some (read, before ++ '\x7b' :: '@' :: (inside ++ '\x7d' :: after)) :=
    splitAt?_append read _
  have atStart : splitAt? text (byteSize read + byteSize before) =
      some (read ++ before, '\x7b' :: '@' :: (inside ++ '\x7d' :: after)) :=
    splitAt?_eq _ _ (by simp [text]) (byteSize_append ..).symm
  have counted : countBraces? 0 0 ('\x7b' :: '@' :: (inside ++ '\x7d' :: after)) = some (some (2 + byteSize inside)) := by
    have counted := countBraces?_eq 0 2 (inside ++ '\x7d' :: after)
    rw [split] at counted
    exact counted
  have tag : slice? text (byteSize read + byteSize before) (byteSize read + byteSize before + (2 + byteSize inside)) =
      some ('\x7b' :: '@' :: inside) :=
    slice?_eq (read ++ before) _ ('\x7d' :: after) (by simp [text]) (byteSize_append ..).symm
      (by rw [byteSize_append, byteSize_opening])
  split
  next noName =>
    have passed : slice? text (byteSize read) (byteSize read + byteSize before + 2) =
        some (before ++ ['\x7b', '@']) :=
      slice?_eq read _ (inside ++ '\x7d' :: after) (by simp [text]) rfl
        (by rw [byteSize_append, byteSize_opening, byteSize_nil, Nat.add_assoc])
    have moved : byteSize (read ++ (before ++ ['\x7b', '@'])) = byteSize read + byteSize before + 2 := by
      rw [byteSize_append, byteSize_append, byteSize_opening, byteSize_nil, Nat.add_assoc]
    rw [moved]
    simp [scan?, atCursor, found, atStart, counted, tag, tagOpening?_eq spanned, noName, passed]
  next named =>
    have passed : slice? text (byteSize read) (byteSize read + byteSize before) = some before :=
      slice?_eq read _ ('\x7b' :: '@' :: (inside ++ '\x7d' :: after)) (by simp [text]) rfl rfl
    -- The blanks behind the name belong to the opening.
    have isInside : inside = name ++ (content.takeWhile Text.isBlank ++ Text.trimStart content) := by
      rw [Text.trimStart, List.takeWhile_append_dropWhile, (Text.spanWord_eq_iff.mp spanned).covers]
    have behindOpening : slice? text
        (byteSize read + byteSize before + (2 + byteSize name + byteSize (content.takeWhile Text.isBlank)))
        (byteSize read + byteSize before + (2 + byteSize inside)) = some (Text.trimStart content) := by
      refine slice?_eq (read ++ before ++ '\x7b' :: '@' :: (name ++ content.takeWhile Text.isBlank)) _ ('\x7d' :: after)
        ?whole ?start ?stop
      case whole => simp [text, isInside]
      case start => simp only [byteSize_append, byteSize_opening, Nat.add_assoc]
      case stop => rw [isInside]; simp only [byteSize_append, byteSize_opening, Nat.add_assoc]
    have moved : byteSize (read ++ (before ++ '\x7b' :: '@' :: (inside ++ ['\x7d']))) =
        byteSize read + byteSize before + (2 + byteSize inside) + 1 := by
      simp only [byteSize_append, byteSize_opening, Nat.add_assoc]
      rfl
    rw [moved]
    simp [scan?, atCursor, found, atStart, counted, tag, tagOpening?_eq spanned, named, passed, behindOpening,
      Text.trim_trimStart]

/-- One round either reads the rest of the text, or moves the cursor ahead behind what it has read. -/
theorem scan?_succ (rounds : Nat) (read ahead : List Char) (fragments : List Fragment) :
    scan? (read ++ ahead) (rounds + 1) (byteSize read) fragments = some (pushText fragments ahead) ∧
        imageUnits (pieces ahead) = ahead.map .inl ∨
      ∃ passed rest later, ahead = passed ++ rest ∧ passed ≠ [] ∧
        scan? (read ++ ahead) (rounds + 1) (byteSize read) fragments =
          scan? (read ++ ahead) rounds (byteSize (read ++ passed)) later ∧
        (AreJoined fragments → AreJoined later) ∧
        later.flatMap Fragment.units ++ imageUnits (pieces rest) =
          fragments.flatMap Fragment.units ++ imageUnits (pieces ahead) := by
  have upToOpening := imageUnits_pieces_of_findOpening? ahead
  have atCursor := splitAt?_append read ahead
  cases found : findOpening? ahead with
  | none =>
      rw [found] at upToOpening
      refine .inl ⟨?_, upToOpening⟩
      simp [scan?, atCursor, found]
  | some offset =>
      rw [found] at upToOpening
      obtain ⟨before, rest, rfl, rfl, units⟩ := upToOpening
      have atStart : splitAt? (read ++ (before ++ '\x7b' :: '@' :: rest)) (byteSize read + byteSize before) =
          some (read ++ before, '\x7b' :: '@' :: rest) :=
        splitAt?_eq _ _ (List.append_assoc ..).symm (byteSize_append ..).symm
      have counted : countBraces? 0 0 ('\x7b' :: '@' :: rest) =
          some ((splitClosing? 0 rest).map fun split => 2 + byteSize split.1) := countBraces?_eq 0 2 rest
      cases split : splitClosing? 0 rest with
      | none =>
          rw [split] at counted
          refine .inl ⟨?_, ?_⟩
          · simp [scan?, atCursor, found, atStart, counted]
          · rw [units, pieces_of_unclosed split]
            simp [imageUnits, Piece.image, Fragment.units]
      | some cut =>
          obtain ⟨inside, after⟩ := cut
          rw [split] at counted
          obtain rfl := eq_of_splitClosing? split
          obtain ⟨⟨name, content⟩, spanned⟩ : ∃ cut, Text.spanWord inside = cut := ⟨_, rfl⟩
          refine .inr ?_
          rw [scan?_of_closed rounds read before fragments found split spanned, units, pieces_of_closed split, spanned]
          by_cases noName : name = []
          · refine ⟨before ++ ['\x7b', '@'], inside ++ '\x7d' :: after, _, by simp, by simp, if_pos noName,
              fun joined => areJoined_pushText joined _, ?_⟩
            rw [if_pos noName, units_pushText, imageUnits_prependPlain]
            simp
          · refine ⟨before ++ '\x7b' :: '@' :: (inside ++ ['\x7d']), after, _, by simp, by simp, if_neg noName,
              fun joined => areJoined_pushTag (areJoined_pushText joined _) _ _, ?_⟩
            rw [if_neg noName, units_pushTag, units_pushText]
            simp [imageUnits]

theorem scan?_run {rounds : Nat} {text read ahead : List Char} {fragments : List Fragment} (whole : text = read ++ ahead)
    (enough : ahead.length < rounds) (joined : AreJoined fragments) :
    ∃ result, scan? text rounds (byteSize read) fragments = some result ∧ AreJoined result ∧
      result.flatMap Fragment.units = fragments.flatMap Fragment.units ++ imageUnits (pieces ahead) := by
  induction rounds generalizing read ahead fragments with
  | zero => exact absurd enough (Nat.not_lt_zero _)
  | succ rounds ih =>
      subst whole
      obtain ⟨done, units⟩ | ⟨passed, rest, later, rfl, nonempty, goesOn, keepsJoined, units⟩ :=
        scan?_succ rounds read ahead fragments
      · refine ⟨_, done, areJoined_pushText joined ahead, ?_⟩
        rw [units_pushText, units]
      · have shorter : rest.length < rounds := by
          have someRead := List.length_pos_iff.mpr nonempty
          rw [List.length_append] at enough
          omega
        rw [goesOn, ← units]
        exact ih (List.append_assoc ..).symm shorter (keepsJoined joined)

/-- The loop reads the whole text, and finds the fragments of its pieces. -/
theorem scan?_eq_fragments (text : List Char) :
    scan? text (text.length + 1) 0 [] = some (fragments (pieces text)) := by
  obtain ⟨result, done, joined, units⟩ :=
    scan?_run (List.nil_append text).symm (Nat.lt_succ_self text.length) areJoined_nil
  have joins := joinsImages_fragments (pieces text)
  rw [← joined.eq_of_units_eq joins.joined (units.trans joins.units.symm)]
  exact done

/-- How inline markup reads a text: what is not trimmed away is cut into pieces, and their images are joined. -/
structure IsReading (text lead : List Char) (found : List Piece) (trail : List Char) (fragments : List Fragment) : Prop
    where
  covers : text = lead ++ found.flatMap Piece.source ++ trail
  trimmed : found.flatMap Piece.source = Text.trim text
  leadBlank : ∀ char ∈ lead, Text.isBlank char = true
  trailBlank : ∀ char ∈ trail, Text.isBlank char = true
  wellCut : WellCut trail found
  joinsImages : JoinsImages found fragments
  scanned : scan? (Text.trim text) ((Text.trim text).length + 1) 0 [] = some fragments

end ApiDocs.Comment

namespace ApiDocs.DocText

/-- Inline markup conserves text, whether tags are nested, back to back, without a name or never closed. -/
theorem parse_conserves (text : List Char) :
    ∃ lead found trail, Comment.IsReading text lead found trail (parse text).fragments := by
  obtain ⟨lead, trail, covers, leadBlank, trailBlank⟩ := Text.exists_blank_trim_blank text
  have cuts := Comment.cuts_pieces (Text.trim text)
  refine ⟨lead, Comment.pieces (Text.trim text), trail, ?covers, cuts.flatMap_source, leadBlank, trailBlank,
    cuts.wellCut trailBlank, Comment.joinsImages_fragments _, Comment.scan?_eq_fragments _⟩
  case covers => rw [cuts.flatMap_source]; exact covers

end ApiDocs.DocText
