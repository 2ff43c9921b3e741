import ApiDocs.Proofs.Comment.Inline
import ApiDocs.Proofs.Trimming
import Mathlib.Data.List.Chain

/-!
# Fragments are the images of pieces

Texts that stand side by side are joined, so that fragments and images of pieces differ in where texts are cut, and
in nothing else.  Lists of joined fragments with the same characters and the same tags are the same.
-/

namespace ApiDocs

namespace Fragment

def IsText : Fragment → Prop
  | text _ => True
  | _ => False

theorem not_isText_of_forall_ne {fragment : Fragment} (noText : ∀ content, fragment ≠ text content) :
    ¬ fragment.IsText := by
  cases fragment with
  | text content => exact absurd rfl (noText content)
  | code content => exact not_false
  | link target label => exact not_false

/-- The characters of a text one by one, and every other fragment as a whole. -/
def units : Fragment → List (Char ⊕ Fragment)
  | text content => content.toList.map .inl
  | fragment => [.inr fragment]

end Fragment

namespace Comment

/-- No text is empty, and no two texts stand side by side. -/
structure AreJoined (fragments : List Fragment) : Prop where
  nonempty : Fragment.text "" ∉ fragments
  apart : fragments.IsChain fun first second => ¬ (first.IsText ∧ second.IsText)

theorem areJoined_nil : AreJoined [] :=
  ⟨List.not_mem_nil, .nil⟩

theorem areJoined_cons_iff {first : Fragment} {rest : List Fragment} :
    AreJoined (first :: rest) ↔
      first ≠ .text "" ∧ (∀ next ∈ rest.head?, ¬ (first.IsText ∧ next.IsText)) ∧ AreJoined rest := by
  constructor
  · rintro ⟨nonempty, apart⟩
    obtain ⟨here, later⟩ := List.isChain_cons.mp apart
    refine ⟨?_, here, ⟨fun listed => nonempty (List.mem_cons_of_mem _ listed), later⟩⟩
    rintro rfl
    exact nonempty List.mem_cons_self
  · rintro ⟨nonempty, here, nonemptyLater, apart⟩
    refine ⟨?_, List.isChain_cons.mpr ⟨here, apart⟩⟩
    intro listed
    obtain same | later := List.mem_cons.mp listed
    · exact nonempty same.symm
    · exact nonemptyLater later

/-- Texts with the same characters before something else are the same. -/
theorem inl_append_inj {first second : List Char} {rest others : List (Char ⊕ Fragment)}
    (ends : ∀ char, rest.head? ≠ some (.inl char)) (otherEnds : ∀ char, others.head? ≠ some (.inl char))
    (same : first.map .inl ++ rest = second.map .inl ++ others) : first = second ∧ rest = others := by
  induction first generalizing second with
  | nil =>
      cases second with
      | nil => exact ⟨rfl, same⟩
      | cons char second => exact absurd (congrArg List.head? same) (ends char)
  | cons char first ih =>
      cases second with
      | nil => exact absurd (congrArg List.head? same).symm (otherEnds char)
      | cons other second =>
          obtain ⟨sameChar, later⟩ := List.cons.inj same
          obtain ⟨rfl, behind⟩ := ih later
          exact ⟨congrArg (· :: first) (Sum.inl.inj sameChar), behind⟩

/-- Behind a text the units of joined fragments go on with what is no character. -/
theorem head?_units_of_apart {rest : List Fragment} (apart : ∀ next ∈ rest.head?, ¬ next.IsText) (char : Char) :
    (rest.flatMap Fragment.units).head? ≠ some (.inl char) := by
  cases rest with
  | nil => exact nofun
  | cons next others =>
      have noText := apart next rfl
      cases next with
      | text content => exact absurd trivial noText
      | code content => exact nofun
      | link target label => exact nofun

/-- A fragment that is not empty begins with a character if it is a text, and is a unit if it is none. -/
theorem units_cases {fragment : Fragment} (nonempty : fragment ≠ .text "") :
    (∃ content char rest, fragment = .text content ∧ content.toList = char :: rest) ∨
      ¬ fragment.IsText ∧ fragment.units = [.inr fragment] := by
  cases fragment with
  | text content =>
      cases chars : content.toList with
      | nil => exact absurd (congrArg Fragment.text (String.toList_eq_nil_iff.mp chars)) nonempty
      | cons char rest => exact .inl ⟨content, char, rest, rfl, chars⟩
  | code content => exact .inr ⟨not_false, rfl⟩
  | link target label => exact .inr ⟨not_false, rfl⟩

theorem units_ne_nil {fragment : Fragment} (nonempty : fragment ≠ .text "") : fragment.units ≠ [] := by
  obtain ⟨content, char, rest, rfl, chars⟩ | ⟨_, units⟩ := units_cases nonempty
  · simp [Fragment.units, chars]
  · simp [units]

/-- Joined fragments are known by their units. -/
theorem AreJoined.eq_of_units_eq {first second : List Fragment} (isFirst : AreJoined first)
    (isSecond : AreJoined second) (same : first.flatMap Fragment.units = second.flatMap Fragment.units) :
    first = second := by
  induction first generalizing second with
  | nil =>
      cases second with
      | nil => rfl
      | cons other others =>
          have nonempty := units_ne_nil (areJoined_cons_iff.mp isSecond).1
          exact absurd (List.append_eq_nil_iff.mp same.symm).1 nonempty
  | cons fragment rest ih =>
      obtain ⟨nonempty, apart, joined⟩ := areJoined_cons_iff.mp isFirst
      cases second with
      | nil => exact absurd (List.append_eq_nil_iff.mp same).1 (units_ne_nil nonempty)
      | cons other others =>
          obtain ⟨otherNonempty, otherApart, otherJoined⟩ := areJoined_cons_iff.mp isSecond
          rw [List.flatMap_cons, List.flatMap_cons] at same
          -- Both lists begin with a text, or both with the same unit.
          obtain ⟨content, char, chars, rfl, begins⟩ | ⟨noText, unit⟩ := units_cases nonempty <;>
            obtain ⟨otherContent, otherChar, otherChars, rfl, otherBegins⟩ | ⟨otherNoText, otherUnit⟩ :=
              units_cases otherNonempty
          · have ends := head?_units_of_apart fun next listed isText => apart next listed ⟨trivial, isText⟩
            have otherEnds := head?_units_of_apart fun next listed isText => otherApart next listed ⟨trivial, isText⟩
            obtain ⟨sameChars, later⟩ := inl_append_inj ends otherEnds same
            rw [String.toList_injective sameChars, ih joined otherJoined later]
          · rw [otherUnit, Fragment.units, begins] at same
            cases same
          · rw [unit, Fragment.units, otherBegins] at same
            cases same
          · rw [unit, otherUnit] at same
            obtain ⟨sameUnit, later⟩ := List.cons.inj same
            rw [Sum.inr.inj sameUnit, ih joined otherJoined later]

/-! The fragments of pieces are joined images. -/

theorem units_prependText (text : List Char) (later : List Fragment) :
    (prependText text later).flatMap Fragment.units = text.map .inl ++ later.flatMap Fragment.units := by
  unfold prependText
  split
  next none => rw [none]; rfl
  next =>
    split
    · simp [Fragment.units]
    · simp [Fragment.units]

theorem areJoined_prependText (text : List Char) {later : List Fragment} (joined : AreJoined later) :
    AreJoined (prependText text later) := by
  unfold prependText
  split
  · exact joined
  next nonempty =>
    split
    next content rest =>
      obtain ⟨_, apart, joined⟩ := areJoined_cons_iff.mp joined
      exact areJoined_cons_iff.mpr ⟨by simp [nonempty], apart, joined⟩
    next noText =>
      refine areJoined_cons_iff.mpr ⟨by simp [nonempty], ?_, joined⟩
      intro next begins both
      obtain ⟨rest, rfl⟩ := List.head?_eq_some_iff.mp begins
      refine Fragment.not_isText_of_forall_ne ?_ both.2
      rintro content rfl
      exact noText content rest rfl

/-- The first word of what trimming leaves is its beginning. -/
theorem splitName_trim (text : List Char) :
    splitName (Text.trim text) =
      ((Text.trim text).takeWhile fun char => !Text.isBlank char,
        (Text.trim text).dropWhile fun char => !Text.isBlank char) := by
  rw [splitName, Text.trimStart_trim]

/-- A tag puts its image in front. -/
theorem prependTag_eq (name inside : List Char) (later : List Fragment) :
    prependTag name (Text.trim inside) later =
      match (Piece.tag name inside).image with
      | .text content => prependText content.toList later
      | fragment => fragment :: later := by
  unfold prependTag Piece.image
  rw [splitName_trim]
  split <;> simp_all

theorem units_prependTag (name inside : List Char) (later : List Fragment) :
    (prependTag name (Text.trim inside) later).flatMap Fragment.units =
      (Piece.tag name inside).image.units ++ later.flatMap Fragment.units := by
  rw [prependTag_eq]
  split
  next content isText => rw [units_prependText, isText]; rfl
  next => rw [List.flatMap_cons]

theorem areJoined_prependTag (name inside : List Char) {later : List Fragment} (joined : AreJoined later) :
    AreJoined (prependTag name (Text.trim inside) later) := by
  rw [prependTag_eq]
  split
  next => exact areJoined_prependText _ joined
  next noText =>
    exact areJoined_cons_iff.mpr ⟨noText "", fun next _ both => Fragment.not_isText_of_forall_ne noText both.1, joined⟩

/-- The units of the images of pieces. -/
def imageUnits (found : List Piece) : List (Char ⊕ Fragment) :=
  found.flatMap fun piece => piece.image.units

/-- Fragments are images with neighbouring texts joined. -/
structure JoinsImages (found : List Piece) (fragments : List Fragment) : Prop where
  units : fragments.flatMap Fragment.units = imageUnits found
  joined : AreJoined fragments

theorem joinsImages_fragments (found : List Piece) : JoinsImages found (fragments found) := by
  induction found with
  | nil => exact ⟨rfl, areJoined_nil⟩
  | cons piece rest ih =>
      cases piece with
      | plain text =>
          refine ⟨?_, areJoined_prependText text ih.joined⟩
          rw [fragments, units_prependText, ih.units]
          simp [imageUnits, Piece.image, Fragment.units]
      | tag name inside =>
          refine ⟨?_, areJoined_prependTag name inside ih.joined⟩
          rw [fragments, units_prependTag, ih.units, imageUnits, imageUnits, List.flatMap_cons]

end Comment

end ApiDocs
