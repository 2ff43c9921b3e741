import ApiDocs.Proofs.Declaration.Relabelling
import ApiDocs.Text.Blank

/-!
# Canonical texts tell types apart

The first and the last characters of a canonical text tell how the outermost type is built.  What the text is made
of can then be cut out of it: a name ends at the first bracket, and no argument has a comma outside of its own
brackets.  So a type can be read back from its text, up to the difference between keywords and classes.
-/

namespace ApiDocs

section Items

/-- How many angle brackets are open behind a character.  A bracket closes one that is open, and a comma stands inside
of one. -/
def bracketsBehind? (opened : Nat) (char : Char) : Option Nat :=
  if char = '<' then some (opened + 1)
  else if char ∉ ['>', ','] then some opened
  else if opened = 0 then none
  else some (if char = '>' then opened - 1 else opened)

/-- How many angle brackets are open behind a text. -/
def openBrackets? (opened : Nat) (text : List Char) : Option Nat :=
  text.foldlM bracketsBehind? opened

theorem openBrackets?_append (opened : Nat) (front back : List Char) :
    openBrackets? opened (front ++ back) = (openBrackets? opened front).bind fun behind => openBrackets? behind back :=
  List.foldlM_append

/-- Inside of further brackets a text opens and closes as many. -/
theorem openBrackets?_succ {opened behind : Nat} {text : List Char} (opens : openBrackets? opened text = some behind) :
    openBrackets? (opened + 1) text = some (behind + 1) := by
  induction text generalizing opened with
  | nil => simpa [openBrackets?] using opens
  | cons char rest ih =>
      rw [openBrackets?, List.foldlM_cons] at opens ⊢
      obtain ⟨next, step, later⟩ := Option.bind_eq_some_iff.mp opens
      have stepInside : bracketsBehind? (opened + 1) char = some (next + 1) := by
        unfold bracketsBehind? at step ⊢
        grind
      rw [stepInside]
      exact ih later

/-- A text may stand among others between commas: every comma in it is inside of brackets, and these are closed. -/
def IsItem (text : List Char) : Prop :=
  openBrackets? 0 text = some 0

instance : DecidablePred IsItem := fun text =>
  inferInstanceAs (Decidable (openBrackets? 0 text = some 0))

namespace IsItem

variable {text first second : List Char}

theorem append (front : IsItem first) (back : IsItem second) : IsItem (first ++ second) := by
  rw [IsItem, openBrackets?_append, front]
  exact back

theorem of_plain (plain : ∀ char ∈ text, char ∉ ['<', '>', ',']) : IsItem text := by
  induction text with
  | nil => rfl
  | cons char rest ih =>
      have later := ih fun other listed => plain other (List.mem_cons_of_mem _ listed)
      have here : bracketsBehind? 0 char = some 0 := by
        have noMarker := plain char List.mem_cons_self
        simp_all [bracketsBehind?]
      rw [IsItem, openBrackets?, List.foldlM_cons, here]
      exact later

/-- Items that are listed in brackets are one item. -/
theorem of_list {items : List (List Char)} (all : ∀ item ∈ items, IsItem item) :
    IsItem ('<' :: ([','].intercalate items ++ ['>'])) := by
  have listed : openBrackets? 1 ([','].intercalate items) = some 1 := by
    induction items with
    | nil => rfl
    | cons item rest ih =>
        have here : openBrackets? 1 item = some 1 := openBrackets?_succ (all item List.mem_cons_self)
        cases rest with
        | nil => rwa [List.intercalate_singleton]
        | cons next others =>
            have later := ih fun other listed => all other (List.mem_cons_of_mem _ listed)
            rw [List.intercalate_cons_cons, List.append_assoc, openBrackets?_append, here, Option.bind_some,
              openBrackets?_append]
            exact later
  rw [IsItem, ← List.singleton_append, openBrackets?_append]
  change openBrackets? 1 _ = _
  rw [openBrackets?_append, listed]
  rfl

/-- What follows an item, if it is a comma or nothing, cannot be taken for a part of it. -/
theorem append_inj {rest others : List Char} (isFirst : IsItem first) (isSecond : IsItem second)
    (ends : ∀ char ∈ rest.head?, char = ',') (otherEnds : ∀ char ∈ others.head?, char = ',')
    (same : first ++ rest = second ++ others) : first = second ∧ rest = others := by
  -- Of two items at the same place the longer one would have the comma outside of brackets.
  have noLonger {shorter longer more behind : List Char} (isShorter : IsItem shorter) (isLonger : IsItem longer)
      (split : longer = shorter ++ more) (comma : ∀ char ∈ (more ++ behind).head?, char = ',') : more = [] := by
    cases more with
    | nil => rfl
    | cons char more =>
        obtain rfl := comma char rfl
        rw [split, IsItem, openBrackets?_append, isShorter] at isLonger
        cases isLonger
  rcases List.append_eq_append_iff.mp same with ⟨more, split, behind⟩ | ⟨more, split, behind⟩
  · obtain rfl := noLonger isFirst isSecond split (behind ▸ ends)
    exact ⟨by rw [split, List.append_nil], behind⟩
  · obtain rfl := noLonger isSecond isFirst split (behind ▸ otherEnds)
    exact ⟨by rw [split, List.append_nil], behind.symm⟩

/-- Commas tell where items begin and end. -/
theorem eq_of_intercalate_eq {firsts seconds : List (List Char)} (someFirst : firsts ≠ []) (someSecond : seconds ≠ [])
    (allFirst : ∀ item ∈ firsts, IsItem item) (allSecond : ∀ item ∈ seconds, IsItem item)
    (same : [','].intercalate firsts = [','].intercalate seconds) : firsts = seconds := by
  -- A list of items is its first one and what follows it, which begins with a comma if there is more.
  have split (item : List Char) (rest : List (List Char)) : [','].intercalate (item :: rest) =
      item ++ if rest = [] then [] else ',' :: [','].intercalate rest := by
    cases rest with
    | nil => simp
    | cons next others => simp [List.intercalate_cons_cons]
  have comma (rest : List (List Char)) :
      ∀ char ∈ (if rest = [] then [] else ',' :: [','].intercalate rest).head?, char = ',' := by
    intro char begins
    by_cases last : rest = []
    · rw [if_pos last] at begins
      cases begins
    · rw [if_neg last, List.head?_cons, Option.mem_some] at begins
      exact begins.symm
  induction firsts generalizing seconds with
  | nil => exact absurd rfl someFirst
  | cons first firsts ih =>
      cases seconds with
      | nil => exact absurd rfl someSecond
      | cons second seconds =>
          rw [split, split] at same
          obtain ⟨rfl, later⟩ := (allFirst first List.mem_cons_self).append_inj (allSecond second List.mem_cons_self)
            (comma firsts) (comma seconds) same
          by_cases noFirst : firsts = [] <;> by_cases noSecond : seconds = []
          · rw [noFirst, noSecond]
          · simp [noFirst, noSecond] at later
          · simp [noFirst, noSecond] at later
          · rw [if_neg noFirst, if_neg noSecond] at later
            have rest := ih noFirst noSecond (fun item listed => allFirst item (List.mem_cons_of_mem _ listed))
              (fun item listed => allSecond item (List.mem_cons_of_mem _ listed)) (List.cons.inj later).2
            rw [rest]

end IsItem

end Items

/-- No part of a name can be taken for a marker in the canonical text of a type, and the name does not end in a dot. -/
structure IsPlainName (name : String) : Prop where
  nonempty : name ≠ ""
  plain : ∀ char ∈ name.toList, char ∉ ['<', '>', ',', '?', '[', ']'] ∧ Text.isBlank char = false
  noDot : name.toList.getLast? ≠ some '.'

instance (name : String) : Decidable (IsPlainName name) :=
  decidable_of_iff
    (name ≠ "" ∧
      (name.toList.all fun char => char ∉ ['<', '>', ',', '?', '[', ']'] ∧ Text.isBlank char = false) = true ∧
      name.toList.getLast? ≠ some '.')
    ⟨fun ⟨nonempty, plain, noDot⟩ =>
        ⟨nonempty, fun char listed => of_decide_eq_true (List.all_eq_true.mp plain char listed), noDot⟩,
      fun ⟨nonempty, plain, noDot⟩ =>
        ⟨nonempty, List.all_eq_true.mpr fun char listed => decide_eq_true (plain char listed), noDot⟩⟩

namespace JavaType

def IsWildcard : JavaType → Prop
  | wildcard | wildcardExtends _ | wildcardSuper _ => True
  | _ => False

instance : DecidablePred IsWildcard
  | .primitive _ | .reference _ _ _ _ | .array _ | .variadic _ => isFalse not_false
  | .wildcard | .wildcardExtends _ | .wildcardSuper _ => isTrue trivial

/-- The name of a primitive type or of a class. -/
def ownName? : JavaType → Option String
  | primitive name => some name
  | reference written _ _ resolution => some (referenceName written resolution)
  | _ => none

def arguments : JavaType → List JavaType
  | reference _ _ arguments _ => arguments
  | _ => []

/-- The elements of an array or of a variadic type, or the bound of a wildcard. -/
def operand? : JavaType → Option JavaType
  | array element | variadic element => some element
  | wildcardExtends bound | wildcardSuper bound => some bound
  | _ => none

/-- No wildcard stands in a type where an element or a bound is expected, and all names are plain. -/
structure IsLegible (type : JavaType) : Prop where
  operands : ∀ part ∈ type.occurrences, ∀ operand ∈ part.operand?, ¬ operand.IsWildcard
  names : ∀ part ∈ type.occurrences, ∀ name ∈ part.ownName?, IsPlainName name

/-- Two types are built in the same way from the same names, and a primitive type is as good as a class without type
arguments. -/
inductive SameShape : JavaType → JavaType → Prop where
  | named {first second : JavaType} {name : String} (firstName : first.ownName? = some name)
      (secondName : second.ownName? = some name)
      (inner : List.Forall₂ SameShape first.arguments second.arguments) : SameShape first second
  | array {first second : JavaType} (inner : SameShape first second) : SameShape (.array first) (.array second)
  | variadic {first second : JavaType} (inner : SameShape first second) :
      SameShape (.variadic first) (.variadic second)
  | wildcard : SameShape .wildcard .wildcard
  | wildcardExtends {first second : JavaType} (inner : SameShape first second) :
      SameShape (.wildcardExtends first) (.wildcardExtends second)
  | wildcardSuper {first second : JavaType} (inner : SameShape first second) :
      SameShape (.wildcardSuper first) (.wildcardSuper second)

namespace IsLegible

variable {type : JavaType}

/-- A type whose parts are parts of a legible one is legible. -/
theorem of_subset (legible : type.IsLegible) {part : JavaType} (inside : part.occurrences ⊆ type.occurrences) :
    part.IsLegible where
  operands other found := legible.operands other (inside found)
  names other found := legible.names other (inside found)

theorem of_argument (legible : type.IsLegible) : ∀ argument ∈ type.arguments, argument.IsLegible := by
  intro argument listed
  cases type with
  | reference written className arguments resolution =>
      apply legible.of_subset
      rw [occurrences_reference]
      intro part found
      exact List.mem_cons_of_mem _ (List.mem_flatMap.mpr ⟨argument, listed, found⟩)
  | _ => cases listed

/-- Around its element or bound a type has no other part. -/
theorem of_operand (legible : type.IsLegible) {operand : JavaType}
    (occurrences : type.occurrences = type :: operand.occurrences) : operand.IsLegible :=
  legible.of_subset (occurrences ▸ List.subset_cons_self _ _)

theorem mem_occurrences (type : JavaType) : type ∈ type.occurrences := by
  cases type <;> exact List.mem_cons_self

theorem isPlainName (legible : type.IsLegible) {name : String} (named : type.ownName? = some name) :
    IsPlainName name :=
  legible.names type (mem_occurrences type) name named

theorem not_isWildcard (legible : type.IsLegible) {operand : JavaType} (held : type.operand? = some operand) :
    ¬ operand.IsWildcard :=
  legible.operands type (mem_occurrences type) operand held

end IsLegible

end JavaType

namespace IsPlainName

variable {name : String}

theorem isItem (plain : IsPlainName name) : IsItem name.toList := by
  apply IsItem.of_plain
  intro char listed
  have noMarker := (plain.plain char listed).1
  simp_all

theorem exists_cons (plain : IsPlainName name) : ∃ char rest, name.toList = char :: rest ∧ char ≠ '?' := by
  cases chars : name.toList with
  | nil => exact absurd (String.toList_eq_nil_iff.mp chars) plain.nonempty
  | cons char rest =>
      have noMarker := (plain.plain char (chars ▸ List.mem_cons_self)).1
      refine ⟨char, rest, rfl, ?_⟩
      rintro rfl
      simp at noMarker

/-- The last character of a name is none of those that end what is not a name. -/
theorem getLast?_not_mem (plain : IsPlainName name) : ∀ char ∈ name.toList.getLast?, char ∉ ['>', ']', '.'] := by
  intro char last
  have noMarker := (plain.plain char (List.mem_of_getLast? last)).1
  have noDot : char ≠ '.' := by
    rintro rfl
    exact plain.noDot last
  simp_all

end IsPlainName

namespace JavaType

variable {type : JavaType}

/-- The characters of the canonical text. -/
def chars (type : JavaType) : List Char :=
  type.canonicalText.toList

theorem chars_reference (written className : String) (arguments : List JavaType) (resolution : Resolution) :
    (reference written className arguments resolution).chars =
      (referenceName written resolution).toList ++
        if arguments = [] then [] else '<' :: ([','].intercalate (arguments.map chars) ++ ['>']) := by
  have inner : (arguments.map canonicalText).map String.toList = arguments.map chars := List.map_map
  rw [chars, canonicalText_reference, String.toList_append]
  split
  · rfl
  · simp [String.toList_append, String.toList_intercalate, inner]

theorem chars_array (element : JavaType) : (array element).chars = element.chars ++ ['[', ']'] := by
  simp [chars, canonicalText]

theorem chars_variadic (element : JavaType) : (variadic element).chars = element.chars ++ ['.', '.', '.'] := by
  simp [chars, canonicalText]

theorem chars_wildcard : wildcard.chars = ['?'] := by
  simp [chars, canonicalText]

theorem chars_wildcardExtends (bound : JavaType) :
    (wildcardExtends bound).chars = ['?', ' ', 'e', 'x', 't', 'e', 'n', 'd', 's', ' '] ++ bound.chars := by
  simp [chars, canonicalText]

theorem chars_wildcardSuper (bound : JavaType) :
    (wildcardSuper bound).chars = ['?', ' ', 's', 'u', 'p', 'e', 'r', ' '] ++ bound.chars := by
  simp [chars, canonicalText]

/-- A type may stand in a list of type arguments. -/
theorem isItem_chars (legible : type.IsLegible) : IsItem type.chars := by
  induction type using parts_induction with
  | primitive name => exact (legible.isPlainName rfl).isItem
  | reference written className arguments resolution ih =>
      rw [chars_reference]
      apply (legible.isPlainName rfl).isItem.append
      split
      · rfl
      · apply IsItem.of_list
        intro item listed
        obtain ⟨argument, among, rfl⟩ := List.mem_map.mp listed
        exact ih argument among (legible.of_argument argument among)
  | array element ih =>
      rw [chars_array]
      exact (ih (legible.of_operand rfl)).append (by decide)
  | variadic element ih =>
      rw [chars_variadic]
      exact (ih (legible.of_operand rfl)).append (by decide)
  | wildcard =>
      rw [chars_wildcard]
      decide
  | wildcardExtends bound ih =>
      rw [chars_wildcardExtends]
      exact IsItem.append (by decide) (ih (legible.of_operand rfl))
  | wildcardSuper bound ih =>
      rw [chars_wildcardSuper]
      exact IsItem.append (by decide) (ih (legible.of_operand rfl))

/-- A type that is no wildcard begins with the first character of a name. -/
theorem exists_chars_eq_cons (legible : type.IsLegible) (noWildcard : ¬ type.IsWildcard) :
    ∃ char rest, type.chars = char :: rest ∧ char ≠ '?' := by
  have behind {front : List Char} (back : List Char) (begins : ∃ char rest, front = char :: rest ∧ char ≠ '?') :
      ∃ char rest, front ++ back = char :: rest ∧ char ≠ '?' := by
    obtain ⟨char, rest, rfl, other⟩ := begins
    exact ⟨char, rest ++ back, rfl, other⟩
  induction type using parts_induction with
  | primitive name => exact (legible.isPlainName rfl).exists_cons
  | reference written className arguments resolution =>
      rw [chars_reference]
      exact behind _ (legible.isPlainName rfl).exists_cons
  | array element ih =>
      rw [chars_array]
      exact behind _ (ih (legible.of_operand rfl) (legible.not_isWildcard rfl))
  | variadic element ih =>
      rw [chars_variadic]
      exact behind _ (ih (legible.of_operand rfl) (legible.not_isWildcard rfl))
  | wildcard => exact absurd trivial noWildcard
  | wildcardExtends bound => exact absurd trivial noWildcard
  | wildcardSuper bound => exact absurd trivial noWildcard

/-- How the outermost type is built. -/
inductive Form where
  | named
  | generic
  | array
  | variadic
  | wildcard
  | wildcardExtends
  | wildcardSuper
deriving DecidableEq

def form : JavaType → Form
  | primitive _ => .named
  | reference _ _ arguments _ => if arguments = [] then .named else .generic
  | array _ => .array
  | variadic _ => .variadic
  | wildcard => .wildcard
  | wildcardExtends _ => .wildcardExtends
  | wildcardSuper _ => .wildcardSuper

/-- The form of a type, read from its canonical text: wildcards begin with a question mark, and the other forms end
differently. -/
def Form.ofChars (text : List Char) : Form :=
  if text.head? = some '?' then
    match text.drop 2 with
    | [] => .wildcard
    | 'e' :: _ => .wildcardExtends
    | _ => .wildcardSuper
  else
    match text.getLast? with
    | some ']' => .array
    | some '.' => .variadic
    | some '>' => .generic
    | _ => .named

theorem Form.ofChars_of_plain {name : String} (plain : IsPlainName name) : ofChars name.toList = .named := by
  obtain ⟨char, rest, begins, other⟩ := plain.exists_cons
  have last := plain.getLast?_not_mem
  rw [ofChars, if_neg (by simpa [begins] using other)]
  cases ends : name.toList.getLast? with
  | none => rfl
  | some char =>
      have noMarker := last char ends
      simp only [List.mem_cons, List.not_mem_nil, or_false, not_or] at noMarker
      obtain ⟨noAngle, noBracket, noDot⟩ := noMarker
      split <;> simp_all

theorem Form.ofChars_chars (legible : type.IsLegible) : ofChars type.chars = type.form := by
  have noMark (noWildcard : ¬ type.IsWildcard) : type.chars.head? ≠ some '?' := by
    obtain ⟨char, rest, begins, other⟩ := exists_chars_eq_cons legible noWildcard
    simpa [begins] using other
  cases type with
  | primitive name => exact ofChars_of_plain (legible.isPlainName rfl)
  | reference written className arguments resolution =>
      rw [form]
      by_cases noArguments : arguments = []
      · rw [if_pos noArguments, chars_reference, if_pos noArguments, List.append_nil]
        exact ofChars_of_plain (legible.isPlainName rfl)
      · rw [ofChars, if_neg (noMark not_false), if_neg noArguments, chars_reference, if_neg noArguments,
          ← List.cons_append, ← List.append_assoc, List.getLast?_concat]
        rfl
  | array element => 
      rw [ofChars, if_neg (noMark not_false), chars_array, List.getLast?_append]
      rfl
  | variadic element => 
      rw [ofChars, if_neg (noMark not_false), chars_variadic, List.getLast?_append]
      rfl
  | wildcard =>
      rw [chars_wildcard]
      rfl
  | wildcardExtends bound =>
      rw [chars_wildcardExtends]
      rfl
  | wildcardSuper bound =>
      rw [chars_wildcardSuper]
      rfl

theorem form_eq_of_chars_eq {first second : JavaType} (isFirst : first.IsLegible) (isSecond : second.IsLegible)
    (same : first.chars = second.chars) : first.form = second.form := by
  rw [← Form.ofChars_chars isFirst, ← Form.ofChars_chars isSecond, same]

/-- Names without type arguments are the whole text. -/
theorem exists_name_of_form {type : JavaType} (isNamed : type.form = .named) :
    ∃ name, type.ownName? = some name ∧ type.arguments = [] ∧ type.chars = name.toList := by
  cases type with
  | primitive name => exact ⟨name, rfl, rfl, rfl⟩
  | reference written className arguments resolution =>
      rw [form] at isNamed
      split at isNamed
      next none => exact ⟨_, rfl, none, by rw [chars_reference, if_pos none, List.append_nil]⟩
      next => cases isNamed
  | _ => cases isNamed

theorem exists_reference_of_form {type : JavaType} (isGeneric : type.form = .generic) :
    ∃ name, type.ownName? = some name ∧ type.arguments ≠ [] ∧
      type.chars = name.toList ++ '<' :: ([','].intercalate (type.arguments.map chars) ++ ['>']) := by
  cases type with
  | reference written className arguments resolution =>
      rw [form] at isGeneric
      split at isGeneric
      next => cases isGeneric
      next some => exact ⟨_, rfl, some, by rw [chars_reference, if_neg some]; rfl⟩
  | _ => cases isGeneric

/-- Lists of type arguments with the same text have the same texts. -/
theorem map_chars_eq_of_intercalate_eq {firsts seconds : List JavaType} (someFirst : firsts ≠ [])
    (someSecond : seconds ≠ []) (allFirst : ∀ type ∈ firsts, type.IsLegible) (allSecond : ∀ type ∈ seconds, type.IsLegible)
    (same : [','].intercalate (firsts.map chars) = [','].intercalate (seconds.map chars)) :
    firsts.map chars = seconds.map chars := by
  have items {types : List JavaType} (all : ∀ type ∈ types, type.IsLegible) : ∀ item ∈ types.map chars, IsItem item := by
    intro item listed
    obtain ⟨type, among, rfl⟩ := List.mem_map.mp listed
    exact isItem_chars (all type among)
  exact IsItem.eq_of_intercalate_eq (by simpa using someFirst) (by simpa using someSecond) (items allFirst)
    (items allSecond) same

theorem sameShape_of_named {first second : JavaType} (isNamed : first.form = .named) (forms : first.form = second.form)
    (same : first.chars = second.chars) : first.SameShape second := by
  obtain ⟨name, firstName, noArguments, text⟩ := exists_name_of_form isNamed
  obtain ⟨other, secondName, noOthers, otherText⟩ := exists_name_of_form (forms ▸ isNamed)
  obtain rfl : name = other := String.toList_injective (text ▸ otherText ▸ same)
  refine .named firstName secondName ?_
  rw [noArguments, noOthers]
  exact .nil

/-- The name of a class ends where the brackets open, and what is inside of them is the list of type arguments. -/
theorem sameShape_of_generic {first second : JavaType} (isFirst : first.IsLegible) (isSecond : second.IsLegible)
    (isGeneric : first.form = .generic) (forms : first.form = second.form) (same : first.chars = second.chars)
    (inner : ∀ argument ∈ first.arguments, ∀ other, other.IsLegible → argument.chars = other.chars →
      argument.SameShape other) : first.SameShape second := by
  obtain ⟨name, firstName, someFirst, text⟩ := exists_reference_of_form isGeneric
  obtain ⟨other, secondName, someSecond, otherText⟩ := exists_reference_of_form (forms ▸ isGeneric)
  have noBracket {name : String} (plain : IsPlainName name) : '<' ∉ name.toList := by
    intro listed
    simpa using (plain.plain _ listed).1
  rw [text, otherText] at same
  have cut := congrArg (Text.cutAt? '<') same
  rw [Text.cutAt?_append (noBracket (isFirst.isPlainName firstName)),
    Text.cutAt?_append (noBracket (isSecond.isPlainName secondName))] at cut
  obtain ⟨sameName, sameList⟩ := Prod.mk.inj (Option.some.inj cut)
  obtain rfl := String.toList_injective sameName
  have texts := map_chars_eq_of_intercalate_eq someFirst someSecond isFirst.of_argument
    isSecond.of_argument (List.append_left_injective _ sameList)
  rw [← List.forall₂_eq_eq_eq, List.forall₂_map_left_iff, List.forall₂_map_right_iff] at texts
  have legible := (List.forall₂_and_left _ _).mpr ⟨isSecond.of_argument, texts.flip⟩
  have both := (List.forall₂_and_left _ _).mpr ⟨inner, legible.flip⟩
  exact .named firstName secondName (both.imp fun _ other ⟨alike, isOther, sameText⟩ => alike other isOther sameText)

/--
The canonical text of a type tells its shape.  So signatures of callables, which are made of such texts, are the same
only if the types of their parameters are built alike from the same names.
-/
theorem sameShape_of_canonicalText_eq {first second : JavaType} (isFirst : first.IsLegible)
    (isSecond : second.IsLegible) (same : first.canonicalText = second.canonicalText) : first.SameShape second := by
  replace same : first.chars = second.chars := congrArg String.toList same
  induction first using parts_induction generalizing second with
  | primitive name => exact sameShape_of_named rfl (form_eq_of_chars_eq isFirst isSecond same) same
  | reference written className arguments resolution ih =>
      have forms := form_eq_of_chars_eq isFirst isSecond same
      by_cases noArguments : arguments = []
      · exact sameShape_of_named (if_pos noArguments) forms same
      · refine sameShape_of_generic isFirst isSecond (if_neg noArguments) forms same ?_
        intro argument listed other isOther same
        exact ih argument listed (isFirst.of_argument argument listed) isOther same
  | array element ih =>
      have forms := form_eq_of_chars_eq isFirst isSecond same
      cases second with
      | array other =>
          rw [chars_array, chars_array] at same
          exact .array (ih (isFirst.of_operand rfl) (isSecond.of_operand rfl) (List.append_left_injective _ same))
      | _ => grind [form]
  | variadic element ih =>
      have forms := form_eq_of_chars_eq isFirst isSecond same
      cases second with
      | variadic other =>
          rw [chars_variadic, chars_variadic] at same
          exact .variadic (ih (isFirst.of_operand rfl) (isSecond.of_operand rfl) (List.append_left_injective _ same))
      | _ => grind [form]
  | wildcard =>
      have forms := form_eq_of_chars_eq isFirst isSecond same
      cases second with
      | wildcard => exact .wildcard
      | _ => grind [form]
  | wildcardExtends bound ih =>
      have forms := form_eq_of_chars_eq isFirst isSecond same
      cases second with
      | wildcardExtends other =>
          rw [chars_wildcardExtends, chars_wildcardExtends] at same
          exact .wildcardExtends
            (ih (isFirst.of_operand rfl) (isSecond.of_operand rfl) (List.append_right_injective _ same))
      | _ => grind [form]
  | wildcardSuper bound ih =>
      have forms := form_eq_of_chars_eq isFirst isSecond same
      cases second with
      | wildcardSuper other =>
          rw [chars_wildcardSuper, chars_wildcardSuper] at same
          exact .wildcardSuper
            (ih (isFirst.of_operand rfl) (isSecond.of_operand rfl) (List.append_right_injective _ same))
      | _ => grind [form]

/-! A type with resolved names, and one in which the dotted names are written out. -/

def sampleResolved : JavaType :=
  .reference "Map" "Map"
    [.reference "String" "String" [] (.classNamed ⟨"java.lang", ["String"]⟩),
      .wildcardExtends (.array (.array (.primitive "int")))]
    (.classNamed ⟨"java.util", ["Map"]⟩)

def sampleWrittenOut : JavaType :=
  .named "java.util.Map" [.named "java.lang.String" [], .wildcardExtends (.array (.array (.named "int" [])))]

theorem sameShape_sampleResolved :
    sampleResolved.IsLegible ∧ sampleWrittenOut.IsLegible ∧
      sampleResolved.canonicalText = sampleWrittenOut.canonicalText ∧ sampleResolved.SameShape sampleWrittenOut := by
  have isFirst : sampleResolved.IsLegible := ⟨by decide +kernel, by decide +kernel⟩
  have isSecond : sampleWrittenOut.IsLegible := ⟨by decide +kernel, by decide +kernel⟩
  have same : sampleResolved.canonicalText = sampleWrittenOut.canonicalText := by
    decide +kernel
  exact ⟨isFirst, isSecond, same, sameShape_of_canonicalText_eq isFirst isSecond same⟩

end JavaType

end ApiDocs
