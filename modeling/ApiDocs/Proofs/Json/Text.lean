import ApiDocs.Json.Reader
import ApiDocs.Json.Writer
import ApiDocs.Proofs.Except
import Mathlib.Data.Nat.Basic

/-!
# Reading what was written

The reader takes back every value that the writer has written, with the members of its objects in order.
-/

namespace ApiDocs.Json

/-! A number is written without a needless zero, and it ends where no digit follows. -/

section Numbers

theorem head?_toDigits_ne_zero {value : Nat} (positive : 0 < value) :
    (Nat.toDigits 10 value).head? ≠ some '0' := by
  induction value using Nat.strong_induction_on with
  | _ value ih =>
      rw [Nat.toDigits_eq_if (by decide)]
      split
      · next small =>
          have digits : ∀ digit < 10, 0 < digit → [Nat.digitChar digit].head? ≠ some '0' := by decide
          exact digits value small positive
      · next large =>
          rw [List.head?_append_of_ne_nil _ Nat.toDigits_ne_nil]
          exact ih (value / 10) (by omega) (by omega)

theorem length_toDigits_of_head? {value : Nat} (zero : (Nat.toDigits 10 value).head? = some '0') :
    (Nat.toDigits 10 value).length = 1 := by
  obtain rfl | positive := Nat.eq_zero_or_pos value
  · rfl
  · exact absurd zero (head?_toDigits_ne_zero positive)

/-- No number goes on with a text. -/
def EndsNumber (rest : List Char) : Prop :=
  ∀ next ∈ rest.head?, next.isDigit = false ∧ next ≠ '.' ∧ next ≠ 'e' ∧ next ≠ 'E'

variable {rest : List Char}

theorem readDigits_append {digits : List Char} (some : digits ≠ []) (all : ∀ digit ∈ digits, digit.isDigit = true)
    (ends : EndsNumber rest) : readDigits (digits ++ rest) = .some (digits, rest) := by
  have stops : rest.takeWhile Char.isDigit = [] ∧ rest.dropWhile Char.isDigit = rest := by
    cases rest with
    | nil => exact ⟨rfl, rfl⟩
    | cons next others =>
        have noDigit : ¬ next.isDigit = true := by
          rw [(ends next rfl).1]
          exact Bool.false_ne_true
        exact ⟨List.takeWhile_cons_of_neg noDigit, List.dropWhile_cons_of_neg noDigit⟩
  simp only [readDigits]
  rw [List.takeWhile_append_of_pos all, List.dropWhile_append_of_pos all, stops.1, stops.2, List.append_nil,
    if_neg some]

theorem readFraction_of_ends (ends : EndsNumber rest) : readFraction rest = some ([], rest) := by
  cases rest with
  | nil => rfl
  | cons next others =>
      unfold readFraction
      split
      · next same => exact absurd (List.cons.inj same).1 (ends next rfl).2.1
      · rfl

theorem readExponent_of_ends (ends : EndsNumber rest) : readExponent rest = some ([], rest) := by
  cases rest with
  | nil => rfl
  | cons next others => exact if_neg (not_or.mpr (ends next rfl).2.2)

theorem ofLiteral_toDigits {value : Nat} (small : value < 0x10000000000000000) :
    ofLiteral (Nat.toDigits 10 value) = natural value := by
  have digits : (Nat.toDigits 10 value).all Char.isDigit = true :=
    List.all_eq_true.mpr fun digit listed => Nat.isDigit_of_mem_toDigits (by decide) (by decide) listed
  have same : (Nat.toDigits 10 value).foldl (fun value digit => 10 * value + (digit.toNat - '0'.toNat)) 0 =
      value := Nat.ofDigitChars_toDigits (by decide) (by decide)
  simp only [ofLiteral]
  rw [same, if_pos ⟨digits, small⟩]

theorem readNumber_toDigits {value : Nat} (small : value < 0x10000000000000000) (ends : EndsNumber rest) :
    readNumber (Nat.toDigits 10 value ++ rest) = some (natural value, rest) := by
  have all : ∀ digit ∈ Nat.toDigits 10 value, digit.isDigit = true :=
    fun digit listed => Nat.isDigit_of_mem_toDigits (by decide) (by decide) listed
  have whole : readWhole (Nat.toDigits 10 value ++ rest) = some (Nat.toDigits 10 value, rest) := by
    rw [readWhole, readDigits_append Nat.toDigits_ne_nil all ends]
    refine if_neg ?_
    rintro ⟨zero, long⟩
    rw [length_toDigits_of_head? zero] at long
    exact absurd long (by decide)
  have noSign : ∀ other, Nat.toDigits 10 value ++ rest ≠ '-' :: other := by
    intro other starts
    cases digits : Nat.toDigits 10 value with
    | nil => exact Nat.toDigits_ne_nil digits
    | cons first later =>
        rw [digits] at starts
        have digit := all first (digits ▸ List.mem_cons_self)
        rw [(List.cons.inj starts).1] at digit
        exact absurd digit (by decide)
  rw [readNumber]
  · simp only [whole, readFraction_of_ends ends, readExponent_of_ends ends, Option.bind_eq_bind, Option.bind_some,
      List.nil_append, List.append_nil, ofLiteral_toDigits small]
    rfl
  · exact noSign

end Numbers

/-! A string is written with escapes, each of which is read as the character it stands for. -/

section Strings

/-- A text goes on with an escape of four digits only if these make a number. -/
def ReadsOn (rest : List Char) : Prop :=
  ∀ a b c d later, rest = '\\' :: 'u' :: a :: b :: c :: d :: later → (ofHex? [a, b, c, d]).isSome

theorem readString_escape {rest : List Char} (readsOn : ReadsOn rest) {a b c d char : Char} {code : Nat}
    (hex : ofHex? [a, b, c, d] = some code) (low : code < 0xD800) (means : charOf? code = some char) :
    readString ('\\' :: 'u' :: a :: b :: c :: d :: rest) =
      (readString rest).map fun (chars, rest) => (char :: chars, rest) := by
  by_cases escaped : ∃ e f g h later, rest = '\\' :: 'u' :: e :: f :: g :: h :: later
  · obtain ⟨e, f, g, h, later, rfl⟩ := escaped
    obtain ⟨second, hexNext⟩ := Option.isSome_iff_exists.mp (readsOn e f g h later rfl)
    rw [readString]
    simp only [hex, hexNext, means, Option.bind_eq_bind, Option.bind_some]
    rw [if_neg (fun pair => absurd pair.1 (Nat.not_le.mpr low))]
    cases readString ('\\' :: 'u' :: e :: f :: g :: h :: later) <;> rfl
  · rw [readString]
    · simp only [hex, means, Option.bind_eq_bind, Option.bind_some]
      cases readString rest <;> rfl
    · intro e f g h later same
      exact escaped ⟨e, f, g, h, later, same⟩

theorem readString_letter {letter char : Char} (noDigits : letter ≠ 'u') (means : escaped? letter = some char)
    (rest : List Char) :
    readString ('\\' :: letter :: rest) = (readString rest).map fun (chars, rest) => (char :: chars, rest) := by
  rw [readString]
  · rw [means]
    cases readString rest <;> rfl
  · intro a b c d e f g h later digits
    exact absurd digits noDigits
  · intro a b c d later digits
    exact absurd digits noDigits

theorem ofHex?_control {code : Nat} (control : code < 32) :
    ofHex? ['0', '0', Nat.digitChar (code / 16), Nat.digitChar (code % 16)] = some code := by
  have all : ∀ code < 32, ofHex? ['0', '0', Nat.digitChar (code / 16), Nat.digitChar (code % 16)] = some code := by
    decide
  exact all code control

theorem charOf?_toNat (char : Char) : charOf? char.toNat = some char :=
  (if_pos char.valid).trans (congrArg some (Char.ofNat_toNat char))

theorem readString_escapeChar (char : Char) {rest : List Char} (readsOn : ReadsOn rest) :
    readString (escapeChar char ++ rest) = (readString rest).map fun (chars, rest) => (char :: chars, rest) := by
  unfold escapeChar
  split
  case h_8 noQuote noBackslash _ _ _ _ _ =>
    split
    · next control =>
        have low : char.toNat < 0xD800 := by omega
        exact readString_escape readsOn (ofHex?_control control) low (charOf?_toNat char)
    · next plain =>
        rw [List.singleton_append, readString]
        · exact if_neg (not_or.mpr ⟨plain, noBackslash⟩)
        · exact noQuote
        · intro a b c d e f g h later backslash
          exact absurd backslash noBackslash
        · intro a b c d later backslash
          exact absurd backslash noBackslash
        · intro letter later backslash
          exact absurd backslash noBackslash
  all_goals exact readString_letter (by decide) rfl rest

theorem readsOn_escapes (chars rest : List Char) : ReadsOn (chars.flatMap escapeChar ++ '"' :: rest) := by
  intro a b c d later same
  cases chars with
  | nil => cases same
  | cons char others =>
      rw [List.flatMap_cons, List.append_assoc] at same
      unfold escapeChar at same
      split at same
      case h_8 noQuote noBackslash _ _ _ _ _ =>
        split at same
        · next control =>
            simp only [List.cons_append, List.cons.injEq] at same
            obtain ⟨_, _, rfl, rfl, rfl, rfl, _⟩ := same
            rw [ofHex?_control control]
            rfl
        · exact absurd (List.cons.inj same).1 noBackslash
      all_goals
        exact absurd (List.cons.inj (List.cons.inj same).2).1 (by decide)

theorem readString_escapes (chars rest : List Char) :
    readString (chars.flatMap escapeChar ++ '"' :: rest) = some (chars, rest) := by
  induction chars with
  | nil => rw [List.flatMap_nil, List.nil_append, readString]
  | cons char others ih =>
      rw [List.flatMap_cons, List.append_assoc, readString_escapeChar char (readsOn_escapes others rest), ih]
      rfl

end Strings

/-! Blanks between values do not matter. -/

section Blanks

def isBlank (char : Char) : Bool :=
  char = ' ' || char = '\n' || char = '\r' || char = '\t'

variable {gap : List Char}

theorem skipBlanks_append (blank : ∀ char ∈ gap, isBlank char = true) (text : List Char) :
    skipBlanks (gap ++ text) = skipBlanks text :=
  List.dropWhile_append_of_pos blank

theorem skipBlanks_cons {first : Char} (dark : isBlank first = false) (rest : List Char) :
    skipBlanks (first :: rest) = first :: rest :=
  List.dropWhile_cons_of_neg (Bool.eq_false_iff.mp dark)

theorem readValue_append (blank : ∀ char ∈ gap, isBlank char = true) (budget : Nat) (text : List Char) :
    readValue budget (gap ++ text) = readValue budget text := by
  cases budget with
  | zero => rw [readValue, readValue]
  | succ budget => rw [readValue, readValue, skipBlanks_append blank]

theorem readElements_append (blank : ∀ char ∈ gap, isBlank char = true) (budget : Nat) (text : List Char) :
    readValue.readElements budget (gap ++ text) = readValue.readElements budget text := by
  cases budget with
  | zero => rw [readValue.readElements, readValue.readElements]
  | succ budget => rw [readValue.readElements, readValue.readElements, readValue_append blank]

theorem readMembers_append (blank : ∀ char ∈ gap, isBlank char = true) (budget : Nat) (text : List Char) :
    readValue.readMembers budget (gap ++ text) = readValue.readMembers budget text := by
  cases budget with
  | zero => rw [readValue.readMembers, readValue.readMembers]
  | succ budget => rw [readValue.readMembers, readValue.readMembers, skipBlanks_append blank]

theorem isBlank_newLine (level : Nat) : ∀ char ∈ (newLine level).toList, isBlank char = true := by
  intro char listed
  rw [newLine, String.toList_append] at listed
  obtain inBreak | inIndent := List.mem_append.mp listed
  · obtain rfl := List.mem_singleton.mp inBreak
    rfl
  · rw [String.toList_ofList] at inIndent
    obtain rfl := List.eq_of_mem_replicate inIndent
    rfl

end Blanks

/-! Values are read from the text that is written at any level. -/

/-- A value with the members of its objects in the order of their names; of two members of one name the later
stays. -/
def sorted : Json → Json
  | array elements => array (sortedAll elements)
  | object members => object (SortedMap.ofList (sortedMembers members)).entries
  | value => value
where
  sortedAll : List Json → List Json
    | [] => []
    | first :: rest => first.sorted :: sortedAll rest
  sortedMembers : List (String × Json) → List (String × Json)
    | [] => []
    | (name, value) :: rest => (name, value.sorted) :: sortedMembers rest

theorem sorted_array (elements : List Json) : (array elements).sorted = array (elements.map sorted) := by
  have all : sorted.sortedAll elements = elements.map sorted := by
    induction elements with
    | nil => rfl
    | cons first rest ih => rw [sorted.sortedAll, ih, List.map_cons]
  rw [sorted, all]

theorem sorted_object (members : List (String × Json)) :
    (object members).sorted =
      object (SortedMap.ofList (members.map fun (name, value) => (name, value.sorted))).entries := by
  have all : sorted.sortedMembers members = members.map fun (name, value) => (name, value.sorted) := by
    induction members with
    | nil => rfl
    | cons first rest ih => rw [sorted.sortedMembers, ih, List.map_cons]
  rw [sorted, all]

/-- Numbers below 2^64 are the only ones in a value, and no object has two members of one name. -/
inductive Proper : Json → Prop where
  | null : Proper null
  | bool (value : Bool) : Proper (bool value)
  | natural {value : Nat} (small : value < 0x10000000000000000) : Proper (natural value)
  | string (text : String) : Proper (string text)
  | array {elements : List Json} (all : ∀ element ∈ elements, Proper element) : Proper (array elements)
  | object {members : List (String × Json)} (names : (members.map Prod.fst).Nodup)
      (all : ∀ member ∈ members, Proper member.2) : Proper (object members)

/-- The text of a value at a level of indentation. -/
def chars (level : Nat) (json : Json) : List Char :=
  (json.prettyAt level).toList

/-- What stands between two brackets on lines of its own. -/
def lines (level : Nat) (items : List (List Char)) : List Char :=
  (',' :: (newLine level).toList).intercalate items

theorem toList_block (opening closing : String) (level : Nat) {items : List String} (some : items ≠ []) :
    (block opening closing level items).toList =
      opening.toList ++ ((newLine (level + 1)).toList ++
        (lines (level + 1) (items.map String.toList) ++ ((newLine level).toList ++ closing.toList))) := by
  cases items with
  | nil => exact absurd rfl some
  | cons first rest =>
      rw [block, lines]
      simp [String.toList_append, String.toList_intercalate]

theorem chars_array (level : Nat) (elements : List Json) :
    (array elements).chars level = (block "[" "]" level (elements.map (prettyAt (level + 1)))).toList := by
  have all : prettyAt.prettyAll (level + 1) elements = elements.map (prettyAt (level + 1)) := by
    induction elements with
    | nil => rfl
    | cons first rest ih => rw [prettyAt.prettyAll, ih, List.map_cons]
  rw [chars, prettyAt, all]

theorem chars_object (level : Nat) (members : List (String × Json)) :
    (object members).chars level = (block "\x7b" "\x7d" level
      (members.map fun (name, value) => quote name ++ ": " ++ value.prettyAt (level + 1))).toList := by
  have all : prettyAt.prettyMembers (level + 1) members =
      members.map fun (name, value) => quote name ++ ": " ++ value.prettyAt (level + 1) := by
    induction members with
    | nil => rfl
    | cons first rest ih => rw [prettyAt.prettyMembers, ih, List.map_cons]
  rw [chars, prettyAt, all]

/-- A value is read from its text at every level, up to where the text ends. -/
structure Reads (json : Json) : Prop where
  starts : ∀ level, ∃ first rest, json.chars level = first :: rest ∧ isBlank first = false ∧ first ≠ ']'
  read : ∀ level budget rest, (json.chars level).length < budget → EndsNumber rest →
    readValue budget (json.chars level ++ rest) = some (json.sorted, rest)

theorem lines_cons_cons (level : Nat) (first second : List Char) (rest : List (List Char)) :
    lines level (first :: second :: rest) =
      first ++ ',' :: ((newLine level).toList ++ lines level (second :: rest)) := by
  rw [lines, lines, List.intercalate_cons_cons]
  simp

/-- The first item comes first. -/
theorem exists_lines_eq (level : Nat) (first : List Char) (rest : List (List Char)) :
    ∃ more, lines level (first :: rest) = first ++ more := by
  cases rest with
  | nil => exact ⟨[], (List.append_nil first).symm ▸ List.intercalate_singleton⟩
  | cons second rest => exact ⟨_, lines_cons_cons level first second rest⟩

/-- What follows a value between brackets is a comma or a line feed. -/
theorem endsNumber_comma (rest : List Char) : EndsNumber (',' :: rest) := by
  intro next first
  obtain rfl := Option.some.inj first
  decide

theorem endsNumber_newLine (level : Nat) (rest : List Char) : EndsNumber ((newLine level).toList ++ rest) := by
  intro next first
  rw [newLine, String.toList_append] at first
  obtain rfl := Option.some.inj first
  decide

/-- The first step of reading elements: the value of the first one. -/
theorem readElements_chars {element : Json} (reads : element.Reads) (level : Nat) {budget : Nat}
    (enough : (element.chars level).length < budget) {rest : List Char} (ends : EndsNumber rest) :
    readValue.readElements (budget + 1) (element.chars level ++ rest) =
      match skipBlanks rest with
      | ',' :: rest =>
          (readValue.readElements budget rest).map fun (elements, rest) => (element.sorted :: elements, rest)
      | ']' :: rest => some ([element.sorted], rest)
      | _ => none := by
  rw [readValue.readElements, reads.read level budget rest enough ends]
  rfl

theorem readElements_lines {elements : List Json} (some : elements ≠ [])
    (reads : ∀ element ∈ elements, element.Reads) (level outer : Nat) {budget : Nat}
    (enough : (lines level (elements.map (chars level))).length + 1 < budget) (rest : List Char) :
    readValue.readElements budget
        (lines level (elements.map (chars level)) ++ ((newLine outer).toList ++ ']' :: rest)) =
      .some (elements.map sorted, rest) := by
  induction elements generalizing budget with
  | nil => exact absurd rfl some
  | cons first others ih =>
      have readsFirst := reads first List.mem_cons_self
      cases budget with
      | zero => exact absurd enough (Nat.not_lt_zero _)
      | succ budget =>
          cases others with
          | nil =>
              rw [List.map_singleton, lines, List.intercalate_singleton] at enough ⊢
              rw [readElements_chars readsFirst level (by omega) (endsNumber_newLine outer _),
                skipBlanks_append (isBlank_newLine outer), skipBlanks_cons (by decide)]
              rfl
          | cons second others =>
              rw [List.map_cons, List.map_cons, lines_cons_cons, ← List.map_cons] at enough ⊢
              rw [List.length_append, List.length_cons, List.length_append] at enough
              obtain ⟨_, _, starts, _⟩ := readsFirst.starts level
              have long : 0 < (first.chars level).length :=
                List.length_pos_of_ne_nil (starts ▸ List.cons_ne_nil _ _)
              have enoughLater : (lines level ((second :: others).map (chars level))).length + 1 < budget := by
                omega
              have later := ih (List.cons_ne_nil _ _)
                (fun element listed => reads element (List.mem_cons_of_mem _ listed)) enoughLater
              rw [List.append_assoc, List.cons_append, List.append_assoc,
                readElements_chars readsFirst level (by omega) (endsNumber_comma _), skipBlanks_cons (by decide)]
              simp only [readElements_append (isBlank_newLine level), later]
              rfl

/-- The text of a member of an object whose members stand at a level. -/
def memberChars (level : Nat) (member : String × Json) : List Char :=
  '"' :: (member.1.toList.flatMap escapeChar ++ '"' :: ':' :: ' ' :: member.2.chars level)

theorem toList_member (level : Nat) (member : String × Json) :
    (quote member.1 ++ ": " ++ member.2.prettyAt level).toList = memberChars level member := by
  simp [quote, memberChars, chars, String.toList_append]

/-- The first steps of reading members: the name, the colon and the value of the first one. -/
theorem readMembers_memberChars {member : String × Json} (reads : member.2.Reads) (level : Nat) {budget : Nat}
    (enough : (memberChars level member).length < budget + 1) {rest : List Char} (ends : EndsNumber rest) :
    readValue.readMembers (budget + 1) (memberChars level member ++ rest) =
      match skipBlanks rest with
      | ',' :: rest =>
          (readValue.readMembers budget rest).map fun (members, rest) =>
            ((member.1, member.2.sorted) :: members, rest)
      | '\x7d' :: rest => some ([(member.1, member.2.sorted)], rest)
      | _ => none := by
  have gap : ∀ char ∈ [' '], isBlank char = true := List.forall_mem_singleton.mpr rfl
  have shorter : (member.2.chars level).length < budget := by
    simp only [memberChars, List.length_cons, List.length_append] at enough
    omega
  have read := reads.read level budget rest shorter ends
  rw [← readValue_append gap] at read
  have quoted := readString_escapes member.1.toList (':' :: ' ' :: (member.2.chars level ++ rest))
  rw [readValue.readMembers, memberChars, List.cons_append, List.append_assoc,
    skipBlanks_cons (show isBlank '"' = false by decide)]
  simp only [List.cons_append, quoted, Option.bind_eq_bind, Option.bind_some, String.ofList_toList,
    skipBlanks_cons (show isBlank ':' = false by decide)]
  rw [List.singleton_append] at read
  rw [read]
  rfl

theorem readMembers_lines {members : List (String × Json)} (some : members ≠ [])
    (reads : ∀ member ∈ members, member.2.Reads) (level outer : Nat) {budget : Nat}
    (enough : (lines level (members.map (memberChars level))).length + 1 < budget) (rest : List Char) :
    readValue.readMembers budget
        (lines level (members.map (memberChars level)) ++ ((newLine outer).toList ++ '\x7d' :: rest)) =
      .some (members.map fun (name, value) => (name, value.sorted), rest) := by
  induction members generalizing budget with
  | nil => exact absurd rfl some
  | cons first others ih =>
      have readsFirst := reads first List.mem_cons_self
      cases budget with
      | zero => exact absurd enough (Nat.not_lt_zero _)
      | succ budget =>
          cases others with
          | nil =>
              rw [List.map_singleton, lines, List.intercalate_singleton] at enough ⊢
              rw [readMembers_memberChars readsFirst level (by omega) (endsNumber_newLine outer _),
                skipBlanks_append (isBlank_newLine outer), skipBlanks_cons (by decide)]
              rfl
          | cons second others =>
              rw [List.map_cons, List.map_cons, lines_cons_cons, ← List.map_cons] at enough ⊢
              rw [List.length_append, List.length_cons, List.length_append] at enough
              have long : 0 < (memberChars level first).length := Nat.succ_pos _
              have enoughLater : (lines level ((second :: others).map (memberChars level))).length + 1 <
                  budget := by omega
              have later := ih (List.cons_ne_nil _ _)
                (fun member listed => reads member (List.mem_cons_of_mem _ listed)) enoughLater
              rw [List.append_assoc, List.cons_append, List.append_assoc,
                readMembers_memberChars readsFirst level (by omega) (endsNumber_comma _),
                skipBlanks_cons (by decide)]
              simp only [readMembers_append (isBlank_newLine level), later]
              rfl

/-- It is enough to read a value after its first character. -/
theorem Reads.of_first {json : Json} {first : Char} {others : Nat → List Char}
    (text : ∀ level, json.chars level = first :: others level) (dark : isBlank first = false) (noEnd : first ≠ ']')
    (read : ∀ level budget rest, (others level).length < budget → EndsNumber rest →
      readValue (budget + 1) (first :: (others level ++ rest)) = some (json.sorted, rest)) : Reads json where
  starts level := ⟨first, _, text level, dark, noEnd⟩
  read level budget rest enough ends := by
    rw [text, List.length_cons] at enough
    cases budget with
    | zero => exact absurd enough (Nat.not_lt_zero _)
    | succ budget =>
        rw [text, List.cons_append]
        exact read level budget rest (Nat.lt_of_succ_lt_succ enough) ends

theorem chars_null (level : Nat) : null.chars level = ['n', 'u', 'l', 'l'] := by
  simp [chars, prettyAt, compact]

theorem reads_null : Reads null := by
  refine Reads.of_first chars_null (by decide) (by decide) fun level budget rest _ _ => ?_
  rw [readValue, skipBlanks_cons (by decide)]
  rfl

theorem chars_false (level : Nat) : (bool false).chars level = ['f', 'a', 'l', 's', 'e'] := by
  simp [chars, prettyAt, compact]

theorem chars_true (level : Nat) : (bool true).chars level = ['t', 'r', 'u', 'e'] := by
  simp [chars, prettyAt, compact]

theorem reads_bool (value : Bool) : Reads (bool value) := by
  cases value with
  | false =>
      refine Reads.of_first chars_false (by decide) (by decide) fun level budget rest _ _ => ?_
      rw [readValue, skipBlanks_cons (by decide)]
      rfl
  | true =>
      refine Reads.of_first chars_true (by decide) (by decide) fun level budget rest _ _ => ?_
      rw [readValue, skipBlanks_cons (by decide)]
      rfl

theorem chars_string (level : Nat) (text : String) :
    (string text).chars level = '"' :: (text.toList.flatMap escapeChar ++ ['"']) := by
  simp [chars, prettyAt, compact, quote, String.toList_append]

theorem reads_string (text : String) : Reads (string text) := by
  have written (level : Nat) := chars_string level text
  refine Reads.of_first written (by decide) (by decide) fun level budget rest _ _ => ?_
  rw [List.append_assoc, readValue, skipBlanks_cons (by decide)]
  simp only [List.singleton_append, readString_escapes, Option.map_some, String.ofList_toList]
  rfl

theorem chars_natural (level value : Nat) : (natural value).chars level = Nat.toDigits 10 value := by
  rw [chars, prettyAt, compact, Nat.toString_eq_ofList_toDigits, String.toList_ofList]
  · intro elements same
    cases same
  · intro members same
    cases same

theorem reads_natural {value : Nat} (small : value < 0x10000000000000000) : Reads (natural value) := by
  cases digits : Nat.toDigits 10 value with
  | nil => exact absurd digits Nat.toDigits_ne_nil
  | cons first others =>
      have digit : first.isDigit = true :=
        Nat.isDigit_of_mem_toDigits (by decide) (by decide) (digits ▸ List.mem_cons_self)
      have other {char : Char} (noDigit : char.isDigit = false) : first ≠ char := by
        rintro rfl
        cases digit.symm.trans noDigit
      have dark : isBlank first = false := by
        simp [isBlank, other (show ' '.isDigit = false by decide), other (show '\n'.isDigit = false by decide),
          other (show '\r'.isDigit = false by decide), other (show '\t'.isDigit = false by decide)]
      have text (level : Nat) : (natural value).chars level = first :: others :=
        (chars_natural level value).trans digits
      refine Reads.of_first text dark (other (by decide)) fun level budget rest _ ends => ?_
      have number := readNumber_toDigits small ends
      rw [digits, List.cons_append] at number
      rw [readValue, skipBlanks_cons dark]
      split
      case h_7 => exact number
      all_goals
        next same => exact absurd (List.cons.inj same).1 (other (by decide))

theorem reads_array_nil : Reads (array []) := by
  have text (level : Nat) : (array []).chars level = ['[', ']'] := (chars_array level []).trans (by simp [block])
  refine Reads.of_first text (by decide) (by decide) fun level budget rest _ _ => ?_
  rw [readValue, List.singleton_append, skipBlanks_cons (by decide)]
  simp only [skipBlanks_cons (show isBlank ']' = false by decide)]
  rfl

theorem reads_array_cons {first : Json} {others : List Json} (all : ∀ element ∈ first :: others, element.Reads) :
    Reads (array (first :: others)) := by
  have text (level : Nat) : (array (first :: others)).chars level =
      '[' :: ((newLine (level + 1)).toList ++
        (lines (level + 1) ((first :: others).map (chars (level + 1))) ++ ((newLine level).toList ++ [']']))) := by
    rw [chars_array, toList_block _ _ _ (mt List.map_eq_nil_iff.mp (List.cons_ne_nil _ _)), List.map_map]
    rfl
  refine Reads.of_first text (by decide) (by decide) fun level budget rest enough _ => ?_
  simp only [List.length_append, List.length_singleton] at enough
  have elements := readElements_lines (List.cons_ne_nil first others) all (level + 1) level
    (show (lines (level + 1) ((first :: others).map (chars (level + 1)))).length + 1 < budget by omega) rest
  -- The list is not taken for an empty one, since the first element starts with something else than a bracket.
  obtain ⟨head, tail, starts, dark, noEnd⟩ := (all first List.mem_cons_self).starts (level + 1)
  obtain ⟨more, joined⟩ := exists_lines_eq (level + 1) (first.chars (level + 1)) (others.map (chars (level + 1)))
  rw [readValue, skipBlanks_cons (by decide)]
  simp only [List.append_assoc, skipBlanks_append (isBlank_newLine (level + 1)), List.singleton_append]
  rw [List.map_cons, joined, starts] at elements ⊢
  simp only [List.append_assoc, List.cons_append, skipBlanks_cons dark] at elements ⊢
  split
  · next same => exact absurd (List.cons.inj same).1 noEnd
  · rw [elements, sorted_array]
    rfl

theorem reads_object_nil : Reads (object []) := by
  have text (level : Nat) : (object []).chars level = ['\x7b', '\x7d'] :=
    (chars_object level []).trans (by simp [block])
  refine Reads.of_first text (by decide) (by decide) fun level budget rest _ _ => ?_
  rw [readValue, List.singleton_append, skipBlanks_cons (by decide)]
  simp only [skipBlanks_cons (show isBlank '\x7d' = false by decide)]
  rfl

theorem reads_object_cons {first : String × Json} {others : List (String × Json)}
    (all : ∀ member ∈ first :: others, member.2.Reads) : Reads (object (first :: others)) := by
  have text (level : Nat) : (object (first :: others)).chars level =
      '\x7b' :: ((newLine (level + 1)).toList ++
        (lines (level + 1) ((first :: others).map (memberChars (level + 1))) ++
          ((newLine level).toList ++ ['\x7d']))) := by
    have items : String.toList ∘ (fun (name, value) => quote name ++ ": " ++ value.prettyAt (level + 1)) =
        memberChars (level + 1) := funext (toList_member (level + 1))
    rw [chars_object, toList_block _ _ _ (mt List.map_eq_nil_iff.mp (List.cons_ne_nil _ _)), List.map_map, items]
    rfl
  refine Reads.of_first text (by decide) (by decide) fun level budget rest enough _ => ?_
  simp only [List.length_append, List.length_singleton] at enough
  have members := readMembers_lines (List.cons_ne_nil first others) all (level + 1) level
    (show (lines (level + 1) ((first :: others).map (memberChars (level + 1)))).length + 1 < budget by omega) rest
  -- The record is not taken for an empty one, since the first member starts with a quotation mark.
  obtain ⟨more, joined⟩ := exists_lines_eq (level + 1) (memberChars (level + 1) first)
    (others.map (memberChars (level + 1)))
  rw [readValue, skipBlanks_cons (by decide)]
  simp only [List.append_assoc, skipBlanks_append (isBlank_newLine (level + 1)), List.singleton_append]
  rw [List.map_cons, joined, memberChars] at members ⊢
  simp only [List.append_assoc, List.cons_append, skipBlanks_cons (show isBlank '"' = false by decide)]
    at members ⊢
  split
  · next same => exact absurd (List.cons.inj same).1 (by decide)
  · rw [members, sorted_object]
    rfl

theorem reads_array {elements : List Json} (all : ∀ element ∈ elements, element.Reads) :
    Reads (array elements) := by
  cases elements with
  | nil => exact reads_array_nil
  | cons first others => exact reads_array_cons all

theorem reads_object {members : List (String × Json)} (all : ∀ member ∈ members, member.2.Reads) :
    Reads (object members) := by
  cases members with
  | nil => exact reads_object_nil
  | cons first others => exact reads_object_cons all

theorem Proper.reads {json : Json} (proper : json.Proper) : json.Reads := by
  induction proper with
  | null => exact reads_null
  | bool value => exact reads_bool value
  | natural small => exact reads_natural small
  | string text => exact reads_string text
  | array all ih => exact reads_array ih
  | object names all ih => exact reads_object ih

/-- The text of a value and a line feed are read as the value, with the members of its objects in order. -/
theorem read?_pretty {json : Json} (proper : json.Proper) : read? (json.pretty ++ "\n") = some json.sorted := by
  have text : (json.pretty ++ "\n").toList = json.chars 0 ++ (newLine 0).toList := by
    rw [String.toList_append]
    rfl
  have read := proper.reads.read 0 (2 * (json.chars 0 ++ (newLine 0).toList).length + 1) (newLine 0).toList
    (by rw [List.length_append]; omega) (List.append_nil (newLine 0).toList ▸ endsNumber_newLine 0 [])
  rw [read?, text]
  simp only [read, Option.bind_eq_bind, Option.bind_some]
  exact if_pos (List.append_nil (newLine 0).toList ▸ skipBlanks_append (isBlank_newLine 0) [])

end ApiDocs.Json
