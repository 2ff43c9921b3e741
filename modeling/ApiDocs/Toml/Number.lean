import ApiDocs.Toml
import ApiDocs.Toml.Lexeme

/-!
# Numbers, dates and times of TOML

An underscore may stand between two digits of a number.  Integers have 64 bits with a sign.  Of
floating-point numbers, dates and times only the form is checked.
-/

namespace ApiDocs.Toml

/-- The rest of a digit sequence: digits, and underscores right before digits. -/
def moreDigits (isDigit : Char → Bool) : List Char → List Char × List Char
  | '_' :: char :: rest =>
      if isDigit char then
        let (digits, behind) := moreDigits isDigit rest
        (char :: digits, behind)
      else ([], '_' :: char :: rest)
  | char :: rest =>
      if isDigit char then
        let (digits, behind) := moreDigits isDigit rest
        (char :: digits, behind)
      else ([], char :: rest)
  | [] => ([], [])

/-- A digit sequence that starts with a digit, without its underscores. -/
def digits? (isDigit : Char → Bool) : List Char → Option (List Char × List Char)
  | char :: rest =>
      if isDigit char then
        let (digits, behind) := moreDigits isDigit rest
        some (char :: digits, behind)
      else none
  | [] => none

def valueOf (base : Nat) (digits : List Char) : Nat :=
  digits.foldl (fun value digit => base * value + (digitValue? digit).getD 0) 0

/-- An integer that fits in 64 bits with a sign. -/
def bounded? (value : Int) : Option Toml :=
  if -0x8000000000000000 ≤ value ∧ value < 0x8000000000000000 then some (integer value) else none

/-- An integer in another base than ten. -/
def prefixed? (base : Nat) (text : List Char) : Option (Toml × List Char) := do
  let isDigit := fun char => (digitValue? char).any (· < base)
  let (digits, rest) ← digits? isDigit text
  return (← bounded? (valueOf base digits), rest)

def splitSign : List Char → Bool × List Char
  | '+' :: rest => (false, rest)
  | '-' :: rest => (true, rest)
  | text => (false, text)

/-- The whole part of a decimal number, which starts with a zero only if it is zero. -/
def whole? (text : List Char) : Option (List Char × List Char) :=
  match text with
  | '0' :: rest => some (['0'], rest)
  | _ => digits? Char.isDigit text

/-- The text behind a fraction or an exponent, if one stands here. -/
def skipFraction? (text : List Char) : Option (List Char) :=
  let exponent := fun (text : List Char) => match text with
    | mark :: rest =>
        if mark = 'e' ∨ mark = 'E' then (digits? Char.isDigit (splitSign rest).2).map Prod.snd else none
    | [] => none
  match text with
  | '.' :: rest => do
      let (_, behind) ← digits? Char.isDigit rest
      return (exponent behind).getD behind
  | _ => exponent text

/-- A decimal integer or a floating-point number. -/
def decimal? (text : List Char) : Option (Toml × List Char) := do
  let (isNegative, unsigned) := splitSign text
  match unsigned with
  | 'i' :: 'n' :: 'f' :: rest => return (scalar, rest)
  | 'n' :: 'a' :: 'n' :: rest => return (scalar, rest)
  | _ =>
      let (digits, rest) ← whole? unsigned
      match skipFraction? rest with
      | some rest => return (scalar, rest)
      | none =>
          let value : Int := valueOf 10 digits
          return (← bounded? (if isNegative then -value else value), rest)

/-- A number of a given count of digits within bounds. -/
def fixed? (count low high : Nat) (text : List Char) : Option (Nat × List Char) :=
  let digits := text.take count
  let value := valueOf 10 digits
  if digits.length = count ∧ digits.all Char.isDigit ∧ low ≤ value ∧ value ≤ high then
    some (value, text.drop count)
  else none

/-- The text behind a character that has to stand here. -/
def behind? (char : Char) : List Char → Option (List Char)
  | first :: rest => if first = char then some rest else none
  | [] => none

def isLeapYear (year : Nat) : Bool :=
  year % 4 = 0 && (year % 100 ≠ 0 || year % 400 = 0)

def daysIn (year month : Nat) : Nat :=
  if month = 2 then (if isLeapYear year then 29 else 28)
  else if month = 4 ∨ month = 6 ∨ month = 9 ∨ month = 11 then 30
  else 31

/-- The text behind a date. -/
def skipDate? (text : List Char) : Option (List Char) := do
  let (year, rest) ← fixed? 4 0 9999 text
  let (month, rest) ← fixed? 2 1 12 (← behind? '-' rest)
  let (_, rest) ← fixed? 2 1 (daysIn year month) (← behind? '-' rest)
  return rest

/-- The text behind a time of day. -/
def skipTime? (text : List Char) : Option (List Char) := do
  let (_, rest) ← fixed? 2 0 23 text
  let (_, rest) ← fixed? 2 0 59 (← behind? ':' rest)
  let (_, rest) ← fixed? 2 0 60 (← behind? ':' rest)
  match rest with
  | '.' :: fraction =>
      let digits := fraction.takeWhile Char.isDigit
      if digits = [] then none else return fraction.drop digits.length
  | rest => return rest

/-- The text behind the distance from universal time, if one stands here. -/
def skipOffset? (text : List Char) : Option (List Char) :=
  match text with
  | mark :: rest =>
      if mark = 'Z' ∨ mark = 'z' then some rest
      else if mark = '+' ∨ mark = '-' then do
        let (_, rest) ← fixed? 2 0 23 rest
        let (_, rest) ← fixed? 2 0 59 (← behind? ':' rest)
        return rest
      else some text
  | [] => some text

/-- The text behind a date, a time of day or both. -/
def skipMoment? (text : List Char) : Option (List Char) :=
  match skipDate? text with
  | some rest =>
      match rest with
      | mark :: time =>
          if mark = 'T' ∨ mark = 't' then (skipTime? time).bind skipOffset?
          else if mark = ' ' then
            match skipTime? time with
            | some behind => skipOffset? behind
            | none => some rest
          else some rest
      | [] => some rest
  | none => skipTime? text

/-- A number, a date or a time. -/
def number (text : List Char) : Option (Toml × List Char) :=
  match skipMoment? text with
  | some rest => some (scalar, rest)
  | none =>
      match text with
      | '0' :: 'x' :: rest => prefixed? 16 rest
      | '0' :: 'o' :: rest => prefixed? 8 rest
      | '0' :: 'b' :: rest => prefixed? 2 rest
      | text => decimal? text

end ApiDocs.Toml
