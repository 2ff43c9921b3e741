import ApiDocs.Json

/-!
# Records and variants in JSON

A record is an object with a member for each field, or the array of its fields in order.  One of several
variants is its name, or an object whose single member has that name.
-/

namespace ApiDocs.Json

/-- The member of a name; a missing one reads as null. -/
def member (name : String) (members : List (String × Json)) : Json :=
  (members.lookup name).getD null

/-- The values of a record's fields. -/
def record? (names : List String) : Json → Option (List Json)
  | object members => some (names.map fun name => member name members)
  | array elements => if elements.length = names.length then some elements else none
  | _ => none

/-- The name of a variant and, if it is written with one, its content. -/
def variant? : Json → Option (String × Option Json)
  | string name => some (name, none)
  | object [(name, content)] => some (name, some content)
  | _ => none

/-- The name of a variant that has no content: alone or with null. -/
def unitVariant? (value : Json) : Option String := do
  match ← variant? value with
  | (name, none) => some name
  | (name, some null) => some name
  | _ => none

/-- The name of a variant in a member of its record, or its place among the names. -/
def tag? (names : List String) : Json → Option String
  | string name => some name
  | natural place => names[place]?
  | _ => none

/-- The variant of a record that names it in a member, or in its first element, and the record. -/
def tagged? (key : String) (names : List String) : Json → Option (String × Json)
  | object members => do
      let name ← tag? names (member key members)
      return (name, object members)
  | array (first :: rest) => do
      let name ← tag? names first
      return (name, array rest)
  | _ => none

def string? : Json → Option String
  | string text => some text
  | _ => none

def bool? : Json → Option Bool
  | bool value => some value
  | _ => none

/-- A natural number below 2^64. -/
def natural? : Json → Option Nat
  | natural value => if value < 0x10000000000000000 then some value else none
  | _ => none

def list? {α : Type} (decode : Json → Option α) : Json → Option (List α)
  | array elements => elements.mapM decode
  | _ => none

def strings? : Json → Option (List String) :=
  list? string?

/-- A value that may be null. -/
def optional? {α : Type} (decode : Json → Option α) : Json → Option (Option α)
  | null => some none
  | value => (decode value).map some

end ApiDocs.Json
