/-!
# JSON values

A JSON value keeps the members of an object in the order in which they are written.  Whole numbers without
a sign are values; any other number is its literal.
-/

namespace ApiDocs

inductive Json where
  | null
  | bool (value : Bool)
  | natural (value : Nat)
  | number (literal : String)
  | string (text : String)
  | array (elements : List Json)
  | object (members : List (String × Json))

namespace Json

/-- A value that may be absent is written as itself or as null. -/
def ofOption {α : Type} (encode : α → Json) : Option α → Json
  | some value => encode value
  | none => null

def ofList {α : Type} (encode : α → Json) (values : List α) : Json :=
  array (values.map encode)

def strings (texts : List String) : Json :=
  ofList string texts

/-- How deeply arrays and objects nest in a value. -/
def depth : Json → Nat
  | array elements => depths elements + 1
  | object members => memberDepths members + 1
  | _ => 0
where
  depths : List Json → Nat
    | [] => 0
    | first :: rest => max first.depth (depths rest)
  memberDepths : List (String × Json) → Nat
    | [] => 0
    | (_, value) :: rest => max value.depth (memberDepths rest)

end Json

end ApiDocs
