/-!
# TOML values

A document is a table of values under keys.  Tables are opened by headers, implied by the headers of tables
inside them, opened by dotted keys, or written between braces, and how a table came to be decides what may
still be added to it.
-/

namespace ApiDocs

/-- How a table came to be. -/
inductive TableOrigin where
  | header
  | implied
  | dotted
  | braces
deriving DecidableEq

inductive Toml where
  | string (text : String)
  | integer (value : Int)
  | boolean (value : Bool)
  /-- A floating-point number, a date or a time, of which the value is never asked. -/
  | scalar
  | array (elements : List Toml)
  | table (origin : TableOrigin) (entries : List (String × Toml))
  /-- The tables that headers in double brackets opened one after the other. -/
  | tables (elements : List (List (String × Toml)))

namespace Toml

/-- Put a value under a key instead of the value there. -/
def replace (key : String) (value : Toml) (entries : List (String × Toml)) : List (String × Toml) :=
  entries.map fun (other, held) => if other = key then (other, value) else (other, held)

/-- What is done to a table, given how it came to be; it may be refused. -/
abbrev TableChange := TableOrigin → List (String × Toml) → Option (List (String × Toml))

/--
Change the table that a path leads to, making the tables that are missing.  A path leads into the last of a
list of tables, and never into a table between braces; that of a dotted key does not lead into a table
that has a header.
-/
def changeAt (isDotted : Bool) (change : TableChange) : List String → TableChange
  | [], origin, entries => change origin entries
  | key :: rest, _, entries =>
      match entries.lookup key with
      | none => do
          let origin := if isDotted then TableOrigin.dotted else .implied
          let inner ← changeAt isDotted change rest origin []
          return entries ++ [(key, table origin inner)]
      | some (.table origin held) =>
          if origin = .braces ∨ (isDotted ∧ origin = .header) then none
          else do
            let inner ← changeAt isDotted change rest origin held
            return replace key (table origin inner) entries
      | some (.tables elements) => do
          let inner ← changeAt isDotted change rest .header (← elements.getLast?)
          return replace key (tables (elements.dropLast ++ [inner])) entries
      | some _ => none

/-- Add a value under a key that is not there yet.  Only a dotted key adds to the table of a dotted key. -/
def addValue (isDotted : Bool) (key : String) (value : Toml) : TableChange
  | origin, entries =>
      if (origin = .dotted) ≠ isDotted ∨ (entries.lookup key).isSome then none
      else some (entries ++ [(key, value)])

/-- Add a value under a key that may be dotted. -/
def addAt (path : List String) (value : Toml) : TableChange
  | origin, entries => do
      let key ← path.getLast?
      changeAt true (addValue (path.length > 1) key value) path.dropLast origin entries

/-- Open the table of a header, once. -/
def openTable (key : String) : TableChange
  | _, entries =>
      match entries.lookup key with
      | none => some (entries ++ [(key, table .header [])])
      | some (.table .implied inner) => some (replace key (table .header inner) entries)
      | some _ => none

/-- Open one more table of a list of tables. -/
def openNextTable (key : String) : TableChange
  | _, entries =>
      match entries.lookup key with
      | none => some (entries ++ [(key, tables [[]])])
      | some (.tables elements) => some (replace key (tables (elements ++ [[]])) entries)
      | some _ => none

end Toml

end ApiDocs
