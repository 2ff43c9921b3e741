import ApiDocs.ClassName

/-!
# Java types

A type as it is written in a declaration.  Every reference to a class also carries what its name was found
to mean.
-/

namespace ApiDocs

/-- What the name in a class reference means. -/
inductive Resolution where
  | unresolved
  /-- A type variable of an enclosing method or class. -/
  | typeParameter
  | classNamed (name : ClassName)
deriving DecidableEq

namespace Resolution

def qualifiedName? : Resolution → Option String
  | classNamed name => some name.dotted
  | unresolved => none
  | typeParameter => none

end Resolution

inductive JavaType where
  /-- A keyword type such as `int` or `void`. -/
  | primitive (name : String)
  /-- A class by its name as written, the last segment of that name, and its type arguments. -/
  | reference (written className : String) (arguments : List JavaType) (resolution : Resolution)
  | array (element : JavaType)
  /-- The type `T...` of a parameter that takes any number of arguments. -/
  | variadic (element : JavaType)
  /-- The wildcard `?` without a bound. -/
  | wildcard
  | wildcardExtends (bound : JavaType)
  | wildcardSuper (bound : JavaType)

namespace JavaType

/-- The segment behind the last dot of a written name. -/
def lastSegment (written : String) : String :=
  (Text.fields '.' written).getLastD written

/-- A reference whose name still waits to be resolved. -/
def named (written : String) (arguments : List JavaType) : JavaType :=
  .reference written (lastSegment written) arguments .unresolved

/-- The dotted name of the class found for a reference, else its name as written. -/
def referenceName (written : String) (resolution : Resolution) : String :=
  resolution.qualifiedName?.getD written

/-- The fully expanded text of a type, the form in which it tells callables apart. -/
def canonicalText : JavaType → String
  | primitive name => name
  | reference written _ arguments resolution =>
      let base := referenceName written resolution
      match arguments with
      | [] => base
      | first :: rest => base ++ "<" ++ String.intercalate "," (canonicalTexts (first :: rest)) ++ ">"
  | array element => canonicalText element ++ "[]"
  | variadic element => canonicalText element ++ "..."
  | wildcard => "?"
  | wildcardExtends bound => "? extends " ++ canonicalText bound
  | wildcardSuper bound => "? super " ++ canonicalText bound
where
  canonicalTexts : List JavaType → List String
    | [] => []
    | first :: rest => canonicalText first :: canonicalTexts rest

theorem canonicalTexts_eq_map (types : List JavaType) :
    canonicalText.canonicalTexts types = types.map canonicalText := by
  induction types with
  | nil => rfl
  | cons first rest ih => rw [canonicalText.canonicalTexts, ih, List.map_cons]

/-- The text of a reference is its name, and its type arguments in brackets if there are any. -/
theorem canonicalText_reference (written className : String) (arguments : List JavaType) (resolution : Resolution) :
    (reference written className arguments resolution).canonicalText =
      referenceName written resolution ++
        if arguments = [] then "" else "<" ++ String.intercalate "," (arguments.map canonicalText) ++ ">" := by
  cases arguments with
  | nil => rw [canonicalText, if_pos rfl, String.append_empty]
  | cons first rest =>
      rw [canonicalText, if_neg (List.cons_ne_nil _ _), canonicalTexts_eq_map, String.append_assoc,
        String.append_assoc, String.append_assoc]

/-- A type and every type inside it, an outer type before its parts. -/
def occurrences : JavaType → List JavaType
  | primitive name => [primitive name]
  | reference written className arguments resolution =>
      reference written className arguments resolution :: inAll arguments
  | array element => array element :: occurrences element
  | variadic element => variadic element :: occurrences element
  | wildcard => [wildcard]
  | wildcardExtends bound => wildcardExtends bound :: occurrences bound
  | wildcardSuper bound => wildcardSuper bound :: occurrences bound
where
  inAll : List JavaType → List JavaType
    | [] => []
    | first :: rest => occurrences first ++ inAll rest

/-- Resolve every class reference in a type by its written name. -/
def resolve (meaning : String → Resolution) : JavaType → JavaType
  | primitive name => primitive name
  | reference written className arguments _ =>
      reference written className (resolveAll arguments) (meaning written)
  | array element => array (resolve meaning element)
  | variadic element => variadic (resolve meaning element)
  | wildcard => wildcard
  | wildcardExtends bound => wildcardExtends (resolve meaning bound)
  | wildcardSuper bound => wildcardSuper (resolve meaning bound)
where
  resolveAll : List JavaType → List JavaType
    | [] => []
    | first :: rest => resolve meaning first :: resolveAll rest

/-- What the elements of an array of any depth are in the end. -/
def innermost : JavaType → JavaType
  | array element => innermost element
  | type => type

def isReference : JavaType → Bool
  | reference _ _ _ _ => true
  | _ => false

end JavaType

end ApiDocs
