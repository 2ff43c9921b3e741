import ApiDocs.Distinct
import ApiDocs.Model

/-!
# Merging modules

Modules of several passes become one: declarations with one address are merged, at every depth.  What is
kept for each platform is united, and all else is that of the first occurrence.
-/

namespace ApiDocs

/-- Update the first item with the address of a new one, or put the new one behind the items. -/
def absorb {α : Type} (addressOf : α → Address) (item : α) (update : α → α) : List α → List α
  | [] => [item]
  | first :: rest =>
      if addressOf first = addressOf item then update first :: rest
      else first :: absorb addressOf item update rest

/-- Merge items one after the other into those with their addresses. -/
def mergeItems {α : Type} (addressOf : α → Address) (merge : α → α → α)
    (items others : List α) : List α :=
  others.foldl (fun held other => absorb addressOf other (fun item => merge item other) held) items

namespace Parameter

/-- The parameters of two callables, place by place; only the infos are merged. -/
def mergeLists : List Parameter → List Parameter → List Parameter
  | first :: rest, other :: others =>
      { first with actual := extendDistinct first.actual other.actual } :: mergeLists rest others
  | parameters, _ => parameters

end Parameter

namespace Function

def merge (function other : Function) : Function :=
  { function with
    parameters := Parameter.mergeLists function.parameters other.parameters
    expected := function.expected.or other.expected
    actual := extendDistinct function.actual other.actual
    visibility := function.visibility.union other.visibility }

def mergeAll (functions others : List Function) : List Function :=
  mergeItems Function.address merge functions others

end Function

namespace Property

def merge (property other : Property) : Property :=
  { property with
    accessors := Function.mergeAll property.accessors other.accessors
    expected := property.expected.or other.expected
    actual := extendDistinct property.actual other.actual
    visibility := property.visibility.union other.visibility }

def mergeAll (properties others : List Property) : List Property :=
  mergeItems Property.address merge properties others

end Property

namespace Class

/-- Merge a class into one with its address, together with all that they hold. -/
def merge (declared : Class) : Class → Class
  | ⟨_, _, _, constructors, functions, properties, classes, expected, actual, extra, visibility⟩ =>
      { declared with
        constructors := Function.mergeAll declared.constructors constructors
        functions := Function.mergeAll declared.functions functions
        properties := Property.mergeAll declared.properties properties
        classes := mergeAll declared.classes classes
        expected := declared.expected.or expected
        actual := extendDistinct declared.actual actual
        extra := declared.extra.union extra
        visibility := declared.visibility.union visibility }
where
  mergeAll (classes : List Class) : List Class → List Class
    | [] => classes
    | first :: rest =>
        mergeAll (absorb Class.address first (fun declared => merge declared first) classes) rest

end Class

namespace Package

def merge (package other : Package) : Package :=
  { package with
    functions := Function.mergeAll package.functions other.functions
    properties := Property.mergeAll package.properties other.properties
    classes := Class.merge.mergeAll package.classes other.classes }

end Package

namespace Module

/-- Merge all packages of modules and sort the merged ones by name. -/
def merge (name : String) (modules : List Module) : Module :=
  let packages := mergeItems Package.address Package.merge [] (modules.flatMap Module.packages)
  ⟨name, packages.mergeSort fun first second => (compare first.name second.name).isLE⟩

end Module

end ApiDocs
