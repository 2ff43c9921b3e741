import ApiDocs.Comment
import ApiDocs.Platform
import ApiDocs.SortedMap
import ApiDocs.TypeUsage

/-!
# The documentation model

A module holds packages, a package holds classes, and a class holds constructors, functions, properties and
further classes.  What platforms may disagree on, visibility and documentation, is kept for each platform.
-/

namespace ApiDocs

inductive Visibility where
  | publicAccess
  | protectedAccess
  | privateAccess
deriving DecidableEq

inductive ClassKind where
  | plainClass
  | interfaceType
  | enumType
  | enumEntry
  | annotationType
deriving DecidableEq

/-- Documentation and the platforms it holds for. -/
structure PlatformInfo where
  documentation : Documentation
  platforms : List PlatformData
deriving DecidableEq

/-- Documentation of a class, with the addresses of the classes it extends and implements. -/
structure ClassInfo where
  info : PlatformInfo
  inherited : List Address
deriving DecidableEq

/-- The visibility of a declaration on each platform that has it. -/
abbrev VisibilityMap := SortedMap PlatformData Visibility

structure Parameter where
  address : Address
  name : String
  type : TypeUsage
  expected : Option PlatformInfo
  actual : List PlatformInfo

structure Function where
  address : Address
  /-- Constructors have the name `<init>`. -/
  name : String
  returnType : Option TypeUsage
  isConstructor : Bool
  receiver : Option Parameter
  parameters : List Parameter
  expected : Option PlatformInfo
  actual : List PlatformInfo
  visibility : VisibilityMap

structure Property where
  address : Address
  name : String
  type : Option TypeUsage
  receiver : Option Parameter
  expected : Option PlatformInfo
  actual : List PlatformInfo
  accessors : List Function
  visibility : VisibilityMap

structure Class where
  address : Address
  name : String
  kind : ClassKind
  constructors : List Function
  functions : List Function
  properties : List Property
  classes : List Class
  expected : Option ClassInfo
  actual : List ClassInfo
  /-- The modifiers other than those of visibility. -/
  extra : SortedSet String
  visibility : VisibilityMap

structure Package where
  address : Address
  name : String
  functions : List Function
  properties : List Property
  classes : List Class

structure Module where
  name : String
  packages : List Package

namespace Visibility

def display : Visibility → String
  | publicAccess => "public"
  | protectedAccess => "protected"
  | privateAccess => "private"

end Visibility

namespace ClassKind

def display : ClassKind → String
  | plainClass => "class"
  | interfaceType => "interface"
  | enumType => "enum"
  | enumEntry => "enum entry"
  | annotationType => "annotation"

end ClassKind

end ApiDocs
