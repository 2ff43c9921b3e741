/-!
# Addresses of declarations

An address says where a declaration stands: its package, the chain of classes around it, the callable and
the parameter it means.  It is made of names and of the texts of parameter types alone, so that two
readings of the same sources agree on it.
-/

namespace ApiDocs

/-- A reference to a Java class by the text of its type. -/
structure TypeReference where
  name : String
deriving DecidableEq, Ord

/-- A method, constructor or field of a class, told from its namesakes by its parameter types. -/
structure Callable where
  name : String
  receiver : Option TypeReference
  parameters : List TypeReference
deriving DecidableEq, Ord

/--
The address of a declaration.  The target is 0 for the declaration itself and `n` for the `n`-th parameter
of its callable.  Addresses are ordered field by field, an absent field before a present one.
-/
structure Address where
  packageName : Option String
  classNames : Option String
  callable : Option Callable
  target : Nat
  extra : Option String
deriving DecidableEq, Ord

namespace Callable

/-- The text of the receiver, then every parameter type behind a `#`; a lone `#` when there is none. -/
def signature (callable : Callable) : String :=
  let receiver := (callable.receiver.map TypeReference.name).getD ""
  let parameters := callable.parameters.map fun parameter => "#" ++ parameter.name
  receiver ++ if parameters.isEmpty then "#" else String.join parameters

end Callable

namespace Address

def ofPackage (packageName : String) : Address :=
  ⟨some packageName, none, none, 0, none⟩

def ofClass (packageName classNames : String) : Address :=
  { ofPackage packageName with classNames := some classNames }

/-- The address of a class declared directly inside the class or package at this address. -/
def inClass (address : Address) (name : String) : Address :=
  { packageName := address.packageName
    classNames := some <| match address.classNames with
      | some outer => outer ++ "." ++ name
      | none => name
    callable := none
    target := 0
    extra := address.extra }

def withCallable (address : Address) (callable : Callable) : Address :=
  { address with callable := some callable }

def withTarget (address : Address) (target : Nat) : Address :=
  { address with target }

/-- The six parts of an address, absent ones as nothing, between slashes. -/
def display (address : Address) : String :=
  String.intercalate "/"
    [address.packageName.getD "",
     address.classNames.getD "",
     (address.callable.map Callable.name).getD "",
     (address.callable.map Callable.signature).getD "",
     toString address.target,
     address.extra.getD ""]

end Address

end ApiDocs
