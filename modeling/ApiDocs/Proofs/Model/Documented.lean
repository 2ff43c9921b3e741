import ApiDocs.Model
import ApiDocs.Proofs.Addressed

/-!
# The model as a tree of declarations

Packages, classes, functions and properties are nodes of one tree here, and what each of them holds is
a list of members for each kind of member.  A path names the lists and addresses that lead from a module to
a declaration.
-/

namespace ApiDocs

inductive DeclarationKind where
  | package
  | classlike
  | function
  | property
deriving DecidableEq

/-- The lists in which declarations hold further declarations. -/
inductive MemberKind where
  | constructor
  | function
  | property
  | classlike
  | accessor
deriving DecidableEq

namespace MemberKind

theorem forall_iff {holds : MemberKind → Prop} :
    (∀ list, holds list) ↔ holds constructor ∧ holds function ∧ holds property ∧ holds classlike ∧
      holds accessor := by
  constructor
  · intro all
    exact ⟨all _, all _, all _, all _, all _⟩
  · rintro ⟨first, second, third, fourth, fifth⟩ list
    cases list <;> assumption

/-- The kind of the declarations in a list of members. -/
def declarationKind : MemberKind → DeclarationKind
  | constructor | function | accessor => .function
  | property => .property
  | classlike => .classlike

end MemberKind

/-- A declaration of the documentation model. -/
inductive Documented where
  | package (declared : Package)
  | classlike (declared : Class)
  | function (declared : Function)
  | property (declared : Property)

/--
The place of a declaration in a module: the address of its package, and then the list and the address of
each member on the way.
-/
structure DeclarationPath where
  package : Address
  steps : List (MemberKind × Address)
deriving DecidableEq

namespace DeclarationKind

/-- The type of the declarations of a kind. -/
def Held : DeclarationKind → Type
  | package => Package
  | classlike => Class
  | function => Function
  | property => Property

/-- The kind of the declarations to which steps lead from one of a kind. -/
def along : DeclarationKind → List (MemberKind × Address) → DeclarationKind
  | kind, [] => kind
  | _, (list, _) :: rest => along list.declarationKind rest

end DeclarationKind

namespace DeclarationPath

/-- The kind of the declarations at a path. -/
def kind (path : DeclarationPath) : DeclarationKind :=
  DeclarationKind.package.along path.steps

end DeclarationPath

namespace Documented

def kind : Documented → DeclarationKind
  | package _ => .package
  | classlike _ => .classlike
  | function _ => .function
  | property _ => .property

def address : Documented → Address
  | package declared => declared.address
  | classlike declared => declared.address
  | function declared => declared.address
  | property declared => declared.address

/-- The declaration of a kind that is made from a value of its type. -/
def ofKind : (kind : DeclarationKind) → kind.Held → Documented
  | .package => package
  | .classlike => classlike
  | .function => function
  | .property => property

/-- The members that a declaration holds in one of its lists. -/
def members : Documented → MemberKind → List Documented
  | package declared, .function => declared.functions.map function
  | package declared, .property => declared.properties.map property
  | package declared, .classlike => declared.classes.map classlike
  | classlike declared, .constructor => declared.constructors.map function
  | classlike declared, .function => declared.functions.map function
  | classlike declared, .property => declared.properties.map property
  | classlike declared, .classlike => declared.classes.map classlike
  | property declared, .accessor => declared.accessors.map function
  | _, _ => []

/-- The addresses of the members in a list. -/
def memberAddresses (declared : Documented) (list : MemberKind) : List Address :=
  (declared.members list).map address

/-- A declaration with nothing left in its lists. -/
def withoutMembers : Documented → Documented
  | package declared => package { declared with functions := [], properties := [], classes := [] }
  | classlike declared =>
      classlike { declared with constructors := [], functions := [], properties := [], classes := [] }
  | function declared => function declared
  | property declared => property { declared with accessors := [] }

/-- The declarations to which steps lead from a declaration. -/
def along : Documented → List (MemberKind × Address) → List Documented
  | declared, [] => [declared]
  | declared, (list, target) :: rest =>
      (itemsAt address target (declared.members list)).flatMap fun member => member.along rest

/-- A declaration and all below it have a property. -/
inductive Everywhere (holds : Documented → Prop) : Documented → Prop where
  | intro {declared : Documented} (here : holds declared)
      (below : ∀ list, ∀ member ∈ declared.members list, Everywhere holds member) :
      Everywhere holds declared

/-- No address is repeated inside a list of members. -/
def DistinctMembers (declared : Documented) : Prop :=
  ∀ list, (declared.memberAddresses list).Nodup

theorem exists_ofKind {kind : DeclarationKind} {declared : Documented} (here : declared.kind = kind) :
    ∃ held, ofKind kind held = declared := by
  subst here
  cases declared <;> exact ⟨_, rfl⟩

theorem kind_of_mem_members {declared member : Documented} {list : MemberKind}
    (found : member ∈ declared.members list) : member.kind = list.declarationKind := by
  cases declared <;> cases list <;>
    simp only [members, List.mem_map, List.not_mem_nil] at found <;>
    obtain ⟨_, _, rfl⟩ := found <;> rfl

/-- Members of several declarations are held by some of them. -/
theorem exists_holder {declarations : List Documented} {list : MemberKind} {target : Address}
    {member : Documented}
    (inside : member ∈
      itemsAt address target (declarations.flatMap fun declared => declared.members list)) :
    ∃ declared ∈ declarations, member ∈ declared.members list :=
  List.mem_flatMap.mp (mem_itemsAt.mp inside).1

theorem kind_of_mem_along {declared reached : Documented} {steps : List (MemberKind × Address)}
    (found : reached ∈ declared.along steps) : reached.kind = declared.kind.along steps := by
  induction steps generalizing declared with
  | nil =>
      rw [List.mem_singleton.mp found]
      rfl
  | cons step rest ih =>
      obtain ⟨member, held, later⟩ := List.mem_flatMap.mp found
      rw [ih later, kind_of_mem_members (mem_itemsAt.mp held).1]
      rfl

/-- A member is smaller than the declaration that holds it. -/
theorem sizeOf_lt_of_mem_members {declared member : Documented} {list : MemberKind}
    (found : member ∈ declared.members list) : sizeOf member < sizeOf declared := by
  cases declared <;> cases list <;>
    simp only [members, List.mem_map, List.not_mem_nil] at found
  all_goals
    obtain ⟨held, inside, rfl⟩ := found
    have smaller := List.sizeOf_lt_of_mem inside
    next declared => cases declared; simp_all; omega

/-- Declarations with the same data and the same members are the same. -/
theorem eq_of_members_eq {first second : Documented}
    (data : first.withoutMembers = second.withoutMembers)
    (same : ∀ list, first.members list = second.members list) : first = second := by
  have functionsEqual {one other : List Function} (equal : one.map function = other.map function) :
      one = other := List.map_injective_iff.mpr (fun _ _ => function.inj) equal
  have propertiesEqual {one other : List Property} (equal : one.map property = other.map property) :
      one = other := List.map_injective_iff.mpr (fun _ _ => property.inj) equal
  have classesEqual {one other : List Class} (equal : one.map classlike = other.map classlike) :
      one = other := List.map_injective_iff.mpr (fun _ _ => classlike.inj) equal
  cases first <;> cases second <;> simp only [withoutMembers, reduceCtorEq] at data
  case package.package first second =>
    have functions := functionsEqual (same .function)
    have properties := propertiesEqual (same .property)
    have classes := classesEqual (same .classlike)
    cases first
    cases second
    simp_all
  case classlike.classlike first second =>
    have constructors := functionsEqual (same .constructor)
    have functions := functionsEqual (same .function)
    have properties := propertiesEqual (same .property)
    have classes := classesEqual (same .classlike)
    cases first
    cases second
    simp_all
  case function.function => exact data
  case property.property first second =>
    have accessors := functionsEqual (same .accessor)
    cases first
    cases second
    simp_all

namespace Everywhere

variable {holds : Documented → Prop} {declared : Documented}

theorem here (everywhere : declared.Everywhere holds) : holds declared := by
  cases everywhere with
  | intro here below => exact here

theorem of_mem (everywhere : declared.Everywhere holds) {list : MemberKind} {member : Documented}
    (found : member ∈ declared.members list) : member.Everywhere holds := by
  cases everywhere with
  | intro here below => exact below list member found

theorem iff_members : declared.Everywhere holds ↔
    holds declared ∧ ∀ list, ∀ member ∈ declared.members list, member.Everywhere holds :=
  ⟨fun everywhere => ⟨everywhere.here, fun _ _ => everywhere.of_mem⟩, fun both => .intro both.1 both.2⟩

theorem function_iff {declared : Function} :
    (function declared).Everywhere holds ↔ holds (function declared) := by
  rw [iff_members, MemberKind.forall_iff]
  simp [members]

theorem property_iff {declared : Property} :
    (property declared).Everywhere holds ↔ holds (property declared) ∧
      ∀ accessor ∈ declared.accessors, holds (function accessor) := by
  rw [iff_members, MemberKind.forall_iff]
  simp [members, function_iff]

/-- Said of the fields of a class, so that it can be rewritten with at every depth. -/
theorem classlike_iff {address : Address} {name : String} {kind : ClassKind}
    {constructors functions : List Function} {properties : List Property} {classes : List Class}
    {expected : Option ClassInfo} {actual : List ClassInfo} {extra : SortedSet String}
    {visibility : VisibilityMap} :
    let declared : Class := ⟨address, name, kind, constructors, functions, properties, classes, expected,
      actual, extra, visibility⟩
    (classlike declared).Everywhere holds ↔ holds (classlike declared) ∧
      (∀ constructor ∈ constructors, holds (function constructor)) ∧
      (∀ method ∈ functions, holds (function method)) ∧
      (∀ field ∈ properties, (property field).Everywhere holds) ∧
      ∀ inner ∈ classes, (classlike inner).Everywhere holds := by
  intro declared
  rw [iff_members, MemberKind.forall_iff]
  simp [declared, members, function_iff]

theorem package_iff {declared : Package} :
    (package declared).Everywhere holds ↔ holds (package declared) ∧
      (∀ method ∈ declared.functions, holds (function method)) ∧
      (∀ field ∈ declared.properties, (property field).Everywhere holds) ∧
      ∀ inner ∈ declared.classes, (classlike inner).Everywhere holds := by
  rw [iff_members, MemberKind.forall_iff]
  simp [members, function_iff]

theorem imp {weaker : Documented → Prop} (everywhere : declared.Everywhere holds)
    (gives : ∀ {declared}, holds declared → weaker declared) : declared.Everywhere weaker := by
  induction everywhere with
  | intro here below ih => exact .intro (gives here) ih

/-- Two properties that hold everywhere give what they imply together. -/
theorem combine {first second : Documented → Prop} (both : ∀ {declared}, first declared → second declared →
    holds declared) (left : declared.Everywhere first) (right : declared.Everywhere second) :
    declared.Everywhere holds := by
  induction left with
  | intro here below ih =>
      exact .intro (both here right.here) fun list member found =>
        ih list member found (right.of_mem found)

/-- Whatever steps lead to has the property as well. -/
theorem of_along (everywhere : declared.Everywhere holds) {steps : List (MemberKind × Address)}
    {reached : Documented} (found : reached ∈ declared.along steps) : reached.Everywhere holds := by
  induction steps generalizing declared with
  | nil =>
      rw [List.mem_singleton.mp found]
      exact everywhere
  | cons step rest ih =>
      obtain ⟨member, held, later⟩ := List.mem_flatMap.mp found
      exact ih (everywhere.of_mem (mem_itemsAt.mp held).1) later

end Everywhere

/-- A property of whatever steps lead to holds everywhere. -/
theorem everywhere_of_along {holds : Documented → Prop} (declared : Documented)
    (reached : ∀ steps, ∀ below ∈ declared.along steps, holds below) :
    declared.Everywhere holds := by
  refine .intro (reached [] declared (List.mem_singleton_self _)) fun list member found => ?_
  refine everywhere_of_along member fun steps below later => ?_
  refine reached ((list, member.address) :: steps) below (List.mem_flatMap.mpr ?_)
  exact ⟨member, mem_itemsAt.mpr ⟨found, rfl⟩, later⟩
termination_by sizeOf declared
decreasing_by exact sizeOf_lt_of_mem_members found

end Documented

namespace Module

/-- The declarations at a path of a module, in order. -/
def occurrences (module : Module) (path : DeclarationPath) : List Documented :=
  (itemsAt Documented.address path.package (module.packages.map .package)).flatMap fun package =>
    package.along path.steps

theorem kind_of_mem_occurrences {module : Module} {path : DeclarationPath} {declared : Documented}
    (found : declared ∈ module.occurrences path) : declared.kind = path.kind := by
  obtain ⟨package, held, later⟩ := List.mem_flatMap.mp found
  obtain ⟨package, listed, rfl⟩ := List.mem_map.mp (mem_itemsAt.mp held).1
  exact Documented.kind_of_mem_along later

/-- All declarations of a module have a property. -/
def Everywhere (holds : Documented → Prop) (module : Module) : Prop :=
  ∀ package ∈ module.packages, (Documented.package package).Everywhere holds

theorem Everywhere.of_mem_occurrences {holds : Documented → Prop} {module : Module}
    (everywhere : module.Everywhere holds) {path : DeclarationPath} {declared : Documented}
    (found : declared ∈ module.occurrences path) : declared.Everywhere holds := by
  obtain ⟨package, held, later⟩ := List.mem_flatMap.mp found
  obtain ⟨package, listed, rfl⟩ := List.mem_map.mp (mem_itemsAt.mp held).1
  exact (everywhere package listed).of_along later

/-- A property holds everywhere if and only if it holds at every path. -/
theorem everywhere_iff {holds : Documented → Prop} {module : Module} :
    module.Everywhere holds ↔ ∀ path, ∀ declared ∈ module.occurrences path, holds declared := by
  constructor
  · intro everywhere path declared found
    exact (everywhere.of_mem_occurrences found).here
  · intro reached package listed
    refine Documented.everywhere_of_along _ fun steps declared later => ?_
    refine reached ⟨package.address, steps⟩ declared (List.mem_flatMap.mpr ?_)
    exact ⟨.package package, mem_itemsAt.mpr ⟨List.mem_map_of_mem listed, rfl⟩, later⟩

end Module

end ApiDocs
