import ApiDocs.Proofs.Declaration.Relabelling
import ApiDocs.Proofs.SyntaxTree.Spliced

/-!
# Members of type declarations

A class has one member for each declaration in its body, in the order of the source, and one field for each component
in its header.
-/

/-- Items that have an image, and their images. -/
theorem List.forall₂_filter_filterMap {α β : Type} {related : α → β → Prop} {items : List α} {keep : α → Bool}
    {image? : α → Option β} (kept : ∀ item, (image? item).isSome = keep item)
    (all : ∀ item ∈ items, ∀ image, image? item = some image → related item image) :
    List.Forall₂ related (items.filter keep) (items.filterMap image?) := by
  induction items with
  | nil => exact .nil
  | cons first rest ih =>
      have later := ih fun item held => all item (List.mem_cons_of_mem _ held)
      rw [List.filter_cons, ← kept first]
      rcases made : image? first with _ | image
      · simpa [made] using later
      · rw [List.filterMap_cons_some made]
        exact .cons (all first List.mem_cons_self image made) later

/-- Picking among the images of items, if there is at most one to pick for each. -/
theorem List.filterMap_flatMap_eq {α β γ : Type} {images : α → List β} {pick : β → Option γ} {image? : α → Option γ}
    (picked : ∀ item, (images item).filterMap pick = (image? item).toList) (items : List α) :
    (items.flatMap images).filterMap pick = items.filterMap image? := by
  rw [List.filterMap_flatMap, List.filterMap_eq_flatMap_toList]
  exact List.flatMap_congr fun item _ => picked item

namespace ApiDocs

namespace SyntaxNode

/-- A method, or an element of an annotation type, has a name and a type. -/
def declaresMethod (node : SyntaxNode) : Bool :=
  ["method_declaration", "annotation_type_element_declaration"].contains node.kind && node.name?.isSome &&
    (node.child? "type").isSome

def declaresConstructor (node : SyntaxNode) : Bool :=
  ["constructor_declaration", "compact_constructor_declaration"].contains node.kind && node.name?.isSome

def declaresClass (node : SyntaxNode) : Bool :=
  node.isTypeDeclaration && node.name?.isSome

/-- What a field is made of. -/
inductive FieldSource where
  /-- A component in the header of a record. -/
  | component (declared : ParameterDeclaration)
  /-- One declarator of a field declaration. -/
  | declarator (place : Placed) (declarator : SyntaxNode)
  | enumConstant (place : Placed)

def FieldSource.name? : FieldSource → Option String
  | .component declared => some declared.name
  | .declarator _ inner => inner.name?
  | .enumConstant place => place.node.name?

namespace Placed

/-- One field for each named declarator of a declaration with a type, and one for each named constant of an enum. -/
def fieldSources (place : Placed) : List FieldSource :=
  if ["field_declaration", "constant_declaration"].contains place.node.kind then
    match place.node.child? "type" with
    | none => []
    | some _ =>
        ((place.node.childrenIn "declarator").filter fun declarator => declarator.name?.isSome).map
          (.declarator place)
  else if place.node.kind = "enum_constant" ∧ place.node.name?.isSome then [.enumConstant place]
  else []

/-- The fields of a class: those of the header first. -/
def fields (place : Placed) : List FieldSource :=
  place.node.components.map .component ++ place.members.flatMap fieldSources

def methods (place : Placed) : List Placed :=
  place.members.filter fun member => member.node.declaresMethod

def constructors (place : Placed) : List Placed :=
  place.members.filter fun member => member.node.declaresConstructor

def innerClasses (place : Placed) : List Placed :=
  place.members.filter fun member => member.node.declaresClass

end Placed

end SyntaxNode

open SyntaxNode

/-- What methods and constructors of a class take from their node. -/
structure MethodDeclaration.ReadFrom (owner : String) (place : Placed) (declared : MethodDeclaration) : Prop where
  name : place.node.name? = some declared.name
  containingClass : declared.containingClass = some owner
  modifiers : declared.modifiers = place.node.modifiers?
  docComment : declared.docComment = docComment? place.preceding
  typeParameters : declared.typeParameters = place.node.typeParameters

structure MethodDeclaration.IsMethod (owner : String) (place : Placed) (declared : MethodDeclaration) : Prop
    extends MethodDeclaration.ReadFrom owner place declared where
  isConstructor : declared.isConstructor = false
  returnType : ∃ type, place.node.child? "type" = some type ∧
    declared.returnType = some (withDimensions type.type (place.node.child? "dimensions"))
  parameters : declared.parameters = place.node.parameters

structure MethodDeclaration.IsConstructor (owner : String) (components : List ParameterDeclaration)
    (place : Placed) (declared : MethodDeclaration) : Prop
    extends MethodDeclaration.ReadFrom owner place declared where
  isConstructor : declared.isConstructor = true
  returnType : declared.returnType = none
  /-- A compact constructor takes the components in the header. -/
  parameters : declared.parameters =
    if place.node.kind = "compact_constructor_declaration" then components else place.node.parameters

/-- What a field takes from its source; declarators of one declaration share its modifiers and doc comment. -/
inductive FieldDeclaration.ReadFrom (owner : String) : FieldSource → FieldDeclaration → Prop where
  | component (declared : ParameterDeclaration) :
      ReadFrom owner (.component declared)
        ⟨declared.name, some owner, some ["private", "final"], none, declared.type⟩
  | declarator {place : Placed} {declarator type : SyntaxNode} {name : String}
      (typed : place.node.child? "type" = some type) (named : declarator.name? = some name) :
      ReadFrom owner (.declarator place declarator)
        ⟨name, some owner, place.node.modifiers?, docComment? place.preceding,
          withDimensions type.type (declarator.child? "dimensions")⟩
  | enumConstant {place : Placed} {name : String} (named : place.node.name? = some name) :
      ReadFrom owner (.enumConstant place)
        ⟨name, some owner, place.node.modifiers?, docComment? place.preceding, .named owner []⟩

/-- A class is read from a type declaration: its members are those of the body, each once and in order, at every
depth. -/
inductive ClassDeclaration.ReadFrom : Placed → ClassDeclaration → Prop where
  | intro {place : Placed} {declared : ClassDeclaration}
      (name : place.node.name? = some declared.name)
      (modifiers : declared.modifiers = place.node.modifiers?)
      (docComment : declared.docComment = docComment? place.preceding)
      (fields : List.Forall₂ (FieldDeclaration.ReadFrom declared.name) place.fields declared.fields)
      (methods : List.Forall₂ (MethodDeclaration.IsMethod declared.name) place.methods declared.methods)
      (constructors : List.Forall₂ (MethodDeclaration.IsConstructor declared.name place.node.components)
        place.constructors declared.constructors)
      (innerClasses : List.Forall₂ ReadFrom place.innerClasses declared.innerClasses) :
      ReadFrom place declared

namespace SyntaxNode

variable {owner : String} {components : List ParameterDeclaration} {place : Placed}

/-- The kinds of type declarations are apart from those of other members. -/
theorem kind_not_mem_of_isTypeDeclaration {node : SyntaxNode} {kinds : List String} (isType : node.isTypeDeclaration)
    (apart : ∀ kind ∈ typeDeclarationKinds, kind ∉ kinds) : ¬ kinds.contains node.kind := by
  intro listed
  exact apart _ (List.contains_iff_mem.mp isType) (List.contains_iff_mem.mp listed)

theorem isSome_method? (owner : String) (preceding : List SyntaxNode) (node : SyntaxNode) :
    (node.method? owner preceding).isSome = (node.name?.isSome && (node.child? "type").isSome) := by
  unfold method?
  cases node.name? <;> cases node.child? "type" <;> rfl

theorem isSome_constructor? (preceding : List SyntaxNode) (node : SyntaxNode) :
    (node.constructor? owner preceding components).isSome = node.name?.isSome := by
  unfold constructor?
  cases node.name? <;> rfl

theorem isSome_class? (preceding : List SyntaxNode) (node : SyntaxNode) :
    (node.class? preceding).isSome = node.name?.isSome := by
  rw [class?_eq ⟨preceding, node⟩, Option.isSome_map]

theorem isMethod_of_method? {declared : MethodDeclaration}
    (made : place.node.method? owner place.preceding = some declared) : declared.IsMethod owner place := by
  simp only [method?, Option.bind_eq_bind, Option.bind_eq_some_iff] at made
  obtain ⟨name, named, type, typed, made⟩ := made
  cases made
  exact ⟨⟨named, rfl, rfl, rfl, rfl⟩, rfl, ⟨type, typed, rfl⟩, rfl⟩

theorem constructor_of_constructor? {declared : MethodDeclaration} {parameters : List ParameterDeclaration}
    (made : place.node.constructor? owner place.preceding parameters = some declared) :
    declared.ReadFrom owner place ∧ declared.isConstructor = true ∧ declared.returnType = none ∧
      declared.parameters = parameters := by
  simp only [constructor?, Option.bind_eq_bind, Option.bind_eq_some_iff] at made
  obtain ⟨name, named, made⟩ := made
  cases made
  exact ⟨⟨named, rfl, rfl, rfl, rfl⟩, rfl, rfl, rfl⟩

/-- A field declaration makes the fields of its declarators, none if it has no type. -/
theorem forall₂_fields : List.Forall₂ (FieldDeclaration.ReadFrom owner)
    (match place.node.child? "type" with
      | none => []
      | some _ =>
          ((place.node.childrenIn "declarator").filter fun declarator => declarator.name?.isSome).map
            (FieldSource.declarator place))
    (place.node.fields owner place.preceding) := by
  unfold SyntaxNode.fields
  rcases typed : place.node.child? "type" with _ | type
  · exact .nil
  · rw [List.forall₂_map_left_iff]
    apply List.forall₂_filter_filterMap
    · intro declarator
      cases declarator.name? <;> rfl
    · intro declarator _ declared made
      simp only [Option.bind_eq_bind, Option.bind_eq_some_iff] at made
      obtain ⟨name, named, made⟩ := made
      cases made
      exact .declarator typed named

namespace Placed

/-- The method that a node in a body makes. -/
def method? (owner : String) (place : Placed) : Option MethodDeclaration :=
  if ["method_declaration", "annotation_type_element_declaration"].contains place.node.kind then
    place.node.method? owner place.preceding
  else none

def constructor? (owner : String) (components : List ParameterDeclaration) (place : Placed) :
    Option MethodDeclaration :=
  if ["constructor_declaration", "compact_constructor_declaration"].contains place.node.kind then
    place.node.constructor? owner place.preceding
      (if place.node.kind = "compact_constructor_declaration" then components else place.node.parameters)
  else none

def class? (place : Placed) : Option ClassDeclaration :=
  if place.node.isTypeDeclaration then place.node.class? place.preceding else none

theorem images_methods (owner : String) (components : List ParameterDeclaration) (place : Placed) :
    (place.images owner components).filterMap Member.method? = (place.method? owner).toList := by
  unfold images method?
  split
  · next isType =>
      rw [if_neg (kind_not_mem_of_isTypeDeclaration isType (by decide))]
      cases place.node.class? place.preceding <;> rfl
  · unfold simpleMembers
    -- The kind of the node is known in each case, which decides about the other side.
    split <;> simp_all [Member.method?]
    all_goals cases place.node.method? owner place.preceding <;> rfl

theorem images_constructors (owner : String) (components : List ParameterDeclaration) (place : Placed) :
    (place.images owner components).filterMap Member.constructor? =
      (place.constructor? owner components).toList := by
  unfold images constructor?
  split
  · next isType =>
      rw [if_neg (kind_not_mem_of_isTypeDeclaration isType (by decide))]
      cases place.node.class? place.preceding <;> rfl
  · unfold simpleMembers
    split <;> simp_all [Member.constructor?]
    all_goals cases SyntaxNode.constructor? _ _ _ _ <;> rfl

theorem images_innerClasses (owner : String) (components : List ParameterDeclaration) (place : Placed) :
    (place.images owner components).filterMap Member.inner? = place.class?.toList := by
  unfold images class?
  split
  · cases place.node.class? place.preceding <;> rfl
  · unfold simpleMembers
    split <;> simp_all [Member.inner?]

theorem images_fields (owner : String) (components : List ParameterDeclaration) (place : Placed) :
    (place.images owner components).filterMap Member.field? =
      if ["field_declaration", "constant_declaration"].contains place.node.kind then
        place.node.fields owner place.preceding
      else if place.node.kind = "enum_constant" then (place.node.enumConstant? owner place.preceding).toList
      else [] := by
  have picksAll : Member.field? ∘ Member.field = some := rfl
  unfold images
  split
  · next isType =>
      rw [if_neg (kind_not_mem_of_isTypeDeclaration isType (by decide))]
      have noConstant : place.node.kind ≠ "enum_constant" := by
        intro isConstant
        simp [isTypeDeclaration, typeDeclarationKinds, isConstant] at isType
      rw [if_neg noConstant]
      cases place.node.class? place.preceding <;> rfl
  · unfold simpleMembers
    split <;> simp_all [Member.field?]
    all_goals cases place.node.enumConstant? owner place.preceding <;> rfl

theorem forall₂_fieldSources (owner : String) (components : List ParameterDeclaration) (place : Placed) :
    List.Forall₂ (FieldDeclaration.ReadFrom owner) place.fieldSources
      ((place.images owner components).filterMap Member.field?) := by
  rw [images_fields, fieldSources]
  split
  · exact forall₂_fields
  · by_cases isConstant : place.node.kind = "enum_constant"
    · rcases named : place.node.name? with _ | name
      · simp [isConstant, enumConstant?, named]
      · simpa [isConstant, enumConstant?, named] using .enumConstant named
    · simp [isConstant]

theorem isSome_method? (place : Placed) : (place.method? owner).isSome = place.node.declaresMethod := by
  rw [method?, declaresMethod, Bool.and_assoc, ← SyntaxNode.isSome_method? owner place.preceding]
  split <;> simp_all

theorem isSome_constructor? (place : Placed) :
    (place.constructor? owner components).isSome = place.node.declaresConstructor := by
  rw [constructor?, declaresConstructor]
  split <;> simp_all [SyntaxNode.isSome_constructor?]

theorem isSome_class? (place : Placed) : place.class?.isSome = place.node.declaresClass := by
  rw [class?, declaresClass]
  split <;> simp_all [SyntaxNode.isSome_class?]

theorem isMethod_of_method? {declared : MethodDeclaration} (made : place.method? owner = some declared) :
    declared.IsMethod owner place := by
  rw [method?, Option.ite_none_right_eq_some] at made
  exact SyntaxNode.isMethod_of_method? made.2

theorem isConstructor_of_constructor? {declared : MethodDeclaration}
    (made : place.constructor? owner components = some declared) :
    declared.IsConstructor owner components place := by
  rw [constructor?, Option.ite_none_right_eq_some] at made
  obtain ⟨read, isConstructor, returnType, parameters⟩ := constructor_of_constructor? made.2
  exact ⟨read, isConstructor, returnType, parameters⟩

end Placed

/-- A class that is made of a type declaration is read from it. -/
theorem readFrom_class? {declared : ClassDeclaration} (made : place.node.class? place.preceding = some declared) :
    declared.ReadFrom place := by
  induction place using Placed.members_induction generalizing declared with
  | step place ih =>
      rw [class?_eq, Option.map_eq_some_iff] at made
      obtain ⟨name, named, rfl⟩ := made
      -- Each list of the class picks one sort of member among the images of the places in the body.
      refine .intro named rfl rfl ?fields ?methods ?constructors ?innerClasses
      case fields =>
        apply List.rel_append
        · rw [List.forall₂_map_left_iff]
          exact List.forall₂_map_right_self fun component _ => .component component
        · rw [List.filterMap_flatMap]
          apply List.rel_flatMap (List.forall₂_same.mpr fun _ _ => rfl)
          rintro member _ rfl
          exact member.forall₂_fieldSources name place.node.components
      case methods =>
        unfold classWith Placed.methods
        rw [List.filterMap_flatMap_eq (Placed.images_methods name place.node.components)]
        exact List.forall₂_filter_filterMap Placed.isSome_method? fun _ _ _ => Placed.isMethod_of_method?
      case constructors =>
        unfold classWith Placed.constructors
        rw [List.filterMap_flatMap_eq (Placed.images_constructors name place.node.components)]
        exact List.forall₂_filter_filterMap Placed.isSome_constructor? fun _ _ _ => Placed.isConstructor_of_constructor?
      case innerClasses =>
        unfold classWith Placed.innerClasses
        rw [List.filterMap_flatMap_eq (Placed.images_innerClasses name place.node.components)]
        apply List.forall₂_filter_filterMap Placed.isSome_class?
        intro member listed inner made
        rw [Placed.class?, Option.ite_none_right_eq_some] at made
        exact ih member listed made.2

end SyntaxNode

end ApiDocs
