import ApiDocs.Proofs.Except
import ApiDocs.Proofs.Model.Declared
import ApiDocs.Proofs.SyntaxTree.Members

/-!
# Documentation of syntax trees

Each declaration in the body of a class is documented once, in the order of the source.  Resolving the names in it
does not change which declarations there are.
-/

namespace ApiDocs

namespace SyntaxNode

/-- Nodes, each with its siblings before it. -/
def placed (preceding : List SyntaxNode) : List SyntaxNode → List Placed
  | [] => []
  | first :: rest => ⟨preceding, first⟩ :: placed (first :: preceding) rest

/-- The type declarations with a name among the children of a node. -/
def outermostClasses (root : SyntaxNode) : List Placed :=
  (placed [] root.children).filter fun place => place.node.declaresClass

def FieldSource.docComment? : FieldSource → Option String
  | .component _ => none
  | .declarator place _ | .enumConstant place => SyntaxNode.docComment? place.preceding

end SyntaxNode

open SyntaxNode

/-- A documented function stands for a node that declares a method or constructor. -/
structure Function.StandsFor (platform : PlatformData) (isConstructor : Bool) (place : Placed)
    (documented : Function) : Prop where
  name : place.node.name? = documented.address.callable.map Callable.name
  isConstructor : documented.isConstructor = isConstructor
  documentation : documented.actual = [.on platform (.ofComment? (docComment? place.preceding))]

/-- A documented property stands for what makes a field. -/
structure Property.StandsFor (platform : PlatformData) (source : FieldSource) (documented : Property) : Prop where
  name : source.name? = some documented.name
  documentation : documented.actual = [.on platform (.ofComment? source.docComment?)]

/-- A documented class stands for a type declaration: at every depth, each of its members is documented once. -/
inductive Class.StandsFor (platform : PlatformData) : Placed → Class → Prop where
  | intro {place : Placed} {documented : Class}
      (name : place.node.name? = some documented.name)
      (documentation : documented.actual.map ClassInfo.info =
        [.on platform (.ofComment? (docComment? place.preceding))])
      (properties : List.Forall₂ (Property.StandsFor platform) place.fields documented.properties)
      (functions : List.Forall₂ (Function.StandsFor platform false) place.methods documented.functions)
      (constructors : List.Forall₂ (Function.StandsFor platform true) place.constructors documented.constructors)
      (classes : List.Forall₂ (StandsFor platform) place.innerClasses documented.classes) :
      StandsFor platform place documented

variable {platform : PlatformData}

theorem Function.standsFor_ofDeclaration {owner : String} {place : Placed} {declared : MethodDeclaration}
    (read : declared.ReadFrom owner place) (index : ClassIndex) (scope : Scope) (outer : Address)
    (isConstructor : Bool) :
    StandsFor platform isConstructor place
      (ofDeclaration platform outer isConstructor (declared.resolve index scope)) where
  name := read.name
  isConstructor := rfl
  documentation := by
    rw [← read.docComment]
    rfl

theorem Property.standsFor_ofDeclaration {owner : String} {source : FieldSource} {declared : FieldDeclaration}
    (read : declared.ReadFrom owner source) (meaning : String → Resolution) (outer : Address) :
    StandsFor platform source (ofDeclaration platform outer (declared.resolve meaning)) := by
  cases read with
  | component => exact ⟨rfl, rfl⟩
  | declarator _ named => exact ⟨named, rfl⟩
  | enumConstant named => exact ⟨named, rfl⟩

theorem Class.standsFor_ofDeclaration {place : Placed} {declared : ClassDeclaration} (read : declared.ReadFrom place)
    (index : ClassIndex) (scope : Scope) (outer : Address) :
    StandsFor platform place (ofDeclaration platform outer (declared.resolve index scope)) := by
  induction place using Placed.members_induction generalizing declared scope outer with
  | step place ih =>
      obtain ⟨name, modifiers, docComment, fields, methods, constructors, innerClasses⟩ := read
      rw [ClassDeclaration.resolve_eq, ofDeclaration_eq]
      refine .intro name ?documentation ?properties ?functions ?constructors ?classes
      case documentation =>
        rw [← docComment]
        rfl
      case properties =>
        rw [List.forall₂_map_right_iff, List.forall₂_map_right_iff]
        exact fields.imp fun _ _ read => Property.standsFor_ofDeclaration read _ _
      case functions =>
        have noConstructor (method : MethodDeclaration) (held : method ∈ declared.methods) :
            method.isConstructor = false := by
          obtain ⟨_, _, read⟩ := methods.flip.exists_mem held
          exact read.isConstructor
        -- So the filter on methods keeps all of them.
        have unflagged (inside : Scope) : (declared.methods.map (MethodDeclaration.resolve index inside)).filter
            (fun method => !method.isConstructor) = declared.methods.map (MethodDeclaration.resolve index inside) := by
          rw [List.filter_eq_self, List.forall_mem_map]
          intro method held
          rw [MethodDeclaration.resolve, noConstructor method held]
          rfl
        rw [unflagged, List.forall₂_map_right_iff, List.forall₂_map_right_iff]
        exact methods.imp fun _ _ read => Function.standsFor_ofDeclaration read.toReadFrom _ _ _ false
      case constructors =>
        rw [List.forall₂_map_right_iff, List.forall₂_map_right_iff]
        exact constructors.imp fun _ _ read => Function.standsFor_ofDeclaration read.toReadFrom _ _ _ true
      case classes =>
        rw [List.forall₂_map_right_iff, List.forall₂_map_right_iff]
        have below (member : Placed) (listed : member ∈ place.innerClasses) (inner : ClassDeclaration)
            (read : inner.ReadFrom member) (scope : Scope) (outer : Address) :=
          ih member (List.mem_of_mem_filter listed) read scope outer
        exact ((List.forall₂_and_left _ _).mpr ⟨below, innerClasses⟩).imp fun _ inner held => held.1 inner held.2 _ _

namespace SyntaxNode

/-- The classes among nodes, from the places of the nodes. -/
theorem classes_eq_filterMap (preceding : List SyntaxNode) (nodes : List SyntaxNode) :
    classes preceding nodes = (placed preceding nodes).filterMap Placed.class? := by
  induction nodes generalizing preceding with
  | nil => rfl
  | cons first rest ih =>
      rw [classes, placed, ih, List.filterMap_cons, Placed.class?]
      split
      · cases first.class? preceding <;> rfl
      · rfl

end SyntaxNode

namespace SourceFile

/-- The classes of a file are read from the outermost type declarations, in their order. -/
theorem readFrom_ofSyntax (path : String) (root : SyntaxNode) :
    List.Forall₂ ClassDeclaration.ReadFrom root.outermostClasses (ofSyntax path root).classes := by
  have listed : (ofSyntax path root).classes = (placed [] root.children).filterMap Placed.class? :=
    classes_eq_filterMap [] root.children
  rw [listed]
  apply List.forall₂_filter_filterMap Placed.isSome_class?
  intro place _ declared made
  rw [Placed.class?, Option.ite_none_right_eq_some] at made
  exact readFrom_class? made.2

/-- A named node with a text or with children. -/
def sampleNode (kind field text : String) (children : List SyntaxNode) : SyntaxNode :=
  ⟨kind, field, true, false, text, children⟩

/-- The children of a declaration with a name and, as a method or field has it, a type. -/
def sampleName (name : String) : List SyntaxNode :=
  [sampleNode "integral_type" "type" "int" [], sampleNode "identifier" "name" name []]

end SourceFile

end ApiDocs
