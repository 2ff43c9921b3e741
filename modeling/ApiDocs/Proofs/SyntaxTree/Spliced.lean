import ApiDocs.SyntaxTree.Declarations

/-!
# Bodies of type declarations

The declarations in the body of a class, each among its siblings.  Those behind the constants of an enum count where
they stand, however deep they are listed.  The members of a class are the images of these declarations.
-/

namespace ApiDocs.SyntaxNode

/-- A node among its siblings. -/
structure Placed where
  /-- The siblings before the node, nearest first. -/
  preceding : List SyntaxNode
  node : SyntaxNode

/-- A named node stands for itself, a list of declarations behind the constants of an enum for what is in it. -/
def spliced (preceding : List SyntaxNode) : SyntaxNode → List Placed
  | ⟨kind, field, isNamed, isExtra, text, children⟩ =>
      if !isNamed then []
      else if kind = "enum_body_declarations" then inAll [] children
      else [⟨preceding, ⟨kind, field, isNamed, isExtra, text, children⟩⟩]
where
  inAll (preceding : List SyntaxNode) : List SyntaxNode → List Placed
    | [] => []
    | first :: rest => spliced preceding first ++ inAll (first :: preceding) rest

/-- The named children of the body, with lists of declarations behind enum constants spliced in. -/
def Placed.members (place : Placed) : List Placed :=
  match place.node.child? "body" with
  | none => []
  | some body => spliced.inAll [] body.children

theorem sizeOf_child_lt (node : SyntaxNode) {child : SyntaxNode} (held : child ∈ node.children) :
    sizeOf child < sizeOf node := by
  have smaller := List.sizeOf_lt_of_mem held
  cases node
  simp_all
  omega

/-- What holds of a node as soon as it holds of its children holds of all nodes. -/
@[elab_as_elim]
theorem nested_induction {motive : SyntaxNode → Prop}
    (step : ∀ node : SyntaxNode, (∀ child ∈ node.children, motive child) → motive node)
    (node : SyntaxNode) : motive node :=
  step node fun child _ => nested_induction step child
termination_by sizeOf node
decreasing_by
  next held => exact sizeOf_child_lt node held

/-- What a node stands for, said of its fields. -/
theorem spliced_eq (preceding : List SyntaxNode) (node : SyntaxNode) :
    spliced preceding node =
      if !node.isNamed then []
      else if node.kind = "enum_body_declarations" then spliced.inAll [] node.children
      else [⟨preceding, node⟩] := by
  cases node
  rw [spliced]

/-- A property of all nodes in a list holds of those that these stand for, if it passes on from a node to what is
spliced in for it. -/
theorem spliced.forall_inAll {holds : Placed → Prop} {nodes : List SyntaxNode} (preceding : List SyntaxNode)
    (all : ∀ node ∈ nodes, ∀ preceding, ∀ place ∈ spliced preceding node, holds place) :
    ∀ place ∈ inAll preceding nodes, holds place := by
  induction nodes generalizing preceding with
  | nil => exact fun _ none => nomatch none
  | cons first rest ih =>
      intro place listed
      rw [inAll] at listed
      rcases List.mem_append.mp listed with here | later
      · exact all first List.mem_cons_self preceding place here
      · exact ih _ (fun node held => all node (List.mem_cons_of_mem _ held)) place later

/-- What a node stands for is not above it. -/
theorem sizeOf_spliced_le {preceding : List SyntaxNode} {node : SyntaxNode} {place : Placed}
    (listed : place ∈ spliced preceding node) : sizeOf place.node ≤ sizeOf node := by
  induction node using nested_induction generalizing preceding place with
  | step node ih =>
      rw [spliced_eq] at listed
      split at listed
      · exact nomatch listed
      · split at listed
        · revert place
          apply spliced.forall_inAll
          intro child held preceding place here
          have inChild := ih child held here
          have inNode := sizeOf_child_lt node held
          omega
        · obtain rfl := List.mem_singleton.mp listed
          exact Nat.le_refl _

theorem Placed.sizeOf_member_lt {place member : Placed} (listed : member ∈ place.members) :
    sizeOf member.node < sizeOf place.node := by
  unfold members at listed
  split at listed
  · exact nomatch listed
  · next body found =>
      -- A member lies below a child of the body, which is itself a child.
      have inNode := sizeOf_child_lt place.node (List.mem_of_find?_eq_some found)
      revert member
      apply spliced.forall_inAll
      intro child held preceding member here
      have inChild := sizeOf_spliced_le here
      have inBody := sizeOf_child_lt body held
      omega

/-- What holds of a declaration as soon as it holds of its members holds of all. -/
@[elab_as_elim]
theorem Placed.members_induction {motive : Placed → Prop}
    (step : ∀ place : Placed, (∀ member ∈ place.members, motive member) → motive place)
    (place : Placed) : motive place :=
  step place fun member _ => members_induction step member
termination_by sizeOf place.node
decreasing_by
  next listed => exact sizeOf_member_lt listed

/-- The members that a node in a body makes. -/
def Placed.images (owner : String) (components : List ParameterDeclaration) (place : Placed) : List Member :=
  if place.node.isTypeDeclaration then ((place.node.class? place.preceding).map Member.inner).toList
  else simpleMembers owner components place.preceding place.node

variable {owner : String} {components : List ParameterDeclaration}

theorem members_singleton (preceding : List SyntaxNode) (node : SyntaxNode) :
    class?.members owner components preceding [node] =
      if !node.isNamed then []
      else if node.kind = "enum_body_declarations" then class?.members owner components [] node.children
      else Placed.images owner components ⟨preceding, node⟩ := by
  cases node
  rw [class?.members, class?.members, List.append_nil]
  rfl

theorem members_cons (preceding : List SyntaxNode) (node : SyntaxNode) (rest : List SyntaxNode) :
    class?.members owner components preceding (node :: rest) =
      class?.members owner components preceding [node] ++
        class?.members owner components (node :: preceding) rest := by
  cases node
  rw [class?.members, class?.members, class?.members, List.append_nil]

/-- If each node in a list has the members of the nodes it stands for, so has the list. -/
theorem members_eq_flatMap_of_forall {nodes : List SyntaxNode} (preceding : List SyntaxNode)
    (each : ∀ node ∈ nodes, ∀ preceding, class?.members owner components preceding [node] =
      (spliced preceding node).flatMap (Placed.images owner components)) :
    class?.members owner components preceding nodes =
      (spliced.inAll preceding nodes).flatMap (Placed.images owner components) := by
  induction nodes generalizing preceding with
  | nil => rfl
  | cons first rest ih =>
      rw [members_cons, spliced.inAll, List.flatMap_append, each first List.mem_cons_self,
        ih _ fun node held => each node (List.mem_cons_of_mem _ held)]

/-- The induction is on the node, since lists of declarations may hold further ones. -/
theorem members_singleton_eq_flatMap (preceding : List SyntaxNode) (node : SyntaxNode) :
    class?.members owner components preceding [node] =
      (spliced preceding node).flatMap (Placed.images owner components) := by
  induction node using nested_induction generalizing preceding with
  | step node ih =>
      rw [members_singleton, spliced_eq]
      split
      · rfl
      · split
        · exact members_eq_flatMap_of_forall [] ih
        · rw [List.flatMap_singleton]

/-- The members of a class body, from the first child in that role. -/
theorem bodyMembers_eq (children : List SyntaxNode) :
    class?.bodyMembers owner components children =
      match children.find? fun child => child.field == "body" with
      | none => []
      | some body => class?.members owner components [] body.children := by
  induction children with
  | nil => rfl
  | cons first rest ih =>
      rcases first with ⟨_, field, _, _, _, inner⟩
      rw [class?.bodyMembers, List.find?_cons]
      by_cases isBody : field = "body"
      · rw [if_pos isBody, beq_iff_eq.mpr isBody]
      · rw [if_neg isBody, beq_false_of_ne isBody, ih]

/-- A type declaration makes a class of the images of its members. -/
theorem class?_eq (place : Placed) :
    class? place.preceding place.node = place.node.name?.map fun name =>
      classWith place.node place.preceding name place.node.components
        (place.members.flatMap (Placed.images name place.node.components)) := by
  rcases place with ⟨preceding, node⟩
  have body (name : String) : class?.bodyMembers name node.components node.children =
      (⟨preceding, node⟩ : Placed).members.flatMap (Placed.images name node.components) := by
    rw [bodyMembers_eq, Placed.members, child?]
    cases node.children.find? fun child => child.field == "body" with
    | none => rfl
    | some body =>
        exact members_eq_flatMap_of_forall [] fun child _ preceding => members_singleton_eq_flatMap preceding child
  simp only [← body]
  cases node
  rw [class?]

end ApiDocs.SyntaxNode
