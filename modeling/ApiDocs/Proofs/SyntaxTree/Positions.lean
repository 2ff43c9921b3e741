import ApiDocs.Proofs.SyntaxTree.Documented

/-!
# Positions in syntax trees

A node of a tree has a position: its number among its siblings, behind the numbers of the nodes around it.  The members
that are read from a tree stand at positions in it, each with the siblings that it has there.
-/

namespace ApiDocs.SyntaxNode

/-- A child among its siblings. -/
def Placed.child? (place : Placed) (index : Nat) : Option Placed :=
  place.node.children[index]?.map fun child => ⟨(place.node.children.take index).reverse, child⟩

/-- The node at a position below a node, whose own position is empty. -/
def Placed.below? (place : Placed) : List Nat → Option Placed
  | [] => some place
  | index :: rest => (place.child? index).bind fun child => child.below? rest

/-- The node at a position in a tree, among its siblings. -/
def placeAt? (root : SyntaxNode) (position : List Nat) : Option Placed :=
  (⟨[], root⟩ : Placed).below? position

def nodeAt? (root : SyntaxNode) (position : List Nat) : Option SyntaxNode :=
  (root.placeAt? position).map Placed.node

namespace Placed

theorem below?_append (place : Placed) (first second : List Nat) :
    place.below? (first ++ second) = (place.below? first).bind fun inner => inner.below? second := by
  induction first generalizing place with
  | nil => rfl
  | cons index rest ih =>
      rw [List.cons_append, below?, below?, Option.bind_assoc]
      exact Option.bind_congr fun child _ => ih child

/-- A child behind some of its siblings is the one with their number. -/
theorem child?_length {outer : Placed} {front rest : List SyntaxNode} {node : SyntaxNode}
    (siblings : outer.node.children = front ++ node :: rest) :
    outer.child? front.length = some ⟨front.reverse, node⟩ := by
  rw [child?, siblings, List.getElem?_append_right (Nat.le_refl _), Nat.sub_self, List.take_left]
  rfl

/-- A node stands below another one. -/
def IsBelow (place outer : Placed) : Prop :=
  ∃ position, outer.below? position = some place

theorem isBelow_child {outer place : Placed} {index : Nat} (found : outer.child? index = some place) :
    place.IsBelow outer :=
  ⟨[index], by rw [below?, found]; rfl⟩

theorem IsBelow.trans {inner place outer : Placed} (inside : inner.IsBelow place) (below : place.IsBelow outer) :
    inner.IsBelow outer := by
  obtain ⟨rest, found⟩ := inside
  obtain ⟨position, reached⟩ := below
  exact ⟨position ++ rest, by rw [below?_append, reached, Option.bind_some, found]⟩

end Placed

/-- Children among their siblings stand below their parent. -/
theorem isBelow_of_mem_placed {outer : Placed} {nodes : List SyntaxNode} (front : List SyntaxNode)
    (siblings : outer.node.children = front ++ nodes) : ∀ place ∈ placed front.reverse nodes, place.IsBelow outer := by
  induction nodes generalizing front with
  | nil => exact nofun
  | cons first rest ih =>
      rw [placed]
      refine List.forall_mem_cons.mpr ⟨Placed.isBelow_child (Placed.child?_length siblings), ?_⟩
      have regrouped : outer.node.children = (front ++ [first]) ++ rest := by rw [siblings]; simp
      simpa using ih (front ++ [first]) regrouped

/-- What nodes stand for is below their parent, if what each of them stands for is below it. -/
theorem isBelow_of_mem_inAll {outer : Placed} {nodes : List SyntaxNode} (front : List SyntaxNode)
    (siblings : outer.node.children = front ++ nodes)
    (each : ∀ node ∈ nodes, ∀ preceding, ∀ place ∈ spliced preceding node, place.IsBelow ⟨preceding, node⟩) :
    ∀ place ∈ spliced.inAll front.reverse nodes, place.IsBelow outer := by
  induction nodes generalizing front with
  | nil => exact nofun
  | cons first rest ih =>
      obtain ⟨onFirst, onRest⟩ := List.forall_mem_cons.mp each
      rw [spliced.inAll]
      intro place listed
      rcases List.mem_append.mp listed with here | later
      · exact (onFirst _ place here).trans (Placed.isBelow_child (Placed.child?_length siblings))
      · have regrouped : outer.node.children = (front ++ [first]) ++ rest := by rw [siblings]; simp
        have reversed : (front ++ [first]).reverse = first :: front.reverse := by simp
        rw [← reversed] at later
        exact ih (front ++ [first]) regrouped onRest place later

theorem isBelow_of_mem_spliced (preceding : List SyntaxNode) (node : SyntaxNode) :
    ∀ place ∈ spliced preceding node, place.IsBelow ⟨preceding, node⟩ := by
  induction node using nested_induction generalizing preceding with
  | step node ih =>
      rw [spliced_eq]
      split
      · exact nofun
      · split
        · exact isBelow_of_mem_inAll [] rfl ih
        · intro place listed
          rw [List.mem_singleton.mp listed]
          exact ⟨[], rfl⟩

namespace Placed

theorem isBelow_of_mem_members {outer member : Placed} (listed : member ∈ outer.members) : member.IsBelow outer := by
  unfold members at listed
  split at listed
  next => cases listed
  next body found =>
    obtain ⟨front, rest, siblings⟩ := List.append_of_mem (List.mem_of_find?_eq_some found)
    have inBody : member.IsBelow ⟨front.reverse, body⟩ :=
      isBelow_of_mem_inAll [] rfl (fun node _ preceding => isBelow_of_mem_spliced preceding node) member listed
    exact inBody.trans (isBelow_child (child?_length siblings))

/-- A declaration is another one or a member of it, at any depth. -/
inductive Holds : Placed → Placed → Prop where
  | self (place : Placed) : Holds place place
  | inside {outer member place : Placed} (listed : member ∈ outer.members) (later : Holds member place) :
      Holds outer place

theorem Holds.isBelow {outer place : Placed} (holds : outer.Holds place) : place.IsBelow outer := by
  induction holds with
  | self place => exact ⟨[], rfl⟩
  | inside listed _ ih => exact ih.trans (isBelow_of_mem_members listed)

end Placed

/-- Every declaration that is read from a tree stands at a position in it, with its siblings there before it. -/
theorem exists_placeAt?_of_holds {root : SyntaxNode} {outermost place : Placed}
    (listed : outermost ∈ root.outermostClasses) (holds : outermost.Holds place) :
    ∃ position, root.placeAt? position = some place := by
  have inRoot : outermost.IsBelow ⟨[], root⟩ :=
    isBelow_of_mem_placed [] rfl outermost (List.mem_of_mem_filter listed)
  exact holds.isBelow.trans inRoot

end ApiDocs.SyntaxNode
