import ApiDocs.Proofs.SyntaxTree.Positions

/-!
# Doc comments

The doc comment of a declaration is the last block comment before it, with nothing but line comments between them.  So
no comment is the doc comment of two declarations.
-/

namespace ApiDocs

namespace SyntaxNode

/-- The kinds of nodes that a doc comment can belong to. -/
def declarationKinds : List String :=
  typeDeclarationKinds ++
    ["field_declaration", "constant_declaration", "enum_constant", "method_declaration",
      "annotation_type_element_declaration", "constructor_declaration", "compact_constructor_declaration"]

/-- A declaration stands at a position. -/
def Declares (root : SyntaxNode) (position : List Nat) : Prop :=
  ∃ node, root.nodeAt? position = some node ∧ node.kind ∈ declarationKinds

/-- A block comment among siblings, with nothing but line comments from there to a number. -/
structure IsNearest (siblings : List SyntaxNode) (last first : Nat) (comment : SyntaxNode) : Prop where
  isBefore : first < last
  found : siblings[first]? = some comment
  isBlock : comment.kind = "block_comment"
  between : ∀ index, first < index → index < last →
    ∃ node, siblings[index]? = some node ∧ node.kind = "line_comment"

/-- The doc comment of a declaration: the nearest block comment, if it opens with two stars and is not empty. -/
def Documents (root : SyntaxNode) (comment declaration : List Nat) : Prop :=
  ∃ parent outer first last node, comment = parent ++ [first] ∧ declaration = parent ++ [last] ∧
    root.nodeAt? parent = some outer ∧ IsNearest outer.children last first node ∧
    ['/', '*', '*'] <+: node.text.toList ∧ node.text ≠ "/**/"

variable {root : SyntaxNode}

theorem isDocComment_iff {text : String} : isDocComment text ↔ ['/', '*', '*'] <+: text.toList ∧ text ≠ "/**/" := by
  simp [isDocComment, List.isPrefixOf_iff_prefix]

theorem line_comment_not_mem_declarationKinds : "line_comment" ∉ declarationKinds := by decide

theorem IsNearest.step {siblings : List SyntaxNode} {last first : Nat} {comment : SyntaxNode}
    (nearest : IsNearest siblings (last + 1) first comment) (later : first ≠ last) :
    IsNearest siblings last first comment where
  isBefore := Nat.lt_of_le_of_ne (Nat.le_of_lt_succ nearest.isBefore) later
  found := nearest.found
  isBlock := nearest.isBlock
  between index behind before := nearest.between index behind (Nat.lt_succ_of_lt before)

/-- The sibling before a number is the nearest block comment, or a line comment behind it. -/
theorem isNearest_succ_iff {siblings : List SyntaxNode} {last first : Nat} {comment sibling : SyntaxNode}
    (here : siblings[last]? = some sibling) :
    IsNearest siblings (last + 1) first comment ↔
      sibling.kind = "line_comment" ∧ IsNearest siblings last first comment ∨
        first = last ∧ sibling = comment ∧ sibling.kind = "block_comment" := by
  constructor
  · intro nearest
    by_cases isHere : first = last
    · obtain rfl := isHere
      obtain rfl := Option.some.inj (here.symm.trans nearest.found)
      exact .inr ⟨rfl, rfl, nearest.isBlock⟩
    · have earlier := nearest.step isHere
      obtain ⟨between, found, isLine⟩ := nearest.between last earlier.isBefore (Nat.lt_succ_self last)
      obtain rfl := Option.some.inj (here.symm.trans found)
      exact .inl ⟨isLine, earlier⟩
  · rintro (⟨isLine, nearest⟩ | ⟨rfl, rfl, isBlock⟩)
    · refine ⟨Nat.lt_succ_of_lt nearest.isBefore, nearest.found, nearest.isBlock, fun index behind before => ?_⟩
      rcases Nat.lt_succ_iff_lt_or_eq.mp before with earlier | rfl
      · exact nearest.between index behind earlier
      · exact ⟨sibling, here, isLine⟩
    · exact ⟨Nat.lt_succ_self first, here, isBlock, fun index behind before => by omega⟩

/-- The walk back over siblings ends at the nearest block comment. -/
theorem precedingComment?_eq_some_iff {siblings : List SyntaxNode} {last : Nat} (bound : last ≤ siblings.length)
    {comment : SyntaxNode} :
    precedingComment? (siblings.take last).reverse = some comment ↔ ∃ first, IsNearest siblings last first comment := by
  induction last with
  | zero =>
      refine iff_of_false (by simp [precedingComment?]) ?_
      rintro ⟨first, nearest⟩
      exact absurd nearest.isBefore (Nat.not_lt_zero first)
  | succ last ih =>
      have here : siblings[last]? = some siblings[last] := List.getElem?_eq_getElem bound
      have walk : (siblings.take (last + 1)).reverse = siblings[last] :: (siblings.take last).reverse := by
        rw [List.take_add_one, here, List.reverse_append]
        rfl
      simp only [walk, precedingComment?, isNearest_succ_iff here]
      split
      next isLine =>
        rw [ih (Nat.le_of_succ_le bound)]
        refine exists_congr fun first => ⟨fun nearest => .inl ⟨isLine, nearest⟩, ?_⟩
        rintro (⟨_, nearest⟩ | ⟨_, _, isBlock⟩)
        · exact nearest
        · exact absurd (isLine.symm.trans isBlock) (by decide)
      next noLine =>
        split
        next isBlock =>
          refine ⟨fun found => ⟨last, .inr ⟨rfl, Option.some.inj found, isBlock⟩⟩, ?_⟩
          rintro ⟨first, ⟨isLine, _⟩ | ⟨_, isHere, _⟩⟩
          · exact absurd isLine noLine
          · rw [isHere]
        next noBlock =>
          refine iff_of_false nofun ?_
          rintro ⟨first, ⟨isLine, _⟩ | ⟨_, _, isBlock⟩⟩
          · exact noLine isLine
          · exact noBlock isBlock

theorem docComment?_eq_some_iff {preceding : List SyntaxNode} {text : String} :
    docComment? preceding = some text ↔
      ∃ comment, precedingComment? preceding = some comment ∧ comment.text = text ∧
        ['/', '*', '*'] <+: text.toList ∧ text ≠ "/**/" := by
  rw [docComment?, Option.filter_eq_some_iff, Option.map_eq_some_iff, isDocComment_iff]
  constructor
  · rintro ⟨⟨comment, found, same⟩, isDoc⟩
    exact ⟨comment, found, same, isDoc⟩
  · rintro ⟨comment, found, same, isDoc⟩
    exact ⟨⟨comment, found, same⟩, isDoc⟩

theorem placeAt?_concat (parent : List Nat) (index : Nat) :
    root.placeAt? (parent ++ [index]) = (root.placeAt? parent).bind fun outer => outer.child? index := by
  rw [placeAt?, placeAt?, Placed.below?_append]
  refine Option.bind_congr fun outer _ => ?_
  rw [Placed.below?]
  exact Option.bind_fun_some _

theorem nodeAt?_concat (parent : List Nat) (index : Nat) :
    root.nodeAt? (parent ++ [index]) = (root.nodeAt? parent).bind fun outer => outer.children[index]? := by
  rw [nodeAt?, nodeAt?, placeAt?_concat]
  cases root.placeAt? parent with
  | none => rfl
  | some outer =>
      change (outer.child? index).map Placed.node = outer.node.children[index]?
      rw [Placed.child?, Option.map_map]
      exact Option.map_id'

/-- A declaration is given the text of its doc comment, and none without a doc comment. -/
theorem docComment?_placeAt?_iff {declaration : List Nat} {place : Placed}
    (found : root.placeAt? declaration = some place) {text : String} :
    docComment? place.preceding = some text ↔
      ∃ comment node, root.Documents comment declaration ∧ root.nodeAt? comment = some node ∧ node.text = text := by
  rcases List.eq_nil_or_concat' declaration with rfl | ⟨parent, last, rfl⟩
  · obtain rfl := Option.some.inj found
    refine iff_of_false nofun ?_
    rintro ⟨comment, node, ⟨parent, outer, first, last, node', rfl, empty, -⟩, -⟩
    exact absurd empty.symm (List.concat_ne_nil _ _)
  · rw [placeAt?_concat, Option.bind_eq_some_iff] at found
    obtain ⟨outer, reached, isChild⟩ := found
    obtain ⟨child, listed, rfl⟩ := Option.map_eq_some_iff.mp isChild
    have around : root.nodeAt? parent = some outer.node := by rw [nodeAt?, reached]; rfl
    have bound : last ≤ outer.node.children.length := Nat.le_of_lt (List.getElem?_eq_some_iff.mp listed).1
    rw [docComment?_eq_some_iff]
    constructor
    · rintro ⟨comment, walked, rfl, isDoc⟩
      obtain ⟨first, nearest⟩ := (precedingComment?_eq_some_iff bound).mp walked
      refine ⟨parent ++ [first], comment, ?_, ?_, rfl⟩
      · exact ⟨parent, outer.node, first, last, comment, rfl, rfl, around, nearest, isDoc⟩
      · rw [nodeAt?_concat, around, Option.bind_some, nearest.found]
    · rintro ⟨_, node, ⟨parent', outer', first, last', comment, rfl, same, around', nearest, isDoc⟩, reached', rfl⟩
      obtain ⟨rfl, rfl⟩ := List.append_singleton_inj.mp same
      obtain rfl := Option.some.inj (around.symm.trans around')
      rw [nodeAt?_concat, around, Option.bind_some, nearest.found] at reached'
      obtain rfl := Option.some.inj reached'
      exact ⟨comment, (precedingComment?_eq_some_iff bound).mpr ⟨first, nearest⟩, rfl, isDoc⟩

theorem IsNearest.eq_first {siblings : List SyntaxNode} {last first other : Nat} {comment node : SyntaxNode}
    (nearest : IsNearest siblings last first comment) (nearest' : IsNearest siblings last other node) :
    first = other := by
  -- The earlier of two block comments would have the later one behind it.
  have notBefore {first other : Nat} {comment node : SyntaxNode} (nearest : IsNearest siblings last first comment)
      (nearest' : IsNearest siblings last other node) : ¬ first < other := by
    intro before
    obtain ⟨between, found, isLine⟩ := nearest.between other before nearest'.isBefore
    obtain rfl := Option.some.inj (found.symm.trans nearest'.found)
    exact absurd (isLine.symm.trans nearest'.isBlock) (by decide)
  have one := notBefore nearest nearest'
  have two := notBefore nearest' nearest
  omega

/-- A declaration has at most one doc comment. -/
theorem Documents.eq_comment {comment other declaration : List Nat} (documents : root.Documents comment declaration)
    (documents' : root.Documents other declaration) : comment = other := by
  obtain ⟨parent, outer, first, last, _, rfl, rfl, around, nearest, -⟩ := documents
  obtain ⟨parent', outer', first', last', _, rfl, same, around', nearest', -⟩ := documents'
  obtain ⟨rfl, rfl⟩ := List.append_singleton_inj.mp same
  obtain rfl := Option.some.inj (around.symm.trans around')
  rw [nearest.eq_first nearest']

/-- A comment is the doc comment of at most one declaration. -/
theorem Documents.eq_declaration {comment declaration other : List Nat} (documents : root.Documents comment declaration)
    (documents' : root.Documents comment other) (declares : root.Declares declaration)
    (declares' : root.Declares other) : declaration = other := by
  obtain ⟨parent, outer, first, last, _, rfl, rfl, around, nearest, -⟩ := documents
  obtain ⟨parent', outer', first', last', _, same, rfl, around', nearest', -⟩ := documents'
  obtain ⟨rfl, rfl⟩ := List.append_singleton_inj.mp same
  obtain rfl := Option.some.inj (around.symm.trans around')
  -- The earlier of two declarations would be a line comment before the later one.
  have notBefore {last last' : Nat} {node : SyntaxNode} (nearest : IsNearest outer.children last' first node)
      (behind : first < last) (declares : root.Declares (parent ++ [last])) : ¬ last < last' := by
    intro before
    obtain ⟨between, found, isLine⟩ := nearest.between last behind before
    obtain ⟨declared, reached, listed⟩ := declares
    rw [nodeAt?_concat, around, Option.bind_some, found] at reached
    obtain rfl := Option.some.inj reached
    exact line_comment_not_mem_declarationKinds (isLine ▸ listed)
  have one := notBefore nearest' nearest.isBefore declares
  have two := notBefore nearest nearest'.isBefore declares'
  rw [show last = last' by omega]

/-- What stands between two siblings is one of those in between, or below one of them or below the first. -/
theorem exists_between {parent position : List Nat} {first last : Nat} (behind : parent ++ [first] < position)
    (before : position < parent ++ [last]) :
    ∃ index rest, position = parent ++ index :: rest ∧ index < last ∧ (first < index ∨ first = index ∧ rest ≠ []) := by
  induction parent generalizing position with
  | nil =>
      cases position with
      | nil => exact absurd behind (List.not_lt_nil _)
      | cons index rest =>
          rw [List.nil_append, List.cons_lt_cons_iff] at behind before
          refine ⟨index, rest, rfl, before.resolve_right fun same => List.not_lt_nil _ same.2, behind.imp_right ?_⟩
          rintro ⟨rfl, later⟩
          exact ⟨rfl, List.ne_nil_of_length_pos (by cases later; exact Nat.succ_pos _)⟩
  | cons index parent ih =>
      cases position with
      | nil => exact absurd behind (List.not_lt_nil _)
      | cons other position =>
          rw [List.cons_append, List.cons_lt_cons_iff] at behind before
          obtain rfl : index = other := by omega
          have behindRest := (behind.resolve_left (Nat.lt_irrefl _)).2
          have beforeRest := (before.resolve_left (Nat.lt_irrefl _)).2
          obtain ⟨next, rest, rfl, found⟩ := ih behindRest beforeRest
          exact ⟨next, rest, rfl, found⟩

/-- A node stands below a comment. -/
def InComment (root : SyntaxNode) (position : List Nat) : Prop :=
  ∃ outer rest node, position = outer ++ rest ∧ rest ≠ [] ∧ root.nodeAt? outer = some node ∧
    (node.kind = "line_comment" ∨ node.kind = "block_comment")

/-- In the order of the source no block comment comes between a doc comment and its declaration, other than in a
comment. -/
theorem Documents.inComment_of_between {comment declaration position : List Nat} {node : SyntaxNode}
    (documents : root.Documents comment declaration) (behind : comment < position) (before : position < declaration)
    (found : root.nodeAt? position = some node) (isBlock : node.kind = "block_comment") : root.InComment position := by
  obtain ⟨parent, outer, first, last, doc, rfl, rfl, around, nearest, -⟩ := documents
  obtain ⟨index, rest, rfl, early, inner⟩ := exists_between behind before
  have regrouped : parent ++ index :: rest = (parent ++ [index]) ++ rest := by simp
  have sibling : root.nodeAt? (parent ++ [index]) = outer.children[index]? := by
    rw [nodeAt?_concat, around, Option.bind_some]
  rcases inner with later | ⟨rfl, below⟩
  · obtain ⟨between, isThere, isLine⟩ := nearest.between index later early
    refine ⟨parent ++ [index], rest, between, regrouped, ?_, sibling.trans isThere, .inl isLine⟩
    rintro rfl
    rw [sibling, isThere] at found
    obtain rfl := Option.some.inj found
    exact absurd (isLine.symm.trans isBlock) (by decide)
  · exact ⟨parent ++ [first], rest, doc, regrouped, below, sibling.trans nearest.found, .inr nearest.isBlock⟩

/-- What a member is made of is a declaration. -/
theorem kind_mem_declarationKinds {owner : String} {components : List ParameterDeclaration} {place : Placed}
    (makes : place.images owner components ≠ []) : place.node.kind ∈ declarationKinds := by
  unfold Placed.images at makes
  split at makes
  next isType => exact List.mem_append_left _ (List.contains_iff_mem.mp isType)
  next =>
    unfold simpleMembers at makes
    split at makes
    case h_8 => exact absurd rfl makes
    all_goals
      next kind =>
        rw [kind]
        decide

end SyntaxNode

namespace SourceFile

open SyntaxNode

/--
Each declaration that is read from a file stands at a position in its tree, and is given the text of its doc comment.
The only doc comment of a declaration is the last block comment before it, and no other declaration in the tree has the
same one.
-/
theorem docComments_apart (path : String) (root : SyntaxNode) :
    List.Forall₂ ClassDeclaration.ReadFrom root.outermostClasses (ofSyntax path root).classes ∧
    (∀ outermost ∈ root.outermostClasses, ∀ place, outermost.Holds place →
      ∃ position, root.placeAt? position = some place ∧
        ∀ owner components, place.images owner components ≠ [] → root.Declares position) ∧
    (∀ declaration place text, root.placeAt? declaration = some place →
      (docComment? place.preceding = some text ↔
        ∃ comment node, root.Documents comment declaration ∧ root.nodeAt? comment = some node ∧ node.text = text)) ∧
    (∀ comment other declaration, root.Documents comment declaration → root.Documents other declaration →
      comment = other) ∧
    (∀ comment declaration position node, root.Documents comment declaration → comment < position →
      position < declaration → root.nodeAt? position = some node → node.kind = "block_comment" →
      root.InComment position) ∧
    ∀ comment declaration comment' declaration', root.Documents comment declaration →
      root.Documents comment' declaration' → root.Declares declaration → root.Declares declaration' →
      declaration ≠ declaration' → comment ≠ comment' := by
  refine ⟨readFrom_ofSyntax path root, ?stands, fun _ _ _ found => docComment?_placeAt?_iff found,
    fun _ _ _ documents documents' => documents.eq_comment documents', ?isLast, ?apart⟩
  case stands =>
    intro outermost listed place holds
    obtain ⟨position, found⟩ := exists_placeAt?_of_holds listed holds
    have reached : root.nodeAt? position = some place.node := by rw [nodeAt?, found]; rfl
    exact ⟨position, found, fun owner components makes => ⟨place.node, reached, kind_mem_declarationKinds makes⟩⟩
  case isLast =>
    intro comment declaration position node documents behind before found isBlock
    exact documents.inComment_of_between behind before found isBlock
  case apart =>
    rintro comment declaration _ declaration' documents documents' declares declares' apart rfl
    exact apart (documents.eq_declaration documents' declares declares')

def sampleComment (kind text : String) : SyntaxNode :=
  ⟨kind, "", true, true, text, []⟩

/-- A file with `/* a */ /** b */ // c` on the lines before `class A { /** d */ int mix(); }`. -/
def sampleCommented : SyntaxNode :=
  let body := sampleNode "class_body" "body" ""
    [sampleComment "block_comment" "/** d */", sampleNode "method_declaration" "" "" (sampleName "mix")]
  sampleNode "program" "" ""
    [sampleComment "block_comment" "/* a */", sampleComment "block_comment" "/** b */",
      sampleComment "line_comment" "// c", sampleNode "class_declaration" "" "" (sampleName "A" ++ [body])]

theorem documents_sampleCommented_class : sampleCommented.Documents [1] [3] := by
  refine ⟨[], _, 1, 3, _, rfl, rfl, rfl, ⟨by decide, rfl, rfl, fun index behind before => ?_⟩, by decide, by decide⟩
  obtain rfl : index = 2 := by omega
  exact ⟨_, rfl, rfl⟩

theorem documents_sampleCommented_method : sampleCommented.Documents [3, 2, 0] [3, 2, 1] := by
  refine ⟨[3, 2], _, 0, 1, _, rfl, rfl, rfl, ⟨by decide, rfl, rfl, fun index behind before => ?_⟩, by decide, by decide⟩
  omega

/-- The class and its method have different doc comments; the text of the first one is given to the class. -/
theorem docComments_apart_sampleCommented :
    sampleCommented.Documents [1] [3] ∧ sampleCommented.Documents [3, 2, 0] [3, 2, 1] ∧
      sampleCommented.Declares [3] ∧ sampleCommented.Declares [3, 2, 1] ∧ [1] ≠ [3, 2, 0] ∧
      ∃ place, sampleCommented.placeAt? [3] = some place ∧ docComment? place.preceding = some "/** b */" := by
  obtain ⟨-, -, given, -, -, apart⟩ := docComments_apart "A.java" sampleCommented
  have class? : sampleCommented.Declares [3] := ⟨_, rfl, by decide⟩
  have method? : sampleCommented.Declares [3, 2, 1] := ⟨_, rfl, by decide⟩
  refine ⟨documents_sampleCommented_class, documents_sampleCommented_method, class?, method?, ?_, _, rfl, ?_⟩
  · exact apart _ _ _ _ documents_sampleCommented_class documents_sampleCommented_method class? method? (by decide)
  · exact (given [3] _ _ rfl).mpr ⟨[1], _, documents_sampleCommented_class, rfl, rfl⟩

end SourceFile

end ApiDocs
