import ApiDocs.Proofs.SyntaxTree.Dimensions

/-!
# The shapes of types

Type nodes have the shapes that the grammar of Java gives them: identifiers joined by dots, with type arguments behind
any of them, annotations before them, and comments anywhere.  What a type is read from are the parts of its node.
-/

namespace ApiDocs.SyntaxNode

def isComment (node : SyntaxNode) : Bool :=
  ["line_comment", "block_comment"].contains node.kind

def isAnnotation (node : SyntaxNode) : Bool :=
  ["annotation", "marker_annotation"].contains node.kind

/-- The named children without the comments among them; punctuation is not named. -/
def parts (node : SyntaxNode) : List SyntaxNode :=
  node.namedChildren.filter fun child => !child.isComment

/-- The kinds of types that are keywords. -/
def keywordKinds : List String :=
  ["void_type", "integral_type", "floating_point_type", "boolean_type"]

/-- The kinds of types that name a class. -/
def nameKinds : List String :=
  ["type_identifier", "scoped_type_identifier", "generic_type"]

/-- The marks of annotations, comments, type arguments and dimensions, and those between names. -/
def typeMarks : List Char :=
  ['.', ',', '@', '(', ')', '/', '*', '<', '>', '?', '&', '[', ']']

structure IsIdentifier (text : String) : Prop where
  nonempty : text ≠ ""
  clean : ∀ char ∈ text.toList, Text.isBlank char = false ∧ char ∉ typeMarks

theorem isIdentifier_iff {text : String} : IsIdentifier text ↔
    text ≠ "" ∧ text.toList.all (fun char => !Text.isBlank char && !typeMarks.contains char) = true := by
  have clean_iff : text.toList.all (fun char => !Text.isBlank char && !typeMarks.contains char) = true ↔
      ∀ char ∈ text.toList, Text.isBlank char = false ∧ char ∉ typeMarks := by simp
  rw [clean_iff]
  exact ⟨fun identifier => ⟨identifier.nonempty, identifier.clean⟩, fun ⟨nonempty, clean⟩ => ⟨nonempty, clean⟩⟩

instance (text : String) : Decidable (IsIdentifier text) :=
  decidable_of_iff _ isIdentifier_iff.symm

/-- The shapes that the grammar gives to types, type arguments included. -/
inductive IsTypeTree : SyntaxNode → Prop where
  | keyword {node : SyntaxNode} (kind : node.kind ∈ keywordKinds) : IsTypeTree node
  | identifier {node : SyntaxNode} (kind : node.kind = "type_identifier") (leaf : node.children = [])
      (identifier : IsIdentifier node.text) : IsTypeTree node
  /-- An identifier behind a qualifier, which may have type arguments of its own. -/
  | qualified {node qualifier name : SyntaxNode} {annotations : List SyntaxNode}
      (kind : node.kind = "scoped_type_identifier") (parts : node.parts = qualifier :: (annotations ++ [name]))
      (annotated : ∀ annotation ∈ annotations, annotation.isAnnotation = true)
      (qualifierKind : qualifier.kind ∈ nameKinds) (nameKind : name.kind = "type_identifier")
      (qualifierTree : IsTypeTree qualifier) (nameTree : IsTypeTree name) : IsTypeTree node
  | generic {node name list : SyntaxNode} (kind : node.kind = "generic_type") (parts : node.parts = [name, list])
      (nameKind : name.kind = "type_identifier" ∨ name.kind = "scoped_type_identifier")
      (listKind : list.kind = "type_arguments")
      (entryKinds : ∀ entry ∈ list.parts, entry.kind = "wildcard" ∨ entry.isType = true)
      (nameTree : IsTypeTree name) (entryTrees : ∀ entry ∈ list.parts, IsTypeTree entry) : IsTypeTree node
  | array {node element : SyntaxNode} (kind : node.kind = "array_type") (role : node.child? "element" = some element)
      (elementTree : IsTypeTree element) : IsTypeTree node
  | annotated {node inner : SyntaxNode} {annotations : List SyntaxNode} (kind : node.kind = "annotated_type")
      (parts : node.parts = annotations ++ [inner])
      (annotated : ∀ annotation ∈ annotations, annotation.isAnnotation = true) (innerKind : inner.isType = true)
      (innerTree : IsTypeTree inner) : IsTypeTree node
  | wildcard {node : SyntaxNode} (kind : node.kind = "wildcard")
      (tokens : ∀ child ∈ node.children, child.isNamed = false → child.kind ∈ ["?", "extends"])
      (annotated : ∀ annotation ∈ node.parts, annotation.isAnnotation = true) : IsTypeTree node
  | wildcardExtends {node bound : SyntaxNode} {annotations : List SyntaxNode} (kind : node.kind = "wildcard")
      (tokens : ∀ child ∈ node.children, child.isNamed = false → child.kind ∈ ["?", "extends"])
      (parts : node.parts = annotations ++ [bound])
      (annotated : ∀ annotation ∈ annotations, annotation.isAnnotation = true) (boundKind : bound.isType = true)
      (boundTree : IsTypeTree bound) : IsTypeTree node
  | wildcardSuper {node word bound : SyntaxNode} {annotations : List SyntaxNode} (kind : node.kind = "wildcard")
      (tokens : ∀ child ∈ node.children, child.isNamed = false → child.kind ∈ ["?", "extends"])
      (parts : node.parts = annotations ++ [word, bound])
      (annotated : ∀ annotation ∈ annotations, annotation.isAnnotation = true) (wordKind : word.kind = "super")
      (boundKind : bound.isType = true) (boundTree : IsTypeTree bound) : IsTypeTree node

variable {node : SyntaxNode}

/-! ### Parts of a node -/

theorem isNamed_of_mem_parts {part : SyntaxNode} (listed : part ∈ node.parts) : part.isNamed = true :=
  (List.mem_filter.mp (List.mem_filter.mp listed).1).2

theorem isComment_eq_false_iff : node.isComment = false ↔ node.kind ∉ ["line_comment", "block_comment"] := by
  rw [isComment, ← Bool.not_eq_true, List.contains_iff_mem]

/-- To pick named children of some kinds, none of which is that of a comment, is to pick parts. -/
theorem filter_children_eq {keep : SyntaxNode → Bool} (kinds : List String)
    (apart : ∀ kind ∈ kinds, kind ∉ ["line_comment", "block_comment"])
    (kept : ∀ child ∈ node.children, keep child = true → child.isNamed = true ∧ child.kind ∈ kinds) :
    node.children.filter keep = node.parts.filter keep := by
  rw [parts, namedChildren, List.filter_filter, List.filter_filter]
  refine List.filter_congr fun child listed => ?_
  cases keeps : keep child with
  | false => rfl
  | true =>
      obtain ⟨named, kind⟩ := kept child listed keeps
      rw [named, isComment_eq_false_iff.mpr (apart _ kind)]
      rfl

theorem isNamePart_iff : node.isNamePart = true ↔ node.isNamed = true ∧
    node.kind ∈ ["type_identifier", "identifier", "scoped_type_identifier", "generic_type"] := by
  rw [isNamePart, Bool.and_eq_true, List.contains_iff_mem]

theorem isType_iff : node.isType = true ↔ node.kind ∈ typeKinds :=
  List.contains_iff_mem

theorem isAnnotation_iff : node.isAnnotation = true ↔ node.kind ∈ ["annotation", "marker_annotation"] :=
  List.contains_iff_mem

/-- Annotations are not of the kinds that are picked. -/
theorem filter_annotations_append {annotations : List SyntaxNode}
    (annotated : ∀ annotation ∈ annotations, annotation.isAnnotation = true) {keep : SyntaxNode → Bool}
    (dropped : ∀ node : SyntaxNode, node.kind ∈ ["annotation", "marker_annotation"] → keep node = false)
    (others : List SyntaxNode) : (annotations ++ others).filter keep = others.filter keep := by
  have none : annotations.filter keep = [] := by
    rw [List.filter_eq_nil_iff]
    intro annotation listed
    rw [dropped annotation (isAnnotation_iff.mp (annotated annotation listed))]
    exact Bool.false_ne_true
  rw [List.filter_append, none, List.nil_append]

theorem isType_of_annotationKind (node : SyntaxNode) (kind : node.kind ∈ ["annotation", "marker_annotation"]) :
    node.isType = false := by
  have apart : ∀ kind ∈ ["annotation", "marker_annotation"], kind ∉ typeKinds := by decide
  rw [Bool.eq_false_iff, Ne, isType_iff]
  exact apart _ kind

/-! ### What is picked among children -/

theorem partNames_eq (children : List SyntaxNode) :
    typeName.partNames children = (children.filter isNamePart).map typeName := by
  induction children with
  | nil => rfl
  | cons first rest ih =>
      rw [typeName.partNames, List.filter_cons, ih]
      split <;> rfl

theorem filter_isNamePart (node : SyntaxNode) : node.children.filter isNamePart = node.parts.filter isNamePart :=
  filter_children_eq _ (by decide) fun _ _ => isNamePart_iff.mp

/-- The name of a node that is made of names. -/
theorem typeName_of_parts (kind : node.kind = "scoped_type_identifier" ∨ node.kind = "generic_type") :
    node.typeName = String.intercalate "." ((node.parts.filter isNamePart).map typeName) := by
  rw [← filter_isNamePart, ← partNames_eq]
  cases node
  rw [typeName, if_pos kind]

/-- The last of the items that are kept, among a first one and others. -/
theorem getLast?_filter_cons (keep : SyntaxNode → Bool) (first : SyntaxNode) (rest : List SyntaxNode) :
    ((first :: rest).filter keep).getLast? =
      (rest.filter keep).getLast?.or (if keep first then some first else none) := by
  rw [List.filter_cons]
  split
  · rw [List.getLast?_cons]
    cases (rest.filter keep).getLast? <;> rfl
  · rw [Option.or_none]

def isArgument (node : SyntaxNode) : Bool :=
  node.isNamed && (node.kind == "wildcard" || node.isType)

def isArgumentList (node : SyntaxNode) : Bool :=
  node.isNamed && node.kind == "type_arguments"

theorem arguments_eq (children : List SyntaxNode) :
    type.arguments children = (children.filter isArgument).map type := by
  induction children with
  | nil => rfl
  | cons first rest ih =>
      rw [type.arguments, List.filter_cons, ih]
      unfold isArgument
      split <;> rfl

theorem argumentTypes_eq (children : List SyntaxNode) :
    type.argumentTypes children =
      ((children.filter isArgumentList).getLast?.map fun list => type.arguments list.children).getD [] := by
  induction children with
  | nil => rfl
  | cons first rest ih =>
      rw [getLast?_filter_cons]
      rcases first with ⟨kind, field, isNamed, isExtra, text, inner⟩
      have unfolded : type.argumentTypes (⟨kind, field, isNamed, isExtra, text, inner⟩ :: rest) =
          if rest.any isArgumentList then type.argumentTypes rest
          else if isArgumentList ⟨kind, field, isNamed, isExtra, text, inner⟩ then type.arguments inner
          else type.argumentTypes rest := by
        rw [type.argumentTypes]
        rfl
      rw [unfolded, ih]
      cases last : (rest.filter isArgumentList).getLast? with
      | none =>
          have none : ¬ rest.any isArgumentList := by
            simpa using List.getLast?_eq_none_iff.mp last
          rw [if_neg none, Option.none_or]
          split <;> rfl
      | some list =>
          have listed : rest.any isArgumentList :=
            have ⟨held, isList⟩ := List.mem_filter.mp (List.mem_of_getLast? last)
            List.any_eq_true.mpr ⟨list, held, isList⟩
          rw [if_pos listed]
          rfl

/-- What is read of the last child that is kept. -/
theorem eq_map_getLast?_filter {read : List SyntaxNode → Option JavaType} {keep : SyntaxNode → Bool}
    (nil : read [] = none)
    (cons : ∀ first rest, read (first :: rest) = (read rest).or (if keep first then some first.type else none))
    (children : List SyntaxNode) : read children = (children.filter keep).getLast?.map type := by
  induction children with
  | nil => exact nil
  | cons first rest ih =>
      rw [cons, ih, getLast?_filter_cons, Option.map_or]
      split <;> rfl

theorem annotated?_eq (children : List SyntaxNode) :
    type.annotated? children = (children.filter fun child => child.isNamed && child.isType).getLast?.map type := by
  refine eq_map_getLast?_filter rfl (fun first rest => ?_) children
  rw [type.annotated?]
  cases type.annotated? rest <;> rfl

theorem bound?_eq (children : List SyntaxNode) :
    type.bound? children = (children.filter isType).getLast?.map type := by
  refine eq_map_getLast?_filter rfl (fun first rest => ?_) children
  rw [type.bound?]
  cases type.bound? rest <;> rfl

/-- A wildcard is read from its parts. -/
theorem type_of_wildcard (kind : node.kind = "wildcard")
    (tokens : ∀ child ∈ node.children, child.isNamed = false → child.kind ∈ ["?", "extends"]) :
    node.type = ((node.parts.filter isType).getLast?.map fun bound =>
      if (node.parts.filter fun part => part.kind == "super") = [] then .wildcardExtends bound.type
      else .wildcardSuper bound.type).getD .wildcard := by
  have named {kinds : List String} (apart : ∀ kind ∈ kinds, kind ∉ ["?", "extends"]) (child : SyntaxNode)
      (held : child ∈ node.children) (kind : child.kind ∈ kinds) : child.isNamed = true ∧ child.kind ∈ kinds := by
    refine ⟨Bool.not_eq_false _ ▸ fun unnamed => ?_, kind⟩
    exact apart _ kind (tokens child held unnamed)
  have bounds : node.children.filter isType = node.parts.filter isType :=
    filter_children_eq typeKinds (by decide) fun child held isType =>
      named (by decide) child held (isType_iff.mp isType)
  have words : (node.children.filter fun child => child.kind == "super") =
      node.parts.filter fun part => part.kind == "super" :=
    filter_children_eq ["super"] (by decide) fun child held isWord =>
      named (by decide) child held (by simpa using isWord)
  have word : node.children.any (fun child => child.kind == "super") = true ↔
      (node.parts.filter fun part => part.kind == "super") ≠ [] := by
    rw [← words]
    simp
  have read := bound?_eq node.children
  rw [bounds] at read
  cases last : (node.parts.filter isType).getLast? with
  | none =>
      rw [last] at read
      cases node
      obtain rfl := kind
      rw [type]
      simp only [read]
      rfl
  | some bound =>
      rw [last] at read
      have built : node.type = if node.children.any fun child => child.kind == "super" then .wildcardSuper bound.type
          else .wildcardExtends bound.type := by
        cases node
        obtain rfl := kind
        rw [type]
        simp only [read]
        rfl
      rw [built]
      by_cases none : (node.parts.filter fun part => part.kind == "super") = []
      · exact (if_neg fun held => word.mp held none).trans (if_pos none).symm
      · exact (if_pos (word.mpr none)).trans (if_neg none).symm

end ApiDocs.SyntaxNode
