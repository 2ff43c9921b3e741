import ApiDocs.Proofs.Fields
import ApiDocs.Proofs.SyntaxTree.TypeTrees

/-!
# Names in types

The name of a class in a type is written with dots between its identifiers.  A reference keeps the identifiers of the
whole name, without the annotations, comments and type arguments among them, and the type arguments behind the last of
them.
-/

namespace ApiDocs.SyntaxNode

/-- The kinds of nodes in a name whose identifiers are not part of it. -/
def asideKinds : List String :=
  ["annotation", "marker_annotation", "type_arguments", "line_comment", "block_comment"]

/-- The identifiers of a name in the order of the source. -/
def nameLeaves : SyntaxNode → List SyntaxNode
  | ⟨kind, field, isNamed, isExtra, text, children⟩ =>
      if kind = "type_identifier" then [⟨kind, field, isNamed, isExtra, text, children⟩]
      else if asideKinds.contains kind then []
      else inAll children
where
  inAll : List SyntaxNode → List SyntaxNode
    | [] => []
    | first :: rest => (if first.isNamed then nameLeaves first else []) ++ inAll rest

/-- The wildcards and types in the list of type arguments that a type itself has. -/
def entries (node : SyntaxNode) : List SyntaxNode :=
  (node.parts.filter fun part => part.kind == "type_arguments").flatMap parts

/-- How types are read: a reference is made of the identifiers of a name and of what its type arguments are read as. -/
inductive Reads : SyntaxNode → JavaType → Prop where
  | keyword {node : SyntaxNode} (kind : node.kind ∈ keywordKinds) : Reads node (.primitive node.text)
  | reference {node : SyntaxNode} {qualifier : List String} {last : String} {types : List JavaType}
      (kind : node.kind ∈ nameKinds) (leaves : node.nameLeaves.map text = qualifier ++ [last])
      (arguments : List.Forall₂ Reads node.entries types) :
      Reads node (.reference (String.intercalate "." (qualifier ++ [last])) last types .unresolved)
  | array {node element : SyntaxNode} {type : JavaType} (kind : node.kind = "array_type")
      (role : node.child? "element" = some element) (inner : Reads element type) :
      Reads node (withDimensions type (node.child? "dimensions"))
  | annotated {node inner : SyntaxNode} {annotations : List SyntaxNode} {type : JavaType}
      (kind : node.kind = "annotated_type") (parts : node.parts = annotations ++ [inner])
      (annotated : ∀ annotation ∈ annotations, annotation.isAnnotation = true)
      (read : Reads inner type) : Reads node type
  | wildcard {node : SyntaxNode} (kind : node.kind = "wildcard")
      (annotated : ∀ annotation ∈ node.parts, annotation.isAnnotation = true) : Reads node .wildcard
  | wildcardExtends {node bound : SyntaxNode} {annotations : List SyntaxNode} {type : JavaType}
      (kind : node.kind = "wildcard") (parts : node.parts = annotations ++ [bound])
      (annotated : ∀ annotation ∈ annotations, annotation.isAnnotation = true)
      (read : Reads bound type) : Reads node (.wildcardExtends type)
  | wildcardSuper {node word bound : SyntaxNode} {annotations : List SyntaxNode} {type : JavaType}
      (kind : node.kind = "wildcard") (parts : node.parts = annotations ++ [word, bound])
      (annotated : ∀ annotation ∈ annotations, annotation.isAnnotation = true)
      (wordKind : word.kind = "super") (read : Reads bound type) : Reads node (.wildcardSuper type)

variable {node : SyntaxNode}

/-! ### Identifiers -/

theorem nameLeaves_of_identifier (kind : node.kind = "type_identifier") : node.nameLeaves = [node] := by
  cases node
  rw [nameLeaves, if_pos kind]

theorem inAll_nameLeaves_eq (children : List SyntaxNode) :
    nameLeaves.inAll children = (children.filter isNamed).flatMap nameLeaves := by
  induction children with
  | nil => rfl
  | cons first rest ih =>
      rw [nameLeaves.inAll, List.filter_cons, ih]
      split <;> rfl

theorem nameLeaves_of_aside (kind : node.kind ∈ asideKinds) : node.nameLeaves = [] := by
  have noIdentifier : node.kind ≠ "type_identifier" := by
    intro isIdentifier
    exact absurd (isIdentifier ▸ kind) (by decide)
  cases node
  rw [nameLeaves, if_neg noIdentifier, if_pos (List.contains_iff_mem.mpr kind)]

/-- Nodes without identifiers can be left out. -/
theorem flatMap_nameLeaves_filter {nodes : List SyntaxNode} {keep : SyntaxNode → Bool}
    (aside : ∀ node ∈ nodes, keep node = false → node.kind ∈ asideKinds) :
    (nodes.filter keep).flatMap nameLeaves = nodes.flatMap nameLeaves := by
  induction nodes with
  | nil => rfl
  | cons first rest ih =>
      obtain ⟨here, later⟩ := List.forall_mem_cons.mp aside
      rw [List.flatMap_cons, ← ih later, List.filter_cons]
      cases kept : keep first with
      | true => exact List.flatMap_cons ..
      | false =>
          rw [nameLeaves_of_aside (here kept)]
          rfl

/-- The identifiers of a node that is made of names. -/
theorem nameLeaves_of_parts (kind : node.kind = "scoped_type_identifier" ∨ node.kind = "generic_type") :
    node.nameLeaves = node.parts.flatMap nameLeaves := by
  have aside (child : SyntaxNode) (_ : child ∈ node.namedChildren) (dropped : (!child.isComment) = false) :
      child.kind ∈ asideKinds := by
    have isComment : child.isComment = true := by simpa using dropped
    exact List.mem_of_mem_drop (i := 3) (List.contains_iff_mem.mp isComment)
  rw [parts, flatMap_nameLeaves_filter aside, namedChildren, ← inAll_nameLeaves_eq]
  cases node
  rcases kind with rfl | rfl <;> rfl

/-! ### References -/

theorem entries_eq_nil (noList : ∀ part ∈ node.parts, part.kind ≠ "type_arguments") : node.entries = [] := by
  have none : (node.parts.filter fun part => part.kind == "type_arguments") = [] := by
    rw [List.filter_eq_nil_iff]
    intro part listed
    rw [beq_iff_eq]
    exact noList part listed
  rw [entries, none, List.flatMap_nil]

theorem entries_of_leaf (leaf : node.children = []) : node.entries = [] := by
  have noParts : node.parts = [] := by
    rw [parts, namedChildren, leaf]
    rfl
  rw [entries, noParts]
  rfl

theorem entries_of_qualified {qualifier name : SyntaxNode} {annotations : List SyntaxNode}
    (parts : node.parts = qualifier :: (annotations ++ [name]))
    (annotated : ∀ annotation ∈ annotations, annotation.isAnnotation = true)
    (qualifierKind : qualifier.kind ∈ nameKinds) (nameKind : name.kind = "type_identifier") : node.entries = [] := by
  refine entries_eq_nil fun part held isList => ?_
  rw [parts, List.mem_cons, List.mem_append, List.mem_singleton] at held
  rcases held with rfl | annotation | rfl
  · exact absurd (isList ▸ qualifierKind) (by decide)
  · exact absurd (isList ▸ isAnnotation_iff.mp (annotated part annotation)) (by decide)
  · exact absurd (isList.symm.trans nameKind) (by decide)

/-- A type is a reference by its name, with the types in its own list of arguments. -/
structure Refers (node : SyntaxNode) : Prop where
  typed : node.type = .named node.typeName (node.entries.map type)
  trees : ∀ entry ∈ node.entries, IsTypeTree entry

theorem refers_of_name (kind : node.kind = "type_identifier" ∨ node.kind = "scoped_type_identifier")
    (noEntries : node.entries = []) : node.Refers where
  typed := by
    rw [noEntries]
    cases node
    rcases kind with rfl | rfl <;> rfl
  trees := by
    rw [noEntries]
    exact nofun

theorem entries_of_generic {name list : SyntaxNode} (parts : node.parts = [name, list])
    (nameKind : name.kind = "type_identifier" ∨ name.kind = "scoped_type_identifier")
    (listKind : list.kind = "type_arguments") : node.entries = list.parts := by
  rcases nameKind with kind | kind <;> simp [entries, parts, listKind, kind]

theorem refers_of_generic {name list : SyntaxNode} (kind : node.kind = "generic_type")
    (parts : node.parts = [name, list])
    (nameKind : name.kind = "type_identifier" ∨ name.kind = "scoped_type_identifier")
    (listKind : list.kind = "type_arguments")
    (entryKinds : ∀ entry ∈ list.parts, entry.kind = "wildcard" ∨ entry.isType = true)
    (entryTrees : ∀ entry ∈ list.parts, IsTypeTree entry) : node.Refers := by
  have isName : name ∈ node.parts := by simp [parts]
  have isList : list ∈ node.parts := by simp [parts]
  have nameNamed := isNamed_of_mem_parts isName
  have listNamed := isNamed_of_mem_parts isList
  have written : genericName node.children = node.typeName := by
    have names : node.parts.filter isNamePart = [name] := by
      rcases nameKind with kind | kind <;> simp [parts, isNamePart, nameNamed, listKind, kind]
    have lastNames : (node.children.filter fun child =>
        child.isNamed && (child.kind == "type_identifier" || child.kind == "scoped_type_identifier")) = [name] := by
      rw [filter_children_eq ["type_identifier", "scoped_type_identifier"] (by decide) fun _ _ kept => by
        simpa using kept]
      rcases nameKind with kind | kind <;> simp [parts, nameNamed, listKind, kind]
    rw [genericName, lastNames, typeName_of_parts (.inr kind), names]
    exact String.intercalate_singleton.symm
  have arguments : type.argumentTypes node.children = node.entries.map type := by
    have lists : node.children.filter isArgumentList = [list] := by
      rw [filter_children_eq ["type_arguments"] (by decide) fun _ _ kept => by simpa [isArgumentList] using kept]
      rcases nameKind with kind | kind <;> simp [parts, isArgumentList, listNamed, listKind, kind]
    have all : list.children.filter isArgument = list.parts := by
      rw [filter_children_eq ("wildcard" :: typeKinds) (by decide) fun _ _ kept => by
        simpa [isArgument, isType] using kept, List.filter_eq_self]
      intro entry listed
      rw [isArgument, isNamed_of_mem_parts listed]
      simpa using entryKinds entry listed
    rw [argumentTypes_eq, lists, List.getLast?_singleton, Option.map_some, Option.getD_some, arguments_eq, all,
      entries_of_generic parts nameKind listKind]
  refine ⟨?typed, ?trees⟩
  case typed =>
    cases node
    obtain rfl := kind
    change JavaType.named _ _ = _
    rw [written, arguments]
  case trees =>
    rw [entries_of_generic parts nameKind listKind]
    exact entryTrees

/-- The name that a type refers by is made of the identifiers in it. -/
structure Spells (node : SyntaxNode) : Prop extends Refers node where
  leaves : node.nameLeaves ≠ []
  identifiers : ∀ leaf ∈ node.nameLeaves, IsIdentifier leaf.text
  joined : node.typeName = String.intercalate "." (node.nameLeaves.map text)

theorem spells_of_identifier (kind : node.kind = "type_identifier") (leaf : node.children = [])
    (identifier : IsIdentifier node.text) : node.Spells := by
  have leaves := nameLeaves_of_identifier kind
  refine ⟨refers_of_name (.inl kind) (entries_of_leaf leaf), ?leaves, ?identifiers, ?joined⟩
  case leaves =>
    rw [leaves]
    exact List.cons_ne_nil _ _
  case identifiers =>
    rw [leaves]
    intro leaf listed
    rwa [List.mem_singleton.mp listed]
  case joined =>
    rw [leaves, List.map_singleton, String.intercalate_singleton]
    cases node
    obtain rfl := kind
    rfl

/-- Names joined by dots are all of their identifiers joined by dots. -/
theorem intercalate_typeName {names : List SyntaxNode} (each : ∀ name ∈ names, name.Spells) :
    String.intercalate "." (names.map typeName) = String.intercalate "." ((names.flatMap nameLeaves).map text) := by
  induction names with
  | nil => rfl
  | cons first rest ih =>
      obtain ⟨onFirst, onRest⟩ := List.forall_mem_cons.mp each
      rw [List.map_cons, List.flatMap_cons, List.map_append]
      cases rest with
      | nil =>
          rw [List.map_nil, String.intercalate_singleton, List.flatMap_nil, List.map_nil, List.append_nil]
          exact onFirst.joined
      | cons second others =>
          have later : (second :: others).flatMap nameLeaves ≠ [] :=
            List.append_ne_nil_of_left_ne_nil (onRest second List.mem_cons_self).leaves _
          have notLast : (second :: others).map typeName ≠ [] := List.cons_ne_nil _ _
          rw [String.intercalate_cons_of_ne_nil notLast, String.intercalate_append_of_ne_nil
            (List.map_eq_nil_iff.not.mpr onFirst.leaves) (List.map_eq_nil_iff.not.mpr later), ih onRest,
            onFirst.joined]

/-- A node spells a name if its parts do, other than annotations and type arguments. -/
theorem spells_of_parts (kind : node.kind = "scoped_type_identifier" ∨ node.kind = "generic_type")
    (each : ∀ part ∈ node.parts, part.isNamePart = true ∧ part.Spells ∨ part.kind ∈ asideKinds)
    {name : SyntaxNode} (listed : name ∈ node.parts) (isName : name.isNamePart = true)
    (refers : node.Refers) : node.Spells := by
  have apart : ∀ kind ∈ asideKinds,
      kind ∉ ["type_identifier", "identifier", "scoped_type_identifier", "generic_type"] := by decide
  have eachName (part : SyntaxNode) (kept : part ∈ node.parts.filter isNamePart) : part.Spells := by
    obtain ⟨listed, isPart⟩ := List.mem_filter.mp kept
    exact ((each part listed).resolve_right fun aside => apart _ aside (isNamePart_iff.mp isPart).2).2
  have leaves : node.nameLeaves = (node.parts.filter isNamePart).flatMap nameLeaves := by
    rw [nameLeaves_of_parts kind, flatMap_nameLeaves_filter]
    intro part listed noName
    refine (each part listed).resolve_left fun isPart => ?_
    exact absurd isPart.1 (Bool.eq_false_iff.mp noName)
  refine ⟨refers, ?leaves, ?identifiers, ?joined⟩
  case leaves =>
    rw [leaves, Ne, List.flatMap_eq_nil_iff]
    intro none
    have kept := List.mem_filter.mpr ⟨listed, isName⟩
    exact (eachName name kept).leaves (none name kept)
  case identifiers =>
    rw [leaves]
    intro leaf held
    obtain ⟨part, kept, inPart⟩ := List.mem_flatMap.mp held
    exact (eachName part kept).identifiers leaf inPart
  case joined => rw [typeName_of_parts kind, intercalate_typeName eachName, leaves]

theorem isNamePart_of_mem_nameKinds (named : node.isNamed = true) (kind : node.kind ∈ nameKinds) :
    node.isNamePart = true := by
  refine isNamePart_iff.mpr ⟨named, ?_⟩
  revert kind
  simp only [nameKinds, List.mem_cons, List.not_mem_nil]
  tauto

/-- Every name spells the identifiers in it. -/
theorem IsTypeTree.spells (tree : IsTypeTree node) (kind : node.kind ∈ nameKinds) : node.Spells := by
  -- The induction goes down the qualifiers; type arguments are left aside by the name.
  induction tree with
  | identifier isIdentifier leaf identifier => exact spells_of_identifier isIdentifier leaf identifier
  | @qualified node qualifier name annotations isQualified parts annotated qualifierKind nameKind _ _ ofQualifier
      ofName =>
      have nameKind' : name.kind ∈ nameKinds := by simp [nameKinds, nameKind]
      have listed : qualifier ∈ node.parts := by simp [parts]
      have isPart := isNamePart_of_mem_nameKinds (isNamed_of_mem_parts listed) qualifierKind
      have noEntries := entries_of_qualified parts annotated qualifierKind nameKind
      refine spells_of_parts (.inl isQualified) ?_ listed isPart (refers_of_name (.inr isQualified) noEntries)
      intro part held
      have named := isNamed_of_mem_parts held
      rw [parts, List.mem_cons, List.mem_append, List.mem_singleton] at held
      rcases held with rfl | annotation | rfl
      · exact .inl ⟨isPart, ofQualifier qualifierKind⟩
      · have isAnnotation := isAnnotation_iff.mp (annotated part annotation)
        exact .inr (List.mem_of_mem_take (i := 2) isAnnotation)
      · exact .inl ⟨isNamePart_of_mem_nameKinds named nameKind', ofName nameKind'⟩
  | @generic node name list isGeneric parts nameKind listKind entryKinds _ entryTrees ofName =>
      have nameKind' : name.kind ∈ nameKinds := by
        rcases nameKind with kind | kind <;> simp [nameKinds, kind]
      have listed : name ∈ node.parts := by simp [parts]
      have isPart := isNamePart_of_mem_nameKinds (isNamed_of_mem_parts listed) nameKind'
      have refers := refers_of_generic isGeneric parts nameKind listKind entryKinds entryTrees
      refine spells_of_parts (.inr isGeneric) ?_ listed isPart refers
      rw [parts, List.forall_mem_cons, List.forall_mem_singleton]
      exact ⟨.inl ⟨isPart, ofName nameKind'⟩, .inr (by rw [listKind]; decide)⟩
  | keyword isKeyword =>
      have apart : ∀ kind ∈ keywordKinds, kind ∉ nameKinds := by decide
      exact absurd kind (apart _ isKeyword)
  | array isArray => exact absurd (isArray ▸ kind) (by decide)
  | annotated isAnnotated => exact absurd (isAnnotated ▸ kind) (by decide)
  | wildcard isWildcard => exact absurd (isWildcard ▸ kind) (by decide)
  | wildcardExtends isWildcard => exact absurd (isWildcard ▸ kind) (by decide)
  | wildcardSuper isWildcard => exact absurd (isWildcard ▸ kind) (by decide)

/-- Names are the segments of what they are joined to by dots. -/
theorem fields_intercalate_identifiers {names : List String} (identifiers : ∀ name ∈ names, IsIdentifier name)
    (nonempty : names ≠ []) : Text.fields '.' (String.intercalate "." names) = names := by
  have noDot (name : String) (listed : name ∈ names) : '.' ∉ name.toList := fun held =>
    ((identifiers name listed).clean '.' held).2 (by decide)
  exact Text.fields_intercalate noDot nonempty

/-- A reference by identifiers has the last of them as its class name. -/
theorem Spells.named (spells : node.Spells) (types : List JavaType) :
    ∃ qualifier last, node.nameLeaves.map text = qualifier ++ [last] ∧
      JavaType.named node.typeName types =
        .reference (String.intercalate "." (qualifier ++ [last])) last types .unresolved := by
  obtain none | ⟨qualifier, last, leaves⟩ := List.eq_nil_or_concat' (node.nameLeaves.map text)
  · exact absurd (List.map_eq_nil_iff.mp none) spells.leaves
  · have cut := fields_intercalate_identifiers (List.forall_mem_map.mpr spells.identifiers)
      (List.map_eq_nil_iff.not.mpr spells.leaves)
    refine ⟨qualifier, last, leaves, ?_⟩
    rw [JavaType.named, spells.joined, JavaType.lastSegment, cut, leaves, List.getLastD_concat]

theorem Spells.reads (spells : node.Spells) (kind : node.kind ∈ nameKinds)
    (read : ∀ entry ∈ node.entries, Reads entry entry.type) : Reads node node.type := by
  obtain ⟨qualifier, last, leaves, named⟩ := spells.named (node.entries.map type)
  rw [spells.typed, named]
  exact .reference kind leaves (List.forall₂_map_right_self read)

/-! ### Other types -/

theorem reads_of_array {element : SyntaxNode} (kind : node.kind = "array_type")
    (role : node.child? "element" = some element) (read : Reads element element.type) : Reads node node.type := by
  rw [type_of_array kind role]
  exact .array kind role read

theorem reads_of_annotated {inner : SyntaxNode} {annotations : List SyntaxNode} (kind : node.kind = "annotated_type")
    (parts : node.parts = annotations ++ [inner])
    (annotated : ∀ annotation ∈ annotations, annotation.isAnnotation = true) (innerKind : inner.isType = true)
    (read : Reads inner inner.type) : Reads node node.type := by
  have isPart : inner ∈ node.parts := by simp [parts]
  have only : (node.children.filter fun child => child.isNamed && child.isType) = [inner] := by
    rw [filter_children_eq typeKinds (by decide) fun _ _ kept => by simpa [isType] using kept, parts,
      filter_annotations_append annotated fun node kind => by rw [isType_of_annotationKind node kind, Bool.and_false]]
    simp [isNamed_of_mem_parts isPart, innerKind]
  have built : node.type = inner.type := by
    have found : type.annotated? node.children = some inner.type := by
      rw [annotated?_eq, only]
      rfl
    cases node
    obtain rfl := kind
    change (type.annotated? _).getD _ = _
    rw [found, Option.getD_some]
  rw [built]
  exact .annotated kind parts annotated read

theorem reads_of_wildcard (kind : node.kind = "wildcard")
    (tokens : ∀ child ∈ node.children, child.isNamed = false → child.kind ∈ ["?", "extends"])
    (annotated : ∀ annotation ∈ node.parts, annotation.isAnnotation = true) : Reads node node.type := by
  have bounds : node.parts.filter isType = [] := by
    rw [← List.append_nil node.parts, filter_annotations_append annotated isType_of_annotationKind]
    rfl
  have built : node.type = .wildcard := by
    rw [type_of_wildcard kind tokens, bounds]
    rfl
  rw [built]
  exact .wildcard kind annotated

theorem kind_ne_super_of_isType (isType : node.isType = true) : (node.kind == "super") = false := by
  have apart : ∀ kind ∈ typeKinds, kind ≠ "super" := by decide
  exact beq_eq_false_iff_ne.mpr (apart _ (isType_iff.mp isType))

theorem annotationKind_ne_super (node : SyntaxNode) (kind : node.kind ∈ ["annotation", "marker_annotation"]) :
    (node.kind == "super") = false := by
  have apart : ∀ kind ∈ ["annotation", "marker_annotation"], kind ≠ "super" := by decide
  exact beq_eq_false_iff_ne.mpr (apart _ kind)

theorem reads_of_wildcardExtends {bound : SyntaxNode} {annotations : List SyntaxNode} (kind : node.kind = "wildcard")
    (tokens : ∀ child ∈ node.children, child.isNamed = false → child.kind ∈ ["?", "extends"])
    (parts : node.parts = annotations ++ [bound])
    (annotated : ∀ annotation ∈ annotations, annotation.isAnnotation = true) (boundKind : bound.isType = true)
    (read : Reads bound bound.type) : Reads node node.type := by
  have bounds : node.parts.filter isType = [bound] := by
    rw [parts, filter_annotations_append annotated isType_of_annotationKind, List.filter_cons_of_pos boundKind]
    rfl
  have words : (node.parts.filter fun part => part.kind == "super") = [] := by
    rw [parts, filter_annotations_append annotated annotationKind_ne_super]
    simp [kind_ne_super_of_isType boundKind]
  have built : node.type = .wildcardExtends bound.type := by
    rw [type_of_wildcard kind tokens, bounds, words]
    rfl
  rw [built]
  exact .wildcardExtends kind parts annotated read

theorem reads_of_wildcardSuper {word bound : SyntaxNode} {annotations : List SyntaxNode} (kind : node.kind = "wildcard")
    (tokens : ∀ child ∈ node.children, child.isNamed = false → child.kind ∈ ["?", "extends"])
    (parts : node.parts = annotations ++ [word, bound])
    (annotated : ∀ annotation ∈ annotations, annotation.isAnnotation = true) (wordKind : word.kind = "super")
    (boundKind : bound.isType = true) (read : Reads bound bound.type) : Reads node node.type := by
  have bounds : node.parts.filter isType = [bound] := by
    rw [parts, filter_annotations_append annotated isType_of_annotationKind]
    have notType : word.isType = false := by
      rw [isType, wordKind]
      decide
    simp [notType, boundKind]
  have words : (node.parts.filter fun part => part.kind == "super") ≠ [] := by
    rw [parts, filter_annotations_append annotated annotationKind_ne_super]
    simp [wordKind]
  have built : node.type = .wildcardSuper bound.type := by
    rw [type_of_wildcard kind tokens, bounds]
    exact if_neg words
  rw [built]
  exact .wildcardSuper kind parts annotated wordKind read

/-- Types of all shapes are read from their parts. -/
theorem IsTypeTree.reads (tree : IsTypeTree node) : Reads node node.type := by
  induction tree with
  | @keyword node kind =>
      have built : node.type = .primitive node.text := by
        cases node
        simp only [keywordKinds, List.mem_cons, List.not_mem_nil, or_false] at kind
        rcases kind with rfl | rfl | rfl | rfl <;> rfl
      rw [built]
      exact .keyword kind
  | @identifier node kind leaf identifier =>
      refine (spells_of_identifier kind leaf identifier).reads (by simp [nameKinds, kind]) ?_
      rw [entries_of_leaf leaf]
      exact nofun
  | @qualified node qualifier name annotations kind parts annotated qualifierKind nameKind qualifierTree nameTree =>
      have tree : IsTypeTree node :=
        .qualified kind parts annotated qualifierKind nameKind qualifierTree nameTree
      have isName : node.kind ∈ nameKinds := by simp [nameKinds, kind]
      refine (tree.spells isName).reads isName ?_
      rw [entries_of_qualified parts annotated qualifierKind nameKind]
      exact nofun
  | @generic node name list kind parts nameKind listKind entryKinds nameTree entryTrees _ ofEntries =>
      have tree : IsTypeTree node := .generic kind parts nameKind listKind entryKinds nameTree entryTrees
      have isName : node.kind ∈ nameKinds := by simp [nameKinds, kind]
      refine (tree.spells isName).reads isName ?_
      rw [entries_of_generic parts nameKind listKind]
      exact ofEntries
  | array kind role _ ofElement => exact reads_of_array kind role ofElement
  | annotated kind parts annotated innerKind _ ofInner =>
      exact reads_of_annotated kind parts annotated innerKind ofInner
  | wildcard kind tokens annotated => exact reads_of_wildcard kind tokens annotated
  | wildcardExtends kind tokens parts annotated boundKind _ ofBound =>
      exact reads_of_wildcardExtends kind tokens parts annotated boundKind ofBound
  | wildcardSuper kind tokens parts annotated wordKind boundKind _ ofBound =>
      exact reads_of_wildcardSuper kind tokens parts annotated wordKind boundKind ofBound

/-- Identifiers joined by dots hold no blanks, and no marks but the dots. -/
theorem clean_intercalate {names : List String} (identifiers : ∀ name ∈ names, IsIdentifier name) {char : Char}
    (held : char ∈ (String.intercalate "." names).toList) :
    char = '.' ∨ Text.isBlank char = false ∧ char ∉ typeMarks := by
  rw [String.toList_intercalate] at held
  rcases Text.mem_of_mem_intercalate held with dot | ⟨piece, listed, inPiece⟩
  · exact .inl (List.mem_singleton.mp dot)
  · obtain ⟨name, isName, rfl⟩ := List.mem_map.mp listed
    exact .inr ((identifiers name isName).clean char inPiece)

/--
The type of a name, however deep its qualifiers and arguments are, is a reference by the identifiers in it, joined by
dots in the order of the source; the last of them is the name of the class.  The arguments are what the wildcards and
types in its own list of type arguments are read as.
-/
theorem type_keepsIdentifiers (tree : IsTypeTree node) (kind : node.kind ∈ nameKinds) :
    ∃ qualifier last types, node.nameLeaves.map text = qualifier ++ [last] ∧
      node.type = .reference (String.intercalate "." (qualifier ++ [last])) last types .unresolved ∧
      types = node.entries.map type ∧ List.Forall₂ Reads node.entries types ∧
      Text.fields '.' (String.intercalate "." (qualifier ++ [last])) = qualifier ++ [last] ∧
      ∀ char ∈ (String.intercalate "." (qualifier ++ [last])).toList,
        char = '.' ∨ Text.isBlank char = false ∧ char ∉ typeMarks := by
  have spells := tree.spells kind
  obtain ⟨qualifier, last, leaves, named⟩ := spells.named (node.entries.map type)
  have identifiers : ∀ name ∈ qualifier ++ [last], IsIdentifier name := by
    rw [← leaves, List.forall_mem_map]
    exact spells.identifiers
  have read : List.Forall₂ Reads node.entries (node.entries.map type) :=
    List.forall₂_map_right_self fun entry listed => (spells.trees entry listed).reads
  have cut := fields_intercalate_identifiers identifiers (List.append_ne_nil_of_right_ne_nil _ (List.cons_ne_nil _ _))
  exact ⟨qualifier, last, node.entries.map type, leaves, spells.typed.trans named, rfl, read, cut,
    fun char => clean_intercalate identifiers⟩

/-! The type `Outer<A>./* c */@N Mid.Inner<? extends C, D>`. -/

def samplePart (kind text : String) (children : List SyntaxNode) : SyntaxNode :=
  ⟨kind, "", true, false, text, children⟩

def sampleIdentifier (name : String) : SyntaxNode :=
  samplePart "type_identifier" name []

def sampleArguments (inner : List SyntaxNode) : SyntaxNode :=
  samplePart "type_arguments" "" (sampleToken "<" :: (inner ++ [sampleToken ">"]))

def sampleOuter : SyntaxNode :=
  samplePart "generic_type" "" [sampleIdentifier "Outer", sampleArguments [sampleIdentifier "A"]]

def sampleMarker : SyntaxNode :=
  samplePart "marker_annotation" "@N" [samplePart "identifier" "N" []]

def sampleMid : SyntaxNode :=
  samplePart "scoped_type_identifier" "" [sampleOuter, sampleToken ".",
    ⟨"block_comment", "", true, true, "/* c */", []⟩, sampleMarker, sampleIdentifier "Mid"]

def sampleInner : SyntaxNode :=
  samplePart "scoped_type_identifier" "" [sampleMid, sampleToken ".", sampleIdentifier "Inner"]

def sampleWildcard : SyntaxNode :=
  samplePart "wildcard" "" [sampleToken "?", sampleToken "extends", sampleIdentifier "C"]

def sampleReference : SyntaxNode :=
  samplePart "generic_type" "" [sampleInner, sampleArguments [sampleWildcard, sampleToken ",", sampleIdentifier "D"]]

theorem isTypeTree_sampleReference : IsTypeTree sampleReference := by
  have names : ∀ name ∈ ["Outer", "A", "Mid", "Inner", "C", "D"], IsIdentifier name := by decide +kernel
  have identifier (name : String) (listed : name ∈ ["Outer", "A", "Mid", "Inner", "C", "D"]) :
      IsTypeTree (sampleIdentifier name) := .identifier rfl rfl (names name listed)
  have outer : IsTypeTree sampleOuter := by
    refine .generic rfl rfl (.inl rfl) rfl (by decide) (identifier "Outer" (by simp)) fun entry listed => ?_
    rw [List.mem_singleton.mp listed]
    exact identifier "A" (by simp)
  have mid : IsTypeTree sampleMid := by
    have parts : sampleMid.parts = sampleOuter :: ([sampleMarker] ++ [sampleIdentifier "Mid"]) := rfl
    exact .qualified rfl parts (by decide) (by decide) rfl outer (identifier "Mid" (by simp))
  have inner : IsTypeTree sampleInner := by
    have parts : sampleInner.parts = sampleMid :: ([] ++ [sampleIdentifier "Inner"]) := rfl
    exact .qualified rfl parts nofun (by decide) rfl mid (identifier "Inner" (by simp))
  have wildcard : IsTypeTree sampleWildcard := by
    have parts : sampleWildcard.parts = [] ++ [sampleIdentifier "C"] := rfl
    exact .wildcardExtends rfl (by decide) parts nofun (by decide) (identifier "C" (by simp))
  refine .generic rfl rfl (.inr rfl) rfl (by decide) inner fun entry listed => ?_
  rcases List.mem_pair.mp listed with rfl | rfl
  · exact wildcard
  · exact identifier "D" (by simp)

theorem type_keepsIdentifiers_sampleReference :
    IsTypeTree sampleReference ∧ sampleReference.kind ∈ nameKinds ∧
      sampleReference.type =
        .reference "Outer.Mid.Inner" "Inner" [.wildcardExtends (.named "C" []), .named "D" []] .unresolved := by
  have tree := isTypeTree_sampleReference
  have kind : sampleReference.kind ∈ nameKinds := by decide
  obtain ⟨qualifier, last, types, leaves, typed, read, -⟩ := type_keepsIdentifiers tree kind
  have spelled : sampleReference.nameLeaves.map text = ["Outer", "Mid"] ++ ["Inner"] := rfl
  obtain ⟨rfl, rfl⟩ := List.append_singleton_inj.mp (spelled.symm.trans leaves)
  refine ⟨tree, kind, ?_⟩
  rw [typed, read]
  rfl

end ApiDocs.SyntaxNode
