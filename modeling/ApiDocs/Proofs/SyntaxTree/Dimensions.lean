import ApiDocs.Proofs.SyntaxTree.Members

/-!
# Brackets behind types and names

The brackets behind a type, a field, a parameter or the parameters of a method make arrays of what is declared.  They
are counted in the source text of all dimensions together, where annotations and comments may stand between the
brackets: a bracket inside of one of these counts as well.
-/

namespace ApiDocs.SyntaxNode

/-- A text is made of the texts of nodes in their order, with blanks before, between and behind them. -/
inductive LaidOut : List SyntaxNode → List Char → Prop where
  | nil (gap : List Char) (blank : ∀ char ∈ gap, Text.isBlank char = true) : LaidOut [] gap
  | cons (gap : List Char) (blank : ∀ char ∈ gap, Text.isBlank char = true) {node : SyntaxNode}
      {rest : List SyntaxNode} {behind : List Char} (later : LaidOut rest behind) :
      LaidOut (node :: rest) (gap ++ node.text.toList ++ behind)

def isBracket (node : SyntaxNode) : Bool :=
  ["[", "]"].contains node.kind && node.text == node.kind

/-- Annotations and comments. -/
def isRemark (node : SyntaxNode) : Bool :=
  ["annotation", "marker_annotation", "line_comment", "block_comment"].contains node.kind

/-- A list of dimensions: brackets with annotations and comments between them. -/
structure IsDimensions (dimensions : SyntaxNode) : Prop where
  laidOut : LaidOut dimensions.children dimensions.text.toList
  children : ∀ child ∈ dimensions.children, child.isBracket = true ∨ child.isRemark = true

theorem isBracket_iff {node : SyntaxNode} :
    node.isBracket = true ↔ (node.kind = "[" ∨ node.kind = "]") ∧ node.text = node.kind := by
  simp [isBracket]

/-- How many of the tokens are opening brackets. -/
def bracketCount (dimensions : SyntaxNode) : Nat :=
  dimensions.children.countP fun child => child.kind == "["

/-- How many opening brackets the annotations and comments have in their texts. -/
def hiddenCount (dimensions : SyntaxNode) : Nat :=
  ((dimensions.children.filter isRemark).flatMap fun child => child.text.toList).count '['

/-- Blanks hold no brackets. -/
theorem LaidOut.count_eq {nodes : List SyntaxNode} {text : List Char} (laidOut : LaidOut nodes text) :
    text.count '[' = (nodes.flatMap fun node => node.text.toList).count '[' := by
  have noBracket {gap : List Char} (blank : ∀ char ∈ gap, Text.isBlank char = true) : gap.count '[' = 0 :=
    List.count_eq_zero.mpr fun listed => absurd (blank '[' listed) (by decide)
  induction laidOut with
  | nil gap blank => exact noBracket blank
  | cons gap blank later ih =>
      rw [List.count_append, List.count_append, noBracket blank, ih, List.flatMap_cons, List.count_append, Nat.zero_add]

/-- Among brackets and remarks, the brackets in the texts are the tokens and those inside of the remarks. -/
theorem count_flatMap_eq {nodes : List SyntaxNode}
    (all : ∀ node ∈ nodes, node.isBracket = true ∨ node.isRemark = true) :
    (nodes.flatMap fun node => node.text.toList).count '[' =
      nodes.countP (fun node => node.kind == "[") +
        ((nodes.filter isRemark).flatMap fun node => node.text.toList).count '[' := by
  induction nodes with
  | nil => rfl
  | cons first rest ih =>
      obtain ⟨here, later⟩ := List.forall_mem_cons.mp all
      rw [List.flatMap_cons, List.count_append, List.countP_cons, List.filter_cons, ih later]
      rcases here with bracket | remark
      · obtain ⟨opening | closing, text⟩ := isBracket_iff.mp bracket
        · simp [opening, text, isRemark]
          omega
        · simp [closing, text, isRemark]
      · have noToken : first.kind ≠ "[" := by
          rintro token
          simp [isRemark, token] at remark
        simp [remark, noToken]
        omega

/-- The brackets that are counted for dimensions are the tokens and those inside of annotations and comments. -/
theorem IsDimensions.dimensionCount_eq {dimensions : SyntaxNode} (isDimensions : dimensions.IsDimensions) :
    dimensionCount (some dimensions) = dimensions.bracketCount + dimensions.hiddenCount := by
  rw [dimensionCount, isDimensions.laidOut.count_eq]
  exact count_flatMap_eq isDimensions.children

theorem sizeOf_nestArrays (element : JavaType) (depth : Nat) :
    sizeOf (nestArrays element depth) = sizeOf element + depth := by
  induction depth with
  | zero => rfl
  | succ depth ih =>
      rw [nestArrays, JavaType.array.sizeOf_spec, ih]
      omega

/-- Arrays of different depths differ. -/
theorem nestArrays_injective (element : JavaType) : Function.Injective (nestArrays element) := by
  intro first second same
  have sizes := congrArg sizeOf same
  rw [sizeOf_nestArrays, sizeOf_nestArrays] at sizes
  omega

/-- What is built of a declared type and dimensions: arrays as deep as brackets are counted, which is once for each
opening bracket exactly if no annotation or comment holds a further one. -/
structure Nests (declared : JavaType) (dimensions : SyntaxNode) (built : JavaType) : Prop where
  layers : built = nestArrays declared (dimensions.bracketCount + dimensions.hiddenCount)
  exact_iff : built = nestArrays declared dimensions.bracketCount ↔ dimensions.hiddenCount = 0

theorem IsDimensions.nests {dimensions : SyntaxNode} (isDimensions : dimensions.IsDimensions) (declared : JavaType) :
    Nests declared dimensions (withDimensions declared (some dimensions)) := by
  have layers : withDimensions declared (some dimensions) =
      nestArrays declared (dimensions.bracketCount + dimensions.hiddenCount) := by
    rw [withDimensions, isDimensions.dimensionCount_eq]
  refine ⟨layers, ?_⟩
  rw [layers, (nestArrays_injective declared).eq_iff]
  omega

variable {node declared dimensions : SyntaxNode}

/-- An array node takes the type in the role of its element, as deep as its dimensions say. -/
theorem type_of_array {element : SyntaxNode} (isArray : node.kind = "array_type")
    (typed : node.child? "element" = some element) :
    node.type = withDimensions element.type (node.child? "dimensions") := by
  have found (children : List SyntaxNode) :
      type.elementType? children = (children.find? fun child => child.field == "element").map type := by
    induction children with
    | nil => rfl
    | cons first rest ih =>
        rw [type.elementType?, List.find?_cons]
        by_cases isElement : first.field = "element"
        · rw [if_pos isElement, beq_iff_eq.mpr isElement]
          rfl
        · rw [if_neg isElement, beq_false_of_ne isElement, ih]
  rcases node with ⟨kind, field, isNamed, isExtra, text, children⟩
  obtain rfl : kind = "array_type" := isArray
  have inner : type.elementType? children = some element.type := by
    rw [found]
    exact congrArg (Option.map type) typed
  rw [type]
  simp only [inner, Option.getD_some]
  rfl

/-- One field for each named declarator, of the declared type inside of the arrays that its brackets make. -/
theorem forall₂_fields_nest (isDimensions : dimensions.IsDimensions) (owner : String) (preceding : List SyntaxNode)
    (typed : node.child? "type" = some declared) :
    List.Forall₂
      (fun (declarator : SyntaxNode) (field : FieldDeclaration) => declarator.name? = some field.name ∧
        (declarator.child? "dimensions" = some dimensions → Nests declared.type dimensions field.type))
      ((node.childrenIn "declarator").filter fun declarator => declarator.name?.isSome)
      (node.fields owner preceding) := by
  have read := @forall₂_fields owner ⟨preceding, node⟩
  rw [typed, List.forall₂_map_left_iff] at read
  refine read.imp fun declarator field source => ?_
  cases source with
  | declarator found named =>
      obtain rfl := Option.some.inj (typed.symm.trans found)
      refine ⟨named, fun bracketed => ?_⟩
      rw [bracketed]
      exact isDimensions.nests declared.type

/--
Behind the name of a field or parameter, behind the parameters of a method and behind the element of an array, brackets
make arrays of the declared type: one for each opening bracket among the tokens, and a further one for each opening
bracket in the texts of the annotations and comments between them.
-/
theorem arrays_followBrackets (isDimensions : dimensions.IsDimensions) :
    (∀ (owner : String) (preceding : List SyntaxNode) (node declared : SyntaxNode), node.child? "type" = some declared →
      List.Forall₂
        (fun (declarator : SyntaxNode) (field : FieldDeclaration) => declarator.name? = some field.name ∧
          (declarator.child? "dimensions" = some dimensions → Nests declared.type dimensions field.type))
        ((node.childrenIn "declarator").filter fun declarator => declarator.name?.isSome)
        (node.fields owner preceding)) ∧
    (∀ (node declared : SyntaxNode) (name : String), node.kind = "formal_parameter" →
      node.child? "type" = some declared → node.name? = some name → node.child? "dimensions" = some dimensions →
        ∃ built, node.parameter? = some ⟨name, built⟩ ∧ Nests declared.type dimensions built) ∧
    (∀ (owner : String) (preceding : List SyntaxNode) (node declared : SyntaxNode), node.name?.isSome →
      node.child? "type" = some declared → node.child? "dimensions" = some dimensions →
        ∃ method built, node.method? owner preceding = some method ∧ method.returnType = some built ∧
          Nests declared.type dimensions built) ∧
    ∀ node element : SyntaxNode, node.kind = "array_type" → node.child? "element" = some element →
      node.child? "dimensions" = some dimensions → Nests element.type dimensions node.type := by
  refine ⟨fun owner preceding node declared => forall₂_fields_nest isDimensions owner preceding, ?parameter, ?method,
    ?array⟩
  case parameter =>
    intro node declared name isParameter typed named bracketed
    refine ⟨_, ?_, isDimensions.nests declared.type⟩
    simp only [parameter?, isParameter, typed, named, bracketed]
    rfl
  case method =>
    intro owner preceding node declared named typed bracketed
    have declares : (node.method? owner preceding).isSome := by
      rw [isSome_method?, named, typed]
      rfl
    obtain ⟨method, made⟩ := Option.isSome_iff_exists.mp declares
    obtain ⟨type, found, returns⟩ := (@isMethod_of_method? owner ⟨preceding, node⟩ method made).returnType
    obtain rfl := Option.some.inj (typed.symm.trans found)
    refine ⟨method, _, made, returns, ?_⟩
    rw [bracketed]
    exact isDimensions.nests declared.type
  case array =>
    intro node element isArray typed bracketed
    rw [type_of_array isArray typed, bracketed]
    exact isDimensions.nests element.type

/-! Dimensions with a bracket inside of a comment, behind the name of a field, of a parameter and of a method, and
behind an element type. -/

def sampleToken (kind : String) : SyntaxNode :=
  ⟨kind, "", false, false, kind, []⟩

def sampleInteger (field : String) : SyntaxNode :=
  ⟨"integral_type", field, true, false, "int", []⟩

def sampleDimensions : SyntaxNode :=
  ⟨"dimensions", "dimensions", true, false, "[]/* [ */[ ]",
    [sampleToken "[", sampleToken "]", ⟨"block_comment", "", true, true, "/* [ */", []⟩, sampleToken "[",
      sampleToken "]"]⟩

/-- A parameter or method named `x`. -/
def sampleDeclaration (kind : String) : SyntaxNode :=
  ⟨kind, "", true, false, "", [sampleInteger "type", ⟨"identifier", "name", true, false, "x", []⟩, sampleDimensions]⟩

def sampleField : SyntaxNode :=
  ⟨"field_declaration", "", true, false, "", [sampleInteger "type",
    ⟨"variable_declarator", "declarator", true, false, "",
      [⟨"identifier", "name", true, false, "x", []⟩, sampleDimensions]⟩]⟩

def sampleArray : SyntaxNode :=
  ⟨"array_type", "type", true, false, "int[]/* [ */[ ]", [sampleInteger "element", sampleDimensions]⟩

theorem isDimensions_sampleDimensions : sampleDimensions.IsDimensions where
  laidOut := by
    have space : ∀ char ∈ [' '], Text.isBlank char = true := List.all_eq_true.mp rfl
    exact .cons [] nofun (.cons [] nofun (.cons [] nofun (.cons [] nofun (.cons [' '] space (.nil [] nofun)))))
  children := by decide

theorem arrays_followBrackets_sampleDimensions :
    sampleDimensions.IsDimensions ∧ sampleDimensions.bracketCount = 2 ∧ sampleDimensions.hiddenCount = 1 ∧
      (∃ field, sampleField.fields "A" [] = [field] ∧ Nests (.primitive "int") sampleDimensions field.type) ∧
      (∃ built, (sampleDeclaration "formal_parameter").parameter? = some ⟨"x", built⟩ ∧
        Nests (.primitive "int") sampleDimensions built) ∧
      (∃ method built, (sampleDeclaration "method_declaration").method? "A" [] = some method ∧
        method.returnType = some built ∧ Nests (.primitive "int") sampleDimensions built) ∧
      Nests (.primitive "int") sampleDimensions sampleArray.type := by
  have isDimensions := isDimensions_sampleDimensions
  obtain ⟨fields, parameters, methods, arrays⟩ := arrays_followBrackets isDimensions
  refine ⟨isDimensions, by decide, by decide, ?field, ?parameter, ?method, ?array⟩
  case field =>
    obtain ⟨_, nests⟩ := (List.forall₂_cons.mp (fields "A" [] sampleField _ rfl)).1
    exact ⟨_, rfl, nests rfl⟩
  case parameter =>
    exact parameters (sampleDeclaration "formal_parameter") (sampleInteger "type") "x" rfl rfl rfl rfl
  case method =>
    exact methods "A" [] (sampleDeclaration "method_declaration") (sampleInteger "type") rfl rfl rfl
  case array => exact arrays sampleArray (sampleInteger "element") rfl rfl rfl

/-- The bracket in the comment makes a third array of two pairs of brackets. -/
theorem arrays_countRemarks_sampleArray :
    sampleDimensions.IsDimensions ∧ sampleDimensions.bracketCount = 2 ∧
      sampleArray.type = nestArrays (.primitive "int") 3 ∧ sampleArray.type ≠ nestArrays (.primitive "int") 2 := by
  have built : sampleArray.type = nestArrays (.primitive "int") 3 := rfl
  refine ⟨isDimensions_sampleDimensions, by decide, built, ?_⟩
  rw [built]
  exact (nestArrays_injective _).ne (by decide)

end ApiDocs.SyntaxNode
