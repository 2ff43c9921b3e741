import ApiDocs.Proofs.FileSystem.Locate
import ApiDocs.Proofs.Markdown.View

/-!
# The order of the classes on a page

A class has a position in its package: its number among its siblings, behind the numbers of the classes around it.  The
page of a package shows the class at each position once, in the order of the positions, which is that of a walk from
each class to the classes inside it.
-/

namespace ApiDocs

namespace Class

/-- What holds of a class as soon as it holds of the classes inside it holds of all classes. -/
@[elab_as_elim]
theorem nested_induction {motive : Class → Prop}
    (step : ∀ declared : Class, (∀ inner ∈ declared.classes, motive inner) → motive declared)
    (declared : Class) : motive declared :=
  step declared fun inner _ => nested_induction step inner
termination_by sizeOf declared
decreasing_by
  next held =>
    have smaller := List.sizeOf_lt_of_mem held
    cases declared
    simp_all
    omega

/-- The class at a position inside of a class, whose own position is empty. -/
def inside? (declared : Class) : List Nat → Option Class
  | [] => some declared
  | index :: rest => declared.classes[index]?.bind fun inner => inner.inside? rest

/-- The class at a position among classes and the classes inside them. -/
def among? (classes : List Class) : List Nat → Option Class
  | [] => none
  | index :: rest => classes[index]?.bind fun declared => declared.inside? rest

/-- The position with the next number among the siblings. -/
def nextPosition : List Nat → List Nat
  | [] => []
  | index :: rest => (index + 1) :: rest

theorem among?_next (first : Class) (rest : List Class) (position : List Nat) :
    among? (first :: rest) (nextPosition position) = among? rest position := by
  cases position <;> rfl

theorem nextPosition_lt {position other : List Nat} (before : position < other) :
    nextPosition position < nextPosition other := by
  cases before with
  | nil => exact .nil
  | rel smaller => exact .rel (Nat.succ_lt_succ smaller)
  | cons later => exact .cons later

theorem nextPosition_injective : Function.Injective nextPosition := by
  intro first second same
  cases first <;> cases second <;> simp_all [nextPosition]

theorem nextPosition_ne_zero_cons (position rest : List Nat) : nextPosition position ≠ 0 :: rest := by
  cases position <;> simp [nextPosition]

end Class

namespace Markdown

open ApiDocs.Class

/-! ### Members of a class -/

/-- The view of a class: the sections that are not empty have an entry for each constructor and then one for each
function, and the table has a row for each property. -/
structure ClassView.Shows (shown : ClassView) (declared : Class) : Prop where
  whole : shown = .ofClass declared
  sections : shown.sections =
    [⟨"Constructors", declared.constructors.map (.ofFunction declared.name)⟩,
      ⟨"Functions", declared.functions.map (.ofFunction declared.name)⟩].filter fun part => !part.functions.isEmpty
  entries : shown.sections.flatMap SectionView.functions =
    (declared.constructors ++ declared.functions).map (.ofFunction declared.name)
  properties : shown.properties = declared.properties.map .ofProperty

theorem SectionView.functions_ofFunctions (title className : String) (functions : List Function) :
    (ofFunctions title className functions).flatMap SectionView.functions = functions.map (.ofFunction className) := by
  cases functions <;> simp [ofFunctions]

theorem SectionView.ofFunctions_eq_filter (title className : String) (functions : List Function) :
    ofFunctions title className functions =
      [⟨title, functions.map (.ofFunction className)⟩].filter fun part => !part.functions.isEmpty := by
  cases functions <;> simp [ofFunctions]

theorem ClassView.shows_ofClass (declared : Class) : (ofClass declared).Shows declared where
  whole := rfl
  sections := by
    rw [ofClass, SectionView.ofFunctions_eq_filter, SectionView.ofFunctions_eq_filter, ← List.filter_append]
    rfl
  entries := by
    rw [ofClass, List.flatMap_append, SectionView.functions_ofFunctions, SectionView.functions_ofFunctions,
      List.map_append]
  properties := rfl

/-! ### Positions -/

/-- Positions ascend, a class stands at each of them and at no other position, and the views show these classes. -/
structure InOrder (at? : List Nat → Option Class) (positions : List (List Nat)) (views : List ClassView) : Prop where
  ascend : positions.Pairwise (· < ·)
  covers : ∀ position, position ∈ positions ↔ (at? position).isSome
  shown : List.Forall₂ (fun position view => ∃ declared, at? position = some declared ∧ view.Shows declared)
    positions views

theorem inOrder_nil : InOrder (among? []) [] [] := by
  refine ⟨.nil, fun position => ?_, .nil⟩
  cases position <;> simp [among?]

/-- A class comes before the classes inside it. -/
theorem InOrder.inside {declared : Class} {positions : List (List Nat)} {views : List ClassView}
    (inner : InOrder (among? declared.classes) positions views) :
    InOrder declared.inside? ([] :: positions) (.ofClass declared :: views) := by
  have nonempty (position : List Nat) (listed : position ∈ positions) :
      ∃ index rest, position = index :: rest := by
    cases position with
    | nil => exact absurd ((inner.covers []).mp listed) Bool.false_ne_true
    | cons index rest => exact ⟨index, rest, rfl⟩
  refine ⟨List.pairwise_cons.mpr ⟨?ascend, inner.ascend⟩, ?covers,
    .cons ⟨declared, rfl, ClassView.shows_ofClass declared⟩ ?shown⟩
  case ascend =>
    intro position listed
    obtain ⟨index, rest, rfl⟩ := nonempty position listed
    exact .nil
  case covers =>
    intro position
    cases position with
    | nil => exact iff_of_true List.mem_cons_self rfl
    | cons index rest =>
        rw [List.mem_cons, or_iff_right (List.cons_ne_nil _ _), inner.covers]
        rfl
  case shown =>
    refine inner.shown.imp fun position view shows => ?_
    cases position with
    | nil => exact absurd shows (by simp [among?])
    | cons index rest => exact shows

/-- The classes inside a class come before its next sibling. -/
theorem InOrder.cons {first : Class} {rest : List Class} {positions others : List (List Nat)}
    {views later : List ClassView} (here : InOrder first.inside? positions views)
    (behind : InOrder (among? rest) others later) :
    InOrder (among? (first :: rest)) (positions.map (0 :: ·) ++ others.map nextPosition) (views ++ later) := by
  refine ⟨?ascend, ?covers, ?shown⟩
  case ascend =>
    rw [List.pairwise_append, List.pairwise_map, List.pairwise_map]
    refine ⟨here.ascend.imp .cons, behind.ascend.imp nextPosition_lt, ?_⟩
    simp only [List.forall_mem_map]
    intro inner _ other listed
    cases other with
    | nil => exact absurd ((behind.covers []).mp listed) Bool.false_ne_true
    | cons index others => exact .rel (Nat.succ_pos index)
  case covers =>
    intro position
    rw [List.mem_append]
    rcases position with _ | ⟨_ | index, position⟩
    · refine iff_of_false ?_ Bool.false_ne_true
      rintro (inFirst | inRest)
      · simp at inFirst
      · have isOther := (List.mem_map_of_injective nextPosition_injective (a := [])).mp inRest
        exact absurd ((behind.covers []).mp isOther) Bool.false_ne_true
    · have notLater : 0 :: position ∉ others.map nextPosition := by
        rw [List.mem_map]
        rintro ⟨other, _, same⟩
        exact nextPosition_ne_zero_cons other position same
      rw [or_iff_left notLater, List.mem_map_of_injective (List.cons_injective), here.covers]
      rfl
    · have notFirst : (index + 1) :: position ∉ positions.map (0 :: ·) := by simp
      have isNext : (index + 1) :: position = nextPosition (index :: position) := rfl
      rw [or_iff_right notFirst, isNext, List.mem_map_of_injective nextPosition_injective, behind.covers, among?_next]
  case shown =>
    apply List.rel_append
    · rw [List.forall₂_map_left_iff]
      exact here.shown
    · rw [List.forall₂_map_left_iff]
      simpa only [among?_next] using behind.shown

/-- The classes among others are shown in the order of their positions, if those inside each of them are. -/
theorem exists_inOrder_flatMap {classes : List Class}
    (each : ∀ declared ∈ classes, ∃ positions, InOrder declared.inside? positions (ClassView.flatten declared)) :
    ∃ positions, InOrder (among? classes) positions (classes.flatMap ClassView.flatten) := by
  induction classes with
  | nil => exact ⟨[], inOrder_nil⟩
  | cons first rest ih =>
      obtain ⟨onFirst, onRest⟩ := List.forall_mem_cons.mp each
      obtain ⟨positions, here⟩ := onFirst
      obtain ⟨others, behind⟩ := ih onRest
      exact ⟨_, here.cons behind⟩

theorem exists_inOrder_flatten (declared : Class) :
    ∃ positions, InOrder declared.inside? positions (ClassView.flatten declared) := by
  induction declared using Class.nested_induction with
  | step declared ih =>
      obtain ⟨positions, inner⟩ := exists_inOrder_flatMap ih
      rw [ClassView.flatten_eq]
      exact ⟨_, inner.inside⟩

theorem exists_inOrder_ofPackage (package : Package) :
    ∃ positions, InOrder (among? package.classes) positions (PackageView.ofPackage package).classes := by
  rw [PackageView.ofPackage, ClassView.flattenAll_eq_flatMap]
  exact exists_inOrder_flatMap fun declared _ => exists_inOrder_flatten declared

/-! ### Links -/

/-- The page of a package stands where the index links to, unless the name of the package is an absolute path. -/
theorem path_packagePage {package : Package} (relative : package.name.toList.head? ≠ some '/') (stamp : Stamp)
    (moduleName : String) (place : Nat) :
    (packagePage stamp moduleName place (.ofPackage package)).path =
      "packages/" ++ (PackageView.ofPackage package).file := by
  have below : Path.isAbsolute (PackageView.ofPackage package).file = false := by
    unfold PackageView.ofPackage
    dsimp only
    split
    next => rfl
    next named => rwa [Path.isAbsolute_append named, Path.isAbsolute, beq_eq_false_iff_ne]
  have directory : "packages/" = "packages" ++ "/" := rfl
  rw [packagePage, Path.join, below, if_neg Bool.false_ne_true, if_neg (by decide), directory]

/--
The view of a package lists every class in it once, at all depths, in the order of their positions, and the page made
from the view has one section for each of them in this order, behind a heading.  In the index the row of the package
counts these classes and links to the page, unless the name of the package is an absolute path.
-/
theorem pages_listClasses (stamp : Stamp) (documented : Module) :
    ∃ index rows shown, pages stamp documented = index :: shown ∧
      index.content = stamp.frontMatter documented.name none 0 ++ ("# Module " ++ documented.name ++
        "\n\n| Package | Classes |\n|---------|---------|\n" ++ String.join rows) ∧
      rows.length = documented.packages.length ∧ shown.length = documented.packages.length ∧
      ∀ place package, documented.packages[place]? = some package →
        ∃ row page positions target, rows[place]? = some row ∧ shown[place]? = some page ∧
          InOrder (among? package.classes) positions (PackageView.ofPackage package).classes ∧
          page.content =
            stamp.frontMatter documented.name (some (PackageView.ofPackage package).name) (place + 1) ++
              packageBody (.ofPackage package) ∧
          packageBody (.ofPackage package) = "# Package " ++ (PackageView.ofPackage package).name ++ "\n" ++
            String.join ((PackageView.ofPackage package).classes.map ClassView.text) ∧
          row = "| [" ++ (PackageView.ofPackage package).name ++ "](" ++ target ++ ") | " ++
            toString positions.length ++ " |\n" ∧
          (package.name.toList.head? ≠ some '/' → page.path = target) := by
  refine ⟨_, (documented.packages.map PackageView.ofPackage).map PackageView.indexRow, _, rfl, rfl, by simp, by simp,
    ?_⟩
  intro place package found
  obtain ⟨positions, inOrder⟩ := exists_inOrder_ofPackage package
  refine ⟨(PackageView.ofPackage package).indexRow,
    packagePage stamp documented.name (place + 1) (.ofPackage package), positions,
    "packages/" ++ (PackageView.ofPackage package).file, by simp [found], by simp [found], inOrder, rfl, rfl, ?row,
    ?path⟩
  case row =>
    have directory : "](packages/" = "](" ++ "packages/" := rfl
    rw [PackageView.indexRow, inOrder.shown.length_eq, directory]
    simp only [String.append_assoc]
  case path => exact fun relative => path_packagePage relative stamp documented.name (place + 1)

/-! A package with the classes `A`, in which are `B` and `D`, and `E`; in `B` is `C`. -/

def sampleHolder (classNames : String) (classes : List Class) : Class :=
  { address := ⟨some "p", some classNames, none, 0, none⟩
    name := classNames
    kind := .plainClass
    constructors := []
    functions := []
    properties := []
    classes
    expected := none
    actual := []
    extra := .empty
    visibility := .empty }

def sampleHolders : Package :=
  ⟨.ofPackage "p", "p", [], [], [
    sampleHolder "A" [sampleHolder "A.B" [sampleHolder "A.B.C" []], sampleHolder "A.D" []],
    sampleHolder "E" []]⟩

/-- The row of the package counts five classes, and the last of those in `A` stands at the position `0, 1`. -/
theorem pages_listClasses_sampleHolders :
    (⟨"m", [sampleHolders]⟩ : Module).packages[0]? = some sampleHolders ∧
      sampleHolders.name.toList.head? ≠ some '/' ∧
      ∃ index page row positions, pages ⟨false, "", fun _ => ""⟩ ⟨"m", [sampleHolders]⟩ = [index, page] ∧
        InOrder (among? sampleHolders.classes) positions (PackageView.ofPackage sampleHolders).classes ∧
        [0, 1] ∈ positions ∧ row = "| [" ++ "p" ++ "](" ++ page.path ++ ") | " ++ "5" ++ " |\n" ∧
        index.content = "# Module m\n\n| Package | Classes |\n|---------|---------|\n" ++ row := by
  have relative : sampleHolders.name.toList.head? ≠ some '/' := by decide
  obtain ⟨index, rows, shown, listed, content, one, single, each⟩ :=
    pages_listClasses ⟨false, "", fun _ => ""⟩ ⟨"m", [sampleHolders]⟩
  obtain ⟨row, page, positions, target, isRow, isPage, inOrder, _, _, rowEq, linked⟩ := each 0 sampleHolders rfl
  have five : positions.length = 5 := inOrder.shown.length_eq
  obtain ⟨onlyRow, rfl⟩ := List.length_eq_one_iff.mp one
  obtain ⟨onlyPage, rfl⟩ := List.length_eq_one_iff.mp single
  obtain rfl := Option.some.inj isRow
  obtain rfl := Option.some.inj isPage
  refine ⟨rfl, relative, index, onlyPage, onlyRow, positions, listed, inOrder, (inOrder.covers [0, 1]).mpr rfl, ?_, ?_⟩
  · rw [rowEq, linked relative, five]
    rfl
  · simp [content, String.join, Stamp.frontMatter]

end Markdown

end ApiDocs
