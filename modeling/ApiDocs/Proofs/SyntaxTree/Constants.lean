import ApiDocs.Proofs.Enclosing
import ApiDocs.Proofs.Links
import ApiDocs.Proofs.SyntaxTree.Documented

/-!
# Types of enum constants

A constant of an enum has the enum for its type, which is written by its simple name alone.  The name is found from
within the enum, so that the type leads to the documentation of the enum.
-/

namespace ApiDocs

open SyntaxNode

/-- A property of an enum constant has a type that leads to the class at an address. -/
structure Property.StandsForConstant (platform : PlatformData) (owner : Address) (source : FieldSource)
    (documented : Property) : Prop extends Property.StandsFor platform source documented where
  type : ∀ place, source = .enumConstant place → ∃ usage, documented.type = some usage ∧ usage.address = some owner

/-- At every depth the types of the constants of a class lead to the class itself. -/
inductive Class.TypesConstants (platform : PlatformData) : Placed → Class → Prop where
  | intro {place : Placed} {documented : Class}
      (properties : List.Forall₂ (Property.StandsForConstant platform documented.address) place.fields
        documented.properties)
      (classes : List.Forall₂ (TypesConstants platform) place.innerClasses documented.classes) :
      TypesConstants platform place documented

theorem ClassDeclaration.Encloses.concat {outer declared inner : ClassDeclaration} {chain : List ClassDeclaration}
    (encloses : outer.Encloses chain declared) (held : inner ∈ declared.innerClasses) :
    outer.Encloses (chain ++ [inner]) inner := by
  induction encloses with
  | self declared => exact .inside held (.self inner)
  | inside among _ ih => exact .inside among (ih held)

theorem Scope.within_concat (scope : Scope) (chain : List ClassDeclaration) (declared : ClassDeclaration) :
    scope.within (chain ++ [declared]) = (scope.within chain).enter declared.name declared.typeParameters := by
  simp [within, enter]

theorem Address.inClasses_concat (address : Address) (names : List String) (name : String) :
    address.inClasses (names ++ [name]) = (address.inClasses names).inClass name :=
  List.foldl_concat ..

namespace PlainlyNamed

variable {files : List SourceFile} {file : SourceFile} {outermost declared : ClassDeclaration}
  {around : List ClassDeclaration}

/-- In its own class the simple name of a class, as the type of a field, means the class. -/
theorem meaning_ownName (named : PlainlyNamed files) (listed : file ∈ files) (held : outermost ∈ file.classes)
    (encloses : outermost.Encloses (around ++ [declared]) declared) {field : FieldDeclaration}
    (declares : field ∈ declared.fields) (typed : field.type = .named declared.name []) :
    (files.foldl ClassIndex.addFile .wellKnown).meaning (file.scope.within (around ++ [declared])) declared.name =
      .classNamed ⟨file.packageName, around.map ClassDeclaration.name ++ [declared.name]⟩ := by
  have mentions : file.Mentions (file.scope.within (around ++ [declared])) field.type :=
    ⟨outermost, held, _, declared, encloses, .field declares⟩
  have enclosing : (file.scope.within (around ++ [declared])).enclosing.reverse =
      around.map ClassDeclaration.name ++ declared.name :: [] := by
    simp [Scope.within, SourceFile.scope]
  have enclosed : declared.name ∈ (file.scope.within (around ++ [declared])).enclosing := by
    rw [← List.mem_reverse, enclosing]
    exact List.mem_append_right _ List.mem_cons_self
  have unshadowed := named.unshadowed file listed _ _ mentions
  rw [typed, JavaType.named, JavaType.everyReference_reference_iff] at unshadowed
  exact named.meaning_enclosing listed rfl mentions.enclosing_mem enclosing (unshadowed.1 enclosed)

theorem typesConstants_ofDeclaration (named : PlainlyNamed files) (listed : file ∈ files)
    (held : outermost ∈ file.classes) (platform : PlatformData) {place : Placed} (read : declared.ReadFrom place)
    (encloses : outermost.Encloses (around ++ [declared]) declared) :
    Class.TypesConstants platform place
      (.ofDeclaration platform ((Address.ofPackage file.packageName).inClasses (around.map ClassDeclaration.name))
        (declared.resolve (files.foldl ClassIndex.addFile .wellKnown) (file.scope.within around))) := by
  induction place using Placed.members_induction generalizing declared around with
  | step place ih =>
      obtain ⟨_, _, _, fields, _, _, innerClasses⟩ := read
      rw [ClassDeclaration.resolve_eq, Class.ofDeclaration_eq]
      refine .intro ?properties ?classes
      case properties =>
        obtain ⟨sameLength, read⟩ := List.forall₂_iff_zip.mp fields
        rw [List.forall₂_map_right_iff, List.forall₂_map_right_iff]
        refine List.forall₂_iff_zip.mpr ⟨sameLength, ?_⟩
        intro source field zipped
        refine ⟨Property.standsFor_ofDeclaration (read zipped) _ _, ?_⟩
        rintro constant rfl
        have typed : field.type = .named declared.name [] := by
          cases read zipped
          rfl
        have meant := named.meaning_ownName listed held encloses (List.of_mem_zip zipped).2 typed
        rw [Scope.within_concat] at meant
        refine ⟨_, rfl, ?_⟩
        rw [FieldDeclaration.resolve, typed, JavaType.named, JavaType.resolve_reference, meant, ← Address.inClasses_concat,
          ClassName.inClasses_ofPackage _ (List.concat_ne_nil _ _)]
        rfl
      case classes =>
        obtain ⟨sameLength, read⟩ := List.forall₂_iff_zip.mp innerClasses
        rw [List.forall₂_map_right_iff, List.forall₂_map_right_iff]
        refine List.forall₂_iff_zip.mpr ⟨sameLength, ?_⟩
        intro member inner zipped
        obtain ⟨isMember, isInner⟩ := List.of_mem_zip zipped
        have inside := ih member (List.mem_of_mem_filter isMember) (read zipped) (encloses.concat isInner)
        rw [Scope.within_concat, List.map_append, List.map_singleton, Address.inClasses_concat] at inside
        exact inside

end PlainlyNamed

namespace SourceFile

/--
In files that are indexed together, every reference by the simple name of an enclosing class means this class, however
deep it stands.  So the constants of an enum, at every depth, have types that lead to the documentation of the enum.
-/
theorem resolve_seesEnclosing {files : List SourceFile} (named : PlainlyNamed files) {file : SourceFile}
    (listed : file ∈ files) :
    let resolved := file.resolve (files.foldl ClassIndex.addFile .wellKnown)
    (resolved.EveryReference fun scope written resolution =>
      ∀ outer inner, scope.enclosing.reverse = outer ++ written :: inner →
        resolution = .classNamed ⟨file.packageName, outer ++ [written]⟩) ∧
    ∀ path root, file = ofSyntax path root → ∀ platform,
      List.Forall₂ (Class.TypesConstants platform) root.outermostClasses (Package.ofFile platform resolved).classes := by
  refine ⟨named.resolve_enclosing listed, ?_⟩
  rintro path root rfl platform
  obtain ⟨sameLength, read⟩ := List.forall₂_iff_zip.mp (readFrom_ofSyntax path root)
  rw [Package.ofFile, resolve, List.forall₂_map_right_iff, List.forall₂_map_right_iff]
  refine List.forall₂_iff_zip.mpr ⟨sameLength, ?_⟩
  intro place declared zipped
  have encloses : declared.Encloses ([] ++ [declared]) declared := .self declared
  exact named.typesConstants_ofDeclaration listed (List.of_mem_zip zipped).2 platform (read zipped) encloses

/-! In the package `app` the class `Palette` has an enum `Colour` with one constant. -/

def sampleIdentifier (name : String) : SyntaxNode :=
  sampleNode "identifier" "name" name []

def sampleNested : SyntaxNode :=
  let constants := sampleNode "enum_body" "body" "" [sampleNode "enum_constant" "" "" [sampleIdentifier "RED"]]
  let colour := sampleNode "enum_declaration" "" "" [sampleIdentifier "Colour", constants]
  let body := sampleNode "class_body" "body" "" [colour]
  sampleNode "program" "" ""
    [sampleNode "package_declaration" "" "" [sampleIdentifier "app"],
      sampleNode "class_declaration" "" "" [sampleIdentifier "Palette", body]]

def samplePaletteFile : SourceFile :=
  ofSyntax "app/Palette.java" sampleNested

def sampleColour : ClassDeclaration :=
  { name := "Colour", isAnnotationType := false, isInterface := false, isEnum := true, isRecord := false,
    modifiers := none, docComment := none, typeParameters := [], superTypes := [], constructors := [], methods := [],
    fields := [⟨"RED", some "Colour", none, none, .named "Colour" []⟩], innerClasses := [] }

theorem classes_samplePaletteFile : samplePaletteFile.classes =
    [{ sampleColour with name := "Palette", isEnum := false, fields := [], innerClasses := [sampleColour] }] :=
  rfl

/-- A field of the enum in the sample stands in no scope with type parameters or imports. -/
theorem plainlyNamed_samplePaletteFile : PlainlyNamed [samplePaletteFile] where
  noDot := by decide +kernel
  distinct := by decide +kernel
  package := by decide +kernel
  unshadowed := by
    intro file listed
    obtain rfl := List.mem_singleton.mp listed
    rintro scope type ⟨outer, held, chain, found, encloses, mentions⟩
    rw [classes_samplePaletteFile, List.mem_singleton] at held
    subst held
    cases encloses with
    | self =>
        cases mentions with
        | superType none => cases none
        | field none => cases none
        | method none => cases none
    | inside held later =>
        obtain rfl := List.mem_singleton.mp held
        cases later with
        | inside none => cases none
        | self =>
            cases mentions with
            | superType none => cases none
            | method none => cases none
            | field among =>
                obtain rfl := List.mem_singleton.mp among
                rw [JavaType.named, JavaType.everyReference_reference_iff]
                refine ⟨fun _ => ⟨List.not_mem_nil, ?_⟩, ?_⟩
                · exact fun _ none => absurd none List.not_mem_nil
                · exact fun _ none => absurd none List.not_mem_nil

theorem resolve_seesEnclosing_samplePaletteFile :
    let resolved := samplePaletteFile.resolve ([samplePaletteFile].foldl ClassIndex.addFile .wellKnown)
    PlainlyNamed [samplePaletteFile] ∧ sampleNested.outermostClasses.length = 1 ∧
      ∀ platform, List.Forall₂ (Class.TypesConstants platform) sampleNested.outermostClasses
        (Package.ofFile platform resolved).classes :=
  ⟨plainlyNamed_samplePaletteFile, rfl,
    (resolve_seesEnclosing plainlyNamed_samplePaletteFile List.mem_cons_self).2 _ _ rfl⟩

end SourceFile

end ApiDocs
