import ApiDocs.Proofs.Declaration.Relabelling
import ApiDocs.Proofs.Links

/-!
# Documentation mirrors declarations

The documentation of files has the shape of their declarations: each declaration is documented once and in its
place, under an address that says where it stands.
-/

namespace ApiDocs

namespace Documentation

/-- A text is that of the first tag for a parameter. -/
def IsFirstParam (documentation : Documentation) (name : String) (root : DocText) : Prop :=
  ∃ before after, documentation.tags = before ++ .param name root :: after ∧
    ∀ other, Tag.param name other ∉ before

theorem param?_eq_some_iff {documentation : Documentation} {name : String} {root : DocText} :
    documentation.param? name = some root ↔ documentation.IsFirstParam name root := by
  rw [param?, List.findSome?_eq_some_iff]
  constructor
  · rintro ⟨before, tag, after, split, here, others⟩
    obtain rfl : tag = .param name root := by
      cases tag <;> simp_all
    refine ⟨before, after, split, ?_⟩
    intro other earlier
    simpa using others _ earlier
  · rintro ⟨before, after, split, others⟩
    refine ⟨before, .param name root, after, split, if_pos rfl, ?_⟩
    intro tag earlier
    cases tag with
    | param other text =>
        apply if_neg
        rintro rfl
        exact others text earlier
    | _ => rfl

end Documentation

/-- A documented parameter stands for the one declared at a place of a callable, counted from 1. -/
structure Parameter.Mirrors (platform : PlatformData) (callable : Address) (comment : Documentation)
    (declared : ParameterDeclaration × Nat) (documented : Parameter) : Prop where
  address : documented.address = { callable with target := declared.2 }
  name : documented.name = declared.1.name
  type : documented.type = .ofType declared.1.type
  /-- Its documentation is the text of the first tag for its name in the comment of the callable, if there is one. -/
  documentation : ∃ own : Option DocText,
    documented.actual = [.on platform ⟨(own.map Tag.description).toList⟩] ∧
      ∀ root, own = some root ↔ comment.IsFirstParam declared.1.name root

/-- A documented function stands for a method or constructor that is declared in a class. -/
structure Function.Mirrors (platform : PlatformData) (owner : ClassName) (isConstructor : Bool)
    (declared : MethodDeclaration) (documented : Function) : Prop where
  packageName : documented.address.packageName = some owner.packageName
  classNames : documented.address.classNames = some owner.nesting
  target : documented.address.target = 0
  callable : ∃ callable, documented.address.callable = some callable ∧ callable.name = declared.name ∧
    callable.parameters.map TypeReference.name =
      declared.parameters.map fun parameter => parameter.type.canonicalText
  name : documented.name = if isConstructor then "<init>" else declared.name
  isConstructor : documented.isConstructor = isConstructor
  returnType : documented.returnType = declared.returnType.map TypeUsage.ofType
  documentation : documented.actual = [.on platform (.ofComment? declared.docComment)]
  parameters : List.Forall₂ (Parameter.Mirrors platform documented.address (.ofComment? declared.docComment))
    (declared.parameters.zipIdx 1) documented.parameters

/-- A documented property stands for a field that is declared in a class. -/
structure Property.Mirrors (platform : PlatformData) (owner : ClassName) (declared : FieldDeclaration)
    (documented : Property) : Prop where
  packageName : documented.address.packageName = some owner.packageName
  classNames : documented.address.classNames = some owner.nesting
  target : documented.address.target = 0
  callable : ∃ callable, documented.address.callable = some callable ∧ callable.name = declared.name ∧
    callable.parameters = []
  name : documented.name = declared.name
  type : documented.type = some (.ofType declared.type)
  documentation : documented.actual = [.on platform (.ofComment? declared.docComment)]

/-- The classes inside a class with a name, each with its own name. -/
def ClassDeclaration.namedInnerClasses (declared : ClassDeclaration) (name : ClassName) :
    List (ClassName × ClassDeclaration) :=
  declared.innerClasses.map fun inner => (name.inside [inner.name], inner)

/-- The outermost classes of a file, each with its name. -/
def SourceFile.namedClasses (file : SourceFile) : List (ClassName × ClassDeclaration) :=
  file.classes.map fun declared => (⟨file.packageName, [declared.name]⟩, declared)

/-- A documented class stands for a class that is declared under a name, member by member and at every depth.  The
constructors are those listed as such; what is listed among the methods and is a constructor is left out. -/
inductive Class.Mirrors (platform : PlatformData) : ClassName × ClassDeclaration → Class → Prop where
  | intro {name : ClassName} {declared : ClassDeclaration} {documented : Class}
      (address : documented.address = .ofClass name.packageName (String.intercalate "." name.classNames))
      (ownName : documented.name = declared.name)
      (documentation : documented.actual.map ClassInfo.info = [.on platform (.ofComment? declared.docComment)])
      (constructors :
        List.Forall₂ (Function.Mirrors platform name true) declared.constructors documented.constructors)
      (functions : List.Forall₂ (Function.Mirrors platform name false)
        (declared.methods.filter fun method => !method.isConstructor) documented.functions)
      (properties : List.Forall₂ (Property.Mirrors platform name) declared.fields documented.properties)
      (classes : List.Forall₂ (Mirrors platform) (declared.namedInnerClasses name) documented.classes) :
      Mirrors platform (name, declared) documented

/-- A documented package stands for a file. -/
structure Package.Mirrors (platform : PlatformData) (file : SourceFile) (documented : Package) : Prop where
  address : documented.address = .ofPackage file.packageName
  name : documented.name = file.packageName
  functions : documented.functions = []
  properties : documented.properties = []
  classes : List.Forall₂ (Class.Mirrors platform) file.namedClasses documented.classes

/-- Items that are numbered from 1 are related to their images at these places. -/
theorem forall₂_zipIdx_mapIdx {α β : Type} {related : α × Nat → β → Prop} {items : List α} {image : Nat → α → β}
    (all : ∀ item place, related (item, place + 1) (image place item)) :
    List.Forall₂ related (items.zipIdx 1) (items.mapIdx image) := by
  rw [List.zipIdx_succ, List.mapIdx_eq_zipIdx_map, List.forall₂_map_left_iff, List.forall₂_map_right_iff,
    List.forall₂_same]
  rintro ⟨item, place⟩ _
  exact all item place

variable {platform : PlatformData}

theorem Parameter.mirrors_ofDeclaration (callable : Address) (comment : Documentation) (place : Nat)
    (declared : ParameterDeclaration) :
    Mirrors platform callable comment (declared, place) (ofDeclaration platform callable comment place declared)
    where
  address := rfl
  name := rfl
  type := rfl
  documentation := ⟨comment.param? declared.name, rfl, fun _ => Documentation.param?_eq_some_iff⟩

theorem Function.mirrors_ofDeclaration (owner : ClassName) (isConstructor : Bool) (declared : MethodDeclaration) :
    Mirrors platform owner isConstructor declared (ofDeclaration platform owner.address isConstructor declared)
    where
  packageName := rfl
  classNames := rfl
  target := rfl
  callable := by
    refine ⟨_, rfl, rfl, ?_⟩
    rw [List.map_map]
    rfl
  name := rfl
  isConstructor := rfl
  returnType := rfl
  documentation := rfl
  parameters := forall₂_zipIdx_mapIdx fun parameter place => Parameter.mirrors_ofDeclaration _ _ (place + 1) parameter

theorem Property.mirrors_ofDeclaration (owner : ClassName) (declared : FieldDeclaration) :
    Mirrors platform owner declared (ofDeclaration platform owner.address declared) where
  packageName := rfl
  classNames := rfl
  target := rfl
  callable := ⟨_, rfl, rfl, rfl⟩
  name := rfl
  type := rfl
  documentation := rfl

/-- A class below a chain of classes has the address of its name. -/
theorem ClassName.inClass_inClasses (packageName : String) (outer : List String) (name : String) :
    ((Address.ofPackage packageName).inClasses outer).inClass name =
      (⟨packageName, outer ++ [name]⟩ : ClassName).address := by
  rw [← inClasses_ofPackage packageName (List.append_ne_nil_of_right_ne_nil outer (List.cons_ne_nil name []))]
  rw [Address.inClasses, Address.inClasses, List.foldl_append]
  rfl

theorem Class.mirrors_ofDeclaration (packageName : String) (outer : List String) (declared : ClassDeclaration) :
    Mirrors platform (⟨packageName, outer ++ [declared.name]⟩, declared)
      (ofDeclaration platform ((Address.ofPackage packageName).inClasses outer) declared) := by
  induction declared using ClassDeclaration.nested_induction generalizing outer with
  | step declared ih =>
      rw [ofDeclaration_eq, ClassName.inClass_inClasses]
      refine .intro rfl rfl rfl ?constructors ?functions ?properties ?classes
      case constructors => exact List.forall₂_map_right_self fun method _ => Function.mirrors_ofDeclaration _ _ method
      case functions => exact List.forall₂_map_right_self fun method _ => Function.mirrors_ofDeclaration _ _ method
      case properties => exact List.forall₂_map_right_self fun field _ => Property.mirrors_ofDeclaration _ field
      case classes =>
        rw [ClassDeclaration.namedInnerClasses, List.forall₂_map_left_iff]
        apply List.forall₂_map_right_self
        intro inner held
        have below := ih inner held (outer ++ [declared.name])
        rw [← ClassName.inClasses_ofPackage packageName
          (List.append_ne_nil_of_right_ne_nil outer (List.cons_ne_nil declared.name []))]
        exact below

theorem Package.mirrors_ofFile (file : SourceFile) : Mirrors platform file (ofFile platform file) where
  address := rfl
  name := rfl
  functions := rfl
  properties := rfl
  classes := by
    rw [SourceFile.namedClasses, List.forall₂_map_left_iff]
    apply List.forall₂_map_right_self
    intro declared _
    exact Class.mirrors_ofDeclaration file.packageName [] declared

/--
The documentation of files has one package for each file, in their order, and mirrors the declarations in each of
them.
-/
theorem Module.ofFiles_mirrors (name : String) (platform : PlatformData) (files : List SourceFile) :
    (ofFiles name platform files).name = name ∧
      List.Forall₂ (Package.Mirrors platform) files (ofFiles name platform files).packages :=
  ⟨rfl, List.forall₂_map_right_self fun file _ => Package.mirrors_ofFile file⟩

end ApiDocs
