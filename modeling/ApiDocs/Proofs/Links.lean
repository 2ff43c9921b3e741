import ApiDocs.Proofs.Model.Declared
import Mathlib.Data.List.Infix

/-!
# Links to declared classes

The address of a class is computed in two ways: down the nesting of the declarations when they are documented,
and from the name that a reference was resolved to when a type is used.  Both ways lead to the same place.
-/

namespace ApiDocs

namespace Address

/-- The address at the end of a chain of classes inside the class or package at an address. -/
def inClasses (address : Address) (names : List String) : Address :=
  names.foldl inClass address

theorem inClasses_ofClass (packageName outer : String) (names : List String) :
    (ofClass packageName outer).inClasses names =
      ofClass packageName (String.intercalate "." (outer :: names)) := by
  induction names generalizing outer with
  | nil => rw [String.intercalate_singleton]; rfl
  | cons name rest ih =>
      have step : (ofClass packageName outer).inClass name =
          ofClass packageName (outer ++ "." ++ name) := rfl
      have joined : String.intercalate "." ((outer ++ "." ++ name) :: rest) =
          String.intercalate "." (outer :: name :: rest) := by
        rw [String.intercalate_cons_append, String.intercalate_cons_cons]
      calc
        (ofClass packageName outer).inClasses (name :: rest) =
            (ofClass packageName (outer ++ "." ++ name)).inClasses rest := by
          rw [inClasses, List.foldl_cons, step]
          rfl
        _ = ofClass packageName (String.intercalate "." (outer :: name :: rest)) := by
          rw [ih, joined]

end Address

namespace ClassName

/-- The address found down a chain of names is that of the class with this chain. -/
theorem inClasses_ofPackage (packageName : String) {names : List String} (nonempty : names ≠ []) :
    (Address.ofPackage packageName).inClasses names = (⟨packageName, names⟩ : ClassName).address := by
  cases names with
  | nil => exact absurd rfl nonempty
  | cons first rest => exact Address.inClasses_ofClass packageName first rest

/-- The path of a class: on the way stand the classes around it, from the outermost one on. -/
def path (name : ClassName) : DeclarationPath where
  package := .ofPackage name.packageName
  steps := name.classNames.inits.tail.map fun names =>
    (.classlike, (⟨name.packageName, names⟩ : ClassName).address)

end ClassName

/-- The steps down a chain of classes inside the class or package at an address. -/
def classSteps (outer : Address) (names : List String) : List (MemberKind × Address) :=
  names.inits.tail.map fun above => (.classlike, outer.inClasses above)

theorem classSteps_cons (outer : Address) (name : String) (rest : List String) :
    classSteps outer (name :: rest) =
      (.classlike, outer.inClass name) :: classSteps (outer.inClass name) rest := by
  have begins : rest.inits = [] :: rest.inits.tail := by
    cases rest <;> simp
  rw [classSteps, List.inits_cons, List.tail_cons, List.map_map, begins, List.map_cons]
  exact congrArg _ (List.map_congr_left fun _ _ => rfl)

/-- The steps to a class are those down its chain of names. -/
theorem ClassName.steps_path (name : ClassName) :
    name.path.steps = classSteps (.ofPackage name.packageName) name.classNames := by
  refine List.map_congr_left fun names listed => ?_
  have nonempty : names ≠ [] := by
    rintro rfl
    cases chain : name.classNames <;> simp [chain] at listed
  rw [inClasses_ofPackage _ nonempty]

namespace Class

/-- The documentation of a class stands at the end of its chain of names. -/
theorem ofDeclaration_mem_along (platform : PlatformData) {outermost found : ClassDeclaration}
    {names : List String} (nests : outermost.Nests names found) (outer : Address) :
    ∃ around : Address, around.inClass found.name = outer.inClasses names ∧
      ∀ holder : Documented,
        .classlike (ofDeclaration platform outer outermost) ∈ holder.members .classlike →
        .classlike (ofDeclaration platform around found) ∈ holder.along (classSteps outer names) := by
  induction nests generalizing outer with
  | self declared =>
      refine ⟨outer, rfl, fun holder held => ?_⟩
      rw [classSteps_cons]
      refine List.mem_flatMap.mpr ⟨_, mem_itemsAt.mpr ⟨held, ?_⟩, List.mem_singleton_self _⟩
      exact address_ofDeclaration platform outer declared
  | @inside outermost inner found names held later ih =>
      obtain ⟨around, address, reached⟩ := ih (outer.inClass outermost.name)
      refine ⟨around, address, fun holder holds => ?_⟩
      rw [classSteps_cons]
      refine List.mem_flatMap.mpr ⟨_, mem_itemsAt.mpr ⟨holds, ?_⟩, reached _ ?_⟩
      · exact address_ofDeclaration platform outer outermost
      · rw [ofDeclaration_eq]
        exact List.mem_map_of_mem (List.mem_map_of_mem held)

end Class

/-- Each declared class is documented at the path of its name. -/
theorem Module.ofDeclaration_mem_occurrences (name : String) (platform : PlatformData)
    {files : List SourceFile} {file : SourceFile} (member : file ∈ files) {className : ClassName}
    {found : ClassDeclaration} (declares : file.Declares className found) :
    ∃ around : Address, around.inClass found.name = className.address ∧
      .classlike (.ofDeclaration platform around found) ∈
        (ofFiles name platform files).occurrences className.path := by
  obtain ⟨package, outermost, held, nests⟩ := declares
  obtain ⟨around, address, reached⟩ :=
    Class.ofDeclaration_mem_along platform nests (.ofPackage className.packageName)
  refine ⟨around, ?_, ?_⟩
  · rw [address, ClassName.inClasses_ofPackage _ nests.names_ne_nil]
  · have listed : Documented.package (.ofFile platform file) ∈
        (ofFiles name platform files).packages.map .package :=
      List.mem_map_of_mem (List.mem_map_of_mem member)
    refine List.mem_flatMap.mpr ⟨_, mem_itemsAt.mpr ⟨listed, ?_⟩, ?_⟩
    · exact congrArg Address.ofPackage package.symm
    · rw [className.steps_path]
      refine reached _ (List.mem_map_of_mem ?_)
      rw [package]
      exact List.mem_map_of_mem held

namespace JavaType

/-- The class that a reference, or that the innermost elements of an array, were found to be. -/
def meant? (type : JavaType) : Option ClassName :=
  match type.innermost with
  | .reference _ _ _ (.classNamed name) => some name
  | _ => none

end JavaType

namespace TypeUsage

/-- The usage of a type leads to the class that the type was found to mean. -/
theorem address_ofType {type : JavaType} {target : ClassName} (meant : type.meant? = some target) :
    (ofType type).address = some target.address := by
  rw [JavaType.meant?] at meant
  cases type with
  | primitive name => cases meant
  | reference written className arguments resolution =>
      cases resolution with
      | unresolved => cases meant
      | typeParameter => cases meant
      | classNamed name =>
          cases meant
          rfl
  | array element =>
      rw [JavaType.innermost] at meant
      have address : (ofType (.array element)).address = elementAddress element.innermost := rfl
      rw [address]
      split at meant
      next written className arguments name reference =>
        cases meant
        rw [reference]
        rfl
      next => cases meant
  | variadic element => cases meant
  | wildcard => cases meant
  | wildcardExtends bound => cases meant
  | wildcardSuper bound => cases meant

/-- Of the arguments of a class the references are used, in their order. -/
theorem arguments_ofType (written className : String) (arguments : List JavaType) (resolution : Resolution) :
    (ofType (.reference written className arguments resolution)).arguments =
      (arguments.filter JavaType.isReference).map ofType := by
  have all : ofType.ofArguments arguments = (arguments.filter JavaType.isReference).map ofType := by
    induction arguments with
    | nil => rfl
    | cons first rest ih =>
        rw [ofType.ofArguments, ih, List.filter_cons]
        split <;> rfl
  exact all

end TypeUsage

namespace JavaType

/-- What a usage of a type shows of it: the type as a whole, and in a reference its arguments that are
references. -/
inductive Shows : JavaType → JavaType → Prop where
  | self (type : JavaType) : Shows type type
  | argument {written className : String} {arguments : List JavaType} {resolution : Resolution}
      {argument found : JavaType} (listed : argument ∈ arguments) (reference : argument.isReference)
      (inner : Shows argument found) : Shows (.reference written className arguments resolution) found

end JavaType

namespace TypeUsage

/-- A usage is shown with all usages among its arguments. -/
inductive Shows : TypeUsage → TypeUsage → Prop where
  | self (usage : TypeUsage) : Shows usage usage
  | argument {usage argument found : TypeUsage} (listed : argument ∈ usage.arguments)
      (inner : Shows argument found) : Shows usage found

theorem shows_ofType {type part : JavaType} (shows : type.Shows part) :
    (ofType type).Shows (ofType part) := by
  induction shows with
  | self type => exact .self _
  | argument listed reference inner ih =>
      refine .argument ?_ ih
      rw [arguments_ofType]
      exact List.mem_map_of_mem (List.mem_filter.mpr ⟨listed, reference⟩)

end TypeUsage

namespace MethodDeclaration

/-- The types in the declaration of a method. -/
def types (method : MethodDeclaration) : List JavaType :=
  method.returnType.toList ++ method.parameters.map ParameterDeclaration.type

end MethodDeclaration

namespace ClassDeclaration

/-- The types of the members that the documentation of a class lists. -/
def memberTypes (declared : ClassDeclaration) : List JavaType :=
  declared.fields.map FieldDeclaration.type ++
    (declared.constructors ++ declared.methods.filter fun method => !method.isConstructor).flatMap
      MethodDeclaration.types

/-- The types in the declaration of a class, without those of the classes inside it. -/
def types (declared : ClassDeclaration) : List JavaType :=
  declared.superTypes ++ declared.fields.map FieldDeclaration.type ++
    (declared.constructors ++ declared.methods).flatMap MethodDeclaration.types

end ClassDeclaration

namespace Function

def usages (documented : Function) : List TypeUsage :=
  documented.returnType.toList ++ documented.parameters.map Parameter.type

theorem usages_ofDeclaration (platform : PlatformData) (owner : Address) (isConstructor : Bool)
    (declared : MethodDeclaration) :
    (ofDeclaration platform owner isConstructor declared).usages =
      declared.types.map TypeUsage.ofType := by
  have parameters : (ofDeclaration platform owner isConstructor declared).parameters.map Parameter.type =
      (declared.parameters.map ParameterDeclaration.type).map TypeUsage.ofType := by
    refine List.ext_getElem? fun index => ?_
    rw [List.getElem?_map, List.getElem?_map, List.getElem?_map, ofDeclaration, List.getElem?_mapIdx]
    cases declared.parameters[index]? <;> rfl
  have returned : (ofDeclaration platform owner isConstructor declared).returnType.toList =
      declared.returnType.toList.map TypeUsage.ofType := by
    rw [ofDeclaration]
    cases declared.returnType <;> rfl
  rw [usages, parameters, returned, MethodDeclaration.types, List.map_append]

end Function

namespace Class

/-- The usages of types in the members of a class. -/
def usages (documented : Class) : List TypeUsage :=
  documented.properties.filterMap Property.type ++
    (documented.constructors ++ documented.functions).flatMap Function.usages

/-- Of the super types those are inherited that are references to classes. -/
theorem mem_inheritedAddresses_iff {superTypes : List JavaType} {address : Address} :
    address ∈ inheritedAddresses superTypes ↔
      ∃ type ∈ superTypes, type.isReference ∧
        ∃ target, type.meant? = some target ∧ target.address = address := by
  rw [inheritedAddresses, List.mem_filterMap]
  refine exists_congr fun type => and_congr_right fun _ => ?_
  cases type with
  | reference written className arguments resolution =>
      cases resolution <;> simp [JavaType.isReference, JavaType.meant?, JavaType.innermost]
  | primitive name => simp [JavaType.isReference]
  | array element => simp [JavaType.isReference]
  | variadic element => simp [JavaType.isReference]
  | wildcard => simp [JavaType.isReference]
  | wildcardExtends bound => simp [JavaType.isReference]
  | wildcardSuper bound => simp [JavaType.isReference]

theorem usages_ofDeclaration (platform : PlatformData) (outer : Address) (declared : ClassDeclaration) :
    (ofDeclaration platform outer declared).usages = declared.memberTypes.map TypeUsage.ofType := by
  have callables (isConstructor : Bool) (methods : List MethodDeclaration) :
      (methods.map (Function.ofDeclaration platform (outer.inClass declared.name) isConstructor)).flatMap
          Function.usages =
        (methods.flatMap MethodDeclaration.types).map TypeUsage.ofType := by
    rw [List.flatMap_map, List.map_flatMap]
    exact List.flatMap_congr fun method _ => Function.usages_ofDeclaration _ _ _ method
  have fields : (declared.fields.map
        (Property.ofDeclaration platform (outer.inClass declared.name))).filterMap Property.type =
      (declared.fields.map FieldDeclaration.type).map TypeUsage.ofType := by
    rw [List.filterMap_map, List.map_map, ← List.filterMap_eq_map]
    rfl
  rw [ofDeclaration_eq, usages, List.flatMap_append, callables, callables, fields,
    ClassDeclaration.memberTypes, List.flatMap_append, List.map_append, List.map_append]

/-- The documentation of a class uses the types of its declaration. -/
structure UsesTypesOf (documented : Class) (declared : ClassDeclaration) : Prop where
  usages : documented.usages = declared.memberTypes.map TypeUsage.ofType
  /-- What is shown of a type is shown of its usage. -/
  shows : ∀ type ∈ declared.memberTypes, ∀ part, type.Shows part →
    ∃ usage ∈ documented.usages, usage.Shows (.ofType part)
  inherited : ∀ info ∈ documented.actual, ∀ address, address ∈ info.inherited ↔
    ∃ type ∈ declared.superTypes, type.isReference ∧
      ∃ target, type.meant? = some target ∧ target.address = address

theorem usesTypesOf_ofDeclaration (platform : PlatformData) (outer : Address)
    (declared : ClassDeclaration) : (ofDeclaration platform outer declared).UsesTypesOf declared where
  usages := usages_ofDeclaration platform outer declared
  shows type listed part shows := by
    refine ⟨.ofType type, ?_, TypeUsage.shows_ofType shows⟩
    rw [usages_ofDeclaration]
    exact List.mem_map_of_mem listed
  inherited info listed address := by
    rw [ofDeclaration_eq] at listed
    cases List.mem_singleton.mp listed
    exact mem_inheritedAddresses_iff

end Class

namespace Module

/-- A class of a module has the address of a name and stands at its path. -/
def HasClass (documented : Module) (name : ClassName) (declared : Class) : Prop :=
  .classlike declared ∈ documented.occurrences name.path ∧ declared.address = name.address

theorem exists_hasClass (name : String) (platform : PlatformData) {files : List SourceFile}
    {file : SourceFile} (member : file ∈ files) {className : ClassName} {found : ClassDeclaration}
    (declares : file.Declares className found) :
    ∃ declared, (ofFiles name platform files).HasClass className declared ∧ declared.UsesTypesOf found := by
  obtain ⟨around, address, reached⟩ := ofDeclaration_mem_occurrences name platform member declares
  refine ⟨_, ⟨reached, ?_⟩, Class.usesTypesOf_ofDeclaration platform around found⟩
  rw [Class.address_ofDeclaration, address]

/--
In the documentation of files that were indexed and resolved together each declared class has its address, and
each type that was found to mean a declared class leads to the address of that class, wherever the type stands
in a declaration.
-/
theorem links_land (name : String) (platform : PlatformData) (files : List SourceFile) :
    let resolved := files.map (SourceFile.resolve (ClassIndex.ofFiles files))
    let documented := ofFiles name platform resolved
    (∀ file ∈ files, ∀ className ∈ file.declaredNames,
      ∃ declared, documented.HasClass className declared) ∧
    ∀ file ∈ resolved, ∀ className found, file.Declares className found →
      (∃ declared, documented.HasClass className declared ∧ declared.UsesTypesOf found) ∧
      ∀ type ∈ found.types, ∀ part ∈ type.occurrences, ∀ target, part.meant? = some target →
        (TypeUsage.ofType part).address = some target.address ∧
        ∀ other ∈ files, target ∈ other.declaredNames →
          ∃ declared, documented.HasClass target declared ∧
            (TypeUsage.ofType part).address = some declared.address := by
  intro resolved documented
  have declared : ∀ file ∈ files, ∀ className ∈ file.declaredNames,
      ∃ declared, documented.HasClass className declared := by
    intro file member className listed
    rw [← SourceFile.declaredNames_resolve (ClassIndex.ofFiles files)] at listed
    obtain ⟨found, declares⟩ := SourceFile.mem_declaredNames_iff.mp listed
    obtain ⟨declared, has, _⟩ := exists_hasClass name platform (List.mem_map_of_mem member) declares
    exact ⟨declared, has⟩
  refine ⟨declared, fun file member className found declares => ⟨?_, ?_⟩⟩
  · exact exists_hasClass name platform member declares
  · intro type _ part _ target meant
    have address := TypeUsage.address_ofType meant
    refine ⟨address, fun other held listed => ?_⟩
    obtain ⟨documentedClass, has⟩ := declared other held target listed
    exact ⟨documentedClass, has, by rw [address, has.2]⟩

end Module

end ApiDocs
