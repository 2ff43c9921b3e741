import ApiDocs.Proofs.Coherence
import ApiDocs.Proofs.Model.Stored
import ApiDocs.Rendering

/-!
# Modules are restored from JSON

What is read from the file `module.json` is the module for which it was written, at every depth, as long as its
platforms can be read back from their texts.
-/

namespace ApiDocs

open Json

/-- Documentation that holds for platforms that can be read back. -/
def PlatformInfo.OnCleanPlatforms (info : PlatformInfo) : Prop :=
  ∀ data ∈ info.platforms, data.Clean

namespace Documented

/-- The classes that a declaration extends and implements. -/
def inherited : Documented → List Address
  | classlike declared => (declared.expected.toList ++ declared.actual).flatMap ClassInfo.inherited
  | _ => []

/-- The type of what a function returns or a property holds. -/
def result : Documented → Option TypeUsage
  | function declared => declared.returnType
  | property declared => declared.type
  | _ => none

/-- All platforms of a declaration, without those of its members, can be read back. -/
@[mk_iff]
structure OnCleanPlatforms (declared : Documented) : Prop where
  visibility : ∀ data ∈ declared.visibility.keys, data.Clean
  expected : ∀ info ∈ declared.expectedInfos, info.OnCleanPlatforms
  actual : ∀ info ∈ declared.infos, info.OnCleanPlatforms
  parameters : ∀ parameter ∈ declared.parameters, ∀ info ∈ parameter.expected.toList ++ parameter.actual,
    info.OnCleanPlatforms

/-- All addresses of a declaration, without those of its members, fit into machine words. -/
@[mk_iff]
structure Sized (declared : Documented) : Prop where
  address : declared.address.Sized
  inherited : ∀ address ∈ declared.inherited, address.Sized
  result : ∀ usage ∈ declared.result, usage.Sized
  parameters : ∀ parameter ∈ declared.parameters, parameter.address.Sized ∧ parameter.type.Sized

/-- Nothing in a declaration itself keeps it from being restored. -/
structure Restorable (declared : Documented) : Prop where
  clean : declared.OnCleanPlatforms
  sized : declared.Sized

end Documented

theorem PlatformInfo.stores {info : PlatformInfo} (clean : info.OnCleanPlatforms) :
    Stores ofJson? info.toJson info := by
  have documentation := info.documentation.stores
  have platforms := stores_ofList fun data listed => PlatformData.stores (clean data listed)
  refine stores_record (by rfl) (by decide) ?proper ?decoded
  case proper =>
    simp only [List.forall_mem_cons]
    exact ⟨documentation.proper, platforms.proper, nofun⟩
  case decoded =>
    simp only [List.map, documentation.decoded, platforms.decoded]
    rfl

theorem ClassInfo.stores {info : ClassInfo} (clean : info.info.OnCleanPlatforms)
    (sized : ∀ address ∈ info.inherited, address.Sized) : Stores ofJson? info.toJson info := by
  have held := PlatformInfo.stores clean
  have inherited := stores_ofList fun address listed => Address.stores (sized address listed)
  refine stores_record (by rfl) (by decide) ?proper ?decoded
  case proper =>
    simp only [List.forall_mem_cons]
    exact ⟨held.proper, inherited.proper, nofun⟩
  case decoded =>
    simp only [List.map, held.decoded, inherited.decoded]
    rfl

theorem stores_expected {expected : Option PlatformInfo}
    (clean : ∀ info ∈ expected.toList, info.OnCleanPlatforms) :
    Stores (optional? PlatformInfo.ofJson?) (ofOption PlatformInfo.toJson expected) expected :=
  stores_ofOption rfl fun info here => PlatformInfo.stores (clean info (Option.mem_toList.mpr here))

theorem stores_actual {actual : List PlatformInfo} (clean : ∀ info ∈ actual, info.OnCleanPlatforms) :
    Stores (list? PlatformInfo.ofJson?) (ofList PlatformInfo.toJson actual) actual :=
  stores_ofList fun info listed => PlatformInfo.stores (clean info listed)

theorem stores_type {type : Option TypeUsage} (sized : ∀ usage ∈ type, usage.Sized) :
    Stores (optional? TypeUsage.ofJson?) (ofOption TypeUsage.toJson type) type :=
  stores_ofOption rfl fun usage here => TypeUsage.stores (sized usage here)

theorem Parameter.stores {parameter : Parameter}
    (clean : ∀ info ∈ parameter.expected.toList ++ parameter.actual, info.OnCleanPlatforms)
    (sized : parameter.address.Sized ∧ parameter.type.Sized) : Stores ofJson? parameter.toJson parameter := by
  have address := Address.stores sized.1
  have name := stores_string parameter.name
  have type := TypeUsage.stores sized.2
  have expected := stores_expected fun info here => clean info (List.mem_append_left _ here)
  have actual := stores_actual fun info here => clean info (List.mem_append_right _ here)
  refine stores_record (by rfl) (by decide) ?proper ?decoded
  case proper =>
    simp only [List.forall_mem_cons]
    exact ⟨address.proper, name.proper, type.proper, expected.proper, actual.proper, nofun⟩
  case decoded =>
    simp only [List.map, address.decoded, name.decoded, type.decoded, expected.decoded, actual.decoded]
    rfl

namespace Documented.Restorable

variable {declared : Documented}

theorem stores_parameter (restorable : declared.Restorable) {parameter : Parameter}
    (listed : parameter ∈ declared.parameters) : Stores Parameter.ofJson? parameter.toJson parameter :=
  Parameter.stores (restorable.clean.parameters parameter listed) (restorable.sized.parameters parameter listed)

end Documented.Restorable

theorem Function.stores {function : Function} (restorable : (Documented.function function).Restorable) :
    Stores ofJson? function.toJson function := by
  have address := @Address.stores function.address restorable.sized.address
  have name := stores_string function.name
  have returnType := @stores_type function.returnType restorable.sized.result
  have isConstructor := stores_bool function.isConstructor
  have receiver := stores_ofOption rfl fun parameter (here : parameter ∈ function.receiver) =>
    restorable.stores_parameter (List.mem_append_left _ (Option.mem_toList.mpr here))
  have parameters := stores_ofList fun parameter (here : parameter ∈ function.parameters) =>
    restorable.stores_parameter (List.mem_append_right _ here)
  have expected := @stores_expected function.expected restorable.clean.expected
  have actual := @stores_actual function.actual restorable.clean.actual
  have visibility := @stores_visibility function.visibility restorable.clean.visibility
  refine stores_record (by rfl) (by decide) ?proper ?decoded
  case proper =>
    simp only [List.forall_mem_cons]
    exact ⟨address.proper, name.proper, returnType.proper, isConstructor.proper, receiver.proper,
      parameters.proper, expected.proper, actual.proper, visibility.proper, nofun⟩
  case decoded =>
    simp only [List.map, address.decoded, name.decoded, returnType.decoded, isConstructor.decoded,
      receiver.decoded, parameters.decoded, expected.decoded, actual.decoded, visibility.decoded]
    rfl

theorem Property.stores {property : Property}
    (restorable : (Documented.property property).Everywhere Documented.Restorable) :
    Stores ofJson? property.toJson property := by
  obtain ⟨here, below⟩ := Documented.Everywhere.property_iff.mp restorable
  have address := @Address.stores property.address here.sized.address
  have name := stores_string property.name
  have type := @stores_type property.type here.sized.result
  have receiver := stores_ofOption rfl fun parameter (held : parameter ∈ property.receiver) =>
    here.stores_parameter (Option.mem_toList.mpr held)
  have expected := @stores_expected property.expected here.clean.expected
  have actual := @stores_actual property.actual here.clean.actual
  have accessors := stores_ofList fun accessor listed => Function.stores (below accessor listed)
  have visibility := @stores_visibility property.visibility here.clean.visibility
  refine stores_record (by rfl) (by decide) ?proper ?decoded
  case proper =>
    simp only [List.forall_mem_cons]
    exact ⟨address.proper, name.proper, type.proper, receiver.proper, expected.proper, actual.proper,
      accessors.proper, visibility.proper, nofun⟩
  case decoded =>
    simp only [List.map, address.decoded, name.decoded, type.decoded, receiver.decoded, expected.decoded,
      actual.decoded, accessors.decoded, visibility.decoded]
    rfl

namespace Class

theorem toJson_eq (declared : Class) : declared.toJson =
    .object
      [("dri", declared.address.toJson),
       ("name", .string declared.name),
       ("kind", declared.kind.toJson),
       ("constructors", .ofList Function.toJson declared.constructors),
       ("functions", .ofList Function.toJson declared.functions),
       ("properties", .ofList Property.toJson declared.properties),
       ("classlikes", .ofList toJson declared.classes),
       ("expected", .ofOption ClassInfo.toJson declared.expected),
       ("actual", .ofList ClassInfo.toJson declared.actual),
       ("extra", stringSetToJson declared.extra),
       ("visibility", visibilityToJson declared.visibility)] := by
  have all (classes : List Class) : toJson.toJsons classes = classes.map toJson := by
    induction classes with
    | nil => rfl
    | cons first rest ih => rw [toJson.toJsons, ih, List.map_cons]
  cases declared
  rw [toJson, all]
  rfl

theorem stores_info {declared : Class} (restorable : (Documented.classlike declared).Restorable) {info : ClassInfo}
    (listed : info ∈ declared.expected.toList ++ declared.actual) : Stores ClassInfo.ofJson? info.toJson info := by
  have clean : info.info.OnCleanPlatforms := by
    obtain expected | actual := List.mem_append.mp listed
    · exact restorable.clean.expected _ (List.mem_map_of_mem expected)
    · exact restorable.clean.actual _ (List.mem_map_of_mem actual)
  exact ClassInfo.stores clean fun address inherited =>
    restorable.sized.inherited address (List.mem_flatMap.mpr ⟨info, listed, inherited⟩)

theorem storesWithin {documented : Documented} (restorable : documented.Everywhere Documented.Restorable)
    {declared : Class} (same : documented = .classlike declared) {budget : Nat}
    (enough : declared.toJson.sorted.depth < budget) : Stores (ofJsonWithin? budget) declared.toJson declared := by
  -- Induction on the declarations of the class, with what is left of the budget for those in it.
  induction restorable generalizing declared budget with
  | intro here below ih =>
      subst same
      cases budget with
      | zero => exact absurd enough (Nat.not_lt_zero _)
      | succ budget =>
          rw [toJson_eq] at enough ⊢
          have address := @Address.stores declared.address here.sized.address
          have name := stores_string declared.name
          have kind := declared.kind.stores
          have constructors := stores_ofList fun held (listed : held ∈ declared.constructors) =>
            Function.stores (below .constructor _ (List.mem_map_of_mem listed)).here
          have functions := stores_ofList fun held (listed : held ∈ declared.functions) =>
            Function.stores (below .function _ (List.mem_map_of_mem listed)).here
          have properties := stores_ofList fun held (listed : held ∈ declared.properties) =>
            Property.stores (below .property _ (List.mem_map_of_mem listed))
          have classes : Stores (list? (ofJsonWithin? budget)) (ofList toJson declared.classes)
              declared.classes := by
            refine stores_ofList fun inner listed => ih .classlike _ (List.mem_map_of_mem listed) rfl ?_
            exact depth_element_lt enough (by simp) "classlikes" (by rfl) listed
          have expected := stores_ofOption rfl fun info (held : info ∈ declared.expected) =>
            stores_info here (List.mem_append_left _ (Option.mem_toList.mpr held))
          have actual := stores_ofList fun info (listed : info ∈ declared.actual) =>
            stores_info here (List.mem_append_right _ listed)
          have extra := stores_stringSet declared.extra
          have visibility := @stores_visibility declared.visibility here.clean.visibility
          refine stores_record (by rfl) (by decide) ?proper ?decoded
          case proper =>
            simp only [List.forall_mem_cons]
            exact ⟨address.proper, name.proper, kind.proper, constructors.proper, functions.proper,
              properties.proper, classes.proper, expected.proper, actual.proper, extra.proper, visibility.proper,
              nofun⟩
          case decoded =>
            simp only [List.map, address.decoded, name.decoded, kind.decoded, constructors.decoded,
              functions.decoded, properties.decoded, classes.decoded, expected.decoded, actual.decoded,
              extra.decoded, visibility.decoded]
            cases declared
            rfl

theorem stores {declared : Class} (restorable : (Documented.classlike declared).Everywhere Documented.Restorable) :
    Stores ofJson? declared.toJson declared :=
  have within := storesWithin restorable rfl (Nat.lt_succ_self _)
  ⟨within.proper, within.decoded⟩

end Class

theorem Package.stores {package : Package}
    (restorable : (Documented.package package).Everywhere Documented.Restorable) :
    Stores ofJson? package.toJson package := by
  obtain ⟨here, functionsBelow, propertiesBelow, classesBelow⟩ := Documented.Everywhere.package_iff.mp restorable
  have address := @Address.stores package.address here.sized.address
  have name := stores_string package.name
  have functions := stores_ofList fun held listed => Function.stores (functionsBelow held listed)
  have properties := stores_ofList fun held listed => Property.stores (propertiesBelow held listed)
  have classes := stores_ofList fun held listed => Class.stores (classesBelow held listed)
  refine stores_record (by rfl) (by decide) ?proper ?decoded
  case proper =>
    simp only [List.forall_mem_cons]
    exact ⟨address.proper, name.proper, functions.proper, properties.proper, classes.proper, nofun⟩
  case decoded =>
    simp only [List.map, address.decoded, name.decoded, functions.decoded, properties.decoded, classes.decoded]
    rfl

namespace Module

theorem stores {documented : Module} (restorable : documented.Everywhere Documented.Restorable) :
    Stores ofJson? documented.toJson documented := by
  have name := stores_string documented.name
  have packages := stores_ofList fun package listed => Package.stores (restorable package listed)
  refine stores_record (by rfl) (by decide) ?proper ?decoded
  case proper =>
    simp only [List.forall_mem_cons]
    exact ⟨name.proper, packages.proper, nofun⟩
  case decoded =>
    simp only [List.map, name.decoded, packages.decoded]
    rfl

/--
What is read from the file of a module is the module, provided that its platforms can be read back from their
texts; and no two platforms of a visibility map are written under one name.
-/
theorem read_render (stamp : Markdown.Stamp) {documented : Module}
    (clean : documented.Everywhere Documented.OnCleanPlatforms) (sized : documented.Everywhere Documented.Sized) :
    (∃ text, documented.render stamp .json = [⟨"module.json", text⟩] ∧
      (read? text).bind ofJson? = some documented) ∧
    documented.Everywhere fun declared => ∃ members,
      visibilityToJson declared.visibility = .object members ∧ (members.map Prod.fst).Nodup := by
  have restorable : documented.Everywhere Documented.Restorable := fun package listed =>
    Documented.Everywhere.combine .mk (clean package listed) (sized package listed)
  have stored := stores restorable
  refine ⟨⟨_, rfl, ?_⟩, fun package listed => (clean package listed).imp fun clean => ?_⟩
  · rw [jsonText, read?_pretty stored.proper]
    exact stored.decoded
  · exact ⟨_, rfl, nodup_names_visibility clean.visibility⟩

/-- A class and a class inside it for two targets, of which the outer one is visible on a second platform. -/
def sampleTargets : Module :=
  let targets : PlatformData := ⟨.jvm, ["jvm", "android"]⟩
  let package := Address.ofPackage "p"
  let inner := sampleClass targets (package.inClass "A") "B" .protectedAccess ["go"] []
  let outer := sampleClass targets package "A" .publicAccess ["run"] [inner]
  let visibility := outer.visibility.union (.singleton ⟨.common, []⟩ .privateAccess)
  ⟨"m", [samplePackage "p" [{ outer with visibility }]]⟩

theorem sampleTargets_onCleanPlatforms : sampleTargets.Everywhere Documented.OnCleanPlatforms := by
  have targets : PlatformData.Clean ⟨.jvm, ["jvm", "android"]⟩ := by
    rw [PlatformData.Clean]
    decide
  have common : PlatformData.Clean ⟨.common, []⟩ := nofun
  have keys (data : PlatformData) (access : Visibility) : (SortedMap.singleton data access).keys = [data] := rfl
  have noKeys : (SortedMap.empty : VisibilityMap).keys = [] := rfl
  simp [sampleTargets, Everywhere, Documented.Everywhere.package_iff, Documented.Everywhere.classlike_iff,
    Documented.Everywhere.property_iff, samplePackage, sampleClass, sampleMethod, sampleField,
    Documented.onCleanPlatforms_iff, PlatformInfo.OnCleanPlatforms, Documented.visibility, Documented.infos,
    Documented.expectedInfos, Documented.parameters, SortedMap.mem_keys_union, keys, noKeys, targets, common]

theorem sampleTargets_sized : sampleTargets.Everywhere Documented.Sized := by
  have int : TypeUsage.Sized ⟨some "int", ["int"], [], none, true⟩ := by
    intro part shows
    cases shows with
    | self => nofun
    | argument listed => exact nomatch listed
  simp [sampleTargets, Everywhere, Documented.Everywhere.package_iff, Documented.Everywhere.classlike_iff,
    Documented.Everywhere.property_iff, samplePackage, sampleClass, sampleMethod, sampleField,
    Documented.sized_iff, Documented.address, Documented.inherited, Documented.result, Documented.parameters,
    Address.Sized, Address.withCallable, Address.inClass, Address.ofPackage, Address.withTarget, int]

theorem read_render_sampleTargets :
    sampleTargets.Everywhere Documented.OnCleanPlatforms ∧ sampleTargets.Everywhere Documented.Sized ∧
      ∃ text, sampleTargets.render ⟨false, "", fun _ => ""⟩ .json = [⟨"module.json", text⟩] ∧
        (read? text).bind ofJson? = some sampleTargets :=
  ⟨sampleTargets_onCleanPlatforms, sampleTargets_sized,
    (read_render _ sampleTargets_onCleanPlatforms sampleTargets_sized).1⟩

end Module

end ApiDocs
