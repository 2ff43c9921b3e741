import ApiDocs.Model.Declared
import ApiDocs.Proofs.Declaration.Nested
import ApiDocs.Proofs.Model.Documented

/-!
# Documentation of nested classes

What holds of the documentation of every single declaration holds everywhere in that of files, however deep
the classes are nested.
-/

namespace ApiDocs

namespace Class

theorem ofDeclarations_eq_map (platform : PlatformData) (outer : Address)
    (declarations : List ClassDeclaration) :
    ofDeclaration.ofDeclarations platform outer declarations =
      declarations.map (ofDeclaration platform outer) := by
  induction declarations with
  | nil => rfl
  | cons first rest ih => rw [ofDeclaration.ofDeclarations, ih, List.map_cons]

/-- The documentation of a class, said of the fields of its declaration. -/
theorem ofDeclaration_eq (platform : PlatformData) (outer : Address) (declared : ClassDeclaration) :
    ofDeclaration platform outer declared =
      { address := outer.inClass declared.name
        name := declared.name
        kind := .ofFlags declared.isAnnotationType declared.isInterface declared.isEnum
        constructors := declared.constructors.map
          (Function.ofDeclaration platform (outer.inClass declared.name) true)
        functions := (declared.methods.filter fun method => !method.isConstructor).map
          (Function.ofDeclaration platform (outer.inClass declared.name) false)
        properties := declared.fields.map (Property.ofDeclaration platform (outer.inClass declared.name))
        classes := declared.innerClasses.map (ofDeclaration platform (outer.inClass declared.name))
        expected := none
        actual := [⟨.on platform (.ofComment? declared.docComment),
          inheritedAddresses declared.superTypes⟩]
        extra := extraModifiers declared.modifiers
        visibility := .on platform declared.modifiers } := by
  cases declared
  rw [ofDeclaration, ofDeclarations_eq_map]

@[simp] theorem address_ofDeclaration (platform : PlatformData) (outer : Address)
    (declared : ClassDeclaration) :
    (ofDeclaration platform outer declared).address = outer.inClass declared.name := by
  rw [ofDeclaration_eq]

end Class

/-- A property of the documentation of all single declarations. -/
structure HoldsOfDeclared (platform : PlatformData) (holds : Documented → Prop) : Prop where
  classlike : ∀ outer declared, holds (.classlike (.ofDeclaration platform outer declared))
  function : ∀ owner isConstructor declared,
    holds (.function (.ofDeclaration platform owner isConstructor declared))
  property : ∀ owner declared, holds (.property (.ofDeclaration platform owner declared))

namespace HoldsOfDeclared

variable {platform : PlatformData} {holds : Documented → Prop}

/-- It holds everywhere in the documentation of a class. -/
theorem everywhere_class (single : HoldsOfDeclared platform holds) (outer : Address)
    (declared : ClassDeclaration) :
    (Documented.classlike (.ofDeclaration platform outer declared)).Everywhere holds := by
  induction declared using ClassDeclaration.nested_induction generalizing outer with
  | step declared ih =>
      have here := single.classlike outer declared
      rw [Class.ofDeclaration_eq] at here ⊢
      refine Documented.Everywhere.classlike_iff.mpr ⟨here, ?_, ?_, ?_, ?_⟩
      · intro constructor listed
        obtain ⟨method, _, rfl⟩ := List.mem_map.mp listed
        exact single.function _ _ method
      · intro function listed
        obtain ⟨method, _, rfl⟩ := List.mem_map.mp listed
        exact single.function _ _ method
      · intro property listed
        obtain ⟨field, _, rfl⟩ := List.mem_map.mp listed
        refine Documented.Everywhere.property_iff.mpr ⟨single.property _ field, ?_⟩
        exact fun _ none => nomatch none
      · intro inner listed
        obtain ⟨inner, held, rfl⟩ := List.mem_map.mp listed
        exact ih inner held _

/-- It holds everywhere in the documentation of files. -/
theorem everywhere_ofFiles (single : HoldsOfDeclared platform holds)
    (packages : ∀ file, holds (.package (.ofFile platform file))) (name : String)
    (files : List SourceFile) : (Module.ofFiles name platform files).Everywhere holds := by
  intro package listed
  obtain ⟨file, _, rfl⟩ := List.mem_map.mp listed
  refine Documented.Everywhere.package_iff.mpr ⟨packages file, ?_, ?_, ?_⟩
  · exact fun _ none => nomatch none
  · exact fun _ none => nomatch none
  · intro inner listed
    obtain ⟨declared, _, rfl⟩ := List.mem_map.mp listed
    exact single.everywhere_class _ declared

end HoldsOfDeclared

end ApiDocs
