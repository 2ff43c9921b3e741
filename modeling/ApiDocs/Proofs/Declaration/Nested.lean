import ApiDocs.Declaration.Resolve
import Mathlib.Data.List.Basic

/-!
# Classes inside classes

A chain of names leads from a declared class to the classes inside it.  The chains of a file are exactly the
names under which its classes are indexed, and resolving the file keeps them.
-/

namespace ApiDocs

namespace ClassDeclaration

/-- What holds of a class as soon as it holds of the classes inside it holds of all classes. -/
@[elab_as_elim]
theorem nested_induction {motive : ClassDeclaration → Prop}
    (step : ∀ declared : ClassDeclaration, (∀ inner ∈ declared.innerClasses, motive inner) → motive declared)
    (declared : ClassDeclaration) : motive declared :=
  step declared fun inner _ => nested_induction step inner
termination_by sizeOf declared
decreasing_by
  next held =>
    have smaller := List.sizeOf_lt_of_mem held
    cases declared
    simp_all
    omega

/-- A chain of names, which starts with that of a class itself, leads to a class declared in it. -/
inductive Nests : ClassDeclaration → List String → ClassDeclaration → Prop where
  | self (declared : ClassDeclaration) : Nests declared [declared.name] declared
  | inside {outer inner found : ClassDeclaration} {names : List String}
      (held : inner ∈ outer.innerClasses) (later : Nests inner names found) :
      Nests outer (outer.name :: names) found

theorem Nests.names_ne_nil {outer found : ClassDeclaration} {names : List String}
    (nests : outer.Nests names found) : names ≠ [] := by
  cases nests <;> exact List.cons_ne_nil _ _

/-- A class and all classes inside it have a property. -/
def Everywhere (holds : ClassDeclaration → Prop) (declared : ClassDeclaration) : Prop :=
  ∀ names found, declared.Nests names found → holds found

theorem Everywhere.here {holds : ClassDeclaration → Prop} {declared : ClassDeclaration}
    (everywhere : declared.Everywhere holds) : holds declared :=
  everywhere _ _ (.self declared)

theorem Everywhere.of_mem {holds : ClassDeclaration → Prop} {declared inner : ClassDeclaration}
    (everywhere : declared.Everywhere holds) (held : inner ∈ declared.innerClasses) :
    inner.Everywhere holds :=
  fun _ _ nests => everywhere _ _ (.inside held nests)

theorem everywhere_iff {holds : ClassDeclaration → Prop} {declared : ClassDeclaration} :
    declared.Everywhere holds ↔
      holds declared ∧ ∀ inner ∈ declared.innerClasses, inner.Everywhere holds := by
  constructor
  · intro everywhere
    exact ⟨everywhere.here, fun inner held => everywhere.of_mem held⟩
  · rintro ⟨here, below⟩ names found nests
    cases nests with
    | self => exact here
    | inside held later => exact below _ held _ _ later

theorem inAll_eq_flatMap (outer : List String) (declarations : List ClassDeclaration) :
    nestedNames.inAll outer declarations = declarations.flatMap (nestedNames outer) := by
  induction declarations with
  | nil => rfl
  | cons first rest ih => rw [nestedNames.inAll, ih, List.flatMap_cons]

theorem nestedNames_eq (outer : List String) (declared : ClassDeclaration) :
    nestedNames outer declared =
      (outer ++ [declared.name]) ::
        declared.innerClasses.flatMap (nestedNames (outer ++ [declared.name])) := by
  cases declared
  rw [nestedNames, inAll_eq_flatMap]

/-- The listed chains of names are those that lead to a class. -/
theorem mem_nestedNames_iff {outer names : List String} {declared : ClassDeclaration} :
    names ∈ nestedNames outer declared ↔
      ∃ chain found, names = outer ++ chain ∧ declared.Nests chain found := by
  induction declared using nested_induction generalizing outer with
  | step declared ih =>
      rw [nestedNames_eq, List.mem_cons, List.mem_flatMap]
      constructor
      · rintro (rfl | ⟨inner, held, listed⟩)
        · exact ⟨[declared.name], declared, rfl, .self declared⟩
        · obtain ⟨chain, found, rfl, later⟩ := (ih inner held).mp listed
          exact ⟨declared.name :: chain, found, List.append_assoc .., .inside held later⟩
      · rintro ⟨chain, found, rfl, nests⟩
        cases nests with
        | self => exact .inl rfl
        | inside held later =>
            refine .inr ⟨_, held, (ih _ held).mpr ⟨_, found, ?_, later⟩⟩
            exact List.append_cons ..

theorem resolveAll_eq_map (index : ClassIndex) (scope : Scope) (declarations : List ClassDeclaration) :
    resolve.resolveAll index scope declarations = declarations.map (resolve index scope) := by
  induction declarations with
  | nil => rfl
  | cons first rest ih => rw [resolve.resolveAll, ih, List.map_cons]

/-- A resolved class, said of the fields of its declaration. -/
theorem resolve_eq (index : ClassIndex) (outer : Scope) (declared : ClassDeclaration) :
    resolve index outer declared =
      let scope := outer.enter declared.name declared.typeParameters
      { declared with
        superTypes := declared.superTypes.map (JavaType.resolve (index.meaning scope))
        constructors := declared.constructors.map (MethodDeclaration.resolve index scope)
        methods := declared.methods.map (MethodDeclaration.resolve index scope)
        fields := declared.fields.map (FieldDeclaration.resolve (index.meaning scope))
        innerClasses := declared.innerClasses.map (resolve index scope) } := by
  cases declared
  rw [resolve, resolveAll_eq_map]

theorem nestedNames_resolve (index : ClassIndex) (scope : Scope) (outer : List String)
    (declared : ClassDeclaration) :
    nestedNames outer (resolve index scope declared) = nestedNames outer declared := by
  induction declared using nested_induction generalizing scope outer with
  | step declared ih =>
      rw [resolve_eq, nestedNames_eq, nestedNames_eq, List.flatMap_map]
      exact congrArg _ (List.flatMap_congr fun inner held => ih inner held _ _)

end ClassDeclaration

namespace SourceFile

/-- A file declares a class under a name: the chain of names leads to it from one of the outermost classes. -/
def Declares (file : SourceFile) (name : ClassName) (found : ClassDeclaration) : Prop :=
  name.packageName = file.packageName ∧ ∃ outer ∈ file.classes, outer.Nests name.classNames found

/-- A class is indexed under a name if and only if it is declared under that name. -/
theorem mem_declaredNames_iff {file : SourceFile} {name : ClassName} :
    name ∈ file.declaredNames ↔ ∃ found, file.Declares name found := by
  simp only [declaredNames, List.mem_map, List.mem_flatMap, ClassDeclaration.mem_nestedNames_iff]
  constructor
  · rintro ⟨names, ⟨outer, held, chain, found, rfl, nests⟩, rfl⟩
    exact ⟨found, rfl, outer, held, nests⟩
  · rintro ⟨found, package, outer, held, nests⟩
    refine ⟨name.classNames, ⟨outer, held, name.classNames, found, rfl, nests⟩, ?_⟩
    rw [← package]

theorem declaredNames_resolve (index : ClassIndex) (file : SourceFile) :
    (file.resolve index).declaredNames = file.declaredNames := by
  simp only [declaredNames, resolve, List.flatMap_map, ClassDeclaration.nestedNames_resolve]

end SourceFile

end ApiDocs
