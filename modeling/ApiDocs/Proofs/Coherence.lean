import ApiDocs.Proofs.Markdown.View
import ApiDocs.Proofs.Merge.Paths
import ApiDocs.Proofs.Model.Declared
import ApiDocs.Proofs.SortedMap

/-!
# Platforms of visibilities and infos

A declaration keeps a map of visibilities and a list of infos, and both speak of platforms.  One pass gives
them the same platforms and merging keeps them so, whatever the modules have in common; hence a page lists
for each class the platforms on which it is visible.
-/

namespace ApiDocs

namespace Documented

/-- The infos of a declaration; a package has none. -/
def infos : Documented → List PlatformInfo
  | package _ => []
  | classlike declared => declared.actual.map ClassInfo.info
  | function declared => declared.actual
  | property declared => declared.actual

/-- What is said of a declaration that some platforms only expect. -/
def expectedInfos : Documented → List PlatformInfo
  | package _ => []
  | classlike declared => declared.expected.toList.map ClassInfo.info
  | function declared => declared.expected.toList
  | property declared => declared.expected.toList

/-- The visibility of a declaration; a package has none. -/
def visibility : Documented → VisibilityMap
  | package _ => .empty
  | classlike declared => declared.visibility
  | function declared => declared.visibility
  | property declared => declared.visibility

/-- The parameters of a callable, its receiver among them. -/
def parameters : Documented → List Parameter
  | package _ => []
  | classlike _ => []
  | function declared => declared.receiver.toList ++ declared.parameters
  | property declared => declared.receiver.toList

/-- A declaration is visible on exactly those platforms that its infos list. -/
def Coherent (declared : Documented) : Prop :=
  ∀ platform, platform ∈ declared.visibility.keys ↔ ∃ info ∈ declared.infos, platform ∈ info.platforms

/-- All that is said of a declaration is said for one platform, and nothing is expected. -/
structure OnlyOn (platform : PlatformData) (declared : Documented) : Prop where
  visibility : declared.visibility.keys = [platform]
  infos : declared.infos.map PlatformInfo.platforms = [[platform]]
  expected : declared.expectedInfos = []
  parameters : ∀ parameter ∈ declared.parameters,
    parameter.actual.map PlatformInfo.platforms = [[platform]] ∧ parameter.expected = none

theorem OnlyOn.coherent {platform : PlatformData} {declared : Documented}
    (only : declared.OnlyOn platform) : declared.Coherent := by
  intro other
  have listed : (∃ info ∈ declared.infos, other ∈ info.platforms) ↔
      ∃ platforms ∈ declared.infos.map PlatformInfo.platforms, other ∈ platforms := by simp
  rw [listed, only.infos, only.visibility]
  simp

theorem coherent_package (declared : Package) : (package declared).Coherent := by
  intro platform
  simp [visibility, infos, SortedMap.empty, SortedMap.keys]

theorem mem_infos_merge {first second : Documented} (same : first.kind = second.kind)
    {info : PlatformInfo} :
    info ∈ (first.merge second).infos ↔ info ∈ first.infos ∨ info ∈ second.infos := by
  cases first <;> cases second <;> cases same
  · simp [merge, infos]
  · simp only [merge, infos, Class.merge_eq, List.mem_map, mem_extendDistinct, or_and_right, exists_or]
  · simp [merge, infos, Function.merge]
  · simp [merge, infos, Property.merge]

theorem mem_keys_visibility_merge {first second : Documented} (same : first.kind = second.kind)
    {platform : PlatformData} :
    platform ∈ (first.merge second).visibility.keys ↔
      platform ∈ first.visibility.keys ∨ platform ∈ second.visibility.keys := by
  cases first <;> cases second <;> cases same
  · simp [merge, visibility, SortedMap.empty, SortedMap.keys]
  · simp only [merge, visibility, Class.merge_eq, SortedMap.mem_keys_union]
  · exact SortedMap.mem_keys_union _ _
  · exact SortedMap.mem_keys_union _ _

/-- Merging unites the platforms of the visibilities as well as those of the infos. -/
theorem Coherent.merge {first second : Documented} (same : first.kind = second.kind)
    (left : first.Coherent) (right : second.Coherent) : (first.merge second).Coherent := by
  intro platform
  rw [mem_keys_visibility_merge same, left, right]
  simp only [mem_infos_merge same, or_and_right, exists_or]

/-- A class, function or property is visible on some platform. -/
def VisibleSomewhere (declared : Documented) : Prop :=
  declared.kind ≠ .package → declared.visibility.keys ≠ []

theorem VisibleSomewhere.merge {first second : Documented} (same : first.kind = second.kind)
    (left : first.VisibleSomewhere) : (first.merge second).VisibleSomewhere := by
  intro inside
  rw [kind_merge] at inside
  obtain ⟨platform, listed⟩ := List.exists_mem_of_ne_nil _ (left inside)
  exact List.ne_nil_of_mem ((mem_keys_visibility_merge same).mpr (.inl listed))

end Documented

/-- One pass says everything for its platform. -/
theorem onlyOn_ofDeclared (platform : PlatformData) :
    HoldsOfDeclared platform fun declared => declared.OnlyOn platform where
  classlike outer declared := by
    rw [Class.ofDeclaration_eq]
    exact ⟨rfl, rfl, rfl, fun _ none => nomatch none⟩
  function owner isConstructor declared := by
    refine ⟨rfl, rfl, rfl, fun parameter listed => ?_⟩
    obtain ⟨index, place, rfl⟩ := List.mem_mapIdx.mp listed
    exact ⟨rfl, rfl⟩
  property owner declared := ⟨rfl, rfl, rfl, fun _ none => nomatch none⟩

namespace Module

/-- Each declaration inside the packages of one pass speaks of the platform of the pass alone. -/
theorem ofFiles_onlyOn (name : String) (platform : PlatformData) (files : List SourceFile) :
    (ofFiles name platform files).Everywhere fun declared =>
      declared.kind ≠ .package → declared.OnlyOn platform := by
  have single : HoldsOfDeclared platform fun declared =>
      declared.kind ≠ .package → declared.OnlyOn platform :=
    { classlike := fun outer declared _ => (onlyOn_ofDeclared platform).classlike outer declared
      function := fun owner isConstructor declared _ =>
        (onlyOn_ofDeclared platform).function owner isConstructor declared
      property := fun owner declared _ => (onlyOn_ofDeclared platform).property owner declared }
  exact single.everywhere_ofFiles (fun file packaged => absurd rfl packaged) name files

/-- Coherent modules merge into a coherent one, whatever they have in common. -/
theorem merge_coherent (name : String) {modules : List Module}
    (coherent : ∀ module ∈ modules, module.Everywhere Documented.Coherent) :
    (merge name modules).Everywhere Documented.Coherent :=
  everywhere_merge (fun kind _ first second => first.merge kind second) name coherent

/-- A class has a section on the page of a package, in which the line behind the heading lists the platforms on which
the class is visible. -/
structure ShowsPlatforms (documented : Module) (declared : Class) : Prop where
  onPage : ∃ (place : Nat) (package : Package), documented.packages[place]? = some package ∧
    Markdown.ClassView.ofClass declared ∈ (Markdown.PackageView.ofPackage package).classes ∧
    ∀ stamp, ∃ page before after, (Markdown.pages stamp documented)[place + 1]? = some page ∧
      page.content = before ++ (Markdown.ClassView.ofClass declared).text ++ after
  line : ∃ after, (Markdown.ClassView.ofClass declared).text =
    (Markdown.ClassView.ofClass declared).heading ++ "\nPlatforms: " ++
      String.intercalate ", " (Markdown.ClassView.ofClass declared).platforms ++ "\n" ++ after
  nodup : (Markdown.ClassView.ofClass declared).platforms.Nodup
  mem_iff : ∀ text, text ∈ (Markdown.ClassView.ofClass declared).platforms ↔
    ∃ platform ∈ declared.visibility.keys, platform.display = text

theorem showsPlatforms_of_coherent {documented : Module} {path : DeclarationPath} {declared : Class}
    (found : .classlike declared ∈ documented.occurrences path)
    (coherent : (Documented.classlike declared).Coherent)
    (visible : (Documented.classlike declared).VisibleSomewhere) :
    documented.ShowsPlatforms declared := by
  have mem_iff (text : String) : text ∈ (Markdown.ClassView.ofClass declared).platforms ↔
      ∃ platform ∈ declared.visibility.keys, platform.display = text := by
    constructor
    · intro shown
      obtain ⟨info, listed, platform, inside, rfl⟩ := Markdown.mem_platformsOf.mp shown
      exact ⟨platform, (coherent platform).mpr ⟨info, listed, inside⟩, rfl⟩
    · rintro ⟨platform, listed, rfl⟩
      obtain ⟨info, held, inside⟩ := (coherent platform).mp listed
      exact Markdown.mem_platformsOf.mpr ⟨info, held, platform, inside, rfl⟩
  have listed : (Markdown.ClassView.ofClass declared).platforms ≠ [] := by
    obtain ⟨platform, listed⟩ := List.exists_mem_of_ne_nil _ (visible (by rintro ⟨⟩))
    exact List.ne_nil_of_mem ((mem_iff platform.display).mpr ⟨platform, listed, rfl⟩)
  obtain ⟨place, package, stands, shown⟩ := exists_package_view found
  exact
    { onPage := ⟨place, package, stands, shown, Markdown.exists_content_eq stands shown⟩
      line := Markdown.ClassView.exists_text_eq listed
      nodup := Markdown.nodup_platformsOf _
      mem_iff }

/-- The modules of several passes, each of some files on one platform. -/
def ofPasses (name : String) (passes : List (PlatformData × List SourceFile)) : List Module :=
  passes.map fun (platform, files) => ofFiles name platform files

/--
Visibilities and infos agree on the platforms in the module of one pass, and in all that is merged from
modules in which they do; the pages of merged passes list these platforms.
-/
theorem platforms_agree :
    (∀ name platform files, (ofFiles name platform files).Everywhere fun declared =>
      declared.Coherent ∧ (declared.kind ≠ .package → declared.OnlyOn platform)) ∧
    (∀ name modules, (∀ module ∈ modules, module.Everywhere Documented.Coherent) →
      (merge name modules).Everywhere Documented.Coherent) ∧
    ∀ name passes path declared, .classlike declared ∈ (merge name (ofPasses name passes)).occurrences path →
      (merge name (ofPasses name passes)).ShowsPlatforms declared := by
  have pass (name : String) (platform : PlatformData) (files : List SourceFile) :
      (ofFiles name platform files).Everywhere fun declared =>
        declared.Coherent ∧ (declared.kind ≠ .package → declared.OnlyOn platform) := by
    intro package listed
    refine (ofFiles_onlyOn name platform files package listed).imp fun {declared} only => ⟨?_, only⟩
    cases declared with
    | package declared => exact Documented.coherent_package declared
    | classlike declared => exact (only (by rintro ⟨⟩)).coherent
    | function declared => exact (only (by rintro ⟨⟩)).coherent
    | property declared => exact (only (by rintro ⟨⟩)).coherent
  refine ⟨pass, fun name modules => merge_coherent name, fun name passes path declared found => ?_⟩
  have inputs : ∀ module ∈ ofPasses name passes,
      module.Everywhere fun declared => declared.Coherent ∧ declared.VisibleSomewhere := by
    intro module listed package packed
    obtain ⟨⟨platform, files⟩, _, rfl⟩ := List.mem_map.mp listed
    refine (pass name platform files package packed).imp fun {declared} held => ⟨held.1, fun inside => ?_⟩
    rw [(held.2 inside).visibility]
    exact List.cons_ne_nil _ _
  have merged : (merge name (ofPasses name passes)).Everywhere fun declared =>
      declared.Coherent ∧ declared.VisibleSomewhere :=
    everywhere_merge (fun kind _ first second => ⟨first.1.merge kind second.1, first.2.merge kind⟩) name inputs
  obtain ⟨coherent, visible⟩ := (merged.of_mem_occurrences found).here
  exact showsPlatforms_of_coherent found coherent visible

/--
Two modules that repeat a class inside a package and from one module to the other, on two platforms; a
method of it is repeated inside one of these classes.
-/
def sampleRepeats : List Module :=
  let jvm : PlatformData := ⟨.jvm, ["jvm"]⟩
  let android : PlatformData := ⟨.jvm, ["android"]⟩
  let package := Address.ofPackage "p"
  let bare (platform : PlatformData) (methods : List String) : Class :=
    { sampleClass platform package "A" .publicAccess methods [] with properties := [] }
  [⟨"first", [samplePackage "p" [bare jvm ["run"], bare android ["run", "run"]]]⟩,
   ⟨"second", [samplePackage "p" [bare android ["stop"]], samplePackage "p" [bare jvm ["stop", "run"]]]⟩]

theorem sampleRepeats_coherent :
    ∀ module ∈ sampleRepeats, module.Everywhere Documented.Coherent := by
  simp [sampleRepeats, Everywhere, Documented.Everywhere.package_iff, Documented.Everywhere.classlike_iff,
    samplePackage, sampleClass, sampleMethod, Documented.Coherent, Documented.infos, Documented.visibility,
    SortedMap.keys, SortedMap.empty, SortedMap.singleton]

/-! Passes for two platforms over files that declare a class `A` in the package `p`. -/

def sampleFile (modifiers : List String) : SourceFile :=
  ⟨"p/A.java", "p", [], [⟨"A", false, false, false, false, some modifiers, none, [], [], [], [], [], []⟩]⟩

def sampleFilePasses : List (PlatformData × List SourceFile) :=
  [(⟨.jvm, ["jvm"]⟩, [sampleFile ["public"], sampleFile ["public", "final"]]),
   (⟨.jvm, ["android"]⟩, [sampleFile []])]

/-- What the files say of the class together; the two for the first platform say the same but for a modifier. -/
def sampleUnited : Class :=
  { address := (Address.ofPackage "p").inClass "A"
    name := "A"
    kind := .plainClass
    constructors := []
    functions := []
    properties := []
    classes := []
    expected := none
    actual := [⟨⟨⟨[]⟩, [⟨.jvm, ["jvm"]⟩]⟩, []⟩, ⟨⟨⟨[]⟩, [⟨.jvm, ["android"]⟩]⟩, []⟩]
    extra := .singleton "final" ()
    visibility := (SortedMap.singleton ⟨.jvm, ["jvm"]⟩ .publicAccess).insert ⟨.jvm, ["android"]⟩ .privateAccess }

theorem packages_merge_sampleFilePasses :
    (merge "m" (ofPasses "m" sampleFilePasses)).packages = [samplePackage "p" [sampleUnited]] := by
  have united : mergeItems Package.address Package.merge [] ((ofPasses "m" sampleFilePasses).flatMap packages) =
      [samplePackage "p" [sampleUnited]] := rfl
  rw [merge, united]
  exact List.mergeSort_singleton _

/-- The modules that repeat a class stay coherent, and the section of the class in the files shows both platforms. -/
theorem platforms_agree_sampleRepeats :
    ((∀ module ∈ sampleRepeats, module.Everywhere Documented.Coherent) ∧
      (merge "m" sampleRepeats).Everywhere Documented.Coherent) ∧
    (merge "m" (ofPasses "m" sampleFilePasses)).ShowsPlatforms sampleUnited ∧
      (Markdown.ClassView.ofClass sampleUnited).text =
        "\n## class A\n\nVisibility: private on jvm[android], public on jvm[jvm] | Modifiers: final" ++
          "\nPlatforms: jvm[jvm], jvm[android]\n\n" := by
  have found : .classlike sampleUnited ∈ (merge "m" (ofPasses "m" sampleFilePasses)).occurrences
      ⟨.ofPackage "p", [(.classlike, sampleUnited.address)]⟩ := by
    rw [occurrences, packages_merge_sampleFilePasses]
    exact List.mem_singleton.mpr rfl
  refine ⟨⟨sampleRepeats_coherent, platforms_agree.2.1 "m" sampleRepeats sampleRepeats_coherent⟩,
    platforms_agree.2.2 "m" sampleFilePasses _ sampleUnited found, ?_⟩
  decide +kernel

end Module

end ApiDocs
