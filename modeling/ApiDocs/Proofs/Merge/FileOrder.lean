import ApiDocs.Proofs.ClassIndex
import ApiDocs.Proofs.Merge.Paths
import ApiDocs.Proofs.Model.Declared
import Mathlib.Data.List.Flatten

/-!
# The order of source files

Files may be read in any order.  Those that declare different outermost classes are gathered package by package
when their documentation is merged, and the order in which they were read shows in nothing but the order of the
outermost classes inside each package.
-/

namespace ApiDocs

namespace ClassName

/-- Outermost classes of one package are told apart by their addresses. -/
theorem eq_of_address_outermost {packageName first second : String}
    (same : (⟨packageName, [first]⟩ : ClassName).address = (⟨packageName, [second]⟩ : ClassName).address) :
    first = second := by
  have names := congrArg Address.classNames same
  simpa [address, nesting, Address.ofClass] using names

end ClassName

namespace SourceFile

/-- The names of the classes that stand directly in a file. -/
def outermostNames (file : SourceFile) : List ClassName :=
  file.classes.map fun declared => ⟨file.packageName, [declared.name]⟩

/-- No package has two outermost classes of one name, be it in one file or in several. -/
def DistinctOutermost (files : List SourceFile) : Prop :=
  (files.flatMap outermostNames).Nodup

theorem outermostNames_resolve (index : ClassIndex) (file : SourceFile) :
    (file.resolve index).outermostNames = file.outermostNames := by
  rw [outermostNames, outermostNames, resolve, List.map_map]
  apply List.map_congr_left
  intro declared _
  simp only [Function.comp_apply, ClassDeclaration.resolve_eq]

theorem DistinctOutermost.resolve {files : List SourceFile} (distinct : DistinctOutermost files)
    (index : ClassIndex) : DistinctOutermost (files.map (SourceFile.resolve index)) := by
  rw [DistinctOutermost, List.flatMap_map]
  simp only [outermostNames_resolve]
  exact distinct

theorem DistinctOutermost.of_perm {files reordered : List SourceFile} (distinct : DistinctOutermost files)
    (reorders : files.Perm reordered) : DistinctOutermost reordered :=
  (reorders.flatMap_right outermostNames).nodup_iff.mp distinct

/-- The files of a package. -/
def ofPackage (files : List SourceFile) (packageName : String) : List SourceFile :=
  files.filter fun file => file.packageName = packageName

theorem mem_ofPackage {files : List SourceFile} {packageName : String} {file : SourceFile} :
    file ∈ ofPackage files packageName ↔ file ∈ files ∧ file.packageName = packageName := by
  simp [ofPackage]

end SourceFile

namespace Package

theorem merge_ofFile (package : Package) (platform : PlatformData) (file : SourceFile) :
    package.merge (ofFile platform file) =
      { package with
        classes := mergeItems Class.address Class.merge package.classes (ofFile platform file).classes } := by
  rw [merge, Class.mergeAll_eq]
  rfl

/-- Files with new classes are put behind the classes of a package, one file after the other. -/
theorem foldl_merge_ofFile (platform : PlatformData) (package : Package) (files : List SourceFile)
    (nodup : ((package.classes ++ files.flatMap fun file => (ofFile platform file).classes).map
      Class.address).Nodup) :
    (files.map (ofFile platform)).foldl merge package =
      { package with
        classes := package.classes ++ files.flatMap fun file => (ofFile platform file).classes } := by
  induction files generalizing package with
  | nil => simp
  | cons first rest ih =>
      rw [List.flatMap_cons, ← List.append_assoc] at nodup
      have here : mergeItems Class.address Class.merge package.classes (ofFile platform first).classes =
          package.classes ++ (ofFile platform first).classes := by
        apply mergeItems_eq_append
        · intro declared other
          rw [Class.merge_eq]
        · exact nodup.sublist ((List.sublist_append_left _ _).map _)
      rw [List.map_cons, List.foldl_cons, merge_ofFile, here, ih _ nodup, List.flatMap_cons, List.append_assoc]

/-- The package of a name with all outermost classes that files declare in it. -/
def gathered (platform : PlatformData) (files : List SourceFile) (name : String) : Package :=
  { address := .ofPackage name
    name
    functions := []
    properties := []
    classes := (SourceFile.ofPackage files name).flatMap fun file => (ofFile platform file).classes }

theorem address_ofFile_classes (platform : PlatformData) (file : SourceFile) :
    (ofFile platform file).classes.map Class.address = file.outermostNames.map ClassName.address := by
  rw [ofFile, SourceFile.outermostNames, List.map_map, List.map_map]
  apply List.map_congr_left
  intro declared _
  simp [Address.inClass, Address.ofPackage, ClassName.address, ClassName.nesting, Address.ofClass]

/-- Different outermost classes of one package have different addresses. -/
theorem nodup_gathered (platform : PlatformData) {files : List SourceFile}
    (distinct : SourceFile.DistinctOutermost files) (name : String) :
    ((gathered platform files name).classes.map Class.address).Nodup := by
  have addresses : (gathered platform files name).classes.map Class.address =
      ((SourceFile.ofPackage files name).flatMap SourceFile.outermostNames).map ClassName.address := by
    rw [gathered, List.map_flatMap, List.map_flatMap]
    simp only [address_ofFile_classes]
  rw [addresses]
  apply List.Nodup.map_on
  · intro first inFirst second inSecond same
    obtain ⟨file, here, inFirst⟩ := List.mem_flatMap.mp inFirst
    obtain ⟨other, there, inSecond⟩ := List.mem_flatMap.mp inSecond
    obtain ⟨declared, _, rfl⟩ := List.mem_map.mp inFirst
    obtain ⟨another, _, rfl⟩ := List.mem_map.mp inSecond
    rw [(SourceFile.mem_ofPackage.mp here).2, (SourceFile.mem_ofPackage.mp there).2] at same ⊢
    rw [ClassName.eq_of_address_outermost same]
  · exact distinct.sublist (List.filter_sublist.flatMap _)

/-- The documentation of the files of a package, merged into that of the first one. -/
theorem mergedOf_ofFile (platform : PlatformData) {files : List SourceFile}
    (distinct : SourceFile.DistinctOutermost files) {name : String} {package : Package}
    (merged : mergedOf merge ((SourceFile.ofPackage files name).map (ofFile platform)) = some package) :
    package = gathered platform files name := by
  have nodup := nodup_gathered platform distinct name
  rw [gathered] at nodup ⊢
  cases found : SourceFile.ofPackage files name with
  | nil =>
      rw [found] at merged
      cases merged
  | cons first rest =>
      have here : first.packageName = name :=
        (SourceFile.mem_ofPackage.mp (found ▸ List.mem_cons_self)).2
      rw [found] at merged nodup
      rw [List.map_cons, mergedOf, foldl_merge_ofFile platform _ rest nodup] at merged
      rw [← Option.some.inj merged, ← here]
      rfl

end Package

namespace Module

/-- The documentation of source files on one platform: the files are indexed together, resolved, documented and
merged. -/
def ofSources (name : String) (platform : PlatformData) (files : List SourceFile) : Module :=
  merge name [ofFiles name platform (files.map (SourceFile.resolve (ClassIndex.ofFiles files)))]

section Gathered

variable {name : String} {platform : PlatformData} {files : List SourceFile}

theorem address_of_mem_merge {package : Package}
    (listed : package ∈ (merge name [ofFiles name platform files]).packages) :
    package.address = .ofPackage package.name := by
  have all : ∀ item ∈ mergeItems Package.address Package.merge [] (files.map (Package.ofFile platform)),
      item.address = .ofPackage item.name := by
    refine forall_mem_mergeItems (fun _ none => nomatch none) ?_ ?_
    · intro item inFiles
      obtain ⟨file, _, rfl⟩ := List.mem_map.mp inFiles
      rfl
    · intro item _ _ _ known
      exact known
  have merged := (packages_merge_perm name [ofFiles name platform files]).mem_iff.mp listed
  rw [List.flatMap_singleton] at merged
  exact all package merged

/-- Each package of the merged documentation gathers the classes of its files. -/
theorem eq_gathered_of_mem_merge (distinct : SourceFile.DistinctOutermost files) {package : Package}
    (listed : package ∈ (merge name [ofFiles name platform files]).packages) :
    package = .gathered platform files package.name := by
  have merged := (packages_merge_perm name [ofFiles name platform files]).mem_iff.mp listed
  rw [List.flatMap_singleton] at merged
  have here := mem_itemsAt.mpr ⟨merged, address_of_mem_merge listed⟩
  have sources : itemsAt Package.address (.ofPackage package.name) (files.map (Package.ofFile platform)) =
      (SourceFile.ofPackage files package.name).map (Package.ofFile platform) := by
    rw [itemsAt, List.filter_map, SourceFile.ofPackage]
    simp [Function.comp_def, Package.ofFile, Address.ofPackage]
  rw [ofFiles, itemsAt_mergeItems_nil Package.address_merge, sources] at here
  exact Package.mergedOf_ofFile platform distinct (Option.mem_toList.mp here)

theorem addresses_merge : (merge name [ofFiles name platform files]).packages.map Package.address =
    ((merge name [ofFiles name platform files]).packages.map Package.name).map .ofPackage := by
  rw [List.map_map]
  exact List.map_congr_left fun package listed => address_of_mem_merge listed

theorem nodup_names_merge : ((merge name [ofFiles name platform files]).packages.map Package.name).Nodup := by
  have addresses := nodup_packages_merge name [ofFiles name platform files]
  rw [addresses_merge] at addresses
  exact addresses.of_map

/-- The names of the packages are those of the files. -/
theorem mem_names_merge {packageName : String} :
    packageName ∈ (merge name [ofFiles name platform files]).packages.map Package.name ↔
      packageName ∈ files.map SourceFile.packageName := by
  have injective : Function.Injective Address.ofPackage := by
    intro first second same
    exact Option.some.inj (congrArg Address.packageName same)
  have addresses := (packages_merge_perm name [ofFiles name platform files]).map Package.address
  rw [map_mergeItems Package.address_merge, addresses_merge, List.flatMap_singleton] at addresses
  have sources : (ofFiles name platform files).packages.map Package.address =
      (files.map SourceFile.packageName).map .ofPackage := by
    rw [ofFiles, List.map_map, List.map_map]
    rfl
  rw [← List.mem_map_of_injective injective, addresses.mem_iff, sources, mem_extendDistinct,
    List.mem_map_of_injective injective]
  simp

/-- The merged documentation is known by the names of its packages. -/
theorem packages_merge_eq (distinct : SourceFile.DistinctOutermost files) :
    (merge name [ofFiles name platform files]).packages =
      ((merge name [ofFiles name platform files]).packages.map Package.name).map
        (Package.gathered platform files) := by
  rw [List.map_map]
  conv_lhs => rw [← List.map_id (merge name [ofFiles name platform files]).packages]
  exact List.map_congr_left fun package listed => eq_gathered_of_mem_merge distinct listed

end Gathered

end Module

/-- Two packages are the same but for the order of their outermost classes. -/
structure Package.SameButClassOrder (first second : Package) : Prop where
  address : first.address = second.address
  name : first.name = second.name
  functions : first.functions = second.functions
  properties : first.properties = second.properties
  classes : first.classes.Perm second.classes

/-- Two modules have the same packages in the same order, but for the order of the outermost classes in them. -/
structure Module.SameButClassOrder (first second : Module) : Prop where
  name : first.name = second.name
  packages : List.Forall₂ Package.SameButClassOrder first.packages second.packages

theorem Package.sameButClassOrder_gathered (platform : PlatformData) {files reordered : List SourceFile}
    (reorders : files.Perm reordered) (name : String) :
    (gathered platform files name).SameButClassOrder (gathered platform reordered name) where
  address := rfl
  name := rfl
  functions := rfl
  properties := rfl
  classes := (reorders.filter _).flatMap_right _

namespace Module

variable {files reordered : List SourceFile}

/-- The packages stand in the order of their names, whatever the order of the files was. -/
theorem names_merge_of_perm (name : String) (platform : PlatformData) (reorders : files.Perm reordered) :
    (merge name [ofFiles name platform files]).packages.map Package.name =
      (merge name [ofFiles name platform reordered]).packages.map Package.name := by
  have sorted (sources : List SourceFile) :
      ((merge name [ofFiles name platform sources]).packages.map Package.name).Pairwise (· ≤ ·) :=
    List.pairwise_map.mpr (sorted_packages_merge name [ofFiles name platform sources])
  apply List.Perm.eq_of_pairwise (fun _ _ _ _ => String.le_antisymm) (sorted files) (sorted reordered)
  rw [List.perm_ext_iff_of_nodup nodup_names_merge nodup_names_merge]
  intro packageName
  rw [mem_names_merge, mem_names_merge, (reorders.map SourceFile.packageName).mem_iff]

theorem sameButClassOrder_merge (name : String) (platform : PlatformData) (reorders : files.Perm reordered)
    (distinct : SourceFile.DistinctOutermost files) :
    (merge name [ofFiles name platform files]).SameButClassOrder
      (merge name [ofFiles name platform reordered]) where
  name := rfl
  packages := by
    rw [packages_merge_eq distinct, packages_merge_eq (distinct.of_perm reorders),
      names_merge_of_perm name platform reorders]
    rw [List.forall₂_map_left_iff, List.forall₂_map_right_iff, List.forall₂_same]
    intro packageName _
    exact Package.sameButClassOrder_gathered platform reorders packageName

/--
The order of source files does not matter, provided that no package has two outermost classes of one name and that
no two known classes share a dotted name: the merged documentation has the same packages in the same order, and the
same classes in each of them.
-/
theorem ofSources_sameButClassOrder (name : String) (platform : PlatformData) (reorders : files.Perm reordered)
    (distinct : SourceFile.DistinctOutermost files)
    (unambiguous : ClassIndex.Unambiguous (ClassIndex.knownClasses files)) :
    (ofSources name platform files).SameButClassOrder (ofSources name platform reordered) := by
  have index : ClassIndex.ofFiles reordered = ClassIndex.ofFiles files :=
    ClassIndex.addFiles_eq_of_perm reorders unambiguous
  rw [ofSources, ofSources, index]
  exact sameButClassOrder_merge name platform (reorders.map _) (distinct.resolve _)

/-- A class with a super type and classes inside it. -/
def sampleHeir (name superType : String) (innerClasses : List ClassDeclaration) : ClassDeclaration :=
  { name, isAnnotationType := false, isInterface := false, isEnum := false, isRecord := false,
    modifiers := none, docComment := none, typeParameters := [], superTypes := [.named superType []],
    constructors := [], methods := [], fields := [], innerClasses }

/-- Two files of one package, of which the second extends a class of the first, around a file of another one. -/
def sampleSources : List SourceFile :=
  [⟨"store/Shelf.java", "store", [], [sampleHeir "Shelf" "Object" [sampleHeir "Board" "Shelf" []]]⟩,
    ⟨"shop/Shelf.java", "shop", [⟨"store.Cellar", false, false⟩], [sampleHeir "Shelf" "Cellar" []]⟩,
    ⟨"store/Cellar.java", "store", [], [sampleHeir "Cellar" "Shelf.Board" []]⟩]

theorem ofSources_sameButClassOrder_sampleSources :
    SourceFile.DistinctOutermost sampleSources ∧
      ClassIndex.Unambiguous (ClassIndex.knownClasses sampleSources) ∧
      (ofSources "m" ⟨.jvm, []⟩ sampleSources).SameButClassOrder
        (ofSources "m" ⟨.jvm, []⟩ sampleSources.reverse) := by
  have distinct : SourceFile.DistinctOutermost sampleSources := by
    rw [SourceFile.DistinctOutermost]
    decide
  -- The numbers that the bytes of the names spell are compared faster than the names.
  have numbers : ((ClassIndex.knownClasses sampleSources).map fun name =>
      name.dotted.toUTF8.data.toList.foldl (fun number byte => 256 * number + byte.toNat) 0).Nodup := by
    decide +kernel
  have unambiguous : ClassIndex.Unambiguous (ClassIndex.knownClasses sampleSources) := by
    intro first inFirst second inSecond same
    apply List.inj_on_of_nodup_map numbers inFirst inSecond
    rw [same]
  exact ⟨distinct, unambiguous,
    ofSources_sameButClassOrder "m" ⟨.jvm, []⟩ (List.reverse_perm _).symm distinct unambiguous⟩

end Module

end ApiDocs
