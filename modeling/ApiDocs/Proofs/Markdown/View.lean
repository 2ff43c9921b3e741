import ApiDocs.Markdown.Page
import ApiDocs.Proofs.Distinct
import ApiDocs.Proofs.Model.Documented

/-!
# The classes on a page

The page of a package shows every class in it, however deep it is nested: it has a section for the class, with a line for
the platforms.
-/

namespace ApiDocs

namespace Markdown

theorem mem_platformsOf {infos : List PlatformInfo} {text : String} :
    text ∈ platformsOf infos ↔ ∃ info ∈ infos, ∃ platform ∈ info.platforms, platform.display = text := by
  simp [platformsOf, distinct]

theorem nodup_platformsOf (infos : List PlatformInfo) : (platformsOf infos).Nodup :=
  nodup_extendDistinct List.nodup_nil _

namespace ClassView

theorem flattenAll_eq_flatMap (classes : List Class) :
    flatten.flattenAll classes = classes.flatMap flatten := by
  induction classes with
  | nil => rfl
  | cons first rest ih => rw [flatten.flattenAll, ih, List.flatMap_cons]

/-- A class is shown before the classes inside it. -/
theorem flatten_eq (declared : Class) :
    flatten declared = ofClass declared :: declared.classes.flatMap flatten := by
  cases declared
  rw [flatten, flattenAll_eq_flatMap]

theorem flatten_subset {classes : List Class} {inner : Class} (held : inner ∈ classes) :
    flatten inner ⊆ classes.flatMap flatten :=
  fun _ shown => List.mem_flatMap.mpr ⟨inner, held, shown⟩

/-- What the section of a class starts with: its name and its visibility. -/
def heading (shown : ClassView) : String :=
  "\n## " ++ shown.kind ++ " " ++ shown.qualified ++ "\n\nVisibility: " ++ shown.visibility ++
    listBetween " | Modifiers: " " " shown.extra ""

/-- The platforms of a class, if there are any, stand on a line of their own right behind the heading. -/
theorem exists_text_eq {shown : ClassView} (listed : shown.platforms ≠ []) :
    ∃ after, shown.text =
      shown.heading ++ "\nPlatforms: " ++ String.intercalate ", " shown.platforms ++ "\n" ++ after := by
  have line : listBetween "Platforms: " ", " shown.platforms "\n" =
      "Platforms: " ++ String.intercalate ", " shown.platforms ++ "\n" := by
    rw [listBetween, if_neg (by simpa using listed)]
  have start : "\nPlatforms: " = "\n" ++ "Platforms: " := rfl
  rw [text, header, heading, line, start]
  simp only [String.append_assoc]
  exact ⟨_, rfl⟩

end ClassView

/-- The page of a package has a section for each class in its view. -/
theorem exists_content_eq {documented : Module} {place : Nat} {package : Package}
    (found : documented.packages[place]? = some package) {view : ClassView}
    (shown : view ∈ (PackageView.ofPackage package).classes) (stamp : Stamp) :
    ∃ page before after, (pages stamp documented)[place + 1]? = some page ∧
      page.content = before ++ view.text ++ after := by
  obtain ⟨front, behind, split⟩ := List.append_of_mem shown
  have body : packageBody (.ofPackage package) =
      "# Package " ++ (PackageView.ofPackage package).name ++ "\n" ++ String.join (front.map ClassView.text) ++
        view.text ++ String.join (behind.map ClassView.text) := by
    rw [packageBody, split, List.map_append, List.map_cons, String.join_append, String.join_cons]
    simp only [String.append_assoc]
  refine ⟨packagePage stamp documented.name (place + 1) (.ofPackage package),
    stamp.frontMatter documented.name (some (PackageView.ofPackage package).name) (place + 1) ++
      ("# Package " ++ (PackageView.ofPackage package).name ++ "\n" ++ String.join (front.map ClassView.text)),
    String.join (behind.map ClassView.text), by simp [pages, found], ?_⟩
  rw [packagePage, body]
  simp only [String.append_assoc]

end Markdown

namespace Documented

open Markdown

/-- The views of the classes that are shown for a declaration. -/
def shownClasses : Documented → List ClassView
  | package declared => (PackageView.ofPackage declared).classes
  | classlike declared => ClassView.flatten declared
  | function _ => []
  | property _ => []

/-- What is shown for a member is shown for the declaration that holds it. -/
theorem shownClasses_subset_of_mem {declared member : Documented} {list : MemberKind}
    (found : member ∈ declared.members list) : member.shownClasses ⊆ declared.shownClasses := by
  cases member with
  | package inner =>
      have kind := kind_of_mem_members found
      cases list <;> cases kind
  | classlike inner =>
      cases declared <;> cases list <;>
        simp only [members, List.mem_map, List.not_mem_nil, classlike.injEq, exists_eq_right, reduceCtorEq,
          and_false, exists_false] at found
      case package.classlike declared =>
        have shown := ClassView.flatten_subset found
        rwa [← ClassView.flattenAll_eq_flatMap] at shown
      case classlike.classlike declared =>
        rw [shownClasses, shownClasses, ClassView.flatten_eq declared]
        exact fun view shown => List.mem_cons_of_mem _ (ClassView.flatten_subset found shown)
  | function inner => exact List.nil_subset _
  | property inner => exact List.nil_subset _

theorem ofClass_mem_shownClasses {declared : Documented} {steps : List (MemberKind × Address)}
    {reached : Class} (found : classlike reached ∈ declared.along steps) :
    ClassView.ofClass reached ∈ declared.shownClasses := by
  induction steps generalizing declared with
  | nil =>
      rw [← List.mem_singleton.mp found, shownClasses, ClassView.flatten_eq]
      exact List.mem_cons_self
  | cons step rest ih =>
      obtain ⟨member, held, later⟩ := List.mem_flatMap.mp found
      exact shownClasses_subset_of_mem (mem_itemsAt.mp held).1 (ih later)

end Documented

/-- Every class of a module is shown in the view of some package. -/
theorem Module.exists_package_view {documented : Module} {path : DeclarationPath} {reached : Class}
    (found : .classlike reached ∈ documented.occurrences path) :
    ∃ (place : Nat) (package : Package), documented.packages[place]? = some package ∧
      Markdown.ClassView.ofClass reached ∈ (Markdown.PackageView.ofPackage package).classes := by
  obtain ⟨package, held, later⟩ := List.mem_flatMap.mp found
  obtain ⟨package, listed, rfl⟩ := List.mem_map.mp (mem_itemsAt.mp held).1
  obtain ⟨place, stands⟩ := List.mem_iff_getElem?.mp listed
  exact ⟨place, package, stands, Documented.ofClass_mem_shownClasses later⟩

end ApiDocs
