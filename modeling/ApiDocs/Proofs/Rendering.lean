import ApiDocs.Changes
import ApiDocs.Rendering
import ApiDocs.Proofs.FileSystem.Locate

/-!
# Renderings at different times

The time of a rendering stands in the front matter of its pages and nowhere else.  Two renderings of one module
therefore give the same files but for their front matter.
-/

namespace ApiDocs

/-- A text without line feeds. -/
def OneLine (text : String) : Prop :=
  '\n' ∉ text.toList

instance (text : String) : Decidable (OneLine text) :=
  inferInstanceAs (Decidable ('\n' ∉ text.toList))

/-- The first fence does not start at the end of a line that no dash follows. -/
theorem afterFence?_line {line rest : List Char} (noBreak : '\n' ∉ line) (noDash : rest.head? ≠ some '-') :
    afterFence? (line ++ '\n' :: rest) = afterFence? rest := by
  induction line with
  | nil =>
      have noFence : ¬ ['-', '-', '-', '\n'] <+: rest := by
        rintro ⟨behind, rfl⟩
        exact noDash rfl
      simp [afterFence?, Text.withoutHead?, noFence]
  | cons first line ih =>
      obtain ⟨noFirst, noLine⟩ := not_or.mp (List.mem_cons.not.mp noBreak)
      rw [List.cons_append, afterFence?, Text.withoutHead?, if_neg (by simp [noFirst])]
      exact ih noLine

/-- A text with a fence in it has a text behind the first one. -/
theorem exists_afterFence? (before behind : List Char) :
    ∃ after, afterFence? (before ++ ['\n', '-', '-', '-', '\n'] ++ behind) = some after := by
  induction before with
  | nil => exact ⟨behind, by simp [afterFence?, Text.withoutHead?]⟩
  | cons first before ih =>
      rw [List.cons_append, List.cons_append, afterFence?]
      split
      · exact ⟨_, rfl⟩
      · exact ih

namespace Markdown

namespace FrontMatter

/-- What stands behind the time in front matter and behind that. -/
def signed (sourceHash body : String) : List Char :=
  ("source_hash: " ++ sourceHash ++ "\n---\n\n" ++ body).toList

/-- The line for the package, if there is one. -/
def packageLine (frontMatter : FrontMatter) : String :=
  match frontMatter.packageName with
  | some packageName => if packageName = "" then "" else "package: " ++ packageName ++ "\n"
  | none => ""

theorem toList_text_append (frontMatter : FrontMatter) (body : String) :
    (frontMatter.text ++ body).toList =
      ['-', '-', '-', '\n'] ++ (("module: " ++ frontMatter.moduleName).toList ++ '\n' ::
        (frontMatter.packageLine.toList ++ (("generated_at: " ++ frontMatter.generatedAt).toList ++ '\n' ::
          signed frontMatter.sourceHash body))) := by
  have same : frontMatter.text = "---\nmodule: " ++ frontMatter.moduleName ++ "\n" ++ frontMatter.packageLine ++
      "generated_at: " ++ frontMatter.generatedAt ++ "\nsource_hash: " ++ frontMatter.sourceHash ++
      "\n---\n\n" := rfl
  simp [same, signed, String.toList_append]

theorem head?_packageLine {frontMatter : FrontMatter} {rest : List Char} (noDash : rest.head? ≠ some '-') :
    (frontMatter.packageLine.toList ++ rest).head? ≠ some '-' := by
  unfold packageLine
  split
  · split
    · exact noDash
    · simp [String.toList_append]
  · exact noDash

theorem afterFence?_packageLine {frontMatter : FrontMatter}
    (packageName : ∀ name, frontMatter.packageName = some name → OneLine name) {rest : List Char}
    (noDash : rest.head? ≠ some '-') :
    afterFence? (frontMatter.packageLine.toList ++ rest) = afterFence? rest := by
  unfold packageLine
  split
  · rename_i name named
    split
    · rfl
    · have line : OneLine ("package: " ++ name) := by
        have := packageName name named
        simpa [OneLine, String.toList_append] using this
      have regrouped : ("package: " ++ name ++ "\n").toList ++ rest =
          ("package: " ++ name).toList ++ '\n' :: rest := by
        simp [String.toList_append]
      rw [regrouped]
      exact afterFence?_line line noDash
  · rfl

/-- Of front matter only the digest of the sources can matter to what is left of a content. -/
theorem stripFrontMatter_text (frontMatter : FrontMatter) (moduleName : OneLine frontMatter.moduleName)
    (packageName : ∀ name, frontMatter.packageName = some name → OneLine name)
    (generatedAt : OneLine frontMatter.generatedAt) (body : String) :
    stripFrontMatter (frontMatter.text ++ body).toList =
      ((afterFence? (signed frontMatter.sourceHash body)).getD []).dropWhile (· = '\n') := by
  have module : OneLine ("module: " ++ frontMatter.moduleName) := by
    simpa [OneLine, String.toList_append] using moduleName
  have time : OneLine ("generated_at: " ++ frontMatter.generatedAt) := by
    simpa [OneLine, String.toList_append] using generatedAt
  have signedDash : (signed frontMatter.sourceHash body).head? ≠ some '-' := by
    simp [signed, String.toList_append]
  have timeDash : (("generated_at: " ++ frontMatter.generatedAt).toList ++ '\n' ::
      signed frontMatter.sourceHash body).head? ≠ some '-' := by
    simp [String.toList_append]
  obtain ⟨after, found⟩ : ∃ after, afterFence? (signed frontMatter.sourceHash body) = some after := by
    have fenced : signed frontMatter.sourceHash body =
        ("source_hash: " ++ frontMatter.sourceHash).toList ++ ['\n', '-', '-', '-', '\n'] ++
          '\n' :: body.toList := by
      simp [signed, String.toList_append]
    rw [fenced]
    exact exists_afterFence? _ _
  rw [toList_text_append, stripFrontMatter, Text.withoutHead?, if_pos (by simp), List.drop_left]
  simp only [afterFence?_line module (head?_packageLine timeDash),
    afterFence?_packageLine packageName timeDash, afterFence?_line time signedDash, found, Option.getD_some]

end FrontMatter

/-- The stamp of a rendering at another time. -/
def Stamp.withTimes (stamp : Stamp) (times : Nat → String) : Stamp :=
  { stamp with generatedAt := times }

variable {stamp : Stamp} {times : Nat → String}

theorem stripFrontMatter_frontMatter {moduleName : String} {packageName : Option String}
    (oneModule : OneLine moduleName) (onePackage : ∀ name, packageName = some name → OneLine name)
    (first : ∀ place, OneLine (stamp.generatedAt place)) (second : ∀ place, OneLine (times place)) (place : Nat)
    (body : String) :
    stripFrontMatter ((stamp.withTimes times).frontMatter moduleName packageName place ++ body).toList =
      stripFrontMatter (stamp.frontMatter moduleName packageName place ++ body).toList := by
  unfold Stamp.frontMatter
  cases metadata : stamp.includeMetadata with
  | false => simp only [Stamp.withTimes, metadata, Bool.false_eq_true, if_false]
  | true =>
      simp only [Stamp.withTimes, metadata, if_true]
      exact (FrontMatter.stripFrontMatter_text ⟨moduleName, packageName, times place, stamp.sourceHash⟩
          oneModule onePackage (second place) body).trans
        (FrontMatter.stripFrontMatter_text ⟨moduleName, packageName, stamp.generatedAt place, stamp.sourceHash⟩
          oneModule onePackage (first place) body).symm

end Markdown

namespace RenderedFile

/-- What later renderings of a file are compared by. -/
def digested (file : RenderedFile) : Path × String :=
  (file.path, contentDigest file.content)

theorem digested_eq {path : Path} {first second : String}
    (same : stripFrontMatter first.toList = stripFrontMatter second.toList) :
    digested ⟨path, first⟩ = digested ⟨path, second⟩ := by
  rw [digested, digested, contentDigest, contentDigest, same]

end RenderedFile

namespace Markdown

theorem oneLine_view {package : Package} (oneLine : OneLine package.name) :
    OneLine (PackageView.ofPackage package).name := by
  unfold PackageView.ofPackage
  simp only
  split
  · decide
  · exact oneLine

variable {stamp : Stamp} {times : Nat → String} {documented : Module}

theorem digested_pages (oneModule : OneLine documented.name)
    (onePackage : ∀ package ∈ documented.packages, OneLine package.name)
    (first : ∀ place, OneLine (stamp.generatedAt place)) (second : ∀ place, OneLine (times place)) :
    (pages (stamp.withTimes times) documented).map RenderedFile.digested =
      (pages stamp documented).map RenderedFile.digested := by
  rw [pages, pages, List.map_cons, List.map_cons]
  refine congr (congrArg List.cons ?_) ?_
  · exact RenderedFile.digested_eq (stripFrontMatter_frontMatter oneModule (by simp) first second 0 _)
  · refine List.ext_getElem (by simp) fun place inFirst _ => ?_
    have inRange : place < documented.packages.length := by simpa using inFirst
    have listed : documented.packages[place] ∈ documented.packages := List.getElem_mem inRange
    simp only [List.getElem_map, List.getElem_mapIdx]
    refine RenderedFile.digested_eq (stripFrontMatter_frontMatter oneModule (fun name same => ?_) first second
      (place + 1) _)
    obtain rfl := Option.some.inj same
    exact oneLine_view (onePackage _ listed)

end Markdown

/-- The names of rendered files. -/
def IsOutputName (name : String) : Prop :=
  name = "module.json" ∨ ∃ stem, name = stem ++ ".md"

/-- A path of names with the name of a rendered file at its end. -/
structure Path.IsOutput (path : Path) : Prop where
  plain : path.IsPlain
  name : ∃ front name, Text.fields '/' path = front ++ [name] ∧ IsOutputName name

namespace Path.IsOutput

theorem of_name {name : String} (single : '/' ∉ name.toList) (long : 2 < name.length)
    (output : IsOutputName name) : Path.IsOutput name :=
  ⟨isPlain_name single long, [], name, Text.fields_of_notMem single, output⟩

theorem below {directory path : Path} (plain : directory.IsPlain) (output : path.IsOutput) :
    Path.IsOutput (directory ++ "/" ++ path) := by
  obtain ⟨front, name, ends, named⟩ := output.name
  refine ⟨plain.below output.plain, Text.fields '/' directory ++ front, name, ?_, named⟩
  rw [fields_append, ends, List.append_assoc]

end Path.IsOutput

namespace Markdown

/-- The page of a package whose name is no path is a file in the directory of pages. -/
theorem isOutput_packagePage {package : Package} (single : '/' ∉ package.name.toList) (stamp : Stamp)
    (moduleName : String) (place : Nat) :
    (packagePage stamp moduleName place (.ofPackage package)).path.IsOutput := by
  obtain ⟨stem, file, single⟩ : ∃ stem, (PackageView.ofPackage package).file = stem ++ ".md" ∧
      '/' ∉ stem.toList := by
    by_cases nameless : package.name = ""
    · exact ⟨"default", by simp [PackageView.ofPackage, nameless], by decide⟩
    · exact ⟨package.name, by simp [PackageView.ofPackage, nameless], single⟩
  have slashless : '/' ∉ (stem ++ ".md").toList := by
    simpa [String.toList_append] using single
  have relative : Path.isAbsolute (stem ++ ".md") = false := by
    rw [Path.isAbsolute, beq_eq_false_iff_ne]
    exact fun starts => slashless (List.mem_of_mem_head? starts)
  have path : (packagePage stamp moduleName place (.ofPackage package)).path =
      "packages" ++ "/" ++ (stem ++ ".md") := by
    rw [packagePage, file, Path.join, relative, if_neg Bool.false_ne_true, if_neg (by decide)]
  have long : 2 < (stem ++ ".md").length := by
    have appended : (stem ++ ".md").length = stem.length + 3 := String.length_append ..
    omega
  rw [path]
  exact .below (Path.isPlain_name (by decide) (by decide)) (.of_name slashless long (.inr ⟨stem, rfl⟩))

theorem isOutput_of_mem_pages {documented : Module}
    (single : ∀ package ∈ documented.packages, '/' ∉ package.name.toList) {stamp : Stamp} {file : RenderedFile}
    (listed : file ∈ pages stamp documented) : file.path.IsOutput := by
  obtain rfl | page := List.mem_cons.mp listed
  · exact @Path.IsOutput.of_name "index.md" (by decide) (by decide) (.inr ⟨"index", rfl⟩)
  · obtain ⟨place, inRange, rfl⟩ := List.mem_mapIdx.mp page
    rw [List.getElem_map]
    exact isOutput_packagePage (single _ (List.getElem_mem _)) _ _ _

end Markdown

namespace Module

variable {documented : Module}

theorem isOutput_of_mem_renderAll (single : ∀ package ∈ documented.packages, '/' ∉ package.name.toList)
    {stamp : Markdown.Stamp} {formats : List OutputFormat} {file : RenderedFile}
    (listed : file ∈ documented.renderAll stamp formats) : file.path.IsOutput := by
  induction formats generalizing stamp with
  | nil => exact absurd listed List.not_mem_nil
  | cons format rest ih =>
      obtain here | later := List.mem_append.mp listed
      · cases format with
        | json =>
            obtain rfl := List.mem_singleton.mp here
            exact @Path.IsOutput.of_name "module.json" (by decide) (by decide) (.inl rfl)
        | markdown => exact Markdown.isOutput_of_mem_pages single here
      · exact ih later

/-- Renderings at different times differ in nothing that is compared. -/
theorem digested_renderAll (oneModule : OneLine documented.name)
    (onePackage : ∀ package ∈ documented.packages, OneLine package.name) (stamp : Markdown.Stamp)
    {times : Nat → String} (first : ∀ place, OneLine (stamp.generatedAt place))
    (second : ∀ place, OneLine (times place)) (formats : List OutputFormat) :
    (documented.renderAll (stamp.withTimes times) formats).map RenderedFile.digested =
      (documented.renderAll stamp formats).map RenderedFile.digested := by
  induction formats generalizing stamp times with
  | nil => rfl
  | cons format rest ih =>
      simp only [renderAll, List.map_append]
      refine congr (congrArg List.append ?_) ?_
      · cases format with
        | json => rfl
        | markdown => exact Markdown.digested_pages oneModule onePackage first second
      · exact ih (stamp.withTimes fun place => stamp.generatedAt (_ + place)) (fun _ => first _)
          (fun _ => second _)

end Module

end ApiDocs
