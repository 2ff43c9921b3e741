import ApiDocs.Proofs.Rendering
import ApiDocs.Proofs.Sha256

/-!
# Pages behind their front matter

What is left of a page without its front matter is the page that is rendered without metadata.  So two pages count as
changed if they differ behind their front matter, and nothing in front of it matters.
-/

namespace ApiDocs

/-- The first fence behind a line of text is the one at its end. -/
theorem afterFence?_fence {line : List Char} (noBreak : '\n' ∉ line) (behind : List Char) :
    afterFence? (line ++ ['\n', '-', '-', '-', '\n'] ++ behind) = some behind := by
  induction line with
  | nil => simp [afterFence?, Text.withoutHead?]
  | cons first line ih =>
      obtain ⟨noFirst, noLine⟩ := not_or.mp (List.mem_cons.not.mp noBreak)
      rw [List.cons_append, List.cons_append, afterFence?, Text.withoutHead?, if_neg (by simp [noFirst])]
      exact ih noLine

/-- A text that starts with a heading has no front matter. -/
theorem stripFrontMatter_heading {text : List Char} (heading : text.head? = some '#') :
    stripFrontMatter text = text := by
  cases text with
  | nil => cases heading
  | cons first rest =>
      obtain rfl := Option.some.inj heading
      simp [stripFrontMatter, Text.withoutHead?]

/-- A module whose names stand on lines of front matter. -/
structure Module.HasOneLineNames (documented : Module) : Prop where
  module : OneLine documented.name
  package : ∀ package ∈ documented.packages, OneLine package.name

namespace RenderedFile

/-- A rendered file as it is compared. -/
def withoutFrontMatter (file : RenderedFile) : RenderedFile :=
  { file with content := String.ofList (stripFrontMatter file.content.toList) }

theorem hasContentChanged_eq_false_iff {first second : RenderedFile} :
    hasContentChanged first.content second.content = false ↔
      Sha256.hexDigest first.withoutFrontMatter.content = Sha256.hexDigest second.withoutFrontMatter.content :=
  bne_eq_false_iff_eq

end RenderedFile

namespace Markdown

/-- The stamp of a rendering without metadata. -/
def Stamp.plain (stamp : Stamp) : Stamp :=
  { stamp with includeMetadata := false }

/-- A stamp whose digest and times stand on lines of front matter. -/
structure Stamp.IsOneLine (stamp : Stamp) : Prop where
  sourceHash : OneLine stamp.sourceHash
  generatedAt : ∀ place, OneLine (stamp.generatedAt place)

namespace FrontMatter

theorem afterFence?_signed {sourceHash : String} (oneLine : OneLine sourceHash) (body : String) :
    afterFence? (signed sourceHash body) = some ('\n' :: body.toList) := by
  have line : OneLine ("source_hash: " ++ sourceHash) := by
    simpa [OneLine, String.toList_append] using oneLine
  have fenced : signed sourceHash body =
      ("source_hash: " ++ sourceHash).toList ++ ['\n', '-', '-', '-', '\n'] ++ '\n' :: body.toList := by
    simp [signed, String.toList_append]
  rw [fenced]
  exact afterFence?_fence line _

/-- Front matter is stripped with the blank line behind it, and the heading of the page stays. -/
theorem stripFrontMatter_text_append {frontMatter : FrontMatter} (moduleName : OneLine frontMatter.moduleName)
    (packageName : ∀ name, frontMatter.packageName = some name → OneLine name)
    (generatedAt : OneLine frontMatter.generatedAt) (sourceHash : OneLine frontMatter.sourceHash) {body : String}
    (heading : body.toList.head? = some '#') :
    stripFrontMatter (frontMatter.text ++ body).toList = body.toList := by
  rw [stripFrontMatter_text frontMatter moduleName packageName generatedAt, afterFence?_signed sourceHash,
    Option.getD_some, List.dropWhile_cons_of_pos (by simp)]
  cases chars : body.toList with
  | nil => rfl
  | cons first rest =>
      rw [chars] at heading
      obtain rfl := Option.some.inj heading
      exact List.dropWhile_cons_of_neg (by decide)

end FrontMatter

theorem head?_indexBody (moduleName : String) (packages : List PackageView) :
    (indexBody moduleName packages).toList.head? = some '#' := by
  simp [indexBody, String.toList_append]

theorem head?_packageBody (package : PackageView) : (packageBody package).toList.head? = some '#' := by
  simp [packageBody, String.toList_append]

variable {stamp : Stamp}

/-- Whatever a stamp puts before a page is stripped. -/
theorem withoutFrontMatter_stamped {moduleName : String} {packageName : Option String}
    (oneLine : stamp.IsOneLine) (oneModule : OneLine moduleName)
    (onePackage : ∀ name, packageName = some name → OneLine name) (path : Path) (place : Nat) {body : String}
    (heading : body.toList.head? = some '#') :
    RenderedFile.withoutFrontMatter ⟨path, stamp.frontMatter moduleName packageName place ++ body⟩ =
      ⟨path, stamp.plain.frontMatter moduleName packageName place ++ body⟩ := by
  have stripped : stripFrontMatter (stamp.frontMatter moduleName packageName place ++ body).toList =
      body.toList := by
    unfold Stamp.frontMatter
    split
    · exact FrontMatter.stripFrontMatter_text_append oneModule onePackage (oneLine.generatedAt place)
        oneLine.sourceHash heading
    · rw [String.empty_append]
      exact stripFrontMatter_heading heading
  have bare : stamp.plain.frontMatter moduleName packageName place = "" := rfl
  rw [RenderedFile.withoutFrontMatter, stripped, bare, String.empty_append, String.ofList_toList]

/-- Without their front matter pages are those that are rendered without metadata. -/
theorem withoutFrontMatter_pages {documented : Module} (oneLine : stamp.IsOneLine)
    (names : documented.HasOneLineNames) :
    (pages stamp documented).map RenderedFile.withoutFrontMatter = pages stamp.plain documented := by
  rw [pages, pages, List.map_cons]
  apply congr
  · apply congrArg List.cons
    exact withoutFrontMatter_stamped oneLine names.module (by simp) "index.md" 0 (head?_indexBody _ _)
  · apply List.ext_getElem (by simp)
    intro place inFirst _
    have inRange : place < documented.packages.length := by simpa using inFirst
    simp only [List.getElem_map, List.getElem_mapIdx]
    apply withoutFrontMatter_stamped oneLine names.module _ _ (place + 1) (head?_packageBody _)
    intro name same
    obtain rfl := Option.some.inj same
    exact oneLine_view (names.package _ (List.getElem_mem inRange))

/-- Without metadata nothing of a stamp stands on pages. -/
theorem pages_plain_eq (stamp other : Stamp) (documented : Module) :
    pages stamp.plain documented = pages other.plain documented :=
  rfl

theorem withoutFrontMatter_of_rendered {documented : Module} (oneLine : stamp.IsOneLine)
    (names : documented.HasOneLineNames) {place : Nat} {page plain : RenderedFile}
    (rendered : (pages stamp documented)[place]? = some page)
    (renderedPlain : (pages stamp.plain documented)[place]? = some plain) : page.withoutFrontMatter = plain := by
  rw [← withoutFrontMatter_pages oneLine names, List.getElem?_map, rendered] at renderedPlain
  exact Option.some.inj renderedPlain

/--
Two pages, whether they were rendered with metadata or without, count as unchanged if and only if they are the same
when they are rendered without.  So neither metadata nor the time or the digest in it ever makes a page stale.
-/
theorem hasContentChanged_pages {first second : Module} {other : Stamp} (firstNames : first.HasOneLineNames)
    (secondNames : second.HasOneLineNames) (oneLine : stamp.IsOneLine) (otherOneLine : other.IsOneLine)
    {place otherPlace : Nat} {page plain otherPage otherPlain : RenderedFile}
    (rendered : (pages stamp first)[place]? = some page)
    (renderedPlain : (pages stamp.plain first)[place]? = some plain)
    (otherRendered : (pages other second)[otherPlace]? = some otherPage)
    (otherRenderedPlain : (pages other.plain second)[otherPlace]? = some otherPlain) :
    (Sha256.TellsApart plain.content otherPlain.content →
      (hasContentChanged page.content otherPage.content = false ↔ plain.content = otherPlain.content)) ∧
    (first = second → place = otherPlace → hasContentChanged page.content otherPage.content = false) := by
  have stripped := withoutFrontMatter_of_rendered oneLine firstNames rendered renderedPlain
  have otherStripped := withoutFrontMatter_of_rendered otherOneLine secondNames otherRendered otherRenderedPlain
  rw [RenderedFile.hasContentChanged_eq_false_iff, stripped, otherStripped]
  constructor
  · intro tellsApart
    exact ⟨tellsApart, congrArg Sha256.hexDigest⟩
  · rintro rfl rfl
    rw [pages_plain_eq stamp other, otherRenderedPlain] at renderedPlain
    rw [Option.some.inj renderedPlain]

/-- A package without classes. -/
def samplePackage (packageName : String) : Package :=
  ⟨.ofPackage packageName, packageName, [], [], []⟩

def sampleModule (packageName : String) : Module :=
  ⟨"m", [samplePackage packageName]⟩

def sampleStamp (time : String) : Stamp :=
  ⟨true, "0f", fun _ => time⟩

def samplePage (stamp : Stamp) (packageName : String) : RenderedFile :=
  packagePage stamp "m" 1 (.ofPackage (samplePackage packageName))

theorem sampleModule_hasOneLineNames {packageName : String} (oneLine : OneLine packageName) :
    (sampleModule packageName).HasOneLineNames where
  module := show OneLine "m" by decide
  package := by simpa [sampleModule, samplePackage] using oneLine

theorem sampleStamp_isOneLine {time : String} (oneLine : OneLine time) : (sampleStamp time).IsOneLine where
  sourceHash := show OneLine "0f" by decide
  generatedAt _ := oneLine

theorem samplePage_rendered (stamp : Stamp) (packageName : String) :
    (pages stamp (sampleModule packageName))[1]? = some (samplePage stamp packageName) :=
  rfl

/-- A page is not stale at a later time, and it is when its package has another name. -/
theorem hasContentChanged_pages_samplePage :
    hasContentChanged (samplePage (sampleStamp "2024") "p").content (samplePage (sampleStamp "2025") "p").content =
        false ∧
      hasContentChanged (samplePage (sampleStamp "2024") "p").content
        (samplePage (sampleStamp "2025").plain "q").content = true := by
  have early : (sampleStamp "2024").IsOneLine := sampleStamp_isOneLine (by decide)
  have late : (sampleStamp "2025").IsOneLine := sampleStamp_isOneLine (by decide)
  have plain : (sampleStamp "2025").plain.IsOneLine := ⟨late.sourceHash, late.generatedAt⟩
  have names : (sampleModule "p").HasOneLineNames := sampleModule_hasOneLineNames (by decide)
  have otherNames : (sampleModule "q").HasOneLineNames := sampleModule_hasOneLineNames (by decide)
  have rendered := samplePage_rendered
  constructor
  · exact (hasContentChanged_pages names names early late (rendered _ "p") (rendered _ "p") (rendered _ "p")
      (rendered _ "p")).2 rfl rfl
  · have differ : Sha256.hexDigest "# Package p\n" ≠ Sha256.hexDigest "# Package q\n" := by
      decide +kernel
    have compared := (hasContentChanged_pages names otherNames early plain (rendered _ "p") (rendered _ "p")
      (rendered _ "q") (rendered _ "q")).1 fun same => absurd same differ
    rw [← Bool.not_eq_false, compared]
    exact fun same => differ (congrArg Sha256.hexDigest same)

end Markdown

end ApiDocs
