import ApiDocs.Proofs.Project.SourceTexts
import ApiDocs.Proofs.Sha256
import ApiDocs.Proofs.Sorting

/-!
# Fingerprints of sources

The fingerprint of sources depends on which texts they have and on how often each occurs, and on nothing else.  Digests
are sorted, so that their order does not matter, and as all of them are equally long, the text that they are joined to
shows where each of them ends.
-/

namespace List

variable {α : Type}

/-- Pieces that all have one length, other than zero, are found again in what they are joined to. -/
theorem eq_of_flatten_eq {width : Nat} (positive : 0 < width) {first second : List (List α)}
    (firstWidth : ∀ piece ∈ first, piece.length = width) (secondWidth : ∀ piece ∈ second, piece.length = width)
    (same : first.flatten = second.flatten) : first = second := by
  -- The length of what is joined says how many pieces there are.
  have firstLengths := map_eq_replicate_iff.mpr firstWidth
  have secondLengths := map_eq_replicate_iff.mpr secondWidth
  have counts : first.length * width = second.length * width := by
    have lengths := congrArg length same
    rwa [length_flatten, length_flatten, firstLengths, secondLengths, sum_replicate_nat, sum_replicate_nat] at lengths
  refine eq_iff_flatten_eq.mpr ⟨same, ?_⟩
  rw [firstLengths, secondLengths, Nat.eq_of_mul_eq_mul_right positive counts]

/-- A function that tells the items of two lists apart tells the lists apart, up to their order. -/
theorem perm_of_map_perm {β : Type} [DecidableEq α] {convert : α → β} {first second : List α}
    (apart : ∀ one ∈ first, ∀ other ∈ second, convert one = convert other → one = other)
    (perm : (first.map convert).Perm (second.map convert)) : first.Perm second := by
  induction first generalizing second with
  | nil => rw [map_eq_nil_iff.mp perm.symm.eq_nil]
  | cons one rest ih =>
      -- The first item is found in the second list too, and both lists are compared without it.
      obtain ⟨other, listed, same⟩ := mem_map.mp (perm.subset mem_cons_self)
      obtain rfl := apart one mem_cons_self other listed same.symm
      have moved : second.Perm (one :: second.erase one) := perm_cons_erase listed
      have restPerm : (rest.map convert).Perm ((second.erase one).map convert) :=
        (perm.trans (moved.map convert)).cons_inv
      have restApart : ∀ item ∈ rest, ∀ other ∈ second.erase one, convert item = convert other → item = other := by
        intro item inRest other inErased
        exact apart item (mem_cons_of_mem _ inRest) other (mem_of_mem_erase inErased)
      exact ((ih restApart restPerm).cons one).trans moved.symm

end List

namespace ApiDocs

namespace Project

/-- The text of which a fingerprint is the digest: digests in ascending order, one right after the other. -/
def sortedText (digests : List String) : String :=
  String.join (digests.mergeSort fun first second => (compare first second).isLE)

theorem fingerprint_eq (digests : List String) : fingerprint digests = Sha256.hexDigest (sortedText digests) :=
  rfl

theorem toList_sortedText (digests : List String) :
    (sortedText digests).toList = ((digests.mergeSort (keyLE id)).map String.toList).flatten := by
  rw [sortedText, String.toList_join, List.flatMap_def]
  rfl

theorem sortedText_of_pairwise {digests : List String}
    (ascending : digests.Pairwise fun first second => (compare first second).isLE) :
    sortedText digests = String.join digests :=
  congrArg String.join (List.mergeSort_of_pairwise ascending)

theorem sortedText_of_perm {first second : List String} (perm : first.Perm second) :
    sortedText first = sortedText second :=
  congrArg String.join (sort_eq_iff_perm.mpr perm)

/-- The order of digests does not matter. -/
theorem fingerprint_of_perm {first second : List String} (perm : first.Perm second) :
    fingerprint first = fingerprint second := by
  rw [fingerprint_eq, fingerprint_eq, sortedText_of_perm perm]

/-- Digests are all equally long, and so they are found again in what they are joined to. -/
theorem perm_of_sortedText_eq {first second : List String} (firstDigests : ∀ digest ∈ first, Sha256.IsDigest digest)
    (secondDigests : ∀ digest ∈ second, Sha256.IsDigest digest) (same : sortedText first = sortedText second) :
    first.Perm second := by
  have widths {digests : List String} (all : ∀ digest ∈ digests, Sha256.IsDigest digest) :
      ∀ piece ∈ (digests.mergeSort (keyLE id)).map String.toList, piece.length = 64 := by
    intro piece listed
    obtain ⟨digest, inSorted, rfl⟩ := List.mem_map.mp listed
    exact (all digest (List.mem_mergeSort.mp inSorted)).length
  have joined := congrArg String.toList same
  rw [toList_sortedText, toList_sortedText] at joined
  have pieces := List.eq_of_flatten_eq (by decide) (widths firstDigests) (widths secondDigests) joined
  exact sort_eq_iff_perm.mp (List.map_injective_iff.mpr (fun _ _ => String.toList_inj.mp) pieces)

theorem fingerprint_eq_iff {first second : List String} (firstDigests : ∀ digest ∈ first, Sha256.IsDigest digest)
    (secondDigests : ∀ digest ∈ second, Sha256.IsDigest digest)
    (tellsApart : Sha256.TellsApart (sortedText first) (sortedText second)) :
    fingerprint first = fingerprint second ↔ first.Perm second := by
  constructor
  · rw [fingerprint_eq, fingerprint_eq]
    intro same
    exact perm_of_sortedText_eq firstDigests secondDigests (tellsApart same)
  · exact fingerprint_of_perm

theorem isDigest_of_mem_digests (texts : List String) :
    ∀ digest ∈ texts.map Sha256.hexDigest, Sha256.IsDigest digest := by
  intro digest listed
  obtain ⟨text, _, rfl⟩ := List.mem_map.mp listed
  exact Sha256.isDigest_hexDigest text

/-- A run finds the fingerprint of its texts, and it fails if they cannot be read. -/
theorem fingerprint_document (surroundings : Surroundings) (config : Config) (system : FileSystem)
    (source : Option Path) :
    (document surroundings config system source).map Prod.snd =
      (sourceTexts config system source).map fun texts => fingerprint (texts.map Sha256.hexDigest) := by
  have passes : (config.passes.mapM (documentPass surroundings config system source)).map (List.map Prod.snd) =
      (config.passes.mapM (passTexts config system source)).map (List.map (List.map Sha256.hexDigest)) := by
    rw [Except.map_mapM, Except.map_mapM]
    exact Except.mapM_congr fun pass _ => digests_documentPass ..
  calc
    (document surroundings config system source).map Prod.snd
      = ((config.passes.mapM (documentPass surroundings config system source)).map (List.map Prod.snd)).map
          fun digests => fingerprint digests.flatten := by
        unfold document
        cases config.passes.mapM (documentPass surroundings config system source) <;> rfl
    _ = (config.passes.mapM (passTexts config system source)).map
          fun texts => fingerprint (texts.flatten.map Sha256.hexDigest) := by
        simp only [passes, Except.map_map, List.map_flatten]
    _ = (sourceTexts config system source).map fun texts => fingerprint (texts.map Sha256.hexDigest) := by
        unfold sourceTexts
        cases config.passes.mapM (passTexts config system source) <;> rfl

/-- A run finds the same fingerprint in another order of passes and roots. -/
theorem fingerprint_of_sameButOrder {surroundings : Surroundings} {config other : Config} {system : FileSystem}
    {source : Option Path} {sourceHash : String} (same : config.SameButOrder other)
    (found : (document surroundings config system source).map Prod.snd = .ok sourceHash) :
    (document surroundings other system source).map Prod.snd = .ok sourceHash := by
  rw [fingerprint_document] at found ⊢
  cases read : sourceTexts config system source with
  | error reason =>
      rw [read] at found
      cases found
  | ok texts =>
      rw [read] at found
      obtain ⟨others, readOthers, perm⟩ := exists_sourceTexts_of_sameButOrder same read
      have same := fingerprint_of_perm (perm.map Sha256.hexDigest)
      rw [readOthers, ← found, Except.map, Except.map, same]

/--
The fingerprint of sources tells which ones there are and how often each occurs, and nothing else.  Digests have one
fingerprint if and only if they are the same ones up to their order, and so do texts by their digests, as long as
SHA-256 tells the texts apart that are compared.  A run finds the fingerprint of the texts that its passes yield root
after root, and the same one with passes and roots in another order.
-/
theorem fingerprint_countsSources :
    (∀ {first second : List String}, (∀ digest ∈ first, Sha256.IsDigest digest) →
      (∀ digest ∈ second, Sha256.IsDigest digest) → Sha256.TellsApart (sortedText first) (sortedText second) →
        (fingerprint first = fingerprint second ↔ first.Perm second)) ∧
    (∀ {texts others : List String}, (∀ text ∈ texts, ∀ other ∈ others, Sha256.TellsApart text other) →
      Sha256.TellsApart (sortedText (texts.map Sha256.hexDigest)) (sortedText (others.map Sha256.hexDigest)) →
        (fingerprint (texts.map Sha256.hexDigest) = fingerprint (others.map Sha256.hexDigest) ↔
          texts.Perm others)) ∧
    (∀ surroundings config system source,
      (document surroundings config system source).map Prod.snd =
        (sourceTexts config system source).map fun texts => fingerprint (texts.map Sha256.hexDigest)) ∧
    ∀ {surroundings : Surroundings} {config other : Config} {system : FileSystem} {source : Option Path}
      {sourceHash : String}, config.SameButOrder other →
        (document surroundings config system source).map Prod.snd = .ok sourceHash →
          (document surroundings other system source).map Prod.snd = .ok sourceHash := by
  refine ⟨fingerprint_eq_iff, ?texts, fingerprint_document, fingerprint_of_sameButOrder⟩
  case texts =>
    intro texts others apart tellsApart
    rw [fingerprint_eq_iff (isDigest_of_mem_digests texts) (isDigest_of_mem_digests others) tellsApart]
    exact ⟨List.perm_of_map_perm apart, fun perm => perm.map Sha256.hexDigest⟩

/-! A project with two passes that share a root, so that one source is read twice. -/

def sampleShared : Config :=
  { sampleConfig with passes := [⟨["src", "gen"], "jvm", ["jvm"]⟩, ⟨["src"], "jvm", ["android"]⟩] }

def sampleReordered : Config :=
  { sampleConfig with passes := [⟨["src"], "jvm", ["android"]⟩, ⟨["gen", "src"], "jvm", ["jvm"]⟩] }

def sampleSharedSystem : FileSystem :=
  ⟨.ofList [(["work"], .directory), (["work", "gen"], .directory),
    (["work", "gen", "B.java"], .file "class B {}".toUTF8), (["work", "src"], .directory),
    (["work", "src", "A.java"], .file "class A {}".toUTF8)], ["work"]⟩

theorem sampleShared_sameButOrder : sampleShared.SameButOrder sampleReordered :=
  ⟨[⟨["src"], "jvm", ["android"]⟩, ⟨["src", "gen"], "jvm", ["jvm"]⟩], sampleReordered.passes, .swap _ _ [],
    .cons ⟨["src"], .refl _, rfl⟩ (.cons ⟨["gen", "src"], .swap _ _ [], rfl⟩ .nil), rfl⟩

theorem sourceTexts_sampleShared :
    sourceTexts sampleShared sampleSharedSystem none = .ok ["class A {}", "class B {}", "class A {}"] :=
  Except.eq_ok_of_toOption (by decide +kernel)

/-- The digest of `class A {}`. -/
def sampleDigest : String :=
  "107310d1668e0941284e7595573d77788d10959a91d6eb1a53c03b4faba0bc97"

/-- The digest of `class B {}`. -/
def sampleOtherDigest : String :=
  "9712d0ed754bf804ad7da3f84f78a096cb1ae145218f3075829eacc049f9ab51"

theorem hexDigest_sampleDigest : Sha256.hexDigest "class A {}" = sampleDigest := by
  decide +kernel

theorem hexDigest_sampleOtherDigest : Sha256.hexDigest "class B {}" = sampleOtherDigest := by
  decide +kernel

theorem tellsApart_sampleDigests :
    Sha256.TellsApart (sortedText [sampleDigest, sampleDigest, sampleOtherDigest])
      (sortedText [sampleDigest, sampleOtherDigest, sampleOtherDigest]) := by
  have below : (compare sampleDigest sampleOtherDigest).isLE := by
    decide +kernel
  rw [sortedText_of_pairwise (by simp [below]), sortedText_of_pairwise (by simp [below])]
  decide +kernel

/-- The fingerprint does not change with the order of passes and roots, and it does if one source is read twice instead
of another one. -/
theorem fingerprint_countsSources_sampleShared :
    (document sampleSurroundings sampleReordered sampleSharedSystem none).map Prod.snd =
      .ok (fingerprint (["class A {}", "class B {}", "class A {}"].map Sha256.hexDigest)) ∧
    fingerprint (["class A {}", "class A {}", "class B {}"].map Sha256.hexDigest) ≠
      fingerprint (["class A {}", "class B {}", "class B {}"].map Sha256.hexDigest) ∧
    fingerprint [sampleDigest, sampleDigest, sampleOtherDigest] ≠
      fingerprint [sampleDigest, sampleOtherDigest, sampleOtherDigest] := by
  obtain ⟨digests, texts, run, reordered⟩ := fingerprint_countsSources
  refine ⟨?order, ?texts, ?digests⟩
  case order =>
    refine reordered sampleShared_sameButOrder ?_
    rw [run, sourceTexts_sampleShared, Except.map]
  case texts =>
    have apart : ∀ text ∈ ["class A {}", "class A {}", "class B {}"],
        ∀ other ∈ ["class A {}", "class B {}", "class B {}"], Sha256.TellsApart text other := by
      have differ : sampleDigest ≠ sampleOtherDigest := by decide
      simp [Sha256.TellsApart, hexDigest_sampleDigest, hexDigest_sampleOtherDigest, differ, differ.symm]
    have joined := tellsApart_sampleDigests
    rw [← hexDigest_sampleDigest, ← hexDigest_sampleOtherDigest] at joined
    exact mt (texts apart joined).mp (by decide)
  case digests =>
    have written : ∀ digest ∈ [sampleDigest, sampleOtherDigest], Sha256.IsDigest digest := by
      rw [← hexDigest_sampleDigest, ← hexDigest_sampleOtherDigest]
      exact isDigest_of_mem_digests ["class A {}", "class B {}"]
    exact mt (digests (by simpa using written) (by simpa using written) tellsApart_sampleDigests).mp (by decide)

end Project

end ApiDocs
