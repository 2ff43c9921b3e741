import ApiDocs.Proofs.Project.Obstacles
import ApiDocs.Proofs.Project.SingleSource

/-!
# Texts of sources

A run reads the texts of its sources pass after pass and root after root, and it keeps their digests.  In another order
of the passes and of their roots it reads the same texts, each as often.
-/

namespace ApiDocs

namespace Source

/-- The texts of the source files that are read below a root. -/
def textsBelow (patterns : List String) (maxFileSize : Nat) (system : FileSystem) (root : Path) :
    Except Failure (List String) :=
  (pathsBelow patterns system root).map fun paths =>
    paths.filterMap fun path => (system.readText path).toOption.filter fun text => text.utf8ByteSize ≤ maxFileSize

/-- A source file that is read leaves the digest of its text. -/
theorem digest_read {syntaxOf : String → SyntaxNode} {maxFileSize : Nat} {system : FileSystem} {path : Path}
    (named : isSourcePath path = true) :
    (read syntaxOf maxFileSize system path).toOption.map digest =
      ((system.readText path).toOption.filter fun text => text.utf8ByteSize ≤ maxFileSize).map Sha256.hexDigest := by
  rw [read]
  cases system.readText path with
  | error reason => rfl
  | ok text =>
      have found : (Except.ok text : Except FileError String).toOption = some text := rfl
      simp only [Except.mapError, bind, Except.bind, found, Option.filter_some, decide_eq_true_eq, named]
      by_cases large : maxFileSize < text.utf8ByteSize
      · rw [if_pos large, if_neg (Nat.not_le.mpr large)]
        rfl
      · rw [if_neg large, if_pos (Nat.not_lt.mp large)]
        rfl

/-- What is kept of the sources below a root are the digests of their texts. -/
theorem digests_readBelow (syntaxOf : String → SyntaxNode) (patterns : List String) (maxFileSize : Nat)
    (system : FileSystem) (root : Path) :
    (readBelow syntaxOf patterns maxFileSize system root).map (List.map digest) =
      (textsBelow patterns maxFileSize system root).map (List.map Sha256.hexDigest) := by
  rw [readBelow_eq_map, textsBelow]
  cases walked : pathsBelow patterns system root with
  | error reason => rfl
  | ok paths =>
      refine congrArg Except.ok ?_
      rw [List.map_filterMap, List.map_filterMap]
      exact List.filterMap_congr fun path listed => digest_read (isSourcePath_of_mem_pathsBelow walked listed)

theorem digests_mapM_readBelow (syntaxOf : String → SyntaxNode) (patterns : List String) (maxFileSize : Nat)
    (system : FileSystem) (roots : List Path) :
    (roots.mapM (readBelow syntaxOf patterns maxFileSize system)).map (fun sources => sources.flatten.map digest) =
      (roots.mapM (textsBelow patterns maxFileSize system)).map fun texts => texts.flatten.map Sha256.hexDigest := by
  have below : (roots.mapM (readBelow syntaxOf patterns maxFileSize system)).map (List.map (List.map digest)) =
      (roots.mapM (textsBelow patterns maxFileSize system)).map (List.map (List.map Sha256.hexDigest)) := by
    rw [Except.map_mapM, Except.map_mapM]
    exact Except.mapM_congr fun root _ => digests_readBelow ..
  have joined := congrArg (Except.map List.flatten) below
  rw [Except.map_map, Except.map_map] at joined
  simpa only [List.map_flatten] using joined

end Source

/-- Passes that differ in nothing but the order of their roots. -/
def PassConfig.SameButOrder (pass other : PassConfig) : Prop :=
  ∃ roots, pass.sourceRoots.Perm roots ∧ other = { pass with sourceRoots := roots }

/-- Configurations that differ in nothing but the order of the passes and of their roots. -/
def Config.SameButOrder (config other : Config) : Prop :=
  ∃ passes reordered, config.passes.Perm passes ∧ List.Forall₂ PassConfig.SameButOrder passes reordered ∧
    other = { config with passes := reordered }

namespace Project

variable {config : Config} {system : FileSystem} {source : Option Path}

/-- The texts of the sources of a pass, root after root. -/
def passTexts (config : Config) (system : FileSystem) (source : Option Path) (pass : PassConfig) :
    Except Failure (List String) := do
  let _ ← pass.platformData.mapError Failure.configuration
  let texts ← (rootsOf source pass).mapM (Source.textsBelow config.ignorePatterns config.maxFileSize system)
  return texts.flatten

/-- The texts of all sources, pass after pass. -/
def sourceTexts (config : Config) (system : FileSystem) (source : Option Path) : Except Failure (List String) := do
  let texts ← config.passes.mapM (passTexts config system source)
  return texts.flatten

/-- A pass yields the digests of its texts. -/
theorem digests_documentPass (surroundings : Surroundings) (config : Config) (system : FileSystem)
    (source : Option Path) (pass : PassConfig) :
    (documentPass surroundings config system source pass).map Prod.snd =
      (passTexts config system source pass).map (List.map Sha256.hexDigest) := by
  unfold documentPass passTexts
  cases pass.platformData with
  | error reason => rfl
  | ok platform =>
      have below := Source.digests_mapM_readBelow surroundings.syntaxOf config.ignorePatterns config.maxFileSize
        system (rootsOf source pass)
      exact (Except.map_bind_ok _ _ _).trans (below.trans (Except.map_bind_ok _ _ _).symm)

theorem passTexts_eq_ok_iff {pass : PassConfig} {texts : List String} :
    passTexts config system source pass = .ok texts ↔
      (∃ platform, pass.platformData = .ok platform) ∧
        ∃ found, (rootsOf source pass).mapM (Source.textsBelow config.ignorePatterns config.maxFileSize system) =
          .ok found ∧ found.flatten = texts := by
  rw [passTexts, Except.bind_eq_ok_iff]
  simp only [Except.mapError_eq_ok_iff, exists_and_right, Except.bind_eq_ok_iff, pure, Except.pure, Except.ok.injEq]

theorem sourceTexts_eq_ok_iff {texts : List String} :
    sourceTexts config system source = .ok texts ↔
      ∃ found, config.passes.mapM (passTexts config system source) = .ok found ∧ found.flatten = texts := by
  rw [sourceTexts, Except.bind_eq_ok_iff]
  simp only [pure, Except.pure, Except.ok.injEq]

/-- A pass yields the same texts from its roots in another order. -/
theorem exists_passTexts_of_sameButOrder {pass other : PassConfig} {texts : List String}
    (same : pass.SameButOrder other) (read : passTexts config system source pass = .ok texts) :
    ∃ others, passTexts config system source other = .ok others ∧ texts.Perm others := by
  obtain ⟨roots, perm, rfl⟩ := same
  obtain ⟨platform, found, below, rfl⟩ := passTexts_eq_ok_iff.mp read
  have rootsPerm : (rootsOf source pass).Perm (rootsOf source { pass with sourceRoots := roots }) := by
    cases source with
    | some root => exact .refl _
    | none => exact perm
  obtain ⟨others, belowOthers, same⟩ := Except.exists_mapM_eq_ok_of_perm rootsPerm below
  have known : ∃ platform, PassConfig.platformData { pass with sourceRoots := roots } = .ok platform := by
    simpa only [PassConfig.platformData] using platform
  exact ⟨others.flatten, passTexts_eq_ok_iff.mpr ⟨known, others, belowOthers, rfl⟩, same.flatten⟩

/-- The same texts are read in another order of passes and roots. -/
theorem exists_sourceTexts_of_sameButOrder {other : Config} {texts : List String} (same : config.SameButOrder other)
    (read : sourceTexts config system source = .ok texts) :
    ∃ others, sourceTexts other system source = .ok others ∧ texts.Perm others := by
  obtain ⟨passes, reordered, perm, roots, rfl⟩ := same
  obtain ⟨found, inPasses, rfl⟩ := sourceTexts_eq_ok_iff.mp read
  -- The passes are put in order first, and then the roots within each of them.
  obtain ⟨middle, inMiddle, foundPerm⟩ := Except.exists_mapM_eq_ok_of_perm perm inPasses
  have step : ∀ pass other texts, pass.SameButOrder other → passTexts config system source pass = .ok texts →
      ∃ others, passTexts { config with passes := reordered } system source other = .ok others ∧
        texts.Perm others :=
    fun _ _ _ same read => exists_passTexts_of_sameButOrder same read
  obtain ⟨others, inOthers, eachPerm⟩ := Except.exists_mapM_eq_ok_of_forall₂ step roots inMiddle
  refine ⟨others.flatten, sourceTexts_eq_ok_iff.mpr ⟨others, inOthers, rfl⟩, ?_⟩
  exact foundPerm.flatten.trans (.flatten_congr eachPerm)

end Project

end ApiDocs
