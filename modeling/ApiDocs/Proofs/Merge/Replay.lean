import ApiDocs.Proofs.Merge.Folds

/-!
# Merging again

A second round of the same modules adds nothing to their merge.  Each declaration has then absorbed later
occurrences, but its data is read off all occurrences, and these only repeat.
-/

namespace ApiDocs

/-- Infos that were united once are all known. -/
theorem unitedInfos_append_self {α ι : Type} [DecidableEq ι] (infosOf : α → List ι) (first : α)
    (rest : List α) :
    unitedInfos infosOf first (rest ++ first :: rest) = unitedInfos infosOf first rest := by
  rw [unitedInfos_eq, unitedInfos_eq, List.flatMap_append, extendDistinct_append]
  refine extendDistinct_of_subset fun info member => ?_
  rw [List.flatMap_cons, List.mem_append] at member
  exact mem_extendDistinct.mpr member

theorem PlatformFields.IsFold.replay {α ι : Type} [DecidableEq ι] {fields : PlatformFields α ι}
    {merged again first : α} {rest : List α} (once : fields.IsFold merged first rest)
    (twice : fields.IsFold again first (rest ++ first :: rest)) :
    fields.expected again = fields.expected merged ∧ fields.actual again = fields.actual merged ∧
      fields.visibility again = fields.visibility merged := by
  refine ⟨?_, ?_, SortedMap.ext_get? fun platform => ?_⟩
  · rw [once.expected, twice.expected, ← List.cons_append, List.findSome?_append, Option.or_self]
  · rw [once.actual, twice.actual, unitedInfos_append_self]
  · rw [once.visibility, twice.visibility, ← List.cons_append, List.filterMap_append,
      List.getLast?_append, Option.or_self]

theorem Function.IsFold.replay {merged again first : Function} {rest : List Function}
    (once : merged.IsFold first rest) (twice : again.IsFold first (rest ++ first :: rest)) :
    again = merged := by
  have parameters : again.parameters = merged.parameters := by
    refine List.ext_getElem? fun index => ?_
    rw [once.parameters, twice.parameters]
    cases found : first.parameters[index]? with
    | none => rfl
    | some parameter =>
        have repeated : (rest ++ first :: rest).filterMap (fun other => other.parameters[index]?) =
            rest.filterMap (fun other => other.parameters[index]?) ++
              parameter :: rest.filterMap fun other => other.parameters[index]? := by
          rw [List.filterMap_append, List.filterMap_cons, found]
        rw [repeated, Option.map_some, Option.map_some, unitedInfos_append_self]
  obtain ⟨expected, actual, visibility⟩ : again.expected = merged.expected ∧
      again.actual = merged.actual ∧ again.visibility = merged.visibility :=
    once.platform.replay twice.platform
  rw [twice.others, parameters, expected, actual, visibility]
  exact once.others.symm

theorem Class.IsFold.replay {merged again first : Class} {rest : List Class}
    (once : merged.IsFold first rest) (twice : again.IsFold first (rest ++ first :: rest)) :
    (Documented.classlike again).withoutMembers = (Documented.classlike merged).withoutMembers := by
  obtain ⟨expected, actual, visibility⟩ : again.expected = merged.expected ∧
      again.actual = merged.actual ∧ again.visibility = merged.visibility :=
    once.platform.replay twice.platform
  have repeated (other : Class) : other ∈ first :: (rest ++ first :: rest) ↔ other ∈ first :: rest := by
    rw [← List.cons_append, List.mem_append, or_self]
  have extra : again.extra = merged.extra := SortedMap.ext_keys fun modifier => by
    rw [once.extra, twice.extra]
    simp only [repeated]
  rw [twice.others, once.others, expected, actual, visibility, extra]
  rfl

theorem Property.IsFold.replay {merged again first : Property} {rest : List Property}
    (once : merged.IsFold first rest) (twice : again.IsFold first (rest ++ first :: rest)) :
    (Documented.property again).withoutMembers = (Documented.property merged).withoutMembers := by
  obtain ⟨expected, actual, visibility⟩ : again.expected = merged.expected ∧
      again.actual = merged.actual ∧ again.visibility = merged.visibility :=
    once.platform.replay twice.platform
  rw [twice.others, once.others, expected, actual, visibility]
  rfl

theorem Package.IsFold.replay {merged again first : Package} (once : merged.IsFold first)
    (twice : again.IsFold first) :
    (Documented.package again).withoutMembers = (Documented.package merged).withoutMembers := by
  rw [twice, once]
  rfl

namespace Documented

/-- Further occurrences that repeat the first ones leave the data of a merged declaration as it is. -/
theorem withoutMembers_foldl_append_self {first : Documented} {rest : List Documented}
    (same : ∀ other ∈ rest, other.kind = first.kind) :
    ((rest ++ first :: rest).foldl merge first).withoutMembers =
      (rest.foldl merge first).withoutMembers := by
  refine alike_cases (fun first rest => ?_) (fun first rest => ?_) (fun first rest => ?_)
    (fun first rest => ?_) same
  all_goals
    rw [← List.map_cons, ← List.map_append, foldl_merge_map fun _ _ => rfl, foldl_merge_map fun _ _ => rfl]
  · exact (first.isFold_foldl rest).replay (first.isFold_foldl _)
  · exact (first.isFold_foldl rest).replay (first.isFold_foldl _)
  · rw [(first.isFold_foldl rest).replay (first.isFold_foldl _)]
  · exact (first.isFold_foldl rest).replay (first.isFold_foldl _)

/-- A declaration stays as it is when occurrences repeat if its members do. -/
theorem foldl_append_self {kind : DeclarationKind} {first : Documented} {rest : List Documented}
    (alike : ∀ occurrence ∈ first :: rest, occurrence.kind = kind) (distinct : first.DistinctMembers)
    (again : ∀ list target,
      let found := itemsAt address target
        ((first :: rest).flatMap fun occurrence => occurrence.members list)
      mergedOf merge (found ++ found) = mergedOf merge found) :
    (rest ++ first :: rest).foldl merge first = rest.foldl merge first := by
  have same := kind_eq_first alike
  have alikeTwice : ∀ occurrence ∈ first :: (rest ++ first :: rest), occurrence.kind = kind := by
    intro occurrence listed
    rw [← List.cons_append, List.mem_append, or_self] at listed
    exact alike occurrence listed
  refine eq_of_members_eq (withoutMembers_foldl_append_self same) fun list => ?_
  rw [members_foldl_merge_of_distinct (kind_eq_first alikeTwice) distinct,
    members_foldl_merge_of_distinct same distinct, ← List.cons_append, List.flatMap_append]
  exact mergeItems_nil_append_self address_merge (again list)

/-- Repeated occurrences leave a merged declaration as it is, however deep its members are. -/
theorem mergedOf_append_self (bound : Nat) (kind : DeclarationKind) {occurrences : List Documented}
    (small : ∀ occurrence ∈ occurrences, sizeOf occurrence < bound)
    (alike : ∀ occurrence ∈ occurrences, occurrence.kind = kind)
    (distinct : ∀ occurrence ∈ occurrences, occurrence.Everywhere DistinctMembers) :
    mergedOf merge (occurrences ++ occurrences) = mergedOf merge occurrences := by
  -- The members merged at one address come from several occurrences, so that no tree is there to follow.
  induction bound generalizing kind occurrences with
  | zero =>
      cases occurrences with
      | nil => rfl
      | cons first rest => exact absurd (small first List.mem_cons_self) (Nat.not_lt_zero _)
  | succ bound ih =>
      cases occurrences with
      | nil => rfl
      | cons first rest =>
          refine congrArg some (foldl_append_self alike (distinct first List.mem_cons_self).here ?_)
          intro list target
          refine ih list.declarationKind (fun member inside => ?_) (fun member inside => ?_)
            fun member inside => ?_
          all_goals obtain ⟨occurrence, listed, found⟩ := exists_holder inside
          · have smaller := sizeOf_lt_of_mem_members found
            have below := small occurrence listed
            omega
          · exact kind_of_mem_members found
          · exact (distinct occurrence listed).of_mem found

end Documented

namespace Module

theorem merge_append_self (name : String) {modules : List Module}
    (distinct : ∀ module ∈ modules, module.Everywhere Documented.DistinctMembers) :
    merge name (modules ++ modules) = merge name modules := by
  let inputs := modules.flatMap packages
  have again : mergeItems Package.address Package.merge [] (inputs ++ inputs) =
      mergeItems Package.address Package.merge [] inputs := by
    refine List.map_injective_iff.mpr (fun _ _ => Documented.package.inj) ?_
    rw [Documented.map_package_mergeItems, Documented.map_package_mergeItems, List.map_append]
    refine mergeItems_nil_append_self Documented.address_merge fun target => ?_
    refine Documented.mergedOf_append_self (sizeOf (inputs.map Documented.package)) .package
      (fun package inside => ?_) (fun package inside => ?_) fun package inside => ?_
    all_goals
      have listed := (mem_itemsAt.mp inside).1
    · exact List.sizeOf_lt_of_mem listed
    all_goals obtain ⟨package, packed, rfl⟩ := List.mem_map.mp listed
    · rfl
    · obtain ⟨module, member, held⟩ := List.mem_flatMap.mp packed
      exact distinct module member package held
  unfold merge
  rw [List.flatMap_append, again]

/-- The packages of a merged module are distinct and sorted already. -/
theorem merge_singleton_merge (name : String) (modules : List Module) :
    merge name [merge name modules] = merge name modules := by
  have packed : mergeItems Package.address Package.merge [] ([merge name modules].flatMap packages) =
      (merge name modules).packages := by
    rw [List.flatMap_singleton]
    exact mergeItems_nil_of_nodup Package.address_merge (nodup_packages_merge name modules)
  have sorted : (merge name modules).packages.mergeSort (keyLE Package.name) =
      (merge name modules).packages :=
    List.mergeSort_of_pairwise (pairwise_sortBy Package.name _)
  calc
    merge name [merge name modules] =
        ⟨name, (merge name modules).packages.mergeSort (keyLE Package.name)⟩ := by
      rw [← packed]
      rfl
    _ = merge name modules := by
      rw [sorted]
      rfl

/-- Running the same passes twice, or merging a merged module again, changes nothing. -/
theorem merge_idempotent (name : String) (modules : List Module)
    (distinct : ∀ module ∈ modules, module.Everywhere Documented.DistinctMembers) :
    merge name (modules ++ modules) = merge name modules ∧
      merge name [merge name modules] = merge name modules :=
  ⟨merge_append_self name distinct, merge_singleton_merge name modules⟩

theorem merge_idempotent_samplePasses :
    (∀ module ∈ samplePasses, module.Everywhere Documented.DistinctMembers) ∧
      merge "m" (samplePasses ++ samplePasses) = merge "m" samplePasses ∧
      merge "m" [merge "m" samplePasses] = merge "m" samplePasses :=
  ⟨samplePasses_distinct, merge_idempotent "m" samplePasses samplePasses_distinct⟩

end Module

end ApiDocs
