import Mathlib.Data.List.Forall2
import Mathlib.Data.List.Perm.Basic

/-!
# Computations that may fail

What a computation that succeeds tells about its parts.
-/

namespace Except

variable {ε α β : Type}

/-- A computation in two steps succeeds if and only if both do. -/
theorem bind_eq_ok_iff {first : Except ε α} {next : α → Except ε β} {result : β} :
    first >>= next = .ok result ↔ ∃ middle, first = .ok middle ∧ next middle = .ok result := by
  cases first with
  | error reason => simp [bind, Except.bind]
  | ok middle => simp [bind, Except.bind]

/-- A computation in two steps fails if and only if one of them does. -/
theorem bind_eq_error_iff {first : Except ε α} {next : α → Except ε β} {reason : ε} :
    first >>= next = .error reason ↔
      first = .error reason ∨ ∃ middle, first = .ok middle ∧ next middle = .error reason := by
  cases first with
  | error cause => simp [bind, Except.bind]
  | ok middle => simp [bind, Except.bind]

theorem mapError_eq_error_iff {ε' : Type} {convert : ε → ε'} {computed : Except ε α} {reason : ε'} :
    computed.mapError convert = .error reason ↔ ∃ cause, computed = .error cause ∧ convert cause = reason := by
  cases computed <;> simp [Except.mapError]

theorem mapError_eq_ok_iff {ε' : Type} {convert : ε → ε'} {computed : Except ε α} {result : α} :
    computed.mapError convert = .ok result ↔ computed = .ok result := by
  cases computed <;> simp [Except.mapError]

/-- A computation for each element of a list succeeds if and only if all do. -/
theorem mapM_eq_ok_iff {compute : α → Except ε β} {items : List α} {results : List β} :
    items.mapM compute = .ok results ↔
      List.Forall₂ (fun item result => compute item = .ok result) items results := by
  induction items generalizing results with
  | nil =>
      rw [List.mapM_nil, List.forall₂_nil_left_iff]
      constructor
      · exact fun same => (Except.ok.inj same).symm
      · rintro rfl
        rfl
  | cons first rest ih =>
      rw [List.mapM_cons, List.forall₂_cons_left_iff, bind_eq_ok_iff]
      constructor
      · rintro ⟨result, computed, later⟩
        obtain ⟨others, computedOthers, same⟩ := bind_eq_ok_iff.mp later
        exact ⟨result, others, computed, ih.mp computedOthers, (Except.ok.inj same).symm⟩
      · rintro ⟨result, others, computed, computedOthers, rfl⟩
        exact ⟨result, computed, bind_eq_ok_iff.mpr ⟨others, ih.mpr computedOthers, rfl⟩⟩

/-- A computation for each element of a list fails for one of the elements. -/
theorem exists_mem_of_mapM_eq_error {compute : α → Except ε β} {items : List α} {reason : ε}
    (failed : items.mapM compute = .error reason) : ∃ item ∈ items, compute item = .error reason := by
  induction items with
  | nil => cases failed
  | cons first rest ih =>
      rw [List.mapM_cons] at failed
      obtain here | ⟨result, _, later⟩ := bind_eq_error_iff.mp failed
      · exact ⟨first, List.mem_cons_self, here⟩
      · obtain inRest | ⟨results, _, done⟩ := bind_eq_error_iff.mp later
        · obtain ⟨item, listed, found⟩ := ih inRest
          exact ⟨item, List.mem_cons_of_mem _ listed, found⟩
        · cases done

theorem mapM_congr {compute other : α → Except ε β} {items : List α}
    (same : ∀ item ∈ items, compute item = other item) : items.mapM compute = items.mapM other := by
  induction items with
  | nil => rfl
  | cons first rest ih =>
      rw [List.mapM_cons, List.mapM_cons, same first List.mem_cons_self,
        ih fun item later => same item (List.mem_cons_of_mem _ later)]

theorem eq_ok_of_toOption {computed : Except ε α} {result : α} (found : computed.toOption = some result) :
    computed = .ok result := by
  cases computed with
  | error reason => cases found
  | ok other => exact congrArg Except.ok (Option.some.inj found)

/-- Conversions of a result that follow each other are one. -/
theorem map_map {γ : Type} (computed : Except ε α) (convert : α → β) (next : β → γ) :
    (computed.map convert).map next = computed.map fun result => next (convert result) := by
  cases computed <;> rfl

theorem map_bind_ok {γ : Type} (computed : Except ε α) (convert : α → β) (next : β → γ) :
    Except.map next (computed >>= fun result => .ok (convert result)) =
      computed.map fun result => next (convert result) := by
  cases computed <;> rfl

/-- The results of a computation for each element can be converted one by one. -/
theorem map_mapM {γ : Type} (items : List α) (compute : α → Except ε β) (convert : β → γ) :
    (items.mapM compute).map (List.map convert) = items.mapM fun item => (compute item).map convert := by
  induction items with
  | nil => rfl
  | cons first rest ih =>
      rw [List.mapM_cons, List.mapM_cons, ← ih]
      cases compute first <;> cases rest.mapM compute <;> rfl

/-- A computation for each element of a list in another order gives the results in another order. -/
theorem exists_mapM_eq_ok_of_perm {compute : α → Except ε β} {items others : List α} {results : List β}
    (perm : items.Perm others) (done : items.mapM compute = .ok results) :
    ∃ reordered, others.mapM compute = .ok reordered ∧ results.Perm reordered := by
  obtain ⟨reordered, computed, same⟩ := List.perm_comp_forall₂ perm.symm (mapM_eq_ok_iff.mp done)
  exact ⟨reordered, mapM_eq_ok_iff.mpr computed, same.symm⟩

/-- A computation for each element of a list succeeds if a related one does for the related elements. -/
theorem exists_mapM_eq_ok_of_forall₂ {compute other : α → Except ε β} {related : α → α → Prop}
    {kept : β → β → Prop} {items others : List α} {results : List β}
    (step : ∀ item partner result, related item partner → compute item = .ok result →
      ∃ found, other partner = .ok found ∧ kept result found)
    (all : List.Forall₂ related items others) (done : items.mapM compute = .ok results) :
    ∃ found, others.mapM other = .ok found ∧ List.Forall₂ kept results found := by
  rw [mapM_eq_ok_iff] at done
  simp only [mapM_eq_ok_iff]
  induction all generalizing results with
  | nil =>
      obtain rfl := List.forall₂_nil_left_iff.mp done
      exact ⟨[], .nil, .nil⟩
  | cons here _ ih =>
      obtain ⟨result, rest, computed, later, rfl⟩ := List.forall₂_cons_left_iff.mp done
      obtain ⟨first, foundFirst, keptFirst⟩ := step _ _ result here computed
      obtain ⟨found, foundRest, keptRest⟩ := ih later
      exact ⟨first :: found, .cons foundFirst foundRest, .cons keptFirst keptRest⟩

end Except

/-- What stands in the first of two related lists has a partner in the second. -/
theorem List.Forall₂.exists_mem {α β : Type} {related : α → β → Prop} {first : List α} {second : List β}
    (all : List.Forall₂ related first second) {item : α} (listed : item ∈ first) :
    ∃ partner ∈ second, related item partner := by
  induction all with
  | nil => exact absurd listed List.not_mem_nil
  | cons here _ ih =>
      obtain rfl | later := List.mem_cons.mp listed
      · exact ⟨_, List.mem_cons_self, here⟩
      · obtain ⟨partner, inRest, found⟩ := ih later
        exact ⟨partner, List.mem_cons_of_mem _ inRest, found⟩
