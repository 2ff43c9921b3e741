import ApiDocs.SortedMap
import Mathlib.Data.List.Nodup
import Mathlib.Data.List.Perm.Basic

/-!
# Laws of sorted maps

A sorted map is known by what it holds at each key.  In a union the second map's value stays, and
unions can be regrouped.
-/

namespace ApiDocs.SortedMap

variable {κ ν : Type} [Ord κ] [Std.LawfulEqOrd κ]

/-- Of ascending entries, the later ones have keys other than the first. -/
theorem ne_of_ascending {first : κ × ν} {rest : List (κ × ν)}
    (ascending : (first :: rest).Pairwise fun one other => compare one.1 other.1 = .lt)
    {entry : κ × ν} (member : entry ∈ rest) : entry.1 ≠ first.1 := by
  intro same
  have below := (List.pairwise_cons.mp ascending).1 entry member
  rw [same, Std.ReflOrd.compare_self] at below
  cases below

/-- A lookup finds exactly the entries. -/
theorem get?_eq_some_iff (map : SortedMap κ ν) {key : κ} {value : ν} :
    map.get? key = some value ↔ (key, value) ∈ map.entries := by
  obtain ⟨entries, ascending⟩ := map
  simp only [get?]
  induction entries with
  | nil => simp
  | cons first rest ih =>
      obtain ⟨firstKey, firstValue⟩ := first
      have inner := ih (List.pairwise_cons.mp ascending).2
      by_cases same : key = firstKey
      · subst same
        have absent : (key, value) ∉ rest := fun member => ne_of_ascending ascending member rfl
        simp [absent, eq_comm]
      · simpa [List.find?_cons, same] using inner

theorem nodup_keys (map : SortedMap κ ν) : map.keys.Nodup := by
  refine List.pairwise_map.mpr (map.ascending.imp ?_)
  intro first second below same
  rw [same, Std.ReflOrd.compare_self] at below
  cases below

theorem nodup_entries (map : SortedMap κ ν) : map.entries.Nodup :=
  map.nodup_keys.of_map Prod.fst

theorem mem_keys_iff (map : SortedMap κ ν) {key : κ} : key ∈ map.keys ↔ (map.get? key).isSome := by
  rw [Option.isSome_iff_exists]
  simp [keys, get?_eq_some_iff]

/-- An entry with a new key is added to the others. -/
theorem perm_insertEntry {key : κ} {value : ν} {entries : List (κ × ν)} (new : key ∉ entries.map Prod.fst) :
    (insertEntry key value entries).Perm ((key, value) :: entries) := by
  induction entries with
  | nil => exact .refl _
  | cons first rest ih =>
      obtain ⟨other, held⟩ := first
      obtain ⟨differs, newLater⟩ := not_or.mp (mt List.mem_cons.mpr new)
      rw [insertEntry]
      split
      · exact .refl _
      · next same => exact absurd (Std.LawfulEqCmp.eq_of_compare same) differs
      · exact ((ih newLater).cons _).trans (.swap _ _ _)

variable [Std.TransOrd κ]

omit [Std.LawfulEqOrd κ] in
/-- Maps with the same entries in any order are the same. -/
theorem eq_of_perm {first second : SortedMap κ ν} (entries : first.entries.Perm second.entries) :
    first = second := by
  have equal : first.entries = second.entries := by
    refine entries.eq_of_pairwise ?_ first.ascending second.ascending
    intro one other _ _ below above
    rw [Std.OrientedOrd.eq_swap, above] at below
    cases below
  cases first
  cases second
  cases equal
  rfl

/-- Maps that hold the same at every key are the same. -/
theorem ext_get? {first second : SortedMap κ ν} (same : ∀ key, first.get? key = second.get? key) :
    first = second := by
  apply eq_of_perm
  refine (List.perm_ext_iff_of_nodup first.nodup_entries second.nodup_entries).mpr ?_
  rintro ⟨key, value⟩
  rw [← get?_eq_some_iff, ← get?_eq_some_iff, same]

/-- Maps that hold something with a property at the same keys list these keys in the same order. -/
theorem keys_filter_eq {first second : SortedMap κ ν} {holds : κ × ν → Bool}
    (same : ∀ key, (∃ value, first.get? key = some value ∧ holds (key, value)) ↔
      ∃ value, second.get? key = some value ∧ holds (key, value)) :
    (first.entries.filter holds).map Prod.fst = (second.entries.filter holds).map Prod.fst := by
  have ascending (map : SortedMap κ ν) :
      ((map.entries.filter holds).map Prod.fst).Pairwise fun one other => compare one other = .lt :=
    List.pairwise_map.mpr (map.ascending.filter _)
  have nodup (map : SortedMap κ ν) : ((map.entries.filter holds).map Prod.fst).Nodup := by
    refine (ascending map).imp fun {one other} below equal => ?_
    rw [equal, Std.ReflOrd.compare_self] at below
    cases below
  have mem_iff (map : SortedMap κ ν) (key : κ) :
      key ∈ (map.entries.filter holds).map Prod.fst ↔
        ∃ value, map.get? key = some value ∧ holds (key, value) := by
    simp [get?_eq_some_iff]
  have keys := (List.perm_ext_iff_of_nodup (nodup first) (nodup second)).mpr fun key =>
    (mem_iff first key).trans ((same key).trans (mem_iff second key).symm)
  refine keys.eq_of_pairwise ?_ (ascending first) (ascending second)
  intro one other _ _ below above
  rw [Std.OrientedOrd.eq_swap, above] at below
  cases below

/-- After ascending entries are inserted, their values are found before older ones. -/
theorem get?_insertAll (map : SortedMap κ ν) {entries : List (κ × ν)}
    (ascending : entries.Pairwise fun first second => compare first.1 second.1 = .lt) (key : κ) :
    (map.insertAll entries).get? key =
      ((⟨entries, ascending⟩ : SortedMap κ ν).get? key).or (map.get? key) := by
  induction entries generalizing map with
  | nil => rfl
  | cons first rest ih =>
      obtain ⟨firstKey, value⟩ := first
      have inner := (List.pairwise_cons.mp ascending).2
      have step : (map.insertAll ((firstKey, value) :: rest)).get? key =
          ((map.insert firstKey value).insertAll rest).get? key := rfl
      rw [step, ih _ inner]
      by_cases same : key = firstKey
      · subst same
        have absent : (⟨rest, inner⟩ : SortedMap κ ν).get? key = none := by
          rw [Option.eq_none_iff_forall_ne_some]
          intro held found
          exact ne_of_ascending ascending ((get?_eq_some_iff _).mp found) rfl
        rw [absent, get?_insert_self]
        simp [get?]
      · rw [get?_insert_of_ne _ _ same]
        simp [get?, same]

/-- In a union the value of the second map stays. -/
theorem get?_union (first second : SortedMap κ ν) (key : κ) :
    (first.union second).get? key = (second.get? key).or (first.get? key) :=
  get?_insertAll first second.ascending key

theorem mem_keys_union (first second : SortedMap κ ν) {key : κ} :
    key ∈ (first.union second).keys ↔ key ∈ first.keys ∨ key ∈ second.keys := by
  rw [mem_keys_iff, mem_keys_iff, mem_keys_iff, get?_union, Option.isSome_or, Bool.or_eq_true]
  exact or_comm

theorem union_assoc (first second third : SortedMap κ ν) :
    (first.union second).union third = first.union (second.union third) :=
  ext_get? fun key => by simp only [get?_union, Option.or_assoc]

/-- Of entries with new and distinct keys none is lost. -/
theorem perm_insertAll {map : SortedMap κ ν} {entries : List (κ × ν)}
    (distinct : (map.entries ++ entries).Pairwise fun first second => first.1 ≠ second.1) :
    (map.insertAll entries).entries.Perm (map.entries ++ entries) := by
  induction entries generalizing map with
  | nil =>
      rw [List.append_nil]
      exact .refl _
  | cons first rest ih =>
      obtain ⟨key, value⟩ := first
      have new : key ∉ map.entries.map Prod.fst := by
        intro listed
        obtain ⟨entry, inEntries, rfl⟩ := List.mem_map.mp listed
        exact (List.pairwise_append.mp distinct).2.2 entry inEntries _ List.mem_cons_self rfl
      have inserted : (map.insert key value).entries.Perm (map.entries ++ [(key, value)]) :=
        (perm_insertEntry new).trans (List.perm_append_singleton _ _).symm
      have all : ((map.insert key value).entries ++ rest).Perm (map.entries ++ (key, value) :: rest) :=
        (inserted.append_right rest).trans (.of_eq (List.append_cons ..).symm)
      have later := @ih (map.insert key value) (all.symm.pairwise distinct Ne.symm)
      exact later.trans all

theorem perm_ofList {entries : List (κ × ν)} (distinct : (entries.map Prod.fst).Nodup) :
    (ofList entries).entries.Perm entries :=
  perm_insertAll (List.pairwise_map.mp distinct)

/-- A map is made of its entries in any order. -/
theorem ofList_of_perm {map : SortedMap κ ν} {entries : List (κ × ν)} (same : entries.Perm map.entries) :
    ofList entries = map :=
  eq_of_perm ((perm_ofList ((same.map Prod.fst).nodup_iff.mpr map.nodup_keys)).trans same)

/-- Sets with the same elements are the same. -/
theorem ext_keys {first second : SortedSet κ} (same : ∀ key, key ∈ first.keys ↔ key ∈ second.keys) :
    first = second := by
  refine ext_get? fun key => ?_
  have found := same key
  rw [mem_keys_iff, mem_keys_iff] at found
  cases one : first.get? key <;> cases other : second.get? key <;> simp [one, other] at found ⊢

end ApiDocs.SortedMap
