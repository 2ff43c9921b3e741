import Mathlib.Data.List.Basic
import Mathlib.Data.List.Count

/-!
# Stable sorting by a key

A list sorted by a key keeps the order of the items with one key.  Two lists that agree on the items with
each key are therefore sorted alike.  Lists sorted by their items are the same if they hold the same items.
-/

namespace ApiDocs

variable {α κ : Type} [Ord κ] [Std.TransOrd κ]

/-- An item does not come after another one in the order of their keys. -/
abbrev keyLE (key : α → κ) (first second : α) : Bool :=
  (compare (key first) (key second)).isLE

theorem keyLE_trans (key : α → κ) (first second third : α) (below : keyLE key first second)
    (above : keyLE key second third) : keyLE key first third :=
  Std.TransOrd.isLE_trans below above

theorem keyLE_total (key : α → κ) (first second : α) :
    keyLE key first second || keyLE key second first := by
  simp only [keyLE]
  rw [Std.OrientedOrd.eq_swap (b := key first)]
  cases compare (key first) (key second) <;> rfl

theorem pairwise_sortBy (key : α → κ) (items : List α) :
    (items.mergeSort (keyLE key)).Pairwise fun first second => keyLE key first second :=
  List.pairwise_mergeSort (keyLE_trans key) (keyLE_total key) items

omit [Std.TransOrd κ] in
/-- Lists that are sorted alike hold the same items, each as often. -/
theorem perm_of_sortBy_eq {key : α → κ} {first second : List α}
    (same : first.mergeSort (keyLE key) = second.mergeSort (keyLE key)) : first.Perm second :=
  calc
    first.Perm (first.mergeSort (keyLE key)) := (List.mergeSort_perm first _).symm
    _ = second.mergeSort (keyLE key) := same
    List.Perm _ second := List.mergeSort_perm second _

theorem keyLE_of_eq {key : α → κ} {first second : α} (same : key first = key second) :
    keyLE key first second := by
  rw [keyLE, same]
  exact Std.ReflOrd.isLE_rfl

variable [DecidableEq κ]

/-- Sorting keeps the order of the items with one key. -/
theorem filter_sortBy (key : α → κ) (items : List α) (value : κ) :
    (items.mergeSort (keyLE key)).filter (fun item => key item = value) =
      items.filter fun item => key item = value := by
  have ordered : (items.filter fun item => key item = value).Pairwise fun first second =>
      keyLE key first second := by
    rw [List.pairwise_filter]
    refine List.pairwise_of_forall fun first second here there => keyLE_of_eq ?_
    rw [of_decide_eq_true here, of_decide_eq_true there]
  have kept := List.sublist_mergeSort (keyLE_trans key) (keyLE_total key) ordered List.filter_sublist
  have inside := kept.filter fun item => key item = value
  have same : (items.filter fun item => key item = value).filter (fun item => key item = value) =
      items.filter fun item => key item = value := by simp
  rw [same] at inside
  exact (inside.eq_of_length ((List.mergeSort_perm items _).filter _).length_eq.symm).symm

omit [Ord κ] [Std.TransOrd κ] in
theorem mem_iff_of_filter_eq {key : α → κ} {first second : List α}
    (same : ∀ value, first.filter (fun item => key item = value) =
      second.filter fun item => key item = value) (item : α) : item ∈ first ↔ item ∈ second := by
  have found : item ∈ first.filter (fun other => key other = key item) ↔
      item ∈ second.filter fun other => key other = key item := by rw [same]
  simpa using found

variable [Std.LawfulEqOrd κ]

/-- Sorted lists that agree on the items with each key are the same. -/
theorem eq_of_filter_eq {key : α → κ} {first second : List α}
    (firstSorted : first.Pairwise fun one other => keyLE key one other)
    (secondSorted : second.Pairwise fun one other => keyLE key one other)
    (same : ∀ value, first.filter (fun item => key item = value) =
      second.filter fun item => key item = value) : first = second := by
  induction first generalizing second with
  | nil =>
      rw [eq_comm, List.eq_nil_iff_forall_not_mem]
      exact fun item member => List.not_mem_nil ((mem_iff_of_filter_eq same item).mpr member)
  | cons one rest ih =>
      cases second with
      | nil => cases (mem_iff_of_filter_eq same one).mp List.mem_cons_self
      | cons other others =>
          obtain ⟨oneBelow, restSorted⟩ := List.pairwise_cons.mp firstSorted
          obtain ⟨otherBelow, othersSorted⟩ := List.pairwise_cons.mp secondSorted
          -- Each head is in the other list, so neither comes after the other.
          have below : keyLE key one other := by
            rcases List.mem_cons.mp ((mem_iff_of_filter_eq same other).mpr List.mem_cons_self) with
              equal | later
            · exact keyLE_of_eq (equal ▸ rfl)
            · exact oneBelow other later
          have above : keyLE key other one := by
            rcases List.mem_cons.mp ((mem_iff_of_filter_eq same one).mp List.mem_cons_self) with
              equal | later
            · exact keyLE_of_eq (equal ▸ rfl)
            · exact otherBelow one later
          have keys : key one = key other :=
            Std.LawfulEqOrd.eq_of_compare (Std.OrientedCmp.isLE_antisymm below above)
          have heads : one = other := by
            have found := same (key one)
            rw [List.filter_cons_of_pos (by simp), List.filter_cons_of_pos (by simp [keys])] at found
            exact (List.cons.inj found).1
          subst heads
          congr 1
          refine ih restSorted othersSorted fun value => ?_
          have found := same value
          by_cases here : key one = value
          · rw [List.filter_cons_of_pos (by simpa using here),
              List.filter_cons_of_pos (by simpa using here)] at found
            exact (List.cons.inj found).2
          · rwa [List.filter_cons_of_neg (by simpa using here),
              List.filter_cons_of_neg (by simpa using here)] at found

/-- Lists that agree on the items with each key are sorted alike. -/
theorem sortBy_congr {key : α → κ} {first second : List α}
    (same : ∀ value, first.filter (fun item => key item = value) =
      second.filter fun item => key item = value) :
    first.mergeSort (keyLE key) = second.mergeSort (keyLE key) :=
  eq_of_filter_eq (pairwise_sortBy key first) (pairwise_sortBy key second) fun value => by
    rw [filter_sortBy, filter_sortBy, same]

theorem perm_of_filter_eq {key : α → κ} {first second : List α}
    (same : ∀ value, first.filter (fun item => key item = value) =
      second.filter fun item => key item = value) : first.Perm second :=
  perm_of_sortBy_eq (sortBy_congr same)

/-- Items that are sorted by themselves are sorted alike if and only if they are the same ones, each as often. -/
theorem sort_eq_iff_perm {first second : List κ} :
    first.mergeSort (keyLE id) = second.mergeSort (keyLE id) ↔ first.Perm second := by
  constructor
  · exact perm_of_sortBy_eq
  · intro perm
    refine sortBy_congr fun value => ?_
    simp only [id]
    rw [List.filter_eq, List.filter_eq, perm.count_eq]

end ApiDocs
