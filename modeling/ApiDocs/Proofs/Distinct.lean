import ApiDocs.Distinct
import Mathlib.Data.List.Nodup

/-!
# Laws of lists without repetitions

Extending a list puts behind it what it does not hold yet, each item once and in the order of first
occurrence.  Extensions can be regrouped, and repeating one changes nothing.
-/

namespace ApiDocs

variable {α : Type} [DecidableEq α]

@[simp] theorem extendDistinct_nil (held : List α) : extendDistinct held [] = held :=
  rfl

theorem extendDistinct_cons (held : List α) (first : α) (rest : List α) :
    extendDistinct held (first :: rest) =
      extendDistinct (if first ∈ held then held else held ++ [first]) rest :=
  rfl

theorem extendDistinct_append (held first second : List α) :
    extendDistinct held (first ++ second) = extendDistinct (extendDistinct held first) second :=
  List.foldl_append

/-- An extension is the held list, followed by the new items in the order of first occurrence. -/
theorem extendDistinct_eq (held others : List α) :
    extendDistinct held others = held ++ (others.removeAll held).eraseDups := by
  induction others generalizing held with
  | nil => simp
  | cons first rest ih =>
      rw [extendDistinct_cons, List.cons_removeAll]
      by_cases known : first ∈ held
      · simp [known, ih]
      · have later : rest.removeAll (held ++ [first]) =
            (rest.removeAll held).filter fun other => !other == first := by
          simp [List.removeAll, List.filter_filter, Bool.and_comm, beq_eq_decide]
        simp [known, ih, later, List.eraseDups_cons]

theorem distinct_eq_eraseDups (items : List α) : distinct items = items.eraseDups := by
  simp [distinct, extendDistinct_eq]

@[simp] theorem mem_extendDistinct {held others : List α} {item : α} :
    item ∈ extendDistinct held others ↔ item ∈ held ∨ item ∈ others := by
  by_cases known : item ∈ held <;> simp [extendDistinct_eq, List.removeAll, known]

theorem nodup_extendDistinct {held : List α} (nodup : held.Nodup) (others : List α) :
    (extendDistinct held others).Nodup := by
  induction others generalizing held with
  | nil => exact nodup
  | cons first rest ih =>
      rw [extendDistinct_cons]
      split
      · exact ih nodup
      next new => exact ih (nodup.append (List.nodup_singleton first) (by simpa using new))

/-- Nothing new, nothing changed. -/
theorem extendDistinct_of_subset {held others : List α} (known : others ⊆ held) :
    extendDistinct held others = held := by
  have none : others.removeAll held = [] := by
    simpa [List.removeAll] using fun item member => known (a := item) member
  rw [extendDistinct_eq, none, List.eraseDups_nil, List.append_nil]

/-- New items may be put behind one another before they are put behind the held ones. -/
theorem extendDistinct_assoc (held others further : List α) :
    extendDistinct held (extendDistinct others further) =
      extendDistinct (extendDistinct held others) further := by
  induction further generalizing others with
  | nil => rfl
  | cons first rest ih =>
      rw [extendDistinct_cons, extendDistinct_cons, ih]
      by_cases known : first ∈ others
      · simp [known]
      · rw [if_neg known, extendDistinct_append, extendDistinct_cons, extendDistinct_nil]

/-- Items that are all new and distinct are put behind the held ones as they stand. -/
theorem extendDistinct_of_nodup {held others : List α} (nodup : (held ++ others).Nodup) :
    extendDistinct held others = held ++ others := by
  induction others generalizing held with
  | nil => simp
  | cons first rest ih =>
      have new : first ∉ held := fun known =>
        (List.nodup_append.mp nodup).2.2 first known first List.mem_cons_self rfl
      rw [List.append_cons] at nodup ⊢
      rw [extendDistinct_cons, if_neg new, ih nodup]

theorem extendDistinct_nil_of_nodup {items : List α} (nodup : items.Nodup) :
    extendDistinct [] items = items := by
  rw [extendDistinct_of_nodup (by simpa using nodup), List.nil_append]

/-- Distinct items extend a list by those of them that it does not hold. -/
theorem extendDistinct_eq_append_filter {others : List α} (nodup : others.Nodup) (held : List α) :
    extendDistinct held others = held ++ others.filter (· ∉ held) := by
  have new : (others.removeAll held).Nodup := nodup.filter _
  rw [extendDistinct_eq, ← distinct_eq_eraseDups, distinct, extendDistinct_nil_of_nodup new]
  simp [List.removeAll]

end ApiDocs
