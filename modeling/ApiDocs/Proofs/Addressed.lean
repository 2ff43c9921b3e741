import ApiDocs.Address
import Mathlib.Data.List.Nodup

/-!
# Lists of items with addresses

A list in which no address repeats is known by its addresses and by the item at each of them.
-/

namespace ApiDocs

variable {α : Type}

/-- The items with an address, in order. -/
def itemsAt (addressOf : α → Address) (address : Address) (items : List α) : List α :=
  items.filter fun item => addressOf item = address

variable {addressOf : α → Address} {address : Address}

@[simp] theorem itemsAt_nil : itemsAt addressOf address [] = [] :=
  rfl

theorem itemsAt_cons (first : α) (rest : List α) :
    itemsAt addressOf address (first :: rest) =
      if addressOf first = address then first :: itemsAt addressOf address rest
      else itemsAt addressOf address rest := by
  simp [itemsAt, List.filter_cons]

@[simp] theorem itemsAt_append (first second : List α) :
    itemsAt addressOf address (first ++ second) =
      itemsAt addressOf address first ++ itemsAt addressOf address second :=
  List.filter_append first second

theorem itemsAt_flatMap {β : Type} (sources : List β) (itemsOf : β → List α) :
    itemsAt addressOf address (sources.flatMap itemsOf) =
      sources.flatMap fun source => itemsAt addressOf address (itemsOf source) :=
  List.filter_flatMap

theorem itemsAt_map {image : α → α} (keeps : ∀ item, addressOf (image item) = addressOf item)
    (items : List α) :
    itemsAt addressOf address (items.map image) = (itemsAt addressOf address items).map image := by
  rw [itemsAt, List.filter_map, itemsAt]
  simp only [Function.comp_def, keeps]

/-- Where items with known addresses are left out, nothing is found at these addresses. -/
theorem itemsAt_filter_not_mem (known : List Address) (items : List α) :
    itemsAt addressOf address (items.filter fun item => addressOf item ∉ known) =
      if address ∈ known then [] else itemsAt addressOf address items := by
  induction items with
  | nil => simp
  | cons first rest ih =>
      by_cases left : addressOf first ∈ known
      · rw [List.filter_cons_of_neg (by simpa using left), ih, itemsAt_cons]
        by_cases same : addressOf first = address
        · rw [if_pos (same ▸ left), if_pos (same ▸ left)]
        · rw [if_neg same]
      · rw [List.filter_cons_of_pos (by simpa using left), itemsAt_cons, itemsAt_cons, ih]
        by_cases same : addressOf first = address
        · rw [if_pos same, if_pos same, if_neg (same ▸ left), if_neg (same ▸ left)]
        · rw [if_neg same, if_neg same]

@[simp] theorem mem_itemsAt {items : List α} {item : α} :
    item ∈ itemsAt addressOf address items ↔ item ∈ items ∧ addressOf item = address := by
  simp [itemsAt]

theorem of_itemsAt_eq_singleton {items : List α} {item : α}
    (one : itemsAt addressOf address items = [item]) : item ∈ items ∧ addressOf item = address :=
  mem_itemsAt.mp (one ▸ List.mem_singleton_self item)

theorem itemsAt_eq_nil_iff {items : List α} :
    itemsAt addressOf address items = [] ↔ address ∉ items.map addressOf := by
  simp [itemsAt]

/-- Where addresses do not repeat, at most one item has an address. -/
theorem itemsAt_eq_nil_or_singleton {items : List α} (nodup : (items.map addressOf).Nodup)
    (address : Address) :
    itemsAt addressOf address items = [] ∨ ∃ item, itemsAt addressOf address items = [item] := by
  induction items with
  | nil => exact .inl rfl
  | cons first rest ih =>
      obtain ⟨absent, inner⟩ := List.nodup_cons.mp nodup
      rw [itemsAt_cons]
      split
      next same =>
        subst same
        exact .inr ⟨first, by rw [itemsAt_eq_nil_iff.mpr absent]⟩
      · exact ih inner

/-- Where addresses do not repeat, the order of the items does not matter at an address. -/
theorem itemsAt_perm {first second : List α} (reordered : first.Perm second)
    (nodup : (second.map addressOf).Nodup) (address : Address) :
    itemsAt addressOf address first = itemsAt addressOf address second := by
  have filtered : (itemsAt addressOf address first).Perm (itemsAt addressOf address second) :=
    reordered.filter _
  rcases itemsAt_eq_nil_or_singleton nodup address with none | ⟨item, one⟩
  · rw [none] at filtered ⊢
    exact filtered.eq_nil
  · rw [one] at filtered ⊢
    exact filtered.eq_singleton

/-- Where addresses do not repeat, the items are those found at the addresses one by one. -/
theorem flatMap_itemsAt {items : List α} (nodup : (items.map addressOf).Nodup) :
    ((items.map addressOf).flatMap fun address => itemsAt addressOf address items) = items := by
  induction items with
  | nil => rfl
  | cons first rest ih =>
      obtain ⟨absent, inner⟩ := List.nodup_cons.mp nodup
      have here : itemsAt addressOf (addressOf first) (first :: rest) = [first] := by
        rw [itemsAt_cons, if_pos rfl, itemsAt_eq_nil_iff.mpr absent]
      have later : ((rest.map addressOf).flatMap fun address =>
          itemsAt addressOf address (first :: rest)) = rest := by
        conv_rhs => rw [← ih inner]
        refine List.flatMap_congr fun address member => ?_
        have other : addressOf first ≠ address := by
          rintro rfl
          exact absent member
        rw [itemsAt_cons, if_neg other]
      rw [List.map_cons, List.flatMap_cons, here, later]
      rfl

/-- Lists of items are known by their addresses and by the items at each of them. -/
theorem eq_of_itemsAt_eq {first second : List α} (nodup : (first.map addressOf).Nodup)
    (addresses : first.map addressOf = second.map addressOf)
    (same : ∀ address, itemsAt addressOf address first = itemsAt addressOf address second) :
    first = second := by
  calc
    first = (first.map addressOf).flatMap fun address => itemsAt addressOf address first :=
      (flatMap_itemsAt nodup).symm
    _ = (second.map addressOf).flatMap fun address => itemsAt addressOf address second := by
      rw [addresses]
      exact List.flatMap_congr fun address _ => same address
    _ = second := flatMap_itemsAt (addresses ▸ nodup)

end ApiDocs
