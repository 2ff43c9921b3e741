import ApiDocs.Model.Merge
import ApiDocs.Proofs.Addressed
import ApiDocs.Proofs.Distinct

/-!
# Merging lists of items with addresses

What a merged list holds is said for each address: all items with that address, merged into the first of
them.  The addresses themselves stand in the order of first occurrence.
-/

namespace ApiDocs

variable {α β : Type}

/-- All items of a list merged into the first one, if there is one. -/
def mergedOf (merge : α → α → α) : List α → Option α
  | [] => none
  | first :: rest => some (rest.foldl merge first)

/-- What merging keeps of the first item, merging several items keeps. -/
theorem apply_foldl_merge {merge : α → α → α} {image : α → β}
    (keeps : ∀ first second, image (merge first second) = image first) (first : α) (rest : List α) :
    image (rest.foldl merge first) = image first := by
  induction rest generalizing first with
  | nil => rfl
  | cons second rest ih => rw [List.foldl_cons, ih, keeps]

/-- Items may be merged before further ones are merged into them. -/
theorem mergedOf_append (merge : α → α → α) (first second : List α) :
    mergedOf merge ((mergedOf merge first).toList ++ second) = mergedOf merge (first ++ second) := by
  cases first with
  | nil => rfl
  | cons item rest => simp [mergedOf]

theorem mergedOf_toList (merge : α → α → α) (items : List α) :
    mergedOf merge (mergedOf merge items).toList = mergedOf merge items := by
  simpa using mergedOf_append merge items []

section Merge

variable {addressOf : α → Address} {merge : α → α → α}

@[simp] theorem mergeItems_nil (items : List α) : mergeItems addressOf merge items [] = items :=
  rfl

theorem mergeItems_cons (items : List α) (first : α) (rest : List α) :
    mergeItems addressOf merge items (first :: rest) =
      mergeItems addressOf merge (absorb addressOf first (fun item => merge item first) items) rest :=
  rfl

theorem mergeItems_append (items first second : List α) :
    mergeItems addressOf merge items (first ++ second) =
      mergeItems addressOf merge (mergeItems addressOf merge items first) second :=
  List.foldl_append

/-- What holds of a new item and of the held ones, merged or not, holds of the items that absorb it. -/
theorem forall_mem_absorb {property : α → Prop} {item : α} {items : List α}
    (held : ∀ other ∈ items, property other) (new : property item)
    (merged : ∀ other ∈ items, addressOf other = addressOf item → property (merge other item)) :
    ∀ other ∈ absorb addressOf item (fun other => merge other item) items, property other := by
  induction items with
  | nil => simpa [absorb] using new
  | cons first rest ih =>
      rw [List.forall_mem_cons] at held merged
      rw [absorb]
      split
      next same => exact List.forall_mem_cons.mpr ⟨merged.1 same, held.2⟩
      · exact List.forall_mem_cons.mpr ⟨held.1, ih held.2 merged.2⟩

/-- What holds of all items, and still holds when a new one is merged in, holds of the merged items. -/
theorem forall_mem_mergeItems {property : α → Prop} {items others : List α}
    (held : ∀ item ∈ items, property item) (new : ∀ other ∈ others, property other)
    (merged : ∀ item, ∀ other ∈ others, addressOf item = addressOf other →
      property item → property (merge item other)) :
    ∀ item ∈ mergeItems addressOf merge items others, property item := by
  induction others generalizing items with
  | nil => exact held
  | cons first rest ih =>
      rw [List.forall_mem_cons] at new
      have absorbed := forall_mem_absorb held new.1 fun item member same =>
        merged item first List.mem_cons_self same (held item member)
      exact ih absorbed new.2 fun item other member => merged item other (List.mem_cons_of_mem _ member)

/-- A function that keeps addresses and commutes with merging may be applied before or after it. -/
theorem map_mergeItems_of_hom {image : α → β} {imageAddress : β → Address} {imageMerge : β → β → β}
    (keeps : ∀ item, imageAddress (image item) = addressOf item)
    (commutes : ∀ first second, image (merge first second) = imageMerge (image first) (image second))
    (items others : List α) :
    (mergeItems addressOf merge items others).map image =
      mergeItems imageAddress imageMerge (items.map image) (others.map image) := by
  have step (item : α) (held : List α) :
      (absorb addressOf item (fun other => merge other item) held).map image =
        absorb imageAddress (image item) (fun other => imageMerge other (image item))
          (held.map image) := by
    induction held with
    | nil => rfl
    | cons first rest ih =>
        rw [absorb, List.map_cons, absorb, keeps, keeps]
        split
        · rw [List.map_cons, commutes]
        · rw [List.map_cons, ih]
  induction others generalizing items with
  | nil => rfl
  | cons first rest ih => rw [mergeItems_cons, ih, step, List.map_cons, mergeItems_cons]

variable (keeps : ∀ first second, addressOf (merge first second) = addressOf first)

include keeps

theorem map_absorb (item : α) (items : List α) :
    (absorb addressOf item (fun other => merge other item) items).map addressOf =
      if addressOf item ∈ items.map addressOf then items.map addressOf
      else items.map addressOf ++ [addressOf item] := by
  induction items with
  | nil => simp [absorb]
  | cons first rest ih =>
      rw [absorb]
      by_cases same : addressOf first = addressOf item
      · simp [same, keeps]
      · have other : ¬addressOf item = addressOf first := fun equal => same equal.symm
        simp only [if_neg same, List.map_cons, ih, List.mem_cons, other, false_or]
        split <;> rfl

/-- The addresses of merged items stand in the order of first occurrence. -/
theorem map_mergeItems (items others : List α) :
    (mergeItems addressOf merge items others).map addressOf =
      extendDistinct (items.map addressOf) (others.map addressOf) := by
  induction others generalizing items with
  | nil => rfl
  | cons first rest ih => rw [mergeItems_cons, ih, map_absorb keeps, List.map_cons, extendDistinct_cons]

theorem nodup_mergeItems {items : List α} (nodup : (items.map addressOf).Nodup) (others : List α) :
    ((mergeItems addressOf merge items others).map addressOf).Nodup := by
  rw [map_mergeItems keeps]
  exact nodup_extendDistinct nodup _

/-- An absorbed item is merged into the first one with its address. -/
theorem itemsAt_absorb_self (item : α) (items : List α) :
    itemsAt addressOf (addressOf item) (absorb addressOf item (fun other => merge other item) items) =
      match itemsAt addressOf (addressOf item) items with
      | [] => [item]
      | first :: rest => merge first item :: rest := by
  induction items with
  | nil => simp [absorb, itemsAt_cons]
  | cons first rest ih =>
      rw [absorb, itemsAt_cons]
      by_cases same : addressOf first = addressOf item
      · rw [if_pos same, if_pos same, itemsAt_cons, if_pos ((keeps first item).trans same)]
      · rw [if_neg same, if_neg same, itemsAt_cons, if_neg same, ih]

theorem itemsAt_absorb_of_ne {item : α} {address : Address} (other : addressOf item ≠ address)
    (items : List α) :
    itemsAt addressOf address (absorb addressOf item (fun other => merge other item) items) =
      itemsAt addressOf address items := by
  induction items with
  | nil => simp [absorb, itemsAt_cons, other]
  | cons first rest ih =>
      rw [absorb]
      split
      next same =>
        have elsewhere : addressOf first ≠ address := same ▸ other
        rw [itemsAt_cons, itemsAt_cons, keeps, if_neg elsewhere, if_neg elsewhere]
      · rw [itemsAt_cons, itemsAt_cons, ih]

omit keeps in
/-- Where addresses do not repeat, there is nothing to merge. -/
theorem toList_mergedOf_itemsAt {items : List α} (nodup : (items.map addressOf).Nodup)
    (address : Address) :
    (mergedOf merge (itemsAt addressOf address items)).toList = itemsAt addressOf address items := by
  rcases itemsAt_eq_nil_or_singleton nodup address with none | ⟨item, one⟩
  · rw [none]
    rfl
  · rw [one]
    rfl

/-- At each address stand all items with that address, merged into the first of them. -/
theorem itemsAt_mergeItems {items : List α} (nodup : (items.map addressOf).Nodup) (others : List α)
    (address : Address) :
    itemsAt addressOf address (mergeItems addressOf merge items others) =
      (mergedOf merge (itemsAt addressOf address (items ++ others))).toList := by
  induction others generalizing items with
  | nil => rw [mergeItems_nil, List.append_nil, toList_mergedOf_itemsAt nodup]
  | cons first rest ih =>
      have inner : ((absorb addressOf first (fun other => merge other first) items).map addressOf).Nodup :=
        nodup_mergeItems keeps nodup [first]
      rw [mergeItems_cons, ih inner]
      simp only [itemsAt_append, itemsAt_cons]
      by_cases same : addressOf first = address
      · subst same
        rw [if_pos rfl, itemsAt_absorb_self keeps]
        rcases itemsAt_eq_nil_or_singleton nodup (addressOf first) with none | ⟨item, one⟩
        · rw [none]
          rfl
        · rw [one]
          rfl
      · rw [if_neg same, itemsAt_absorb_of_ne keeps same]

theorem nodup_mergeItems_nil (items : List α) :
    ((mergeItems addressOf merge [] items).map addressOf).Nodup :=
  nodup_mergeItems keeps (show (([] : List α).map addressOf).Nodup from List.nodup_nil) items

theorem itemsAt_mergeItems_nil (items : List α) (address : Address) :
    itemsAt addressOf address (mergeItems addressOf merge [] items) =
      (mergedOf merge (itemsAt addressOf address items)).toList :=
  itemsAt_mergeItems keeps (show (([] : List α).map addressOf).Nodup from List.nodup_nil) items address

/-- Items with distinct addresses, merged one after the other, stay as they are. -/
theorem mergeItems_nil_of_nodup {items : List α} (nodup : (items.map addressOf).Nodup) :
    mergeItems addressOf merge [] items = items := by
  refine eq_of_itemsAt_eq (nodup_mergeItems_nil keeps items) ?_ fun address => ?_
  · rw [map_mergeItems keeps, List.map_nil, extendDistinct_nil_of_nodup nodup]
  · rw [itemsAt_mergeItems_nil keeps, toList_mergedOf_itemsAt nodup]

/-- Items with new and distinct addresses are put behind the held ones as they are. -/
theorem mergeItems_eq_append {items others : List α} (nodup : ((items ++ others).map addressOf).Nodup) :
    mergeItems addressOf merge items others = items ++ others := by
  have held : (items.map addressOf).Nodup := nodup.sublist ((List.sublist_append_left items others).map _)
  calc
    mergeItems addressOf merge items others =
        mergeItems addressOf merge (mergeItems addressOf merge [] items) others := by
      rw [mergeItems_nil_of_nodup keeps held]
    _ = mergeItems addressOf merge [] (items ++ others) := (mergeItems_append [] items others).symm
    _ = items ++ others := mergeItems_nil_of_nodup keeps nodup

/-- Merging a list twice is merging it once, if this is so for the items with one address. -/
theorem mergeItems_nil_append_self {items : List α}
    (again : ∀ address,
      mergedOf merge (itemsAt addressOf address items ++ itemsAt addressOf address items) =
        mergedOf merge (itemsAt addressOf address items)) :
    mergeItems addressOf merge [] (items ++ items) = mergeItems addressOf merge [] items := by
  refine eq_of_itemsAt_eq (nodup_mergeItems_nil keeps _) ?_ fun address => ?_
  · rw [map_mergeItems keeps, map_mergeItems keeps, List.map_append, extendDistinct_append]
    exact extendDistinct_of_subset fun address member => mem_extendDistinct.mpr (.inr member)
  · rw [itemsAt_mergeItems_nil keeps, itemsAt_mergeItems_nil keeps, itemsAt_append, again]

/-- Lists of distinct items may be regrouped if items with one address may. -/
theorem mergeItems_assoc {items others further : List α} (nodup : (items.map addressOf).Nodup)
    (nodupOthers : (others.map addressOf).Nodup) (nodupFurther : (further.map addressOf).Nodup)
    (assoc : ∀ first ∈ items, ∀ second ∈ others, ∀ third ∈ further,
      addressOf first = addressOf second → addressOf second = addressOf third →
        merge (merge first second) third = merge first (merge second third)) :
    mergeItems addressOf merge (mergeItems addressOf merge items others) further =
      mergeItems addressOf merge items (mergeItems addressOf merge others further) := by
  have outer := nodup_mergeItems keeps nodup others
  refine eq_of_itemsAt_eq (nodup_mergeItems keeps outer further) ?_ fun address => ?_
  · simp only [map_mergeItems keeps, extendDistinct_assoc]
  · rw [itemsAt_mergeItems keeps outer, itemsAt_mergeItems keeps nodup, itemsAt_append, itemsAt_append,
      itemsAt_mergeItems keeps nodup, itemsAt_mergeItems keeps nodupOthers, mergedOf_append, itemsAt_append,
      itemsAt_append]
    -- The law matters only where all three lists have the address.
    rcases itemsAt_eq_nil_or_singleton nodup address with none | ⟨first, one⟩
    · rw [none, List.nil_append, List.nil_append, mergedOf_toList]
    · rcases itemsAt_eq_nil_or_singleton nodupOthers address with none | ⟨second, two⟩
      · rw [none, List.append_nil, List.nil_append, toList_mergedOf_itemsAt nodupFurther]
      · rcases itemsAt_eq_nil_or_singleton nodupFurther address with none | ⟨third, three⟩
        · rw [one, two, none]
          rfl
        · obtain ⟨firstHeld, firstAt⟩ := of_itemsAt_eq_singleton one
          obtain ⟨secondHeld, secondAt⟩ := of_itemsAt_eq_singleton two
          obtain ⟨thirdHeld, thirdAt⟩ := of_itemsAt_eq_singleton three
          rw [one, two, three]
          exact congrArg (fun merged => [merged]) (assoc first firstHeld second secondHeld third thirdHeld
            (firstAt.trans secondAt.symm) (secondAt.trans thirdAt.symm))

end Merge

end ApiDocs
