/-!
# Sorted maps

A finite map is the list of its entries with strictly ascending keys.  Two maps with the same entries
are therefore equal, and the order in which the entries were inserted leaves no trace.
-/

namespace ApiDocs

/-- A finite map; a sorted set is one without values. -/
structure SortedMap (κ ν : Type) [Ord κ] where
  entries : List (κ × ν)
  ascending : entries.Pairwise fun first second => compare first.1 second.1 = .lt
deriving DecidableEq

abbrev SortedSet (κ : Type) [Ord κ] := SortedMap κ Unit

namespace SortedMap

variable {κ ν : Type} [Ord κ]

/-- Put a value at its key's place among ascending entries, instead of an older value. -/
def insertEntry (key : κ) (value : ν) : List (κ × ν) → List (κ × ν)
  | [] => [(key, value)]
  | (other, held) :: rest =>
      match compare key other with
      | .lt => (key, value) :: (other, held) :: rest
      | .eq => (key, value) :: rest
      | .gt => (other, held) :: insertEntry key value rest

/-- Every entry after an insertion is the new one or an old one. -/
theorem mem_insertEntry {key : κ} {value : ν} {entries : List (κ × ν)} {entry : κ × ν}
    (found : entry ∈ insertEntry key value entries) :
    entry = (key, value) ∨ entry ∈ entries := by
  induction entries with
  | nil => simpa [insertEntry] using found
  | cons first rest ih =>
      obtain ⟨other, held⟩ := first
      simp only [insertEntry] at found
      split at found
      · simpa using found
      · rcases List.mem_cons.mp found with same | later
        · exact .inl same
        · exact .inr (List.mem_cons_of_mem _ later)
      · rcases List.mem_cons.mp found with same | later
        · exact .inr (same ▸ List.mem_cons_self)
        · exact (ih later).imp_right (List.mem_cons_of_mem _)

/-- Insertion keeps the keys ascending. -/
theorem ascending_insertEntry [Std.TransOrd κ] [Std.LawfulEqOrd κ] (key : κ) (value : ν)
    {entries : List (κ × ν)}
    (ascending : entries.Pairwise fun first second => compare first.1 second.1 = .lt) :
    (insertEntry key value entries).Pairwise
      fun first second => compare first.1 second.1 = .lt := by
  induction entries with
  | nil => simp [insertEntry]
  | cons first rest ih =>
      obtain ⟨other, held⟩ := first
      obtain ⟨below, inner⟩ := List.pairwise_cons.mp ascending
      simp only [insertEntry]
      split
      next before =>
        refine List.pairwise_cons.mpr ⟨fun entry member => ?_, ascending⟩
        rcases List.mem_cons.mp member with same | later
        · exact same ▸ before
        · exact Std.TransCmp.lt_trans before (below entry later)
      next same =>
        have equal : key = other := Std.LawfulEqCmp.eq_of_compare same
        exact List.pairwise_cons.mpr ⟨fun entry member => equal ▸ below entry member, inner⟩
      next after =>
        refine List.pairwise_cons.mpr ⟨fun entry member => ?_, ih inner⟩
        rcases mem_insertEntry member with same | older
        · exact same ▸ Std.OrientedCmp.lt_of_gt after
        · exact below entry older

def empty : SortedMap κ ν :=
  ⟨[], .nil⟩

def singleton (key : κ) (value : ν) : SortedMap κ ν :=
  ⟨[(key, value)], List.pairwise_singleton _ _⟩

def keys (map : SortedMap κ ν) : List κ :=
  map.entries.map Prod.fst

def values (map : SortedMap κ ν) : List ν :=
  map.entries.map Prod.snd

/-- The map without a key. -/
def erase (map : SortedMap κ ν) (key : κ) : SortedMap κ ν :=
  ⟨map.entries.filter fun entry => compare key entry.1 != .eq, map.ascending.filter _⟩

/-- The value held at a key. -/
def get? (map : SortedMap κ ν) (key : κ) : Option ν :=
  (map.entries.find? fun entry => compare key entry.1 == .eq).map Prod.snd

theorem get?_empty (key : κ) : (empty : SortedMap κ ν).get? key = none :=
  rfl

variable [Std.TransOrd κ] [Std.LawfulEqOrd κ]

/-- The map with a value at a key, instead of an older one. -/
def insert (map : SortedMap κ ν) (key : κ) (value : ν) : SortedMap κ ν :=
  ⟨insertEntry key value map.entries, ascending_insertEntry key value map.ascending⟩

/-- An inserted value is found at its key. -/
theorem get?_insert_self (map : SortedMap κ ν) (key : κ) (value : ν) :
    (map.insert key value).get? key = some value := by
  obtain ⟨entries, ascending⟩ := map
  simp only [get?, insert]
  clear ascending
  induction entries with
  | nil => simp [insertEntry, Std.ReflCmp.compare_self]
  | cons first rest ih =>
      simp only [insertEntry]
      split
      · simp [Std.ReflCmp.compare_self]
      · simp [Std.ReflCmp.compare_self]
      next after => simpa [List.find?_cons, after] using ih

/-- An insertion changes nothing at other keys. -/
theorem get?_insert_of_ne (map : SortedMap κ ν) {key other : κ} (value : ν) (different : other ≠ key) :
    (map.insert key value).get? other = map.get? other := by
  have unequal : ∀ {found : κ}, found = key → (compare other found == .eq) = false := fun same =>
    beq_eq_false_iff_ne.mpr fun equal =>
      different ((Std.LawfulEqCmp.eq_of_compare equal).trans same)
  obtain ⟨entries, ascending⟩ := map
  simp only [get?, insert]
  clear ascending
  induction entries with
  | nil => simp [insertEntry, unequal rfl]
  | cons first rest ih =>
      simp only [insertEntry]
      split
      · simp [List.find?_cons, unequal rfl]
      next same =>
        simp [unequal rfl, unequal (Std.LawfulEqCmp.eq_of_compare same).symm]
      · simp only [List.find?_cons]
        split
        · rfl
        · exact ih

/-- Insert entries one after the other: of two values at one key the later stays. -/
def insertAll (map : SortedMap κ ν) (entries : List (κ × ν)) : SortedMap κ ν :=
  entries.foldl (fun held (key, value) => held.insert key value) map

def ofList (entries : List (κ × ν)) : SortedMap κ ν :=
  empty.insertAll entries

/-- All entries of both maps; where both hold a key, the second map's value stays. -/
def union (first second : SortedMap κ ν) : SortedMap κ ν :=
  first.insertAll second.entries

end SortedMap

/-- The set of the elements of a list. -/
def SortedSet.ofElements {κ : Type} [Ord κ] [Std.TransOrd κ] [Std.LawfulEqOrd κ]
    (elements : List κ) : SortedSet κ :=
  SortedMap.ofList (elements.map fun element => (element, ()))

end ApiDocs
