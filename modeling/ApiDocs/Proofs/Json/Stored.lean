import ApiDocs.Json.Record
import ApiDocs.Proofs.Json.Text
import ApiDocs.Proofs.SortedMap

/-!
# Values that survive in JSON

A value is stored in JSON if it is decoded from what is read back.  What is made of stored parts is stored: lists,
values that may be absent, and records, whose fields are found by their names wherever they stand.
-/

/-- In a list of pairs with distinct keys every pair is found by its key. -/
theorem List.lookup_eq_some_iff_mem {α β : Type} [DecidableEq α] {pairs : List (α × β)}
    (distinct : (pairs.map Prod.fst).Nodup) {key : α} {value : β} :
    pairs.lookup key = some value ↔ (key, value) ∈ pairs := by
  induction pairs with
  | nil => simp
  | cons first rest ih =>
      obtain ⟨other, held⟩ := first
      obtain ⟨absent, distinctLater⟩ := List.nodup_cons.mp distinct
      by_cases same : key = other
      · subst same
        have nowhere : (key, value) ∉ rest := fun later => absent (List.mem_map.mpr ⟨_, later, rfl⟩)
        simp [nowhere, eq_comm]
      · simp [List.lookup_cons, same, ih distinctLater, beq_eq_false_iff_ne.mpr same]

/-- From encoded elements in any order the elements are decoded in some order. -/
theorem List.mapM_bind_eq_of_perm {α β γ : Type} {encode : α → β} {decode : β → Option α} {elements : List α}
    {encoded : List β} (perm : encoded.Perm (elements.map encode)) {next : List α → Option γ} {result : Option γ}
    (each : ∀ element ∈ elements, decode (encode element) = some element)
    (same : ∀ decoded, decoded.Perm elements → next decoded = result) :
    (encoded.mapM decode).bind next = result := by
  have kept : (encoded.filterMap decode).Perm elements := by
    have all : (elements.map encode).filterMap decode = elements := by
      rw [List.filterMap_map]
      exact (List.filterMap_congr each).trans List.filterMap_some
    exact (perm.filterMap decode).trans (.of_eq all)
  have readable : ∀ code ∈ encoded, (decode code).isSome := by
    intro code listed
    obtain ⟨element, inElements, rfl⟩ := List.mem_map.mp (perm.mem_iff.mp listed)
    rw [each element inElements]
    rfl
  have whole : encoded.mapM decode = some (encoded.filterMap decode) := by
    clear perm kept
    induction encoded with
    | nil => rfl
    | cons first rest ih =>
        obtain ⟨element, found⟩ := Option.isSome_iff_exists.mp (readable first List.mem_cons_self)
        have later := ih fun code listed => readable code (List.mem_cons_of_mem _ listed)
        rw [List.mapM_cons, List.filterMap_cons, found, later]
        rfl
  rw [whole]
  exact same _ kept

namespace ApiDocs.Json

theorem lookup_map_sorted (members : List (String × Json)) (name : String) :
    (members.map fun (name, value) => (name, value.sorted)).lookup name = (members.lookup name).map sorted := by
  induction members with
  | nil => rfl
  | cons first rest ih =>
      obtain ⟨other, value⟩ := first
      rw [List.map_cons, List.lookup_cons, List.lookup_cons, ih]
      cases name == other <;> rfl

/-- In whatever order the members are put, each of them is in it with its value in order. -/
theorem member_sorted {members ordered : List (String × Json)} (distinct : (ordered.map Prod.fst).Nodup)
    (perm : ordered.Perm (members.map fun (name, value) => (name, value.sorted))) (name : String) :
    member name ordered = (member name members).sorted := by
  have keys : ((members.map fun (name, value) => (name, value.sorted)).map Prod.fst).Nodup :=
    (perm.map Prod.fst).nodup_iff.mp distinct
  have found : ordered.lookup name = (members.lookup name).map sorted := by
    rw [← lookup_map_sorted]
    apply Option.ext
    intro value
    rw [List.lookup_eq_some_iff_mem distinct, List.lookup_eq_some_iff_mem keys, perm.mem_iff]
  rw [member, member, found]
  cases members.lookup name <;> rfl

section Members

variable {members : List (String × Json)} (names : (members.map Prod.fst).Nodup)
include names

/-- In order, the members of an object are the same ones. -/
theorem exists_sorted_object : ∃ ordered, (object members).sorted = object ordered ∧
    (ordered.map Prod.fst).Nodup ∧ ordered.Perm (members.map fun (name, value) => (name, value.sorted)) := by
  have keys : ((members.map fun (name, value) => (name, value.sorted)).map Prod.fst).Nodup := by
    rw [List.map_map]
    exact names
  exact ⟨_, sorted_object members, SortedMap.nodup_keys _, SortedMap.perm_ofList keys⟩

/-- The order of the members does not matter to a record. -/
theorem record?_sorted (wanted : List String) :
    record? wanted (object members).sorted = some (wanted.map fun name => (member name members).sorted) := by
  obtain ⟨ordered, same, distinct, perm⟩ := exists_sorted_object names
  rw [same, record?]
  exact congrArg some (List.map_congr_left fun name _ => member_sorted distinct perm name)

/-- Nor does it matter to the name of a variant. -/
theorem tagged?_sorted {key : String} (variants : List String) {word : String}
    (tag : member key members = string word) :
    tagged? key variants (object members).sorted = some (word, (object members).sorted) := by
  obtain ⟨ordered, same, distinct, perm⟩ := exists_sorted_object names
  rw [same, tagged?, member_sorted distinct perm, tag]
  rfl

end Members

/-- A value is decoded from what is read of its JSON form. -/
structure Stores {α : Type} (decode : Json → Option α) (json : Json) (value : α) : Prop where
  proper : json.Proper
  decoded : decode json.sorted = some value

theorem stores_string (text : String) : Stores string? (string text) text :=
  ⟨.string text, rfl⟩

theorem stores_bool (value : Bool) : Stores bool? (bool value) value :=
  ⟨.bool value, rfl⟩

theorem stores_natural {value : Nat} (small : value < 0x10000000000000000) :
    Stores natural? (natural value) value :=
  ⟨.natural small, if_pos small⟩

variable {α : Type} {encode : α → Json} {decode : Json → Option α}

/-- Null is left to what is absent. -/
theorem stores_ofOption (noNull : decode null = none) {value : Option α}
    (each : ∀ held ∈ value, Stores decode (encode held) held) :
    Stores (optional? decode) (ofOption encode value) value := by
  cases value with
  | none => exact ⟨.null, rfl⟩
  | some held =>
      obtain ⟨proper, decoded⟩ := each held rfl
      refine ⟨proper, ?_⟩
      rw [ofOption, optional?]
      · rw [decoded]
        rfl
      · intro absent
        rw [absent, noNull] at decoded
        cases decoded

theorem stores_ofList {values : List α} (each : ∀ value ∈ values, Stores decode (encode value) value) :
    Stores (list? decode) (ofList encode values) values := by
  constructor
  case proper =>
    refine .array ?_
    intro element listed
    obtain ⟨value, inValues, rfl⟩ := List.mem_map.mp listed
    exact (each value inValues).proper
  case decoded =>
    rw [ofList, sorted_array, list?, List.map_map]
    induction values with
    | nil => rfl
    | cons first rest ih =>
        rw [List.map_cons, List.mapM_cons, ih fun value later => each value (List.mem_cons_of_mem _ later)]
        exact (each first List.mem_cons_self).decoded ▸ rfl

theorem stores_strings (texts : List String) : Stores strings? (strings texts) texts :=
  stores_ofList fun text _ => stores_string text

/-- A record is stored with its fields, each of which is found by its name. -/
theorem stores_record {members : List (String × Json)} {names : List String}
    (fields : members.map Prod.fst = names) (distinct : names.Nodup) (proper : ∀ field ∈ members, field.2.Proper)
    {ofFields : List Json → Option α} {value : α}
    (decoded : ofFields (members.map fun field => field.2.sorted) = some value) :
    Stores (fun json => (json.record? names).bind ofFields) (object members) value := by
  subst fields
  refine ⟨.object distinct proper, ?_⟩
  have values : ((members.map Prod.fst).map fun name => (member name members).sorted) =
      members.map fun field => field.2.sorted := by
    rw [List.map_map]
    refine List.map_congr_left fun (name, value) listed => ?_
    rw [Function.comp_apply, member, (List.lookup_eq_some_iff_mem distinct).mpr listed, Option.getD_some]
  simp only [record?_sorted distinct, values, Option.bind_some, decoded]

/-- One of several records is stored with the member that names it, beside its fields. -/
theorem stores_tagged {members : List (String × Json)} (distinct : (members.map Prod.fst).Nodup)
    (proper : ∀ field ∈ members, field.2.Proper) {key word : String} (tag : member key members = string word)
    {variants : List String} {ofContent : String × Json → Option α} {value : α}
    (decoded : ∀ content : Json,
      (∀ wanted, content.record? wanted = some (wanted.map fun name => (member name members).sorted)) →
        ofContent (word, content) = some value) :
    Stores (fun json => (json.tagged? key variants).bind ofContent) (object members) value := by
  refine ⟨.object distinct proper, ?_⟩
  simp only [tagged?_sorted distinct variants tag, Option.bind_some]
  exact decoded _ (record?_sorted distinct)

theorem depth_lt_of_mem {elements : List Json} {element : Json} (listed : element ∈ elements) :
    element.depth < (array elements).depth := by
  have bounded : element.depth ≤ depth.depths elements := by
    induction elements with
    | nil => exact absurd listed List.not_mem_nil
    | cons first rest ih =>
        rw [depth.depths]
        obtain rfl | later := List.mem_cons.mp listed
        · exact Nat.le_max_left _ _
        · exact Nat.le_trans (ih later) (Nat.le_max_right _ _)
  exact Nat.lt_succ_of_le bounded

theorem depth_lt_of_mem_object {members : List (String × Json)} {member : String × Json}
    (listed : member ∈ members) : member.2.depth < (object members).depth := by
  have bounded : member.2.depth ≤ depth.memberDepths members := by
    induction members with
    | nil => exact absurd listed List.not_mem_nil
    | cons first rest ih =>
        rw [depth.memberDepths]
        obtain rfl | later := List.mem_cons.mp listed
        · exact Nat.le_max_left _ _
        · exact Nat.le_trans (ih later) (Nat.le_max_right _ _)
  exact Nat.lt_succ_of_le bounded

/-- The elements of a field nest less deeply than the record, in order as well. -/
theorem depth_element_lt {members : List (String × Json)} {budget : Nat}
    (enough : (object members).sorted.depth < budget + 1) (distinct : (members.map Prod.fst).Nodup) (name : String)
    {values : List α} (field : members.lookup name = some (ofList encode values)) {value : α}
    (listed : value ∈ values) : (encode value).sorted.depth < budget := by
  obtain ⟨ordered, same, _, perm⟩ := exists_sorted_object distinct
  have inOrdered : (name, (ofList encode values).sorted) ∈ ordered :=
    perm.mem_iff.mpr (List.mem_map.mpr ⟨_, (List.lookup_eq_some_iff_mem distinct).mp field, rfl⟩)
  have inArray : (encode value).sorted.depth < (ofList encode values).sorted.depth := by
    rw [ofList, sorted_array]
    exact depth_lt_of_mem (List.mem_map_of_mem (List.mem_map_of_mem listed))
  have inObject : (ofList encode values).sorted.depth < (object ordered).depth := depth_lt_of_mem_object inOrdered
  rw [same] at enough
  omega

end ApiDocs.Json
