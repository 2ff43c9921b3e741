import ApiDocs.FileSystem
import ApiDocs.Proofs.Except
import ApiDocs.Proofs.Fields

/-!
# Paths below a directory

Paths of plain names that are taken from one directory lead to different places unless they are the same path.
-/

namespace ApiDocs

namespace Path

/-- A file or directory can have such a name: a single piece that leads down. -/
structure IsName (name : String) : Prop where
  nonempty : name ≠ ""
  notHere : name ≠ "."
  notParent : name ≠ ".."
  single : '/' ∉ name.toList

/-- No piece between slashes is empty or made of dots that lead elsewhere. -/
def IsPlain (path : Path) : Prop :=
  ∀ piece ∈ Text.fields '/' path, piece ≠ "" ∧ piece ≠ "." ∧ piece ≠ ".."

theorem fields_append (base path : String) :
    Text.fields '/' (base ++ "/" ++ path) = Text.fields '/' base ++ Text.fields '/' path :=
  Text.fields_append '/' base path

theorem isPlain_name {name : String} (single : '/' ∉ name.toList) (long : 2 < name.length) :
    Path.IsPlain name := by
  intro piece listed
  rw [Text.fields_of_notMem single, List.mem_singleton] at listed
  obtain rfl := listed
  refine ⟨?_, ?_, ?_⟩
  all_goals
    rintro rfl
    exact absurd long (by decide)

theorem IsPlain.below {first second : Path} (plainFirst : first.IsPlain) (plainSecond : second.IsPlain) :
    Path.IsPlain (first ++ "/" ++ second) := by
  intro piece listed
  rw [fields_append] at listed
  exact (List.mem_append.mp listed).elim (plainFirst piece) (plainSecond piece)

theorem isAbsolute_append {base : Path} (nonempty : base ≠ "") (rest : String) :
    isAbsolute (base ++ rest) = isAbsolute base := by
  have chars : base.toList ≠ [] := fun none => nonempty (String.toList_inj.mp none)
  rw [isAbsolute, String.toList_append, List.head?_append_of_ne_nil _ chars, isAbsolute]

/-- An absolute path starts with an empty piece. -/
theorem IsPlain.not_isAbsolute {path : Path} (plain : path.IsPlain) : isAbsolute path = false := by
  by_contra absolute
  rw [Bool.not_eq_false, isAbsolute, beq_iff_eq] at absolute
  obtain ⟨rest, starts⟩ := List.head?_eq_some_iff.mp absolute
  have cut : path = "" ++ "/" ++ String.ofList rest := by
    rw [← String.toList_inj, starts]
    simp [String.toList_append]
  have listed : "" ∈ Text.fields '/' path := by
    rw [cut, fields_append]
    exact List.mem_append_left _ (List.mem_singleton.mpr rfl)
  exact (plain "" listed).1 rfl

/-- The pieces of plain paths stand behind those of the directory they are taken from, but for an empty piece at
its end. -/
theorem fields_join (base : Path) :
    ∃ front, (Text.fields '/' base = front ∨ Text.fields '/' base = front ++ [""]) ∧
      ∀ path : Path, path.IsPlain →
        Text.fields '/' (join base path) = front ++ Text.fields '/' path ∧
          isAbsolute (join base path) = isAbsolute base := by
  have relative (path : Path) (plain : path.IsPlain) : join base path =
      if base = "" ∨ base.toList.getLast? = some '/' then base ++ path else base ++ "/" ++ path := by
    rw [join, plain.not_isAbsolute, if_neg Bool.false_ne_true]
  by_cases empty : base = ""
  · subst empty
    refine ⟨[], .inr rfl, fun path plain => ?_⟩
    rw [relative path plain, if_pos (.inl rfl), String.empty_append]
    exact ⟨rfl, plain.not_isAbsolute⟩
  · by_cases slash : base.toList.getLast? = some '/'
    · obtain ⟨stem, ends⟩ := List.getLast?_eq_some_iff.mp slash
      have cut : base = String.ofList stem ++ "/" := by
        rw [← String.toList_inj, ends]
        simp [String.toList_append]
      have pieces : Text.fields '/' base = Text.fields '/' (String.ofList stem) ++ [""] := by
        have appended := fields_append (String.ofList stem) ""
        rwa [String.append_empty, ← cut] at appended
      refine ⟨Text.fields '/' (String.ofList stem), .inr pieces, fun path plain => ?_⟩
      rw [relative path plain, if_pos (.inr slash), isAbsolute_append empty, ← fields_append, ← cut]
      exact ⟨rfl, rfl⟩
    · refine ⟨Text.fields '/' base, .inl rfl, fun path plain => ?_⟩
      rw [relative path plain, if_neg (not_or.mpr ⟨empty, slash⟩), fields_append, String.append_assoc,
        isAbsolute_append empty]
      exact ⟨rfl, rfl⟩

theorem IsName.isPlain {name : String} (proper : IsName name) : Path.IsPlain name := by
  intro piece listed
  rw [Text.fields_of_notMem proper.single, List.mem_singleton] at listed
  rw [listed]
  exact ⟨proper.nonempty, proper.notHere, proper.notParent⟩

theorem not_mem_of_mem_fields {path piece : String} (listed : piece ∈ Text.fields '/' path) :
    '/' ∉ piece.toList := by
  obtain ⟨chars, cut, rfl⟩ := List.mem_map.mp listed
  rw [String.toList_ofList]
  exact Text.not_mem_of_mem_splitOn cut

theorem componentOf?_name {name : String} (proper : IsName name) (isFirst : Bool) {piece : List Char}
    (text : String.ofList piece = name) : componentOf? isFirst piece = some (.named name) := by
  unfold componentOf?
  rw [text]
  split
  · exact absurd rfl proper.nonempty
  · exact absurd rfl proper.notHere
  · exact absurd rfl proper.notParent
  · rfl

/-- The components of a plain path are its pieces. -/
theorem IsPlain.components_eq {path : Path} (plain : path.IsPlain) :
    components path = (Text.fields '/' path).map .named := by
  have named (isFirst : Bool) : ∀ piece ∈ path.toList.splitOn '/',
      componentOf? isFirst piece = some (.named (String.ofList piece)) := by
    intro piece listed
    have inFields : String.ofList piece ∈ Text.fields '/' path := List.mem_map_of_mem listed
    obtain ⟨nonempty, notHere, notParent⟩ := plain _ inFields
    exact componentOf?_name ⟨nonempty, notHere, notParent, not_mem_of_mem_fields inFields⟩ isFirst rfl
  rw [components, Text.fields]
  cases cut : path.toList.splitOn '/' with
  | nil => exact absurd cut (List.splitOn_ne_nil _ _)
  | cons first rest =>
      rw [cut] at named
      have others : rest.filterMap (componentOf? false) = rest.map fun piece => .named (String.ofList piece) := by
        rw [← List.filterMap_eq_map]
        exact List.filterMap_congr fun piece later => named false piece (List.mem_cons_of_mem _ later)
      simp [plain.not_isAbsolute, named true first List.mem_cons_self, others]

/-- Plain paths with the same components are the same. -/
theorem IsPlain.eq_of_components_eq {first second : Path} (plainFirst : first.IsPlain)
    (plainSecond : second.IsPlain) (same : components first = components second) : first = second := by
  rw [plainFirst.components_eq, plainSecond.components_eq] at same
  apply Text.fields_injective '/'
  exact List.map_injective_iff.mpr (fun _ _ => Component.named.inj) same

/-- A path whose last piece is a name leads to a file or directory with that name. -/
theorem fileName?_of_fields {path : Path} {front : List String} {name : String} (proper : IsName name)
    (ends : Text.fields '/' path = front ++ [name]) : fileName? path = some name := by
  have last : (components path).getLast? = some (.named name) := by
    cases cut : path.toList.splitOn '/' with
    | nil => exact absurd cut (List.splitOn_ne_nil _ _)
    | cons first rest =>
        have pieces : String.ofList first :: rest.map String.ofList = front ++ [name] := by
          rw [← List.map_cons, ← cut]
          exact ends
        rw [components, cut]
        simp only
        cases front with
        | nil =>
            obtain ⟨text, none⟩ := List.cons.inj pieces
            have plain : path.IsPlain := by
              rw [IsPlain, ends]
              exact Text.fields_of_notMem proper.single ▸ proper.isPlain
            rw [plain.not_isAbsolute, List.map_eq_nil_iff.mp none]
            simp [componentOf?_name proper true text]
        | cons before front =>
            obtain ⟨_, others⟩ := List.cons.inj pieces
            obtain ⟨init, final, rfl, _, finalName⟩ := List.map_eq_append_iff.mp others
            obtain ⟨piece, rfl, text⟩ := List.map_eq_singleton_iff.mp finalName
            simp [componentOf?_name proper false text]
  rw [fileName?, last]

theorem fileName?_join {base : Path} {name : String} (proper : IsName name) :
    fileName? (join base name) = some name := by
  obtain ⟨front, _, joined⟩ := fields_join base
  have ends : Text.fields '/' (join base name) = front ++ [name] := by
    rw [(joined name proper.isPlain).1, Text.fields_of_notMem proper.single]
  exact fileName?_of_fields proper ends

/-- Behind a name no empty piece is left out. -/
theorem fields_join_name {base : Path} {front : List String} {name next : String} (proper : IsName name)
    (ends : Text.fields '/' base = front ++ [name]) (properNext : IsName next) :
    Text.fields '/' (join base next) = front ++ [name] ++ [next] ∧
      isAbsolute (join base next) = isAbsolute base := by
  obtain ⟨before, pieces, joined⟩ := fields_join base
  obtain rfl : before = front ++ [name] := by
    obtain same | slash := pieces
    · exact same.symm.trans ends
    · have last : [""] = [name] := List.append_inj_right' (slash.symm.trans ends) rfl
      exact absurd (List.cons.inj last).1.symm proper.nonempty
  rw [← Text.fields_of_notMem properNext.single]
  exact joined next properNext.isPlain

/-- The pieces of a path that goes down name by name. -/
theorem fields_foldl_join (base : Path) :
    ∃ front, (Text.fields '/' base = front ∨ Text.fields '/' base = front ++ [""]) ∧
      ∀ names : List String, names ≠ [] → (∀ name ∈ names, IsName name) →
        Text.fields '/' (names.foldl join base) = front ++ names ∧
          isAbsolute (names.foldl join base) = isAbsolute base := by
  have further {base : Path} {front : List String} {name : String} (proper : IsName name)
      (ends : Text.fields '/' base = front ++ [name]) (names : List String)
      (properNames : ∀ name ∈ names, IsName name) :
      Text.fields '/' (names.foldl join base) = front ++ [name] ++ names ∧
        isAbsolute (names.foldl join base) = isAbsolute base := by
    induction names generalizing base front name with
    | nil => exact ⟨ends.trans (List.append_nil _).symm, rfl⟩
    | cons next rest ih =>
        have properNext := properNames next List.mem_cons_self
        obtain ⟨pieces, absolute⟩ := fields_join_name proper ends properNext
        obtain ⟨piecesRest, absoluteRest⟩ :=
          ih properNext pieces fun name listed => properNames name (List.mem_cons_of_mem _ listed)
        exact ⟨piecesRest.trans (List.append_cons ..).symm, absoluteRest.trans absolute⟩
  obtain ⟨front, pieces, joined⟩ := fields_join base
  refine ⟨front, pieces, fun names nonempty properNames => ?_⟩
  cases names with
  | nil => exact absurd rfl nonempty
  | cons first rest =>
      have proper := properNames first List.mem_cons_self
      obtain ⟨ends, absolute⟩ := joined first proper.isPlain
      rw [Text.fields_of_notMem proper.single] at ends
      obtain ⟨piecesRest, absoluteRest⟩ :=
        further proper ends rest fun name listed => properNames name (List.mem_cons_of_mem _ listed)
      exact ⟨piecesRest.trans (List.append_cons ..).symm, absoluteRest.trans absolute⟩

end Path

namespace FileSystem

variable {system : FileSystem}

/-- Where a path starts. -/
def startOf (system : FileSystem) (path : Path) : Location :=
  if Path.isAbsolute path then [] else system.workingDirectory

/-- A path that is neither empty nor too long is followed piece by piece. -/
theorem locate_eq_ok_iff {path : Path} {location : Location} :
    system.locate path = .ok location ↔
      path ≠ "" ∧ path.utf8ByteSize < 4096 ∧
        (Text.fields '/' path).foldlM system.step (system.startOf path) = .ok location := by
  rw [locate, Text.fields, List.foldlM_map, startOf]
  by_cases empty : path = ""
  · rw [if_pos empty]
    constructor
    · intro failed
      cases failed
    · exact fun followed => absurd empty followed.1
  · rw [if_neg empty]
    by_cases long : path.utf8ByteSize ≥ 4096
    · rw [if_pos long]
      constructor
      · intro failed
        cases failed
      · exact fun followed => absurd followed.2.1 (Nat.not_lt.mpr long)
    · rw [if_neg long]
      exact ⟨fun followed => ⟨empty, Nat.not_le.mp long, followed⟩, fun followed => followed.2.2⟩

/-- An empty piece at the end of a path leads nowhere else. -/
theorem foldlM_step_front {start location : Location} {pieces front : List String}
    (same : pieces = front ∨ pieces = front ++ [""]) (followed : pieces.foldlM system.step start = .ok location) :
    front.foldlM system.step start = .ok location := by
  obtain rfl | rfl := same
  · exact followed
  · rw [List.foldlM_append] at followed
    obtain ⟨reached, before, last⟩ := Except.bind_eq_ok_iff.mp followed
    obtain ⟨next, stepped, same⟩ := Except.bind_eq_ok_iff.mp last
    obtain ⟨_, _, led⟩ := Except.bind_eq_ok_iff.mp stepped
    rw [if_pos (.inl rfl)] at led
    obtain rfl := Except.ok.inj led
    obtain rfl := Except.ok.inj same
    exact before

/-- Plain names are gone down one after the other. -/
theorem foldlM_step_plain {start location : Location} {pieces : List String}
    (plain : ∀ piece ∈ pieces, piece ≠ "" ∧ piece ≠ "." ∧ piece ≠ "..")
    (followed : pieces.foldlM system.step start = .ok location) : location = start ++ pieces := by
  induction pieces generalizing start with
  | nil => exact (Except.ok.inj followed).symm.trans (List.append_nil start).symm
  | cons first rest ih =>
      rw [List.foldlM_cons] at followed
      obtain ⟨next, stepped, later⟩ := Except.bind_eq_ok_iff.mp followed
      obtain ⟨nonempty, notHere, notUp⟩ := plain first List.mem_cons_self
      obtain ⟨_, _, led⟩ := Except.bind_eq_ok_iff.mp stepped
      have down : next = start ++ [first] := by
        rw [if_neg (not_or.mpr ⟨nonempty, notHere⟩), if_neg notUp] at led
        split at led
        · cases led
        · exact (Except.ok.inj led).symm
      rw [ih (fun piece listed => plain piece (List.mem_cons_of_mem _ listed)) later, down]
      exact (List.append_cons ..).symm

/-- The place that a plain path leads to has the pieces of the path at its end. -/
theorem exists_append_of_locate_join {directory path : Path} (plain : path.IsPlain) {location : Location}
    (located : system.locate (Path.join directory path) = .ok location) :
    ∃ base, location = base ++ Text.fields '/' path := by
  obtain ⟨front, _, joined⟩ := Path.fields_join directory
  obtain ⟨_, _, followed⟩ := locate_eq_ok_iff.mp located
  rw [(joined path plain).1, List.foldlM_append] at followed
  obtain ⟨base, _, below⟩ := Except.bind_eq_ok_iff.mp followed
  exact ⟨base, foldlM_step_plain plain below⟩

/-- Plain paths that lead from one directory to one place are the same. -/
theorem eq_of_locate_join {directory first second : Path} (plainFirst : first.IsPlain)
    (plainSecond : second.IsPlain) {location : Location}
    (locatedFirst : system.locate (Path.join directory first) = .ok location)
    (locatedSecond : system.locate (Path.join directory second) = .ok location) : first = second := by
  obtain ⟨front, _, joined⟩ := Path.fields_join directory
  obtain ⟨_, _, foundFirst⟩ := locate_eq_ok_iff.mp locatedFirst
  obtain ⟨_, _, foundSecond⟩ := locate_eq_ok_iff.mp locatedSecond
  rw [(joined first plainFirst).1, startOf, (joined first plainFirst).2, List.foldlM_append] at foundFirst
  rw [(joined second plainSecond).1, startOf, (joined second plainSecond).2, List.foldlM_append] at foundSecond
  obtain ⟨base, reached, below⟩ := Except.bind_eq_ok_iff.mp foundFirst
  obtain ⟨base', reached', below'⟩ := Except.bind_eq_ok_iff.mp foundSecond
  obtain rfl : base = base' := Except.ok.inj (reached.symm.trans reached')
  have places := (foldlM_step_plain plainFirst below).symm.trans (foldlM_step_plain plainSecond below')
  exact Text.fields_injective '/' (List.append_cancel_left places)

end FileSystem

end ApiDocs
