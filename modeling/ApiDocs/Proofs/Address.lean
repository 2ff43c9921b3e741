import ApiDocs.Address
import ApiDocs.Proofs.Fields
import Mathlib.Data.List.Basic

/-!
# The text of an address tells addresses apart

An address is printed as six parts between slashes, one of which is the signature of the callable: the parts of the
signature stand between number signs.  Where no part holds one of these separators, the parts can be cut out again.
What is absent prints as nothing, so what is present must not be empty.
-/

namespace ApiDocs

/-- A text that stays whole when an address is cut into its parts. -/
structure IsPart (text : String) : Prop where
  noSlash : '/' ∉ text.toList
  noNumberSign : '#' ∉ text.toList

instance : DecidablePred IsPart := fun text =>
  decidable_of_iff ('/' ∉ text.toList ∧ '#' ∉ text.toList)
    ⟨fun ⟨noSlash, noNumberSign⟩ => ⟨noSlash, noNumberSign⟩, fun isPart => ⟨isPart.noSlash, isPart.noNumberSign⟩⟩

theorem IsPart.empty : IsPart "" :=
  ⟨List.not_mem_nil, List.not_mem_nil⟩

/-- Present and absent texts differ when printed, as long as what is present is not empty. -/
theorem eq_of_getD_eq {first second : Option String} (someFirst : ∀ text ∈ first, text ≠ "")
    (someSecond : ∀ text ∈ second, text ≠ "") (same : first.getD "" = second.getD "") : first = second := by
  cases first with
  | none =>
      cases second with
      | none => rfl
      | some other => exact absurd same.symm (someSecond other rfl)
  | some text =>
      cases second with
      | none => exact absurd same (someFirst text rfl)
      | some other => exact congrArg some same

/-- A joined text is its first piece, and the others behind one separator each. -/
theorem intercalate_cons_eq_join (separator first : String) (rest : List String) :
    String.intercalate separator (first :: rest) = first ++ String.join (rest.map fun text => separator ++ text) := by
  induction rest generalizing first with
  | nil => rw [String.intercalate_singleton, List.map_nil, String.join_nil, String.append_empty]
  | cons second others ih =>
      rw [String.intercalate_cons_cons, ih, List.map_cons, String.join_cons, String.append_assoc, String.append_assoc]

theorem isPart_toString (number : Nat) : IsPart (toString number) := by
  have digits : ∀ char ∈ (toString number).toList, char.isDigit = true := by
    rw [Nat.toString_eq_repr, Nat.toList_repr]
    exact fun char listed => Nat.isDigit_of_mem_toDigits (by decide) (by decide) listed
  constructor
  · intro listed
    exact absurd (digits '/' listed) (by decide)
  · intro listed
    exact absurd (digits '#' listed) (by decide)

/-- A number is read back from its digits. -/
theorem toString_injective : Function.Injective (toString : Nat → String) := by
  intro first second same
  have digits : Nat.toDigits 10 first = Nat.toDigits 10 second := by
    rw [← Nat.toList_repr, ← Nat.toList_repr, ← Nat.toString_eq_repr, same, Nat.toString_eq_repr]
  calc
    first = Nat.ofDigitChars 10 (Nat.toDigits 10 first) 0 := Nat.ofDigitChars_ten_toDigits.symm
    _ = Nat.ofDigitChars 10 (Nat.toDigits 10 second) 0 := by rw [digits]
    _ = second := Nat.ofDigitChars_ten_toDigits

namespace Callable

/-- A callable of a class whose parts can be cut out of its signature. -/
structure IsLegible (callable : Callable) : Prop where
  named : callable.name ≠ ""
  name : IsPart callable.name
  receiver : ∃ receiver, callable.receiver = some receiver ∧ IsPart receiver.name
  parameters : ∀ parameter ∈ callable.parameters, parameter.name ≠ "" ∧ IsPart parameter.name

/-- The texts behind the number signs of a signature: the parameters, or a single nothing. -/
def parameterTexts (callable : Callable) : List String :=
  if callable.parameters = [] then [""] else callable.parameters.map TypeReference.name

/-- The text before the first number sign of a signature. -/
def receiverText (callable : Callable) : String :=
  (callable.receiver.map TypeReference.name).getD ""

theorem signature_eq (callable : Callable) :
    callable.signature = String.intercalate "#" (callable.receiverText :: callable.parameterTexts) := by
  rw [intercalate_cons_eq_join, signature, parameterTexts, receiverText]
  cases callable.parameters with
  | nil => rfl
  | cons first rest =>
      rw [if_neg (List.cons_ne_nil first rest), List.map_map]
      rfl

variable {callable other : Callable}

theorem IsLegible.isPart_of_mem (legible : callable.IsLegible) :
    ∀ text ∈ callable.receiverText :: callable.parameterTexts, IsPart text := by
  intro text listed
  rcases List.mem_cons.mp listed with rfl | listed
  · obtain ⟨receiver, found, isPart⟩ := legible.receiver
    rw [receiverText, found]
    exact isPart
  · rw [parameterTexts] at listed
    split at listed
    next =>
      obtain rfl := List.mem_singleton.mp listed
      exact .empty
    next =>
      obtain ⟨parameter, among, rfl⟩ := List.mem_map.mp listed
      exact (legible.parameters parameter among).2

theorem IsLegible.fields_signature (legible : callable.IsLegible) :
    Text.fields '#' callable.signature = callable.receiverText :: callable.parameterTexts := by
  rw [signature_eq]
  exact Text.fields_intercalate (fun text listed => (legible.isPart_of_mem text listed).noNumberSign)
    (List.cons_ne_nil _ _)

theorem IsLegible.noSlash_signature (legible : callable.IsLegible) : '/' ∉ callable.signature.toList := by
  rw [signature_eq, String.toList_intercalate]
  intro listed
  rcases Text.mem_of_mem_intercalate listed with inSeparator | ⟨piece, among, inPiece⟩
  · exact absurd inSeparator (by decide)
  · obtain ⟨text, listed, rfl⟩ := List.mem_map.mp among
    exact (legible.isPart_of_mem text listed).noSlash inPiece

theorem IsLegible.receiver_eq (isFirst : callable.IsLegible) (isSecond : other.IsLegible)
    (same : callable.receiverText = other.receiverText) : callable.receiver = other.receiver := by
  obtain ⟨receiver, found, _⟩ := isFirst.receiver
  obtain ⟨otherReceiver, otherFound, _⟩ := isSecond.receiver
  rw [receiverText, receiverText, found, otherFound] at same
  rw [found, otherFound]
  exact congrArg (fun name => some (TypeReference.mk name)) same

/-- A single parameter without a text would look like none. -/
theorem IsLegible.parameters_eq (isFirst : callable.IsLegible) (isSecond : other.IsLegible)
    (same : callable.parameterTexts = other.parameterTexts) : callable.parameters = other.parameters := by
  have injective : Function.Injective TypeReference.name := fun _ _ sameName => congrArg TypeReference.mk sameName
  have noneEmpty {declared : Callable} (legible : declared.IsLegible) :
      "" ∉ declared.parameters.map TypeReference.name := by
    intro listed
    obtain ⟨parameter, among, empty⟩ := List.mem_map.mp listed
    exact (legible.parameters parameter among).1 empty
  rw [parameterTexts, parameterTexts] at same
  split at same
  next none =>
    split at same
    next otherNone => rw [none, otherNone]
    next => exact absurd (same ▸ List.mem_singleton_self "") (noneEmpty isSecond)
  next =>
    split at same
    next => exact absurd (same ▸ List.mem_singleton_self "") (noneEmpty isFirst)
    next => exact List.map_injective_iff.mpr injective same

/-- A callable is known by its name and its signature. -/
theorem IsLegible.eq_of_signature_eq (isFirst : callable.IsLegible) (isSecond : other.IsLegible)
    (sameName : callable.name = other.name) (same : callable.signature = other.signature) : callable = other := by
  have texts := congrArg (Text.fields '#') same
  rw [isFirst.fields_signature, isSecond.fields_signature] at texts
  obtain ⟨sameReceiver, sameParameters⟩ := List.cons.inj texts
  have receivers := isFirst.receiver_eq isSecond sameReceiver
  have parameters := isFirst.parameters_eq isSecond sameParameters
  cases callable
  cases other
  cases sameName
  cases receivers
  cases parameters
  rfl

end Callable

namespace Address

/-- An address in a package whose parts can be cut out of its text. -/
structure IsLegible (address : Address) : Prop where
  packageName : ∃ packageName, address.packageName = some packageName ∧ IsPart packageName
  classNames : ∀ classNames ∈ address.classNames, classNames ≠ "" ∧ IsPart classNames
  callable : ∀ callable ∈ address.callable, callable.IsLegible
  extra : ∀ extra ∈ address.extra, extra ≠ "" ∧ IsPart extra

/-- The texts between the slashes of an address. -/
def parts (address : Address) : List String :=
  [address.packageName.getD "", address.classNames.getD "", (address.callable.map Callable.name).getD "",
    (address.callable.map Callable.signature).getD "", toString address.target, address.extra.getD ""]

variable {address : Address}

theorem IsLegible.fields_display (legible : address.IsLegible) : Text.fields '/' address.display = address.parts := by
  have noSlash {text : Option String} (some : ∀ present ∈ text, '/' ∉ present.toList) :
      '/' ∉ (text.getD "").toList := by
    cases text with
    | none => exact List.not_mem_nil
    | some present => exact some present rfl
  have apart : ∀ text ∈ address.parts, '/' ∉ text.toList := by
    simp only [parts, List.forall_mem_cons]
    refine ⟨noSlash ?packageName, noSlash ?classNames, noSlash ?name, noSlash ?signature,
      (isPart_toString address.target).noSlash, noSlash ?extra, nofun⟩
    case packageName =>
      obtain ⟨packageName, found, isPart⟩ := legible.packageName
      rintro _ present
      obtain rfl := Option.some.inj (found.symm.trans present)
      exact isPart.noSlash
    case classNames => exact fun text found => (legible.classNames text found).2.noSlash
    case name =>
      intro text found
      obtain ⟨callable, held, rfl⟩ := Option.map_eq_some_iff.mp found
      exact (legible.callable callable held).name.noSlash
    case signature =>
      intro text found
      obtain ⟨callable, held, rfl⟩ := Option.map_eq_some_iff.mp found
      exact (legible.callable callable held).noSlash_signature
    case extra => exact fun text found => (legible.extra text found).2.noSlash
  exact Text.fields_intercalate apart (List.cons_ne_nil _ _)

variable {first second : Address}

/-- A callable has a name, so it does not look like none. -/
theorem IsLegible.callable_eq (isFirst : first.IsLegible) (isSecond : second.IsLegible)
    (sameName : (first.callable.map Callable.name).getD "" = (second.callable.map Callable.name).getD "")
    (sameSignature :
      (first.callable.map Callable.signature).getD "" = (second.callable.map Callable.signature).getD "") :
    first.callable = second.callable := by
  cases held : first.callable with
  | none =>
      cases otherHeld : second.callable with
      | none => rfl
      | some other =>
          rw [held, otherHeld] at sameName
          exact absurd sameName.symm (isSecond.callable other otherHeld).named
  | some callable =>
      cases otherHeld : second.callable with
      | none =>
          rw [held, otherHeld] at sameName
          exact absurd sameName (isFirst.callable callable held).named
      | some other =>
          rw [held, otherHeld] at sameName sameSignature
          exact congrArg some ((isFirst.callable callable held).eq_of_signature_eq (isSecond.callable other otherHeld)
            sameName sameSignature)

theorem IsLegible.packageName_eq (isFirst : first.IsLegible) (isSecond : second.IsLegible)
    (same : first.packageName.getD "" = second.packageName.getD "") : first.packageName = second.packageName := by
  obtain ⟨packageName, found, _⟩ := isFirst.packageName
  obtain ⟨otherName, otherFound, _⟩ := isSecond.packageName
  rw [found, otherFound] at same ⊢
  exact congrArg some same

/-- The text of an address tells it apart from all others. -/
theorem display_determines (isFirst : first.IsLegible) (isSecond : second.IsLegible)
    (same : first.display = second.display) : first = second := by
  have texts := congrArg (Text.fields '/') same
  rw [isFirst.fields_display, isSecond.fields_display, parts, parts] at texts
  simp only [List.cons.injEq, and_true] at texts
  obtain ⟨samePackage, sameClasses, sameName, sameSignature, sameTarget, sameExtra⟩ := texts
  have packages := isFirst.packageName_eq isSecond samePackage
  have classes : first.classNames = second.classNames :=
    eq_of_getD_eq (fun text found => (isFirst.classNames text found).1)
      (fun text found => (isSecond.classNames text found).1) sameClasses
  have callables := isFirst.callable_eq isSecond sameName sameSignature
  have targets : first.target = second.target := toString_injective sameTarget
  have extras : first.extra = second.extra :=
    eq_of_getD_eq (fun text found => (isFirst.extra text found).1)
      (fun text found => (isSecond.extra text found).1) sameExtra
  cases first
  cases second
  simp only [mk.injEq]
  exact ⟨packages, classes, callables, targets, extras⟩

/-! The second parameter of a method in a nested class of the nameless package, reached by steps and written out. -/

def samplePut : Callable :=
  ⟨"put", some ⟨"Cache"⟩, [⟨"java.util.Map<K,? super V>"⟩, ⟨"int[]"⟩]⟩

def sampleReached : Address :=
  ((((ofPackage "").inClass "Outer").inClass "Cache").withCallable samplePut).withTarget 2

def sampleWritten : Address :=
  ⟨some "", some "Outer.Cache", some samplePut, 2, none⟩

theorem isLegible_sampleWritten : sampleWritten.IsLegible where
  packageName := ⟨"", rfl, .empty⟩
  classNames := by decide
  callable := by
    rintro _ ⟨⟩
    exact ⟨by decide, by decide, ⟨_, rfl, by decide⟩, by decide⟩
  extra := nofun

theorem display_determines_sampleReached :
    sampleReached.IsLegible ∧ sampleWritten.IsLegible ∧ sampleReached.display = sampleWritten.display ∧
      sampleReached = sampleWritten := by
  have isFirst : sampleReached.IsLegible := isLegible_sampleWritten
  have same : sampleReached.display = sampleWritten.display := by decide
  exact ⟨isFirst, isLegible_sampleWritten, same, display_determines isFirst isLegible_sampleWritten same⟩

end Address

end ApiDocs
