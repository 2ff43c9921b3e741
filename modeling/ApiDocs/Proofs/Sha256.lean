import ApiDocs.Sha256

/-!
# Digests

A digest is written in 64 lower-case hexadecimal digits, whatever text it is the digest of.  As there are more texts than
digests, that two texts have different digests is only ever assumed of the texts in question.
-/

namespace ApiDocs.Sha256

/-- Two texts are the same if they have the same digest. -/
def TellsApart (first second : String) : Prop :=
  hexDigest first = hexDigest second → first = second

instance (first second : String) : Decidable (TellsApart first second) :=
  inferInstanceAs (Decidable (_ → _))

/-- A text of 64 lower-case hexadecimal digits. -/
structure IsDigest (text : String) : Prop where
  length : text.toList.length = 64
  digits : ∀ char ∈ text.toList, char ∈ "0123456789abcdef".toList

theorem length_hexWord (word : UInt32) : (hexWord word).length = 8 :=
  rfl

theorem digitChar_mem_digits : ∀ digit < 16, Nat.digitChar digit ∈ "0123456789abcdef".toList := by
  decide

theorem mem_digits_of_mem_hexWord {word : UInt32} {char : Char} (listed : char ∈ hexWord word) :
    char ∈ "0123456789abcdef".toList := by
  obtain ⟨byte, _, inByte⟩ := List.mem_flatMap.mp listed
  have small := byte.toNat_lt
  obtain rfl | inLow := List.mem_cons.mp inByte
  · exact digitChar_mem_digits _ (by omega)
  · obtain rfl := List.mem_singleton.mp inLow
    exact digitChar_mem_digits _ (by omega)

theorem isDigest_hexDigest (text : String) : IsDigest (hexDigest text) where
  length := by
    rw [hexDigest, String.toList_ofList, List.length_flatMap]
    simp [length_hexWord]
  digits char listed := by
    rw [hexDigest, String.toList_ofList] at listed
    obtain ⟨word, _, inWord⟩ := List.mem_flatMap.mp listed
    exact mem_digits_of_mem_hexWord inWord

end ApiDocs.Sha256
