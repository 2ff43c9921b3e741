/-!
# The digest SHA-256

A text is digested block by block: each block of 64 bytes is expanded into a schedule of 64 words, and each
word of the schedule turns the eight words of the state.
-/

namespace ApiDocs.Sha256

/-- The eight words of a digest. -/
structure State where
  a : UInt32
  b : UInt32
  c : UInt32
  d : UInt32
  e : UInt32
  f : UInt32
  g : UInt32
  h : UInt32

/-- The first 32 bits of the fractional parts of the square roots of the first eight primes. -/
def initial : State :=
  ⟨0x6a09e667, 0xbb67ae85, 0x3c6ef372, 0xa54ff53a,
    0x510e527f, 0x9b05688c, 0x1f83d9ab, 0x5be0cd19⟩

/-- The first 32 bits of the fractional parts of the cube roots of the first 64 primes. -/
def roundConstants : List UInt32 :=
  [0x428a2f98, 0x71374491, 0xb5c0fbcf, 0xe9b5dba5, 0x3956c25b, 0x59f111f1, 0x923f82a4, 0xab1c5ed5,
    0xd807aa98, 0x12835b01, 0x243185be, 0x550c7dc3, 0x72be5d74, 0x80deb1fe, 0x9bdc06a7, 0xc19bf174,
    0xe49b69c1, 0xefbe4786, 0x0fc19dc6, 0x240ca1cc, 0x2de92c6f, 0x4a7484aa, 0x5cb0a9dc, 0x76f988da,
    0x983e5152, 0xa831c66d, 0xb00327c8, 0xbf597fc7, 0xc6e00bf3, 0xd5a79147, 0x06ca6351, 0x14292967,
    0x27b70a85, 0x2e1b2138, 0x4d2c6dfc, 0x53380d13, 0x650a7354, 0x766a0abb, 0x81c2c92e, 0x92722c85,
    0xa2bfe8a1, 0xa81a664b, 0xc24b8b70, 0xc76c51a3, 0xd192e819, 0xd6990624, 0xf40e3585, 0x106aa070,
    0x19a4c116, 0x1e376c08, 0x2748774c, 0x34b0bcb5, 0x391c0cb3, 0x4ed8aa4a, 0x5b9cca4f, 0x682e6ff3,
    0x748f82ee, 0x78a5636f, 0x84c87814, 0x8cc70208, 0x90befffa, 0xa4506ceb, 0xbef9a3f7, 0xc67178f2]

def rotate (word : UInt32) (places : UInt32) : UInt32 :=
  (word >>> places) ||| (word <<< (32 - places))

/-- One round with a word of the schedule and the constant of the round. -/
def State.step (state : State) (word constant : UInt32) : State :=
  let high := rotate state.e 6 ^^^ rotate state.e 11 ^^^ rotate state.e 25
  let choice := (state.e &&& state.f) ^^^ ((~~~state.e) &&& state.g)
  let first := state.h + high + choice + constant + word
  let low := rotate state.a 2 ^^^ rotate state.a 13 ^^^ rotate state.a 22
  let majority := (state.a &&& state.b) ^^^ (state.a &&& state.c) ^^^ (state.b &&& state.c)
  ⟨first + (low + majority), state.a, state.b, state.c, state.d + first, state.e, state.f, state.g⟩

def State.add (first second : State) : State :=
  ⟨first.a + second.a, first.b + second.b, first.c + second.c, first.d + second.d,
    first.e + second.e, first.f + second.f, first.g + second.g, first.h + second.h⟩

/-- The word that follows sixteen or more words of a schedule, the latest of which comes first. -/
def nextWord (words : List UInt32) : UInt32 :=
  let early := words.getD 14 0
  let late := words.getD 1 0
  let first := rotate early 7 ^^^ rotate early 18 ^^^ (early >>> 3)
  let second := rotate late 17 ^^^ rotate late 19 ^^^ (late >>> 10)
  second + words.getD 6 0 + first + words.getD 15 0

/-- Put a number of words in front of the words of a schedule. -/
def expand (words : List UInt32) : Nat → List UInt32
  | 0 => words
  | count + 1 => expand (nextWord words :: words) count

/-- The words that bytes spell, four bytes a word with the highest first. -/
def wordsOf : List UInt8 → List UInt32
  | a :: b :: c :: d :: rest =>
      ((a.toUInt32 <<< 24) ||| (b.toUInt32 <<< 16) ||| (c.toUInt32 <<< 8) ||| d.toUInt32) ::
        wordsOf rest
  | _ => []

/-- The state after a block of sixteen words. -/
def State.absorb (state : State) (block : List UInt32) : State :=
  let schedule := (expand block.reverse 48).reverse
  let turned := (schedule.zip roundConstants).foldl
    (fun held (word, constant) => held.step word constant) state
  state.add turned

/-- The bytes of a number, a given count of them with the highest first. -/
def bigEndian (value : Nat) : Nat → List UInt8
  | 0 => []
  | count + 1 => UInt8.ofNat (value / 256 ^ count) :: bigEndian value count

/-- A message with the bit 1, as many zeros as fill the last block, and its length in bits behind it. -/
def pad (message : List UInt8) : List UInt8 :=
  let zeros := (119 - message.length % 64) % 64
  message ++ 0x80 :: List.replicate zeros 0 ++ bigEndian (8 * message.length) 8

/-- The first blocks of sixteen words, at most a given number of them. -/
def blocks : Nat → List UInt32 → List (List UInt32)
  | 0, _ => []
  | count + 1, words => words.take 16 :: blocks count (words.drop 16)

def digest (message : List UInt8) : State :=
  let words := wordsOf (pad message)
  (blocks (words.length / 16) words).foldl State.absorb initial

/-- A word in eight hexadecimal digits. -/
def hexWord (word : UInt32) : List Char :=
  (bigEndian word.toNat 4).flatMap fun byte =>
    [Nat.digitChar (byte.toNat / 16), Nat.digitChar (byte.toNat % 16)]

/-- The digest of a text in 64 hexadecimal digits. -/
def hexDigest (text : String) : String :=
  let state := digest text.toUTF8.data.toList
  String.ofList <|
    [state.a, state.b, state.c, state.d, state.e, state.f, state.g, state.h].flatMap hexWord

end ApiDocs.Sha256
