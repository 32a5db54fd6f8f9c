/-!
# SHA-1

The digest of a byte string: it is padded to whole blocks of sixty-four bytes, and each block is
mixed into five words over eighty rounds.
-/

namespace Intake
namespace Sha1

/-- The five words that carry the digest from block to block. -/
structure Words where
  a : UInt32
  b : UInt32
  c : UInt32
  d : UInt32
  e : UInt32
  deriving DecidableEq, Repr

/-- The words before the first block. -/
def Words.initial : Words := ⟨0x67452301, 0xEFCDAB89, 0x98BADCFE, 0x10325476, 0xC3D2E1F0⟩

/-- Rotates a word to the left. -/
def rotate (word : UInt32) (places : UInt32) : UInt32 :=
  (word <<< places) ||| (word >>> (32 - places))

/-- The four bytes of a word, most significant first. -/
def wordBytes (word : UInt32) : List UInt8 :=
  [(word >>> 24).toUInt8, (word >>> 16).toUInt8, (word >>> 8).toUInt8, word.toUInt8]

/-- The word of four bytes, most significant first. -/
def wordOfBytes (bytes : List UInt8) : UInt32 :=
  bytes.foldl (fun word byte => (word <<< 8) ||| byte.toUInt32) 0

/-- The bytes of a number in eight places, most significant first. -/
def lengthBytes (value : UInt64) : List UInt8 :=
  [56, 48, 40, 32, 24, 16, 8, 0].map fun (places : UInt64) => (value >>> places).toUInt8

/-- The message followed by a set bit, zeros up to eight bytes before a block ends, and its
length in bits. -/
def padded (message : List UInt8) : List UInt8 :=
  let zeros := (119 - message.length % 64) % 64
  message ++ 0x80 :: List.replicate zeros 0 ++ lengthBytes (UInt64.ofNat (message.length * 8))

/-- Extends the words of a block, latest first, by one word of the schedule. -/
def extend (words : List UInt32) : List UInt32 :=
  let earlier (back : Nat) := (words[back - 1]?).getD 0
  rotate (earlier 3 ^^^ earlier 8 ^^^ earlier 14 ^^^ earlier 16) 1 :: words

/-- The eighty words of the schedule of a block. -/
def schedule (block : List UInt32) : List UInt32 :=
  (Nat.repeat extend 64 block.reverse).reverse

/-- The mixing function and the constant of a round. -/
def mixing (round : Nat) (b c d : UInt32) : UInt32 × UInt32 :=
  if round < 20 then ((b &&& c) ||| (~~~b &&& d), 0x5A827999)
  else if round < 40 then (b ^^^ c ^^^ d, 0x6ED9EBA1)
  else if round < 60 then ((b &&& c) ||| (b &&& d) ||| (c &&& d), 0x8F1BBCDC)
  else (b ^^^ c ^^^ d, 0xCA62C1D6)

/-- One round, with its number and its word of the schedule. -/
def round (state : Words) (step : UInt32 × Nat) : Words :=
  let (mixed, constant) := mixing step.2 state.b state.c state.d
  { a := rotate state.a 5 + mixed + state.e + constant + step.1
    b := state.a
    c := rotate state.b 30
    d := state.c
    e := state.d }

/-- Mixes one block into the words. -/
def absorb (state : Words) (block : List UInt32) : Words :=
  let mixed := (schedule block).zipIdx.foldl round state
  ⟨state.a + mixed.a, state.b + mixed.b, state.c + mixed.c, state.d + mixed.d, state.e + mixed.e⟩

/-- Cuts a list into pieces of one length; the measure bounds their number. -/
def pieces (size : Nat) : Nat → List α → List (List α)
  | 0, _ => []
  | _ + 1, [] => []
  | count + 1, list => list.take size :: pieces size count (list.drop size)

/-- The digest of a message, in twenty bytes. -/
def digest (message : List UInt8) : List UInt8 :=
  let bytes := padded message
  let words := (pieces 4 bytes.length bytes).map wordOfBytes
  let final := (pieces 16 words.length words).foldl absorb Words.initial
  [final.a, final.b, final.c, final.d, final.e].flatMap wordBytes

theorem length_digest (message : List UInt8) : (digest message).length = 20 := by
  simp [digest, wordBytes]

end Sha1
end Intake
