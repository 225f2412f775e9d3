import SignedMessaging.Digest.Words

/-!
# SHA-1

Five words of 32 bits pass over each block of 64 bytes in 80 steps, twenty with
each of four functions.  All words have their highest byte first.
-/

namespace SignedMessaging.Sha1

/-- The five words that are carried from block to block. -/
structure State where
  a : UInt32
  b : UInt32
  c : UInt32
  d : UInt32
  e : UInt32

/-- Extend the schedule by `count` words; the latest word stands first. -/
def extend : Nat → List UInt32 → List UInt32
  | 0, words => words
  | count + 1, words =>
      let sum := words.getD 2 0 ^^^ words.getD 7 0 ^^^ words.getD 13 0 ^^^ words.getD 15 0
      extend count (Words.rotateLeft32 sum 1 :: words)

/-- The 80 words of a block's steps: its own sixteen, then their rotated sums. -/
def schedule (block : Bytes) : List UInt32 :=
  (extend 64 (Words.big32 block).reverse).reverse

/-- The function and the constant of a group of twenty steps. -/
def mix (group : Nat) (b c d : UInt32) : UInt32 :=
  match group with
  | 0 => ((b &&& c) ||| (~~~b &&& d)) + 0x5a827999
  | 1 => (b ^^^ c ^^^ d) + 0x6ed9eba1
  | 2 => ((b &&& c) ||| (b &&& d) ||| (c &&& d)) + 0x8f1bbcdc
  | _ => (b ^^^ c ^^^ d) + 0xca62c1d6

/-- One of the 80 steps, with its place and its word. -/
def step (s : State) (entry : UInt32 × Nat) : State :=
  let sum := Words.rotateLeft32 s.a 5 + mix (entry.2 / 20) s.b s.c s.d + s.e + entry.1
  ⟨sum, s.a, Words.rotateLeft32 s.b 30, s.c, s.d⟩

/-- Pass over one block. -/
def compress (s : State) (block : Bytes) : State :=
  let t := (schedule block).zipIdx.foldl step s
  ⟨s.a + t.a, s.b + t.b, s.c + t.c, s.d + t.d, s.e + t.e⟩

/-- The words before the first block. -/
def initial : State := ⟨0x67452301, 0xefcdab89, 0x98badcfe, 0x10325476, 0xc3d2e1f0⟩

/-- The digest of a message. -/
def hash (message : Bytes) : Bytes :=
  let bitLength := Bytes.ofBigEndian 8 (8 * message.length)
  let s := (Bytes.blocks 64 (message.withLength 64 bitLength)).foldl compress initial
  [s.a, s.b, s.c, s.d, s.e].flatMap fun word => Bytes.ofBigEndian 4 word.toNat

@[simp]
theorem hash_length (message : Bytes) : (hash message).length = 20 := by
  simp [hash]

end SignedMessaging.Sha1
