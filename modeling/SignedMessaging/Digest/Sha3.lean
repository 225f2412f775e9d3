import SignedMessaging.Digest.Words

/-!
# SHA-3

The state is 25 lanes of 64 bits, lane `x + 5 * y` in column `x` and row `y`.
Blocks are added to the first lanes and the state is permuted after each; the
digest is read from the first lanes.  Lanes have their lowest byte first.
-/

namespace SignedMessaging.Sha3

/-- The lanes of the state. -/
abbrev State := Vector UInt64 25

/-- How far the lanes are rotated, lane by lane. -/
def rotations : List UInt64 :=
  [0, 1, 62, 28, 27, 36, 44, 6, 55, 20, 3, 10, 43, 25, 39, 41, 45, 15, 21, 8, 18, 2, 61, 56, 14]

/-- What is added to the first lane in each round. -/
def roundConstants : List UInt64 :=
  [0x0000000000000001, 0x0000000000008082, 0x800000000000808a, 0x8000000080008000,
    0x000000000000808b, 0x0000000080000001, 0x8000000080008081, 0x8000000000008009,
    0x000000000000008a, 0x0000000000000088, 0x0000000080008009, 0x000000008000000a,
    0x000000008000808b, 0x800000000000008b, 0x8000000000008089, 0x8000000000008003,
    0x8000000000008002, 0x8000000000000080, 0x000000000000800a, 0x800000008000000a,
    0x8000000080008081, 0x8000000000008080, 0x0000000080000001, 0x8000000080008008]

/-- The lane in column `x` and row `y`, both counted around. -/
def lane (s : State) (x y : Nat) : UInt64 :=
  s[x % 5 + 5 * (y % 5)]

/-- The sum of a column. -/
def column (s : State) (x : Nat) : UInt64 :=
  lane s x 0 ^^^ lane s x 1 ^^^ lane s x 2 ^^^ lane s x 3 ^^^ lane s x 4

/-- Add to each lane the sums of the two columns beside it, one of them rotated. -/
def theta (s : State) : State :=
  Vector.ofFn fun i =>
    s[i] ^^^ column s (i.val + 4) ^^^ Words.rotateLeft64 (column s (i.val + 1)) 1

/-- Rotate each lane and move it to its new place. -/
def rhoPi (s : State) : State :=
  Vector.ofFn fun i =>
    let x := i.val % 5
    let y := i.val / 5
    let source := (x + 3 * y) % 5 + 5 * x
    Words.rotateLeft64 (lane s (x + 3 * y) x) (rotations.getD source 0)

/-- Combine each lane with the next two of its row. -/
def chi (s : State) : State :=
  Vector.ofFn fun i =>
    let x := i.val % 5
    let y := i.val / 5
    s[i] ^^^ (~~~(lane s (x + 1) y) &&& lane s (x + 2) y)

/-- One round. -/
def round (s : State) (constant : UInt64) : State :=
  let t := chi (rhoPi (theta s))
  t.set 0 (t[0] ^^^ constant)

/-- The permutation of the state. -/
def permute (s : State) : State :=
  roundConstants.foldl round s

/-- Add a block to the first lanes and permute. -/
def absorb (s : State) (block : Bytes) : State :=
  let words := Words.little64 block
  permute (Vector.ofFn fun i => s[i] ^^^ words.getD i.val 0)

/-- A message with the bits that end it, up to the end of a block. -/
def padded (rate : Nat) (message : Bytes) : Bytes :=
  let room := rate - message.length % rate
  message ++
    if room = 1 then [0x86] else 0x06 :: List.replicate (room - 2) 0 ++ [0x80]

/-- The digest of `size` bytes; a block leaves twice that many bytes of the state alone. -/
def hash (size : Nat) (message : Bytes) : Bytes :=
  let rate := 200 - 2 * size
  let last := (Bytes.blocks rate (padded rate message)).foldl absorb (Vector.replicate 25 0)
  (last.toList.flatMap fun word => Bytes.ofLittleEndian 8 word.toNat).take size

theorem hash_length {size : Nat} (h : size ≤ 200) (message : Bytes) :
    (hash size message).length = size := by
  simp only [hash, List.length_take]
  rw [Bytes.length_flatMap_words _ (fun _ => Bytes.ofLittleEndian_length 8 _)]
  simp only [Vector.length_toList]
  omega

end SignedMessaging.Sha3
