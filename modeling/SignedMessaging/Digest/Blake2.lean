import SignedMessaging.Digest.Words

/-!
# BLAKE2

Eight chaining words pass over blocks of sixteen words.  Sixteen working words
are mixed four at a time, in columns and then in diagonals, each round with the
block's words in another order.  The last block is filled with zeros and marked;
an empty message is one such block.  All words have their lowest byte first.
-/

namespace SignedMessaging.Blake2

/-- What depends on the size of the words. -/
structure Family (w : Type) where
  wordBytes : Nat
  words : Bytes → List w
  ofNat : Nat → w
  toNat : w → Nat
  add : w → w → w
  xor : w → w → w
  rotations : (w → w) × (w → w) × (w → w) × (w → w)
  rounds : Nat
  initial : Vector w 8

/-- The orders in which the rounds take the block's words. -/
def orders : List (List Nat) :=
  [[0, 1, 2, 3, 4, 5, 6, 7, 8, 9, 10, 11, 12, 13, 14, 15],
    [14, 10, 4, 8, 9, 15, 13, 6, 1, 12, 0, 2, 11, 7, 5, 3],
    [11, 8, 12, 0, 5, 2, 15, 13, 10, 14, 3, 6, 7, 1, 9, 4],
    [7, 9, 3, 1, 13, 12, 11, 14, 2, 6, 5, 10, 4, 0, 15, 8],
    [9, 0, 5, 7, 2, 4, 10, 15, 14, 1, 11, 12, 6, 8, 3, 13],
    [2, 12, 6, 10, 0, 11, 8, 3, 4, 13, 7, 5, 15, 14, 1, 9],
    [12, 5, 1, 15, 14, 13, 4, 10, 0, 7, 6, 3, 9, 2, 8, 11],
    [13, 11, 7, 14, 12, 1, 3, 9, 5, 0, 15, 4, 8, 6, 2, 10],
    [6, 15, 14, 9, 11, 3, 0, 8, 12, 2, 13, 7, 1, 4, 10, 5],
    [10, 2, 8, 4, 7, 6, 1, 5, 15, 11, 9, 14, 3, 12, 13, 0]]

namespace Family

variable {w : Type} (family : Family w)

/-- Mix two words of the block into four working words. -/
def mix (v : Vector w 16) (a b c d : Fin 16) (x y : w) : Vector w 16 :=
  let (r1, r2, r3, r4) := family.rotations
  let v := v.set a (family.add (family.add v[a] v[b]) x)
  let v := v.set d (r1 (family.xor v[d] v[a]))
  let v := v.set c (family.add v[c] v[d])
  let v := v.set b (r2 (family.xor v[b] v[c]))
  let v := v.set a (family.add (family.add v[a] v[b]) y)
  let v := v.set d (r3 (family.xor v[d] v[a]))
  let v := v.set c (family.add v[c] v[d])
  v.set b (r4 (family.xor v[b] v[c]))

/-- The working words that each of a round's eight mixings takes. -/
def quarters : List (Fin 16 × Fin 16 × Fin 16 × Fin 16) :=
  [(0, 4, 8, 12), (1, 5, 9, 13), (2, 6, 10, 14), (3, 7, 11, 15),
    (0, 5, 10, 15), (1, 6, 11, 12), (2, 7, 8, 13), (3, 4, 9, 14)]

/-- One round over the words of a block. -/
def round (words : List w) (v : Vector w 16) (index : Nat) : Vector w 16 :=
  let order := orders.getD (index % 10) []
  quarters.zipIdx.foldl (fun v ((a, b, c, d), i) =>
    let word (k : Nat) : w := words.getD (order.getD k 0) (family.ofNat 0)
    family.mix v a b c d (word (2 * i)) (word (2 * i + 1))) v

/-- Pass over a block; `count` is the number of bytes up to its end. -/
def compress (state : Vector w 8) (block : Bytes) (count : Nat) (last : Bool) : Vector w 8 :=
  let bits := 8 * family.wordBytes
  let low := family.ofNat count
  let high := family.ofNat (count >>> bits)
  let mark := family.ofNat (if last then (1 <<< bits) - 1 else 0)
  let v := state ++ family.initial
  let v := v.set 12 (family.xor v[12] low)
  let v := v.set 13 (family.xor v[13] high)
  let v := v.set 14 (family.xor v[14] mark)
  let v := (List.range family.rounds).foldl (family.round (family.words block)) v
  Vector.ofFn fun i => family.xor state[i] (family.xor v[i.val] v[i.val + 8])

/-- The chaining words before the first block: the digest's size is marked in. -/
def start : Vector w 8 :=
  let parameters := family.ofNat (0x01010000 + 8 * family.wordBytes)
  family.initial.set 0 (family.xor family.initial[0] parameters)

/-- The digest, which is as long as the chaining words. -/
def hash (message : Bytes) : Bytes :=
  let size := 16 * family.wordBytes
  let before := (message.length - 1) / size
  let state := (List.range before).foldl (fun state i =>
    family.compress state ((message.drop (i * size)).take size) ((i + 1) * size) false)
    family.start
  let tail := message.drop (before * size)
  let block := tail ++ List.replicate (size - tail.length) 0
  let last := family.compress state block message.length true
  last.toList.flatMap fun word => Bytes.ofLittleEndian family.wordBytes (family.toNat word)

theorem hash_length (message : Bytes) :
    (family.hash message).length = 8 * family.wordBytes := by
  simp only [hash]
  rw [Bytes.length_flatMap_words _ (fun _ => Bytes.ofLittleEndian_length family.wordBytes _)]
  simp

end Family

/-- BLAKE2b: words of 64 bits. -/
def family64 : Family UInt64 where
  wordBytes := 8
  words := Words.little64
  ofNat := UInt64.ofNat
  toNat := UInt64.toNat
  add := (· + ·)
  xor := (· ^^^ ·)
  rotations :=
    (fun x => Words.rotateRight64 x 32, fun x => Words.rotateRight64 x 24,
      fun x => Words.rotateRight64 x 16, fun x => Words.rotateRight64 x 63)
  rounds := 12
  initial := #v[0x6a09e667f3bcc908, 0xbb67ae8584caa73b, 0x3c6ef372fe94f82b, 0xa54ff53a5f1d36f1,
    0x510e527fade682d1, 0x9b05688c2b3e6c1f, 0x1f83d9abfb41bd6b, 0x5be0cd19137e2179]

/-- BLAKE2s: words of 32 bits. -/
def family32 : Family UInt32 where
  wordBytes := 4
  words := Words.little32
  ofNat := UInt32.ofNat
  toNat := UInt32.toNat
  add := (· + ·)
  xor := (· ^^^ ·)
  rotations :=
    (fun x => Words.rotateRight32 x 16, fun x => Words.rotateRight32 x 12,
      fun x => Words.rotateRight32 x 8, fun x => Words.rotateRight32 x 7)
  rounds := 10
  initial := #v[0x6a09e667, 0xbb67ae85, 0x3c6ef372, 0xa54ff53a, 0x510e527f, 0x9b05688c, 0x1f83d9ab,
    0x5be0cd19]

end SignedMessaging.Blake2
