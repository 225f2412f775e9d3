import SignedMessaging.Bytes

/-!
# Words and blocks

Digests work on words of 32 or 64 bits that are read from bytes in either order,
and on a message cut into blocks of one size.
-/

namespace SignedMessaging

namespace Bytes

/-- The number of these bytes, the first one most significant. -/
def bigEndian (bytes : Bytes) : Nat :=
  bytes.foldl (fun n b => 256 * n + b.toNat) 0

/-- The number of these bytes, the first one least significant. -/
def littleEndian (bytes : Bytes) : Nat :=
  bytes.foldr (fun b n => b.toNat + 256 * n) 0

/-- The lowest `count` bytes of a number, the lowest first. -/
def ofLittleEndian : Nat → Nat → Bytes
  | 0, _ => []
  | count + 1, n => UInt8.ofNat n :: ofLittleEndian count (n / 256)

/-- The lowest `count` bytes of a number, the lowest last. -/
def ofBigEndian (count n : Nat) : Bytes :=
  (ofLittleEndian count n).reverse

@[simp]
theorem ofLittleEndian_length (count n : Nat) : (ofLittleEndian count n).length = count := by
  induction count generalizing n with
  | zero => rfl
  | succ count ih => simp [ofLittleEndian, ih]

@[simp]
theorem ofBigEndian_length (count n : Nat) : (ofBigEndian count n).length = count := by
  simp [ofBigEndian]

/-- Words of one size give that many bytes each. -/
theorem length_flatMap_words {w : Type} (bytesOf : w → Bytes) {size : Nat}
    (h : ∀ word, (bytesOf word).length = size) (words : List w) :
    (words.flatMap bytesOf).length = words.length * size := by
  induction words with
  | nil => simp
  | cons word rest ih => simp [h, ih, Nat.succ_mul, Nat.add_comm]

/-- The whole blocks of `size` bytes, in order. -/
def blocks (size : Nat) (bytes : Bytes) : List Bytes :=
  (List.range (bytes.length / size)).map fun i => (bytes.drop (i * size)).take size

/-- A message with the bit that ends it, zeros up to the end of a block, and its
length in bits at the very end. -/
def withLength (message : Bytes) (size : Nat) (bitLength : Bytes) : Bytes :=
  let used := message.length + 1 + bitLength.length
  message ++ 0x80 :: List.replicate ((size - used % size) % size) 0 ++ bitLength

end Bytes

namespace Words

def rotateLeft32 (x : UInt32) (n : UInt32) : UInt32 := (x <<< n) ||| (x >>> (32 - n))

def rotateRight32 (x : UInt32) (n : UInt32) : UInt32 := (x >>> n) ||| (x <<< (32 - n))

def rotateRight64 (x : UInt64) (n : UInt64) : UInt64 := (x >>> n) ||| (x <<< (64 - n))

/-- Rotation to the left; the amount is below 64, and by 0 nothing moves. -/
def rotateLeft64 (x : UInt64) (n : UInt64) : UInt64 := (x <<< n) ||| (x >>> ((64 - n) % 64))

/-- The words of 32 bits in a block, each with its lowest byte first. -/
def little32 (block : Bytes) : List UInt32 :=
  (Bytes.blocks 4 block).map fun word => UInt32.ofNat word.littleEndian

/-- The words of 32 bits in a block, each with its highest byte first. -/
def big32 (block : Bytes) : List UInt32 :=
  (Bytes.blocks 4 block).map fun word => UInt32.ofNat word.bigEndian

/-- The words of 64 bits in a block, each with its lowest byte first. -/
def little64 (block : Bytes) : List UInt64 :=
  (Bytes.blocks 8 block).map fun word => UInt64.ofNat word.littleEndian

/-- The words of 64 bits in a block, each with its highest byte first. -/
def big64 (block : Bytes) : List UInt64 :=
  (Bytes.blocks 8 block).map fun word => UInt64.ofNat word.bigEndian

end Words

end SignedMessaging
