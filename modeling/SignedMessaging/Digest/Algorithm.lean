import SignedMessaging.Digest.Blake2
import SignedMessaging.Digest.Md5
import SignedMessaging.Digest.Sha1
import SignedMessaging.Digest.Sha2
import SignedMessaging.Digest.Sha3

/-!
# Digest algorithms

An algorithm has digests of a fixed size and works on blocks that a digest fits
into, which is all that authenticating a message needs of it.  Those of the MD5,
SHA-1, SHA-2, SHA-3 and BLAKE2 families are here; there are others.
-/

namespace SignedMessaging.Digest

/-- A digest algorithm with digests of one size. -/
structure Algorithm where
  /-- The number of bytes in a digest. -/
  size : Nat
  /-- The number of bytes in a block. -/
  blockSize : Nat
  /-- The digest of a message. -/
  hash : Bytes → Bytes
  hash_length (message : Bytes) : (hash message).length = size
  size_le_blockSize : size ≤ blockSize

namespace Algorithm

def md5 : Algorithm where
  size := 16
  blockSize := 64
  hash := Md5.hash
  hash_length := Md5.hash_length
  size_le_blockSize := by decide

def sha1 : Algorithm where
  size := 20
  blockSize := 64
  hash := Sha1.hash
  hash_length := Sha1.hash_length
  size_le_blockSize := by decide

/-- The algorithm of the SHA-2 family that starts from some registers and keeps `size`
bytes of those at the end. -/
def sha2 {w : Type} (family : Sha2.Family w) (initial : Sha2.Registers w) (size : Nat)
    (h : size ≤ 8 * family.wordBytes) : Algorithm where
  size := size
  blockSize := 16 * family.wordBytes
  hash message := (family.hash initial message).take size
  hash_length message := by
    rw [List.length_take, Sha2.Family.hash_length]
    omega
  size_le_blockSize := by omega

def sha224 : Algorithm := sha2 Sha2.family32 Sha2.initial224 28 (by decide)

def sha256 : Algorithm := sha2 Sha2.family32 Sha2.initial256 32 (by decide)

def sha384 : Algorithm := sha2 Sha2.family64 Sha2.initial384 48 (by decide)

def sha512 : Algorithm := sha2 Sha2.family64 Sha2.initial512 64 (by decide)

def sha512Short224 : Algorithm := sha2 Sha2.family64 Sha2.initial512Short224 28 (by decide)

def sha512Short256 : Algorithm := sha2 Sha2.family64 Sha2.initial512Short256 32 (by decide)

/-- The algorithm of the SHA-3 family with digests of `size` bytes. -/
def sha3 (size : Nat) (h : size ≤ 200 - 2 * size) : Algorithm where
  size := size
  blockSize := 200 - 2 * size
  hash := Sha3.hash size
  hash_length := Sha3.hash_length (by omega)
  size_le_blockSize := h

def sha3Size224 : Algorithm := sha3 28 (by decide)

def sha3Size256 : Algorithm := sha3 32 (by decide)

def sha3Size384 : Algorithm := sha3 48 (by decide)

def sha3Size512 : Algorithm := sha3 64 (by decide)

/-- The algorithm of the BLAKE2 family, with digests as long as its chaining words. -/
def blake2 {w : Type} (family : Blake2.Family w) : Algorithm where
  size := 8 * family.wordBytes
  blockSize := 16 * family.wordBytes
  hash := family.hash
  hash_length := family.hash_length
  size_le_blockSize := by omega

def blake2b : Algorithm := blake2 Blake2.family64

def blake2s : Algorithm := blake2 Blake2.family32

end Algorithm

end SignedMessaging.Digest
