import SignedMessaging.Digest.Algorithm

/-!
# Keyed digests

The HMAC construction over any of the algorithms.  A key longer than a block is
replaced by its digest; the key, filled with zeros to a block, enters two nested
digests under two masks.
-/

namespace SignedMessaging.Digest

/-- A key as it fills a block. -/
def blockKey (algorithm : Algorithm) (key : Bytes) : Bytes :=
  let short := if key.length > algorithm.blockSize then algorithm.hash key else key
  short ++ List.replicate (algorithm.blockSize - short.length) 0

/-- The keyed digest of a message. -/
def hmac (algorithm : Algorithm) (key message : Bytes) : Bytes :=
  let block := blockKey algorithm key
  let inner := algorithm.hash (block.map (· ^^^ 0x36) ++ message)
  algorithm.hash (block.map (· ^^^ 0x5c) ++ inner)

@[simp]
theorem hmac_length (algorithm : Algorithm) (key message : Bytes) :
    (hmac algorithm key message).length = algorithm.size := by
  simp [hmac, Algorithm.hash_length]

end SignedMessaging.Digest
