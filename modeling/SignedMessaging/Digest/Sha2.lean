import SignedMessaging.Digest.Words

/-!
# SHA-2

One construction serves words of 32 and of 64 bits: eight registers pass over a
block of sixteen words, extended to one word for each round constant.  The
digests of a word size differ in the registers' first contents and in how much
of the last contents is kept.  All words have their highest byte first.
-/

namespace SignedMessaging.Sha2

/-- Eight working registers. -/
structure Registers (w : Type) where
  a : w
  b : w
  c : w
  d : w
  e : w
  f : w
  g : w
  h : w

/-- What depends on the size of the words. -/
structure Family (w : Type) where
  wordBytes : Nat
  words : Bytes → List w
  toNat : w → Nat
  add : w → w → w
  choose : w → w → w → w
  majority : w → w → w → w
  bigSigma0 : w → w
  bigSigma1 : w → w
  smallSigma0 : w → w
  smallSigma1 : w → w
  none : w
  constants : List w

namespace Registers

/-- The registers in order. -/
def toList {w : Type} (r : Registers w) : List w := [r.a, r.b, r.c, r.d, r.e, r.f, r.g, r.h]

/-- Combine two sets of registers one by one. -/
def zipWith {w : Type} (f : w → w → w) (r s : Registers w) : Registers w :=
  ⟨f r.a s.a, f r.b s.b, f r.c s.c, f r.d s.d, f r.e s.e, f r.f s.f, f r.g s.g, f r.h s.h⟩

end Registers

namespace Family

variable {w : Type} (family : Family w)

/-- Extend the schedule by `count` words; the latest word stands first. -/
def extend : Nat → List w → List w
  | 0, words => words
  | count + 1, words =>
      let recent := family.add (family.smallSigma1 (words.getD 1 family.none))
        (words.getD 6 family.none)
      let earlier := family.add (family.smallSigma0 (words.getD 14 family.none))
        (words.getD 15 family.none)
      extend count (family.add recent earlier :: words)

/-- The words of a block's rounds. -/
def schedule (block : Bytes) : List w :=
  (family.extend (family.constants.length - 16) (family.words block).reverse).reverse

/-- One round, with its constant and its word. -/
def step (r : Registers w) (entry : w × w) : Registers w :=
  let chosen := family.add (family.choose r.e r.f r.g) (family.add entry.1 entry.2)
  let first := family.add r.h (family.add (family.bigSigma1 r.e) chosen)
  let second := family.add (family.bigSigma0 r.a) (family.majority r.a r.b r.c)
  ⟨family.add first second, r.a, r.b, r.c, family.add r.d first, r.e, r.f, r.g⟩

/-- Pass over one block. -/
def compress (r : Registers w) (block : Bytes) : Registers w :=
  r.zipWith family.add ((family.constants.zip (family.schedule block)).foldl family.step r)

/-- All the bytes that the last registers give. -/
def hash (initial : Registers w) (message : Bytes) : Bytes :=
  let size := 16 * family.wordBytes
  let bitLength := Bytes.ofBigEndian (2 * family.wordBytes) (8 * message.length)
  let last := (Bytes.blocks size (message.withLength size bitLength)).foldl family.compress initial
  last.toList.flatMap fun word => Bytes.ofBigEndian family.wordBytes (family.toNat word)

theorem hash_length (initial : Registers w) (message : Bytes) :
    (family.hash initial message).length = 8 * family.wordBytes := by
  simp only [hash]
  rw [Bytes.length_flatMap_words _ (fun _ => Bytes.ofBigEndian_length family.wordBytes _)]
  rfl

end Family

/-- Words of 32 bits, 64 rounds: the constants are the first 32 bits of the
fractional parts of the cube roots of the first primes. -/
def family32 : Family UInt32 where
  wordBytes := 4
  words := Words.big32
  toNat := UInt32.toNat
  add := (· + ·)
  choose e f g := (e &&& f) ^^^ (~~~e &&& g)
  majority a b c := (a &&& b) ^^^ (a &&& c) ^^^ (b &&& c)
  bigSigma0 x := Words.rotateRight32 x 2 ^^^ Words.rotateRight32 x 13 ^^^ Words.rotateRight32 x 22
  bigSigma1 x := Words.rotateRight32 x 6 ^^^ Words.rotateRight32 x 11 ^^^ Words.rotateRight32 x 25
  smallSigma0 x := Words.rotateRight32 x 7 ^^^ Words.rotateRight32 x 18 ^^^ (x >>> 3)
  smallSigma1 x := Words.rotateRight32 x 17 ^^^ Words.rotateRight32 x 19 ^^^ (x >>> 10)
  none := 0
  constants :=
    [0x428a2f98, 0x71374491, 0xb5c0fbcf, 0xe9b5dba5, 0x3956c25b, 0x59f111f1, 0x923f82a4,
    0xab1c5ed5, 0xd807aa98, 0x12835b01, 0x243185be, 0x550c7dc3, 0x72be5d74, 0x80deb1fe,
    0x9bdc06a7, 0xc19bf174, 0xe49b69c1, 0xefbe4786, 0x0fc19dc6, 0x240ca1cc, 0x2de92c6f,
    0x4a7484aa, 0x5cb0a9dc, 0x76f988da, 0x983e5152, 0xa831c66d, 0xb00327c8, 0xbf597fc7,
    0xc6e00bf3, 0xd5a79147, 0x06ca6351, 0x14292967, 0x27b70a85, 0x2e1b2138, 0x4d2c6dfc,
    0x53380d13, 0x650a7354, 0x766a0abb, 0x81c2c92e, 0x92722c85, 0xa2bfe8a1, 0xa81a664b,
    0xc24b8b70, 0xc76c51a3, 0xd192e819, 0xd6990624, 0xf40e3585, 0x106aa070, 0x19a4c116,
    0x1e376c08, 0x2748774c, 0x34b0bcb5, 0x391c0cb3, 0x4ed8aa4a, 0x5b9cca4f, 0x682e6ff3,
    0x748f82ee, 0x78a5636f, 0x84c87814, 0x8cc70208, 0x90befffa, 0xa4506ceb, 0xbef9a3f7,
    0xc67178f2]

/-- Words of 64 bits, 80 rounds: the constants are the first 64 bits of the
fractional parts of the cube roots of the first primes. -/
def family64 : Family UInt64 where
  wordBytes := 8
  words := Words.big64
  toNat := UInt64.toNat
  add := (· + ·)
  choose e f g := (e &&& f) ^^^ (~~~e &&& g)
  majority a b c := (a &&& b) ^^^ (a &&& c) ^^^ (b &&& c)
  bigSigma0 x := Words.rotateRight64 x 28 ^^^ Words.rotateRight64 x 34 ^^^ Words.rotateRight64 x 39
  bigSigma1 x := Words.rotateRight64 x 14 ^^^ Words.rotateRight64 x 18 ^^^ Words.rotateRight64 x 41
  smallSigma0 x := Words.rotateRight64 x 1 ^^^ Words.rotateRight64 x 8 ^^^ (x >>> 7)
  smallSigma1 x := Words.rotateRight64 x 19 ^^^ Words.rotateRight64 x 61 ^^^ (x >>> 6)
  none := 0
  constants :=
    [0x428a2f98d728ae22, 0x7137449123ef65cd, 0xb5c0fbcfec4d3b2f, 0xe9b5dba58189dbbc,
    0x3956c25bf348b538, 0x59f111f1b605d019, 0x923f82a4af194f9b, 0xab1c5ed5da6d8118,
    0xd807aa98a3030242, 0x12835b0145706fbe, 0x243185be4ee4b28c, 0x550c7dc3d5ffb4e2,
    0x72be5d74f27b896f, 0x80deb1fe3b1696b1, 0x9bdc06a725c71235, 0xc19bf174cf692694,
    0xe49b69c19ef14ad2, 0xefbe4786384f25e3, 0x0fc19dc68b8cd5b5, 0x240ca1cc77ac9c65,
    0x2de92c6f592b0275, 0x4a7484aa6ea6e483, 0x5cb0a9dcbd41fbd4, 0x76f988da831153b5,
    0x983e5152ee66dfab, 0xa831c66d2db43210, 0xb00327c898fb213f, 0xbf597fc7beef0ee4,
    0xc6e00bf33da88fc2, 0xd5a79147930aa725, 0x06ca6351e003826f, 0x142929670a0e6e70,
    0x27b70a8546d22ffc, 0x2e1b21385c26c926, 0x4d2c6dfc5ac42aed, 0x53380d139d95b3df,
    0x650a73548baf63de, 0x766a0abb3c77b2a8, 0x81c2c92e47edaee6, 0x92722c851482353b,
    0xa2bfe8a14cf10364, 0xa81a664bbc423001, 0xc24b8b70d0f89791, 0xc76c51a30654be30,
    0xd192e819d6ef5218, 0xd69906245565a910, 0xf40e35855771202a, 0x106aa07032bbd1b8,
    0x19a4c116b8d2d0c8, 0x1e376c085141ab53, 0x2748774cdf8eeb99, 0x34b0bcb5e19b48a8,
    0x391c0cb3c5c95a63, 0x4ed8aa4ae3418acb, 0x5b9cca4f7763e373, 0x682e6ff3d6b2b8a3,
    0x748f82ee5defb2fc, 0x78a5636f43172f60, 0x84c87814a1f0ab72, 0x8cc702081a6439ec,
    0x90befffa23631e28, 0xa4506cebde82bde9, 0xbef9a3f7b2c67915, 0xc67178f2e372532b,
    0xca273eceea26619c, 0xd186b8c721c0c207, 0xeada7dd6cde0eb1e, 0xf57d4f7fee6ed178,
    0x06f067aa72176fba, 0x0a637dc5a2c898a6, 0x113f9804bef90dae, 0x1b710b35131c471b,
    0x28db77f523047d84, 0x32caab7b40c72493, 0x3c9ebe0a15c9bebc, 0x431d67c49c100d4c,
    0x4cc5d4becb3e42b6, 0x597f299cfc657e2a, 0x5fcb6fab3ad6faec, 0x6c44198c4a475817]

/-- The registers before the first block of SHA-224. -/
def initial224 : Registers UInt32 :=
  ⟨0xc1059ed8, 0x367cd507, 0x3070dd17, 0xf70e5939, 0xffc00b31, 0x68581511, 0x64f98fa7,
    0xbefa4fa4⟩

/-- The registers before the first block of SHA-256. -/
def initial256 : Registers UInt32 :=
  ⟨0x6a09e667, 0xbb67ae85, 0x3c6ef372, 0xa54ff53a, 0x510e527f, 0x9b05688c, 0x1f83d9ab,
    0x5be0cd19⟩

/-- The registers before the first block of SHA-384. -/
def initial384 : Registers UInt64 :=
  ⟨0xcbbb9d5dc1059ed8, 0x629a292a367cd507, 0x9159015a3070dd17, 0x152fecd8f70e5939,
    0x67332667ffc00b31, 0x8eb44a8768581511, 0xdb0c2e0d64f98fa7, 0x47b5481dbefa4fa4⟩

/-- The registers before the first block of SHA-512. -/
def initial512 : Registers UInt64 :=
  ⟨0x6a09e667f3bcc908, 0xbb67ae8584caa73b, 0x3c6ef372fe94f82b, 0xa54ff53a5f1d36f1,
    0x510e527fade682d1, 0x9b05688c2b3e6c1f, 0x1f83d9abfb41bd6b, 0x5be0cd19137e2179⟩

/-- The registers before the first block of SHA-512/224. -/
def initial512Short224 : Registers UInt64 :=
  ⟨0x8c3d37c819544da2, 0x73e1996689dcd4d6, 0x1dfab7ae32ff9c82, 0x679dd514582f9fcf,
    0x0f6d2b697bd44da8, 0x77e36f7304c48942, 0x3f9d85a86a1d36c8, 0x1112e6ad91d692a1⟩

/-- The registers before the first block of SHA-512/256. -/
def initial512Short256 : Registers UInt64 :=
  ⟨0x22312194fc2bf72c, 0x9f555fa3c84c64c2, 0x2393b86b6f53b151, 0x963877195940eabd,
    0x96283ee2a88effe3, 0xbe5e1e2553863992, 0x2b0199fc2c85b8aa, 0x0eb72ddc81c52ca2⟩

end SignedMessaging.Sha2
