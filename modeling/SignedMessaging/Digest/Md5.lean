import SignedMessaging.Digest.Words

/-!
# MD5

Four words of 32 bits pass over each block of 64 bytes in 64 steps, sixteen with
each of four functions.  All words have their lowest byte first.
-/

namespace SignedMessaging.Md5

/-- The four words that are carried from block to block. -/
structure State where
  a : UInt32
  b : UInt32
  c : UInt32
  d : UInt32

/-- What is added in each step: the integer parts of `2 ^ 32 * |sin (i + 1)|`. -/
def sines : List UInt32 :=
  [0xd76aa478, 0xe8c7b756, 0x242070db, 0xc1bdceee, 0xf57c0faf, 0x4787c62a, 0xa8304613,
    0xfd469501, 0x698098d8, 0x8b44f7af, 0xffff5bb1, 0x895cd7be, 0x6b901122, 0xfd987193,
    0xa679438e, 0x49b40821, 0xf61e2562, 0xc040b340, 0x265e5a51, 0xe9b6c7aa, 0xd62f105d,
    0x02441453, 0xd8a1e681, 0xe7d3fbc8, 0x21e1cde6, 0xc33707d6, 0xf4d50d87, 0x455a14ed,
    0xa9e3e905, 0xfcefa3f8, 0x676f02d9, 0x8d2a4c8a, 0xfffa3942, 0x8771f681, 0x6d9d6122,
    0xfde5380c, 0xa4beea44, 0x4bdecfa9, 0xf6bb4b60, 0xbebfbc70, 0x289b7ec6, 0xeaa127fa,
    0xd4ef3085, 0x04881d05, 0xd9d4d039, 0xe6db99e5, 0x1fa27cf8, 0xc4ac5665, 0xf4292244,
    0x432aff97, 0xab9423a7, 0xfc93a039, 0x655b59c3, 0x8f0ccc92, 0xffeff47d, 0x85845dd1,
    0x6fa87e4f, 0xfe2ce6e0, 0xa3014314, 0x4e0811a1, 0xf7537e82, 0xbd3af235, 0x2ad7d2bb,
    0xeb86d391]

/-- The four rotations that each group of sixteen steps repeats. -/
def rotations (group i : Nat) : UInt32 :=
  let amounts : List UInt32 := match group with
    | 0 => [7, 12, 17, 22]
    | 1 => [5, 9, 14, 20]
    | 2 => [4, 11, 16, 23]
    | _ => [6, 10, 15, 21]
  amounts.getD (i % 4) 0

/-- The function of a group of steps. -/
def mix (group : Nat) (b c d : UInt32) : UInt32 :=
  match group with
  | 0 => (b &&& c) ||| (~~~b &&& d)
  | 1 => (d &&& b) ||| (~~~d &&& c)
  | 2 => b ^^^ c ^^^ d
  | _ => c ^^^ (b ||| ~~~d)

/-- The word of the block that a step takes. -/
def wordIndex (group i : Nat) : Nat :=
  match group with
  | 0 => i
  | 1 => (5 * i + 1) % 16
  | 2 => (3 * i + 5) % 16
  | _ => 7 * i % 16

/-- One of the 64 steps over the words of a block. -/
def step (words : List UInt32) (s : State) (i : Nat) : State :=
  let group := i / 16
  let sum := s.a + mix group s.b s.c s.d + sines.getD i 0 + words.getD (wordIndex group i) 0
  ⟨s.d, s.b + Words.rotateLeft32 sum (rotations group i), s.b, s.c⟩

/-- Pass over one block. -/
def compress (s : State) (block : Bytes) : State :=
  let t := (List.range 64).foldl (step (Words.little32 block)) s
  ⟨s.a + t.a, s.b + t.b, s.c + t.c, s.d + t.d⟩

/-- The words before the first block. -/
def initial : State := ⟨0x67452301, 0xefcdab89, 0x98badcfe, 0x10325476⟩

/-- The digest of a message. -/
def hash (message : Bytes) : Bytes :=
  let bitLength := Bytes.ofLittleEndian 8 (8 * message.length)
  let s := (Bytes.blocks 64 (message.withLength 64 bitLength)).foldl compress initial
  [s.a, s.b, s.c, s.d].flatMap fun word => Bytes.ofLittleEndian 4 word.toNat

@[simp]
theorem hash_length (message : Bytes) : (hash message).length = 16 := by
  simp [hash]

end SignedMessaging.Md5
