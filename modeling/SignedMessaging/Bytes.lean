/-!
# Byte strings

Frames, keys and digests are lists of octets.  A text has exactly one byte
string, its UTF-8 form, and a byte string is the form of at most one text.
Hexadecimal is written in lower case and read in either case.
-/

namespace SignedMessaging

/-- A string of octets. -/
abbrev Bytes := List UInt8

namespace Bytes

/-- The UTF-8 form of a text. -/
def ofText (text : String) : Bytes :=
  text.toByteArray.data.toList

/-- The text whose UTF-8 form these bytes are, if there is one. -/
def text? (bytes : Bytes) : Option String :=
  String.fromUTF8? ⟨bytes.toArray⟩

@[simp]
theorem text?_ofText (text : String) : (ofText text).text? = some text := by
  simp [text?, ofText, String.fromUTF8?, String.fromUTF8, text.isValidUTF8]

/-- Only the UTF-8 form of a text reads back as that text. -/
theorem text?_eq_some_iff {bytes : Bytes} {text : String} :
    bytes.text? = some text ↔ bytes = ofText text := by
  constructor
  · intro h
    unfold text? String.fromUTF8? at h
    split at h
    · cases h
      simp [ofText, String.fromUTF8]
    · cases h
  · rintro rfl
    exact text?_ofText text

/-- A text is written character by character. -/
theorem ofText_ofList (cs : List Char) :
    ofText (String.ofList cs) = cs.flatMap String.utf8EncodeChar := by
  rw [ofText, String.toByteArray_ofList, List.utf8Encode]
  simp

/-- A byte of a character is its code, or it is beyond ASCII. -/
theorem toNat_of_mem_utf8EncodeChar {c : Char} {b : UInt8} (h : b ∈ String.utf8EncodeChar c) :
    b.toNat = c.toNat ∨ 0x80 ≤ b.toNat := by
  have hcode : c.val.toNat = c.toNat := rfl
  simp only [String.utf8EncodeChar, hcode] at h
  repeat' split at h
  all_goals
    simp only [List.mem_cons, List.not_mem_nil, or_false] at h
    rcases h with rfl | rfl | rfl | rfl <;> simp only [UInt8.toNat_ofNat'] <;> omega

end Bytes

namespace Hex

/-- The lower-case hexadecimal digit of a number below sixteen. -/
def digit (n : Nat) : UInt8 :=
  if n < 10 then UInt8.ofNat (48 + n) else UInt8.ofNat (87 + n)

/-- The number of a hexadecimal digit, in either letter case. -/
def digitValue? (c : UInt8) : Option Nat :=
  let n := c.toNat
  if 48 ≤ n ∧ n ≤ 57 then some (n - 48)
  else if 97 ≤ n ∧ n ≤ 102 then some (n - 87)
  else if 65 ≤ n ∧ n ≤ 70 then some (n - 55)
  else none

/-- Two digits a byte, the high one first. -/
def encode : Bytes → Bytes
  | [] => []
  | b :: rest => digit (b.toNat / 16) :: digit (b.toNat % 16) :: encode rest

/-- Read digits in pairs; an odd count or any other byte is refused. -/
def decode : Bytes → Option Bytes
  | [] => some []
  | [_] => none
  | high :: low :: rest =>
      match digitValue? high, digitValue? low, decode rest with
      | some h, some l, some bytes => some (UInt8.ofNat (16 * h + l) :: bytes)
      | _, _, _ => none

theorem encode_length (bytes : Bytes) : (encode bytes).length = 2 * bytes.length := by
  induction bytes with
  | nil => rfl
  | cons b rest ih => simp [encode, ih, Nat.mul_add]

end Hex

end SignedMessaging
