import SignedMessaging.Bytes

/-!
# Hexadecimal in either letter case

A byte string is read as the bytes whose hexadecimal it is once its capital letters are
made small.  So reading undoes writing, and two texts are read to the same bytes
exactly where they differ in letter case alone.

What is written is the UTF-8 form of a text of small digits (`encode_eq_ofText`), and what
is read is any even number of digits (`isSome_decode_iff`).
-/

namespace SignedMessaging.Hex

/-- A byte with a capital letter made small. -/
def lower (c : UInt8) : UInt8 :=
  if 65 ≤ c.toNat ∧ c.toNat ≤ 90 then c + 32 else c

/-- Whether a byte string is the hexadecimal of some bytes, in either letter case. -/
def Spells (bytes digits : Bytes) : Prop :=
  digits.map lower = encode bytes

instance (bytes digits : Bytes) : Decidable (Spells bytes digits) :=
  inferInstanceAs (Decidable (_ = _))

theorem toNat_lower (c : UInt8) :
    (lower c).toNat = if 65 ≤ c.toNat ∧ c.toNat ≤ 90 then c.toNat + 32 else c.toNat := by
  unfold lower
  split
  · rw [UInt8.toNat_add]
    have : (32 : UInt8).toNat = 32 := rfl
    omega
  · rfl

theorem toNat_digit {n : Nat} (hn : n < 16) :
    (digit n).toNat = if n < 10 then 48 + n else 87 + n := by
  unfold digit
  split <;> rw [UInt8.toNat_ofNat_of_lt'] <;> simp only [UInt8.size] <;> omega

/-- A byte is the digit of a number where it is that digit once it is made small. -/
theorem digitValue?_eq_some_iff {c : UInt8} {n : Nat} :
    digitValue? c = some n ↔ n < 16 ∧ lower c = digit n := by
  by_cases hn : n < 16
  · rw [← UInt8.toNat_inj, toNat_lower, toNat_digit hn, digitValue?]
    simp only [hn, true_and]
    repeat' split
    all_goals simp only [Option.some.injEq, reduceCtorEq, false_iff]
    all_goals omega
  · -- No byte is read to more than fifteen.
    refine iff_of_false (fun h => hn ?_) fun h => hn h.1
    simp only [digitValue?] at h
    repeat' split at h
    all_goals cases h
    all_goals omega

theorem lt_of_digitValue? {c : UInt8} {n : Nat} (h : digitValue? c = some n) : n < 16 :=
  (digitValue?_eq_some_iff.1 h).1

/-- Two digits are read to the byte whose halves they are. -/
theorem decode_pair_eq_some_iff {high low b : UInt8} {digits bytes : Bytes} :
    decode (high :: low :: digits) = some (b :: bytes) ↔
      digitValue? high = some (b.toNat / 16) ∧ digitValue? low = some (b.toNat % 16) ∧
        decode digits = some bytes := by
  constructor
  · intro h
    simp only [decode] at h
    split at h
    · next i j found hhigh hlow hfound =>
      cases h
      have hi := lt_of_digitValue? hhigh
      have hj := lt_of_digitValue? hlow
      have hbyte : (UInt8.ofNat (16 * i + j)).toNat = 16 * i + j := by
        apply UInt8.toNat_ofNat_of_lt'
        simp only [UInt8.size]
        omega
      rw [hbyte, show (16 * i + j) / 16 = i by omega, show (16 * i + j) % 16 = j by omega]
      exact ⟨hhigh, hlow, hfound⟩
    · cases h
  · rintro ⟨hhigh, hlow, hdigits⟩
    simp only [decode, hhigh, hlow, hdigits]
    rw [show 16 * (b.toNat / 16) + b.toNat % 16 = b.toNat by omega, UInt8.ofNat_toNat]

/-- Reading in either letter case finds the bytes whose hexadecimal is meant. -/
theorem decode_eq_some_iff {digits bytes : Bytes} :
    decode digits = some bytes ↔ Spells bytes digits := by
  unfold Spells
  induction bytes generalizing digits with
  | nil =>
      match digits with
      | [] => simp [decode, encode]
      | [_] => simp [decode, encode]
      | _ :: _ :: _ =>
          simp only [decode, encode]
          split <;> simp
  | cons b bytes ih =>
      match digits with
      | [] => simp [decode, encode]
      | [_] => simp [decode, encode]
      | high :: low :: digits =>
          -- The halves of a byte are below sixteen, so they are digits.
          have hhalves : b.toNat / 16 < 16 ∧ b.toNat % 16 < 16 := by
            have := b.toNat_lt
            omega
          rw [decode_pair_eq_some_iff, digitValue?_eq_some_iff, digitValue?_eq_some_iff, ih]
          simp only [List.map_cons, encode, List.cons.injEq, hhalves, true_and]

theorem lower_digit {n : Nat} (hn : n < 16) : lower (digit n) = digit n := by
  rw [← UInt8.toNat_inj, toNat_lower, toNat_digit hn]
  repeat' split
  all_goals omega

/-- Hexadecimal is written in small letters. -/
theorem spells_encode (bytes : Bytes) : Spells bytes (encode bytes) := by
  unfold Spells
  induction bytes with
  | nil => rfl
  | cons b bytes ih =>
      have := b.toNat_lt
      simp only [encode, List.map_cons, ih, lower_digit (show b.toNat / 16 < 16 by omega),
        lower_digit (show b.toNat % 16 < 16 by omega)]

/-- The hexadecimal of some bytes is read to these bytes. -/
theorem decode_encode (bytes : Bytes) : decode (encode bytes) = some bytes :=
  decode_eq_some_iff.2 (spells_encode bytes)

theorem decode_eq_none_iff {digits : Bytes} :
    decode digits = none ↔ ∀ bytes, ¬ Spells bytes digits := by
  rw [Option.eq_none_iff_forall_ne_some]
  exact forall_congr' fun bytes => not_congr decode_eq_some_iff

/-- Only letter case tells two hexadecimal texts of the same bytes apart. -/
theorem Spells.of_lower_eq {bytes first second : Bytes} (hfirst : Spells bytes first)
    (hlower : first.map lower = second.map lower) : Spells bytes second :=
  hlower.symm.trans hfirst

/-! ### The text that is written -/

/-- The text of bytes in hexadecimal: two small digits a byte, that of its upper half first. -/
def text (bytes : Bytes) : String :=
  String.ofList (bytes.flatMap fun b =>
    [Nat.digitChar (b.toNat / 16), Nat.digitChar (b.toNat % 16)])

theorem utf8EncodeChar_digitChar {n : Nat} (hn : n < 16) :
    String.utf8EncodeChar (Nat.digitChar n) = [digit n] := by
  have hall : ∀ n < 16, String.utf8EncodeChar (Nat.digitChar n) = [digit n] := by decide
  exact hall n hn

/-- Hexadecimal is written as its text. -/
theorem encode_eq_ofText (bytes : Bytes) : encode bytes = Bytes.ofText (text bytes) := by
  rw [Bytes.ofText, text, String.toByteArray_ofList, List.utf8Encode]
  induction bytes with
  | nil => rfl
  | cons b bytes ih =>
      have := b.toNat_lt
      simp [encode, ih, utf8EncodeChar_digitChar (show b.toNat / 16 < 16 by omega),
        utf8EncodeChar_digitChar (show b.toNat % 16 < 16 by omega)]

/-- Whether a byte is a digit or a small letter of hexadecimal. -/
def IsSmallDigit (c : UInt8) : Prop :=
  48 ≤ c.toNat ∧ c.toNat ≤ 57 ∨ 97 ≤ c.toNat ∧ c.toNat ≤ 102

theorem isSmallDigit_digit {n : Nat} (hn : n < 16) : IsSmallDigit (digit n) := by
  rw [IsSmallDigit, toNat_digit hn]
  split <;> omega

/-- All that is written are digits and small letters. -/
theorem isSmallDigit_of_mem_encode {bytes : Bytes} {c : UInt8} (h : c ∈ encode bytes) :
    IsSmallDigit c := by
  induction bytes with
  | nil => cases h
  | cons b bytes ih =>
      have := b.toNat_lt
      rw [encode, List.mem_cons, List.mem_cons] at h
      rcases h with rfl | rfl | h
      · exact isSmallDigit_digit (by omega)
      · exact isSmallDigit_digit (by omega)
      · exact ih h

/-! ### What can be read -/

/-- Whether a byte string has an even number of bytes, each a digit in either letter case. -/
def IsNumeral (digits : Bytes) : Prop :=
  digits.length % 2 = 0 ∧ ∀ c ∈ digits, ∃ n < 16, lower c = digit n

theorem isSome_digitValue?_iff {c : UInt8} :
    (digitValue? c).isSome ↔ ∃ n < 16, lower c = digit n := by
  rw [Option.isSome_iff_exists]
  exact exists_congr fun n => digitValue?_eq_some_iff

theorem isSome_decode_pair_iff {high low : UInt8} {digits : Bytes} :
    (decode (high :: low :: digits)).isSome ↔
      (digitValue? high).isSome ∧ (digitValue? low).isSome ∧ (decode digits).isSome := by
  simp only [decode]
  cases digitValue? high <;> cases digitValue? low <;> cases decode digits <;> simp

/-- A byte string is read to some bytes exactly if it is digits in pairs. -/
theorem isSome_decode_iff (digits : Bytes) : (decode digits).isSome ↔ IsNumeral digits := by
  unfold IsNumeral
  induction digits using decode.induct with
  | case1 => simp [decode]
  | case2 c => simp [decode]
  | case3 high low digits _ _ _ _ _ _ ih | case4 high low digits _ ih =>
      have hlength : (high :: low :: digits).length % 2 = digits.length % 2 := by
        simp only [List.length_cons]
        omega
      rw [isSome_decode_pair_iff, ih, hlength, List.forall_mem_cons, List.forall_mem_cons,
        isSome_digitValue?_iff, isSome_digitValue?_iff]
      constructor
      · rintro ⟨hhigh, hlow, heven, hall⟩
        exact ⟨heven, hhigh, hlow, hall⟩
      · rintro ⟨heven, hhigh, hlow, hall⟩
        exact ⟨hhigh, hlow, heven, hall⟩

instance (digits : Bytes) : Decidable (IsNumeral digits) :=
  decidable_of_decidable_of_iff (isSome_decode_iff digits)

end SignedMessaging.Hex
