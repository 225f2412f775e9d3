import Mathlib.Order.Fin.Basic
import SignedMessaging.Message.Identifier
import SignedMessaging.Proofs.Hex

/-!
# The bits of identifiers

Of the 128 bits of a draw an identifier keeps 122: at the other six places stand the
version, which is four, and the variant (`bit_stamped`).  The text of an identifier is the
canonical one, the hexadecimal of these bits in groups of 8, 4, 4, 4 and 12
(`canonical_identifier`), and nothing gets lost on the way to it.  So two draws have one
identifier exactly where they agree on the 122 bits (`identifier_eq_iff`).
-/

namespace SignedMessaging

namespace Draw

/-! ### Bits -/

/-- The bit at a place; in each byte the highest comes first. -/
def bit (draw : Draw) (place : Fin 128) : Bool :=
  (draw[place.val / 8]).toNat.testBit (7 - place.val % 8)

/-- The places of the version: the upper half of byte 6. -/
def versionPlaces : List (Fin 128) := [48, 49, 50, 51]

/-- The places of the variant: the two highest bits of byte 8. -/
def variantPlaces : List (Fin 128) := [64, 65]

/-- Whether a bit of the identifier is the one that was drawn. -/
def Free (place : Fin 128) : Prop :=
  place ∉ versionPlaces ∧ place ∉ variantPlaces

instance (place : Fin 128) : Decidable (Free place) :=
  inferInstanceAs (Decidable (_ ∧ _))

/-- Whether two draws have the same bits at all places that are free. -/
def Agree (first second : Draw) : Prop :=
  ∀ place, Free place → first.bit place = second.bit place

/-- There are 122 free places. -/
theorem length_filter_free : ((List.finRange 128).filter fun place => Free place).length = 122 := by
  decide +kernel

theorem byte_ext {b c : UInt8} (h : ∀ k < 8, b.toNat.testBit (7 - k) = c.toNat.testBit (7 - k)) :
    b = c := by
  refine UInt8.toNat_inj.1 (Nat.eq_of_testBit_eq fun i => ?_)
  by_cases hi : i < 8
  · have hbit := h (7 - i) (by omega)
    rwa [show 7 - (7 - i) = i by omega] at hbit
  · -- A byte has no bits beyond the eighth.
    have hle : 2 ^ 8 ≤ 2 ^ i := Nat.pow_le_pow_right (by decide) (by omega)
    rw [Nat.testBit_lt_two_pow (Nat.lt_of_lt_of_le b.toNat_lt hle),
      Nat.testBit_lt_two_pow (Nat.lt_of_lt_of_le c.toNat_lt hle)]

/-- A draw is known from its bits. -/
theorem eq_iff_bit {first second : Draw} :
    first = second ↔ ∀ place, first.bit place = second.bit place := by
  refine ⟨fun h place => by rw [h], fun h => Vector.ext fun i hi => byte_ext fun k hk => ?_⟩
  have hplace := h ⟨8 * i + k, by omega⟩
  have hbyte : (8 * i + k) / 8 = i := by omega
  have hbit : (8 * i + k) % 8 = k := by omega
  simpa only [bit, hbyte, hbit] using hplace

/-! ### The version and the variant -/

theorem getElem_stamped (draw : Draw) {i : Nat} (hi : i < 16) :
    draw.stamped[i] =
      if i = 8 then (draw[8] &&& 0x3f) ||| 0x80
      else if i = 6 then (draw[6] &&& 0x0f) ||| 0x40
      else draw[i] := by
  simp only [stamped, Vector.getElem_set, eq_comm]

theorem testBit_version (b : UInt8) {k : Nat} (hk : k < 8) :
    ((b &&& 0x0f) ||| 0x40).toNat.testBit (7 - k) =
      if k < 4 then decide (k = 1) else b.toNat.testBit (7 - k) := by
  have hkept : ∀ k < 8, (0x0f : UInt8).toNat.testBit (7 - k) = decide (4 ≤ k) := by decide
  have hset : ∀ k < 8, (0x40 : UInt8).toNat.testBit (7 - k) = decide (k = 1) := by decide
  rw [UInt8.toNat_or, UInt8.toNat_and, Nat.testBit_or, Nat.testBit_and, hkept k hk, hset k hk]
  split
  · simp [show ¬ 4 ≤ k by omega]
  · simp [show 4 ≤ k by omega, show k ≠ 1 by omega]

theorem testBit_variant (b : UInt8) {k : Nat} (hk : k < 8) :
    ((b &&& 0x3f) ||| 0x80).toNat.testBit (7 - k) =
      if k < 2 then decide (k = 0) else b.toNat.testBit (7 - k) := by
  have hkept : ∀ k < 8, (0x3f : UInt8).toNat.testBit (7 - k) = decide (2 ≤ k) := by decide
  have hset : ∀ k < 8, (0x80 : UInt8).toNat.testBit (7 - k) = decide (k = 0) := by decide
  rw [UInt8.toNat_or, UInt8.toNat_and, Nat.testBit_or, Nat.testBit_and, hkept k hk, hset k hk]
  split
  · simp [show ¬ 2 ≤ k by omega]
  · simp [show 2 ≤ k by omega, show k ≠ 0 by omega]

theorem mem_versionPlaces_iff (place : Fin 128) :
    place ∈ versionPlaces ↔ place.val / 8 = 6 ∧ place.val % 8 < 4 := by
  revert place
  decide

theorem mem_variantPlaces_iff (place : Fin 128) :
    place ∈ variantPlaces ↔ place.val / 8 = 8 ∧ place.val % 8 < 2 := by
  revert place
  decide

/-- The version is written 0100 and the variant 10; all other bits are those drawn. -/
theorem bit_stamped (draw : Draw) (place : Fin 128) :
    draw.stamped.bit place =
      if place ∈ versionPlaces then decide (place.val = 49)
      else if place ∈ variantPlaces then decide (place.val = 64)
      else draw.bit place := by
  have hk : place.val % 8 < 8 := Nat.mod_lt _ (by decide)
  rw [bit, bit, getElem_stamped draw (by omega)]
  simp only [mem_versionPlaces_iff, mem_variantPlaces_iff]
  -- The byte of the variant, the byte of the version, and the other bytes, which are as drawn.
  by_cases h8 : place.val / 8 = 8
  · simp only [h8, if_true, testBit_variant _ hk, true_and, show ¬ (8 = 6) by decide, false_and,
      if_false]
    exact ite_congr rfl (fun _ => decide_eq_decide.2 (by omega)) fun _ => rfl
  · by_cases h6 : place.val / 8 = 6
    · simp only [h6, if_true, testBit_version _ hk, true_and, show ¬ (6 = 8) by decide, false_and,
        if_false]
      exact ite_congr rfl (fun _ => decide_eq_decide.2 (by omega)) fun _ => rfl
    · simp only [h8, h6, false_and, if_false]

/-- What is stamped is the same exactly where the free bits are. -/
theorem stamped_eq_iff {first second : Draw} :
    first.stamped = second.stamped ↔ Agree first second := by
  rw [eq_iff_bit]
  refine forall_congr' fun place => ?_
  rw [bit_stamped, bit_stamped]
  by_cases hversion : place ∈ versionPlaces
  · simp [hversion, Free]
  · by_cases hvariant : place ∈ variantPlaces
    · simp [hvariant, Free]
    · simp [hversion, hvariant, Free]

/-! ### The text -/

/-- A digit of a number below sixteen, in lower case. -/
def IsDigit (c : Char) : Prop :=
  ∃ n < 16, c = Nat.digitChar n

/-- The canonical text of a version 4 identifier with the usual variant: digits in groups
of 8, 4, 4, 4 and 12, of which the third starts with the version and the fourth with the
variant.  With the dashes away they are the hexadecimal of the identifier's bytes. -/
structure Canonical (bytes : Draw) (text : String) : Prop where
  groups : ∃ first second third fourth fifth : List Char, ∃ variant ∈ ['8', '9', 'a', 'b'],
    text.toList = first ++ '-' :: second ++ '-' :: '4' :: third ++ '-' :: variant :: fourth ++
      '-' :: fifth ∧
    first.length = 8 ∧ second.length = 4 ∧ third.length = 3 ∧ fourth.length = 3 ∧
    fifth.length = 12 ∧ ∀ c ∈ first ++ second ++ third ++ fourth ++ fifth, IsDigit c
  digits : text.toList.filter (· ≠ '-') = (Hex.encode bytes.toList).map Char.ofUInt8

theorem ofUInt8_digit {n : Nat} (hn : n < 16) : Char.ofUInt8 (Hex.digit n) = Nat.digitChar n := by
  have hall : ∀ n < 16, Char.ofUInt8 (Hex.digit n) = Nat.digitChar n := by decide
  exact hall n hn

theorem IsDigit.ne_dash {c : Char} (h : IsDigit c) : c ≠ '-' := by
  have hall : ∀ n < 16, Nat.digitChar n ≠ '-' := by decide
  obtain ⟨n, hn, rfl⟩ := h
  exact hall n hn

/-- The digits of bytes, as they stand in an identifier. -/
def digitsOf (bytes : Bytes) : List Char :=
  (Hex.encode bytes).map Char.ofUInt8

theorem digitsOf_cons (b : UInt8) (bytes : Bytes) : digitsOf (b :: bytes) =
    Nat.digitChar (b.toNat / 16) :: Nat.digitChar (b.toNat % 16) :: digitsOf bytes := by
  have := b.toNat_lt
  rw [digitsOf, Hex.encode, List.map_cons, List.map_cons, ofUInt8_digit (by omega),
    ofUInt8_digit (by omega)]
  rfl

theorem isDigit_of_mem {bytes : Bytes} {c : Char} (h : c ∈ digitsOf bytes) : IsDigit c := by
  induction bytes with
  | nil => cases h
  | cons b bytes ih =>
      have := b.toNat_lt
      rw [digitsOf_cons, List.mem_cons, List.mem_cons] at h
      rcases h with rfl | rfl | h
      · exact ⟨_, by omega, rfl⟩
      · exact ⟨_, by omega, rfl⟩
      · exact ih h

theorem length_digitsOf (bytes : Bytes) : (digitsOf bytes).length = 2 * bytes.length := by
  rw [digitsOf, List.length_map, Hex.encode_length]

/-- The first digit of a byte stands for its upper half. -/
theorem getElem?_digitsOf (bytes : Bytes) (i : Nat) :
    (digitsOf bytes)[2 * i]? = bytes[i]?.map fun b => Nat.digitChar (b.toNat / 16) := by
  induction bytes generalizing i with
  | nil => rfl
  | cons b bytes ih =>
      rw [digitsOf_cons]
      cases i with
      | zero => rfl
      | succ i => exact ih i

theorem digitsOf_injective {first second : Bytes} (h : digitsOf first = digitsOf second) :
    first = second := by
  have hdigit : ∀ m < 16, ∀ n < 16, Nat.digitChar m = Nat.digitChar n → m = n := by decide
  induction first generalizing second with
  | nil =>
      cases second with
      | nil => rfl
      | cons c second => cases h
  | cons b first ih =>
      cases second with
      | nil => cases h
      | cons c second =>
          rw [digitsOf_cons, digitsOf_cons] at h
          obtain ⟨hupper, h⟩ := List.cons.inj h
          obtain ⟨hlower, h⟩ := List.cons.inj h
          have hb := b.toNat_lt
          have hc := c.toNat_lt
          have hupper := hdigit _ (by omega) _ (by omega) hupper
          have hlower := hdigit _ (by omega) _ (by omega) hlower
          rw [ih h, UInt8.toNat_inj.1 (show b.toNat = c.toNat by omega)]

/-- Dashes group digits, and do nothing else to them. -/
theorem filter_grouped {digits : List Char} (h : ∀ c ∈ digits, c ≠ '-') :
    (grouped digits).filter (· ≠ '-') = digits := by
  have hkept : ∀ part : List Char, part ⊆ digits → part.filter (· ≠ '-') = part :=
    fun part hpart => List.filter_eq_self.2 fun c hc => by simpa using h c (hpart hc)
  have hjoin : ∀ n k, (digits.drop n).take k ++ digits.drop (n + k) = digits.drop n :=
    fun n k => by rw [← List.drop_drop, List.take_append_drop]
  have hdash : ∀ rest : List Char, ('-' :: rest).filter (· ≠ '-') = rest.filter (· ≠ '-') :=
    fun rest => rfl
  have hinner : ∀ n k, (digits.drop n).take k ⊆ digits :=
    fun n k _ hmem => List.drop_subset _ _ (List.take_subset _ _ hmem)
  rw [grouped]
  simp only [List.append_assoc, List.cons_append, List.filter_append, hdash,
    hkept _ (List.take_subset 8 digits), hkept _ (hinner 8 4), hkept _ (hinner 12 4),
    hkept _ (hinner 16 4), hkept _ (List.drop_subset 20 digits)]
  rw [hjoin 16 4, hjoin 12 4, hjoin 8 4, List.take_append_drop]

/-- The upper half of the byte of the version is four. -/
theorem version_upper (b : UInt8) : ((b &&& 0x0f) ||| 0x40).toNat / 16 = 4 := by
  have hkept : b.toNat &&& 15 = b.toNat % 2 ^ 4 := Nat.and_two_pow_sub_one_eq_mod _ 4
  have hset : 64 ||| b.toNat % 2 ^ 4 = 64 + b.toNat % 2 ^ 4 :=
    (Nat.two_pow_add_eq_or_of_lt (i := 6) (by omega) 1).symm
  change (b.toNat &&& 15 ||| 64) / 16 = 4
  rw [hkept, Nat.or_comm, hset]
  omega

/-- The upper half of the byte of the variant is from eight to eleven. -/
theorem variant_upper (b : UInt8) :
    8 ≤ ((b &&& 0x3f) ||| 0x80).toNat / 16 ∧ ((b &&& 0x3f) ||| 0x80).toNat / 16 < 12 := by
  have hkept : b.toNat &&& 63 = b.toNat % 2 ^ 6 := Nat.and_two_pow_sub_one_eq_mod _ 6
  have hset : 128 ||| b.toNat % 2 ^ 6 = 128 + b.toNat % 2 ^ 6 :=
    (Nat.two_pow_add_eq_or_of_lt (i := 7) (by omega) 1).symm
  change 8 ≤ (b.toNat &&& 63 ||| 128) / 16 ∧ (b.toNat &&& 63 ||| 128) / 16 < 12
  rw [hkept, Nat.or_comm, hset]
  omega

theorem toList_identifier (draw : Draw) :
    draw.identifier.toList = grouped (digitsOf draw.stamped.toList) :=
  String.toList_ofList

/-- The first digits of the third and the fourth group are the version and the variant. -/
theorem digits_stamped (draw : Draw) : (digitsOf draw.stamped.toList)[12]? = some '4' ∧
    ∃ variant ∈ ['8', '9', 'a', 'b'], (digitsOf draw.stamped.toList)[16]? = some variant := by
  have hbyte : ∀ {i : Nat} (hi : i < 16), draw.stamped.toList[i]? = some draw.stamped[i] :=
    fun hi => List.getElem?_eq_getElem (by simpa using hi)
  have hvariant : ∀ n < 12, 8 ≤ n → Nat.digitChar n ∈ ['8', '9', 'a', 'b'] := by decide
  constructor
  · rw [getElem?_digitsOf _ 6, hbyte (by decide), getElem_stamped draw (by decide), Option.map_some,
      if_neg (by decide), if_pos rfl, version_upper]
    rfl
  · obtain ⟨hge, hlt⟩ := variant_upper draw[8]
    refine ⟨_, hvariant _ hlt hge, ?_⟩
    rw [getElem?_digitsOf _ 8, hbyte (by decide), getElem_stamped draw (by decide)]
    rfl

/-- The identifier of a draw is written canonically. -/
theorem canonical_identifier (draw : Draw) : Canonical draw.stamped draw.identifier := by
  obtain ⟨hversion, variant, hmem, hvariant⟩ := digits_stamped draw
  have hlength : (digitsOf draw.stamped.toList).length = 32 := by
    rw [length_digitsOf, Vector.length_toList]
  have hdigits : ∀ c ∈ digitsOf draw.stamped.toList, IsDigit c := fun c hc => isDigit_of_mem hc
  constructor
  case digits =>
    rw [toList_identifier, filter_grouped fun c hc => (hdigits c hc).ne_dash]
    rfl
  case groups =>
    rw [toList_identifier]
    generalize digitsOf draw.stamped.toList = digits at *
    have hhead : ∀ {i k : Nat} {c : Char}, digits[i]? = some c →
        (digits.drop i).take (k + 1) = c :: (digits.drop (i + 1)).take k := fun hc => by
      obtain ⟨hi, rfl⟩ := List.getElem?_eq_some_iff.1 hc
      rw [List.drop_eq_getElem_cons hi, List.take_succ_cons]
    refine ⟨digits.take 8, (digits.drop 8).take 4, (digits.drop 13).take 3,
      (digits.drop 17).take 3, digits.drop 20, variant, hmem, ?_, ?_⟩
    · rw [grouped, hhead hversion, hhead hvariant]
    · simp only [List.length_take, List.length_drop, hlength]
      refine ⟨by decide, by decide, by decide, by decide, by decide, fun c hc => hdigits c ?_⟩
      simp only [List.mem_append] at hc
      rcases hc with (((hc | hc) | hc) | hc) | hc
      · exact List.mem_of_mem_take hc
      · exact List.mem_of_mem_drop (List.mem_of_mem_take hc)
      · exact List.mem_of_mem_drop (List.mem_of_mem_take hc)
      · exact List.mem_of_mem_drop (List.mem_of_mem_take hc)
      · exact List.mem_of_mem_drop hc

/-- Two draws have the same identifier exactly where they agree on the free bits. -/
theorem identifier_eq_iff {first second : Draw} :
    first.identifier = second.identifier ↔ Agree first second := by
  rw [← stamped_eq_iff]
  refine ⟨fun h => ?_, fun h => by rw [identifier, h]; rfl⟩
  have hdigits := congrArg (fun text : String => text.toList.filter (· ≠ '-')) h
  simp only [toList_identifier] at hdigits
  rw [filter_grouped fun c hc => (isDigit_of_mem hc).ne_dash,
    filter_grouped fun c hc => (isDigit_of_mem hc).ne_dash] at hdigits
  exact Vector.toList_inj.1 (digitsOf_injective hdigits)

end Draw

end SignedMessaging
