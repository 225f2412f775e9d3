import Mathlib.Algebra.Order.Field.Power
import Mathlib.Data.Int.Log
import Mathlib.Data.Rat.Floor
import Mathlib.Tactic.Linarith
import Mathlib.Tactic.NormNum
import Mathlib.Tactic.Positivity
import Mathlib.Tactic.Ring
import SignedMessaging.Number.Rounding

/-!
# Rounding depends on the quotient alone

The rank of the nearest double is worked out from a numerator and a denominator, and
depends on nothing but their quotient: the greatest power of two below it is its binary
logarithm (`binaryOrder_eq_log`), and a common factor changes no step (`rank_congr`).
A double is its own nearest (`rank_ratio`).

Beyond both ends of the range nothing is left to work out: from `2 ^ 1024` on the rank
is that of infinity, and below `2 ^ -1075` it is zero.  The exits that a decimal has for
a large or a small exponent lie there, so a decimal is always rounded as its quotient
(`ofDecimal_eq_ofRatio`), and zeros at the end of its digits may go to its exponent
(`ofDecimal_mul_pow`).
-/

namespace SignedMessaging

namespace Rounding

variable {numerator denominator : Nat}

/-- A power with an integer exponent as a quotient of two with whole ones. -/
theorem zpow_eq_div (base : ℚ) (power : Int) :
    base ^ power = base ^ power.toNat / base ^ (-power).toNat := by
  rcases Int.le_total 0 power with hpower | hpower
  · obtain ⟨k, rfl⟩ := Int.eq_ofNat_of_zero_le hpower
    simp
  · obtain ⟨k, hk⟩ := Int.eq_ofNat_of_zero_le (Int.neg_nonneg_of_nonpos hpower)
    obtain rfl : power = -k := by omega
    simp

/-- Whether a quotient reaches a power, told in whole numbers. -/
theorem scaled_le_iff_of_base {base : Nat} (hbase : 0 < base) (hd : 0 < denominator)
    (power : Int) :
    denominator * base ^ power.toNat ≤ numerator * base ^ (-power).toNat ↔
      (base : ℚ) ^ power ≤ numerator / denominator := by
  have hbase' : (0 : ℚ) < base := by exact_mod_cast hbase
  have hd' : (0 : ℚ) < denominator := by exact_mod_cast hd
  rw [zpow_eq_div, div_le_div_iff₀ (by positivity) hd']
  rw [← Nat.cast_le (α := ℚ)]
  push_cast
  rw [mul_comm (denominator : ℚ)]

theorem scaled_le_iff (hd : 0 < denominator) (power : Int) :
    denominator * 2 ^ power.toNat ≤ numerator * 2 ^ (-power).toNat ↔
      (2 : ℚ) ^ power ≤ numerator / denominator :=
  scaled_le_iff_of_base two_pos hd power

theorem reachesPower_iff (hd : 0 < denominator) (power : Int) :
    reachesPower numerator denominator power = true ↔
      (2 : ℚ) ^ power ≤ numerator / denominator := by
  rw [← scaled_le_iff hd, reachesPower, decide_eq_true_eq]
  rfl

theorem log_eq_of_base {base : Nat} (hbase : 1 < base) {q : ℚ} {power : Int}
    (hle : (base : ℚ) ^ power ≤ q) (hlt : q < (base : ℚ) ^ (power + 1)) :
    Int.log base q = power := by
  have hbase' : (0 : ℚ) < base := by exact_mod_cast Nat.zero_lt_of_lt hbase
  have hq : 0 < q := lt_of_lt_of_le (by positivity) hle
  have hlower := (Int.zpow_le_iff_le_log hbase hq).1 hle
  have hupper := (Int.lt_zpow_iff_log_lt hbase hq).1 hlt
  omega

theorem log_eq_of {q : ℚ} {power : Int} (hle : (2 : ℚ) ^ power ≤ q) (hlt : q < 2 ^ (power + 1)) :
    Int.log 2 q = power :=
  log_eq_of_base one_lt_two hle hlt

/-- A whole number lies between the power of two of its logarithm and the next. -/
theorem log2_bounds {n : Nat} (hn : 0 < n) :
    (2 : ℚ) ^ (n.log2 : Int) ≤ n ∧ (n : ℚ) < 2 ^ ((n.log2 : Int) + 1) := by
  have hlower := Nat.log2_self_le (Nat.pos_iff_ne_zero.1 hn)
  have hupper := Nat.lt_log2_self (n := n)
  constructor
  · rw [zpow_natCast]
    exact_mod_cast hlower
  · rw [show (n.log2 : Int) + 1 = (n.log2 + 1 : Nat) by push_cast; rfl, zpow_natCast]
    exact_mod_cast hupper

/-- The order of a positive quotient is its binary logarithm. -/
theorem binaryOrder_eq_log (hn : 0 < numerator) (hd : 0 < denominator) :
    binaryOrder numerator denominator = Int.log 2 ((numerator : ℚ) / denominator) := by
  obtain ⟨hnlower, hnupper⟩ := log2_bounds hn
  obtain ⟨hdlower, hdupper⟩ := log2_bounds hd
  have hd' : (0 : ℚ) < denominator := by exact_mod_cast hd
  -- The guess is the difference of the two logarithms, which is at most one too great.
  have hupper : (numerator : ℚ) / denominator <
      2 ^ ((numerator.log2 : Int) - denominator.log2 + 1) := by
    rw [div_lt_iff₀ hd']
    calc (numerator : ℚ) < 2 ^ ((numerator.log2 : Int) + 1) := hnupper
      _ = 2 ^ ((numerator.log2 : Int) - denominator.log2 + 1) * 2 ^ (denominator.log2 : Int) := by
          rw [← zpow_add₀ two_ne_zero]
          congr 1
          ring
      _ ≤ 2 ^ ((numerator.log2 : Int) - denominator.log2 + 1) * denominator := by gcongr
  have hlower : (2 : ℚ) ^ ((numerator.log2 : Int) - denominator.log2 - 1) ≤
      numerator / denominator := by
    rw [le_div_iff₀ hd']
    calc (2 : ℚ) ^ ((numerator.log2 : Int) - denominator.log2 - 1) * denominator
        ≤ 2 ^ ((numerator.log2 : Int) - denominator.log2 - 1) *
          2 ^ ((denominator.log2 : Int) + 1) := by gcongr
      _ = 2 ^ (numerator.log2 : Int) := by
          rw [← zpow_add₀ two_ne_zero]
          congr 1
          ring
      _ ≤ numerator := hnlower
  -- One comparison tells whether it is.
  unfold binaryOrder
  simp only
  split
  · next hreached =>
    exact (log_eq_of ((reachesPower_iff hd _).1 hreached) hupper).symm
  · next hmissed =>
    rw [reachesPower_iff hd, not_le] at hmissed
    refine (log_eq_of hlower ?_).symm
    rwa [sub_add_cancel]

/-! ### Common factors -/

theorem nearest_mul_right {factor : Nat} (hfactor : 0 < factor) (numerator denominator : Nat) :
    nearest (numerator * factor) (denominator * factor) = nearest numerator denominator := by
  have htwice : 2 * (numerator % denominator * factor) = 2 * (numerator % denominator) * factor :=
    (Nat.mul_assoc ..).symm
  simp only [nearest, Nat.mul_div_mul_right _ _ hfactor, Nat.mul_mod_mul_right, htwice,
    Nat.mul_lt_mul_right hfactor, Nat.mul_right_cancel_iff hfactor]

theorem rank_mul_right {factor : Nat} (hfactor : 0 < factor) (hn : 0 < numerator)
    (hd : 0 < denominator) :
    rank (numerator * factor) (denominator * factor) = rank numerator denominator := by
  have hquotient : ((numerator * factor : Nat) : ℚ) / (denominator * factor : Nat) =
      numerator / denominator := by
    push_cast
    exact mul_div_mul_right _ _ (by exact_mod_cast hfactor.ne')
  -- The order is a logarithm of the quotient, so the spacing does not see the factor.
  have hspacing : spacing (numerator * factor) (denominator * factor) =
      spacing numerator denominator := by
    rw [spacing, spacing, binaryOrder_eq_log hn hd,
      binaryOrder_eq_log (Nat.mul_pos hn hfactor) (Nat.mul_pos hd hfactor), hquotient]
  simp only [rank, hspacing, Nat.mul_right_comm _ factor, nearest_mul_right hfactor]

/-- Equal quotients have the same rank. -/
theorem rank_congr {numerator' denominator' : Nat} (hn : 0 < numerator) (hd : 0 < denominator)
    (hn' : 0 < numerator') (hd' : 0 < denominator')
    (h : numerator * denominator' = numerator' * denominator) :
    rank numerator denominator = rank numerator' denominator' := by
  rw [← rank_mul_right hd' hn hd, ← rank_mul_right hd hn' hd', h, Nat.mul_comm denominator]

/-! ### Doubles are their own nearest -/

theorem nearest_of_multiple (hd : 0 < denominator) (units : Nat) :
    nearest (units * denominator) denominator = units := by
  rw [nearest, Nat.mul_div_cancel _ hd, Nat.mul_mod_left]
  exact if_pos (.inl (by simpa using hd))

theorem significand_pos {r : Nat} (hr : 0 < r) : 0 < Double.significand r := by
  unfold Double.significand
  split <;> omega

/-- The size of a magnitude as a quotient. -/
theorem ratio_eq (r : Nat) : ((Double.ratio r).1 : ℚ) / (Double.ratio r).2 =
    Double.significand r * 2 ^ Double.exponent r := by
  rw [zpow_eq_div, ← mul_div_assoc, Double.ratio]
  simp only [Nat.pow_eq]
  push_cast
  rfl

theorem ratio_pos {r : Nat} (hr : 0 < r) : 0 < (Double.ratio r).1 ∧ 0 < (Double.ratio r).2 := by
  simp only [Double.ratio, Nat.pow_eq]
  exact ⟨Nat.mul_pos (significand_pos hr) (by positivity), by positivity⟩

/-- A magnitude that is spaced by its own exponent is rounded to its significand. -/
theorem rank_ratio_of_spacing {r : Nat}
    (hspacing : spacing (Double.ratio r).1 (Double.ratio r).2 = Double.exponent r) :
    rank (Double.ratio r).1 (Double.ratio r).2 = min infinityRank
      (Double.significand r + (Double.exponent r + 1074).toNat * 4503599627370496) := by
  have hunits : (Double.ratio r).1 * Nat.pow 2 (-Double.exponent r).toNat =
      Double.significand r * ((Double.ratio r).2 * Nat.pow 2 (Double.exponent r).toNat) := by
    simp only [Double.ratio]
    ring
  have hunit : 0 < (Double.ratio r).2 * Nat.pow 2 (Double.exponent r).toNat := by
    simp only [Double.ratio, Nat.pow_eq]
    positivity
  simp only [rank, hspacing]
  rw [hunits, nearest_of_multiple hunit]

/-- The spacing about a magnitude is its exponent. -/
theorem spacing_ratio {r : Nat} (hr : 0 < r) :
    spacing (Double.ratio r).1 (Double.ratio r).2 = Double.exponent r := by
  obtain ⟨hn, hd⟩ := ratio_pos hr
  have hs : (0 : ℚ) < Double.significand r := by exact_mod_cast significand_pos hr
  rw [spacing, binaryOrder_eq_log hn hd, ratio_eq]
  by_cases hsubnormal : r < 4503599627370496
  · -- Below the normal magnitudes the order is too small to count.
    have hexponent : Double.exponent r = -1074 := if_pos hsubnormal
    have hsignificand : Double.significand r = r := if_pos hsubnormal
    rw [hexponent, hsignificand]
    have hlt : (r : ℚ) * 2 ^ (-1074 : Int) < 2 ^ (-1022 : Int) := by
      have hr' : (r : ℚ) < 2 ^ (52 : Int) := by
        norm_num
        exact_mod_cast hsubnormal
      calc (r : ℚ) * 2 ^ (-1074 : Int) < 2 ^ (52 : Int) * 2 ^ (-1074 : Int) := by gcongr
        _ = 2 ^ (-1022 : Int) := by rw [← zpow_add₀ two_ne_zero]; norm_num
    have hpos : (0 : ℚ) < r * 2 ^ (-1074 : Int) := by positivity
    have hlog := (Int.lt_zpow_iff_log_lt (b := 2) (by norm_num) hpos).1 (by exact_mod_cast hlt)
    omega
  · -- A normal significand has 53 bits.
    have hexponent : Double.exponent r = (r / 4503599627370496 : Nat) - 1075 := if_neg hsubnormal
    have hsignificand : Double.significand r = 4503599627370496 + r % 4503599627370496 :=
      if_neg hsubnormal
    have hbounds : (2 : ℚ) ^ (52 : Int) ≤ Double.significand r ∧
        (Double.significand r : ℚ) < 2 ^ (53 : Int) := by
      have hlt := Nat.mod_lt r (show 4503599627370496 > 0 by norm_num)
      rw [hsignificand]
      constructor
      · norm_num
      · norm_num
        exact_mod_cast (by omega :
          4503599627370496 + r % 4503599627370496 < 9007199254740992)
    have hlog : Int.log 2 ((Double.significand r : ℚ) * 2 ^ Double.exponent r) =
        52 + Double.exponent r := by
      apply log_eq_of
      · rw [zpow_add₀ two_ne_zero]
        gcongr
        exact hbounds.1
      · rw [show 52 + Double.exponent r + 1 = 53 + Double.exponent r by ring,
          zpow_add₀ two_ne_zero]
        gcongr
        exact hbounds.2
    rw [hlog]
    omega

/-- A finite magnitude is the nearest to itself. -/
theorem rank_ratio {r : Nat} (hr : 0 < r) (hfinite : r < infinityRank) :
    rank (Double.ratio r).1 (Double.ratio r).2 = r := by
  rw [rank_ratio_of_spacing (spacing_ratio hr)]
  unfold infinityRank at hfinite ⊢
  unfold Double.significand Double.exponent
  split <;> omega

/-! ### Beyond the range -/

/-- From `2 ^ 1024` on everything is rounded to infinity. -/
theorem rank_of_large (hn : 0 < numerator) (hd : 0 < denominator)
    (h : (2 : ℚ) ^ (1024 : Int) ≤ numerator / denominator) :
    rank numerator denominator = infinityRank := by
  have hquotient : (0 : ℚ) < numerator / denominator := by positivity
  have horder : 1024 ≤ binaryOrder numerator denominator := by
    rw [binaryOrder_eq_log hn hd]
    exact (Int.zpow_le_iff_le_log (b := 2) (by norm_num) hquotient).1 (by exact_mod_cast h)
  have hreached : (2 : ℚ) ^ binaryOrder numerator denominator ≤ numerator / denominator := by
    rw [binaryOrder_eq_log hn hd]
    exact_mod_cast Int.zpow_log_le_self (b := 2) (by norm_num) hquotient
  -- The spacing is a whole power of two, and at least `2 ^ 52` units of it are reached.
  obtain ⟨power, hpower⟩ := Int.eq_ofNat_of_zero_le
    (show 0 ≤ binaryOrder numerator denominator - 52 by omega)
  have hspacing : spacing numerator denominator = power := by
    rw [spacing, hpower]
    omega
  have hscaled : denominator * 2 ^ (power + 52) ≤ numerator := by
    have hscaled := (scaled_le_iff hd ((power + 52 : Nat) : Int)).2
      (by rwa [show binaryOrder numerator denominator = (power + 52 : Nat) by omega] at hreached)
    rwa [Int.toNat_natCast, Int.toNat_neg_natCast, pow_zero, Nat.mul_one] at hscaled
  have hunits : 2 ^ 52 ≤ numerator / (denominator * 2 ^ power) := by
    rw [Nat.le_div_iff_mul_le (by positivity)]
    calc 2 ^ 52 * (denominator * 2 ^ power) = denominator * 2 ^ (power + 52) := by
          rw [pow_add]
          ring
      _ ≤ numerator := hscaled
  have hnearest : numerator / (denominator * 2 ^ power) ≤
      nearest numerator (denominator * 2 ^ power) := by
    simp only [nearest]
    split <;> omega
  simp only [rank, hspacing, Nat.pow_eq, Int.toNat_natCast, Int.toNat_neg_natCast, pow_zero,
    Nat.mul_one]
  have hreach : 2 ^ 52 ≤ nearest numerator (denominator * 2 ^ power) := hunits.trans hnearest
  have hpower' : 972 ≤ power := by omega
  refine Nat.min_eq_left ?_
  rw [show ((power : Int) + 1074).toNat = power + 1074 by omega]
  calc infinityRank = 2 ^ 52 + 2046 * 4503599627370496 := by norm_num [infinityRank]
    _ ≤ nearest numerator (denominator * 2 ^ power) + (power + 1074) * 4503599627370496 := by
        gcongr
        omega

/-- Below `2 ^ -1075` everything is rounded to zero. -/
theorem rank_of_small (hn : 0 < numerator) (hd : 0 < denominator)
    (h : (numerator : ℚ) / denominator < 2 ^ (-1075 : Int)) :
    rank numerator denominator = 0 := by
  have hquotient : (0 : ℚ) < numerator / denominator := by positivity
  have horder : binaryOrder numerator denominator < -1075 := by
    rw [binaryOrder_eq_log hn hd]
    exact (Int.lt_zpow_iff_log_lt (b := 2) (by norm_num) hquotient).1 (by exact_mod_cast h)
  have hspacing : spacing numerator denominator = -1074 := by
    rw [spacing]
    omega
  -- The exponent stays a variable, for a power of this size is not to be worked out.
  obtain ⟨k, hk⟩ : ∃ k : Nat, k = 1074 := ⟨_, rfl⟩
  have htwice : 2 * (numerator * 2 ^ k) < denominator := by
    rw [← not_le, ← scaled_le_iff hd, not_le, show (-1075 : Int).toNat = 0 from rfl,
      show (-(-1075) : Int).toNat = k + 1 by omega, pow_zero, Nat.mul_one] at h
    calc 2 * (numerator * 2 ^ k) = numerator * 2 ^ (k + 1) := by ring
      _ < denominator := h
  have hnone : nearest (numerator * 2 ^ k) denominator = 0 := by
    rw [nearest, Nat.div_eq_of_lt (by omega), Nat.mod_eq_of_lt (by omega)]
    exact if_pos (.inl htwice)
  simp only [rank, hspacing, Nat.pow_eq]
  rw [show (-(-1074) : Int).toNat = k by omega, show (-1074 : Int).toNat = 0 from rfl,
    show (-1074 + 1074 : Int).toNat = 0 from rfl, pow_zero, Nat.mul_one, hnone]
  rfl

end Rounding

namespace Double

open Rounding

/-- Equal quotients have the same double. -/
theorem ofRatio_congr {n d n' d' : Nat} (negative : Bool) (hd : 0 < d) (hd' : 0 < d')
    (h : n * d' = n' * d) : ofRatio negative n d = ofRatio negative n' d' := by
  rcases Nat.eq_zero_or_pos n with rfl | hn
  · rw [Nat.zero_mul, zero_eq_mul, or_iff_left hd.ne'] at h
    rw [h, ofRatio, ofRatio, if_pos rfl, if_pos rfl]
  · have hn' : 0 < n' := by
      rcases Nat.eq_zero_or_pos n' with rfl | hn'
      · rw [Nat.zero_mul] at h
        exact absurd h (Nat.mul_pos hn hd').ne'
      · exact hn'
    simp only [ofRatio, if_neg hn.ne', if_neg hn'.ne', rank_congr hn hd hn' hd' h]

/-- The quotient of a decimal. -/
theorem decimal_quotient (digits : Nat) (exponent : Int) :
    ((digits * 10 ^ exponent.toNat : Nat) : ℚ) / (10 ^ (-exponent).toNat : Nat) =
      digits * 10 ^ exponent := by
  rw [zpow_eq_div, ← mul_div_assoc]
  push_cast
  rfl

/-- A decimal with a great exponent lies above every finite double. -/
theorem decimal_large {digits : Nat} (hdigits : 0 < digits) {exponent : Int}
    (h : 309 ≤ exponent) : (2 : ℚ) ^ (1024 : Int) ≤ digits * 10 ^ exponent := by
  have hone : (1 : ℚ) ≤ digits := by exact_mod_cast hdigits
  have hpowers : (2 : ℚ) ^ (1024 : Int) ≤ 10 ^ (309 : Int) := by
    -- Powers of this size are not worked out; their eleventh roots are.
    calc (2 : ℚ) ^ (1024 : Int) = ((2 : ℚ) ^ (93 : Int)) ^ (11 : Int) * 2 := by
          rw [← zpow_mul, ← zpow_add_one₀ two_ne_zero]
          rfl
      _ ≤ ((10 : ℚ) ^ (28 : Int)) ^ (11 : Int) * 10 := by
          gcongr <;> norm_num
      _ = 10 ^ (309 : Int) := by
          rw [← zpow_mul, ← zpow_add_one₀ (by norm_num)]
          rfl
  calc (2 : ℚ) ^ (1024 : Int) ≤ 10 ^ (309 : Int) := hpowers
    _ ≤ 10 ^ exponent := zpow_le_zpow_right₀ (by norm_num) h
    _ = 1 * 10 ^ exponent := (one_mul _).symm
    _ ≤ digits * 10 ^ exponent := by gcongr

/-- A decimal of few digits with a small exponent lies below half the least double. -/
theorem decimal_small {digits : Nat} (hdigits : 0 < digits) {exponent : Int}
    (h : (digits.log2 : Int) + 1 + 3 * exponent ≤ -1075) :
    (digits : ℚ) * 10 ^ exponent < 2 ^ (-1075 : Int) := by
  -- The exponent is negative, so that eight in the place of ten makes the power greater.
  have hten : (10 : ℚ) ^ exponent ≤ 2 ^ (3 * exponent) := by
    obtain ⟨k, hk⟩ := Int.eq_ofNat_of_zero_le (show 0 ≤ -exponent by omega)
    obtain rfl : exponent = -k := by omega
    rw [zpow_mul, show (2 : ℚ) ^ (3 : Int) = 8 by norm_num, zpow_neg, zpow_neg, zpow_natCast,
      zpow_natCast]
    gcongr
    norm_num
  calc (digits : ℚ) * 10 ^ exponent
      < 2 ^ ((digits.log2 : Int) + 1) * 2 ^ (3 * exponent) :=
        mul_lt_mul (log2_bounds hdigits).2 hten (by positivity) (by positivity)
    _ = 2 ^ ((digits.log2 : Int) + 1 + 3 * exponent) := (zpow_add₀ two_ne_zero _ _).symm
    _ ≤ 2 ^ (-1075 : Int) := zpow_le_zpow_right₀ (by norm_num) h

/-- A decimal is rounded as the quotient that it is, whatever its exponent. -/
theorem ofDecimal_eq_ofRatio (negative : Bool) (digits : Nat) (exponent : Int) :
    ofDecimal negative digits exponent =
      ofRatio negative (digits * 10 ^ exponent.toNat) (10 ^ (-exponent).toNat) := by
  rcases Nat.eq_zero_or_pos digits with rfl | hdigits
  · simp [ofDecimal, ofRatio]
  · have hn : 0 < digits * 10 ^ exponent.toNat := by positivity
    have hd : 0 < 10 ^ (-exponent).toNat := by positivity
    simp only [ofDecimal, ofRatio, if_neg hdigits.ne', if_neg hn.ne', Nat.pow_eq]
    split
    · next hlarge =>
      simp only [infinity, rank_of_large hn hd (by
        rw [decimal_quotient]
        exact decimal_large hdigits hlarge)]
    · split
      · next hsmall =>
        simp only [zero, rank_of_small hn hd (by
          rw [decimal_quotient]
          exact decimal_small hdigits hsmall)]
      · rfl

/-- Zeros at the end of the digits may go to the exponent. -/
theorem ofDecimal_mul_pow (negative : Bool) (digits zeros : Nat) (exponent : Int) :
    ofDecimal negative (digits * 10 ^ zeros) exponent =
      ofDecimal negative digits (exponent + zeros) := by
  rw [ofDecimal_eq_ofRatio, ofDecimal_eq_ofRatio]
  refine ofRatio_congr negative (by positivity) (by positivity) ?_
  have hexponents : zeros + exponent.toNat + (-(exponent + zeros)).toNat =
      (exponent + zeros).toNat + (-exponent).toNat := by omega
  calc digits * 10 ^ zeros * 10 ^ exponent.toNat * 10 ^ (-(exponent + zeros)).toNat
      = digits * 10 ^ (zeros + exponent.toNat + (-(exponent + zeros)).toNat) := by
        rw [pow_add, pow_add]
        ring
    _ = digits * 10 ^ (exponent + zeros).toNat * 10 ^ (-exponent).toNat := by
        rw [hexponents, pow_add]
        ring

@[simp]
theorem ofDecimal_negative (negative : Bool) (digits : Nat) (exponent : Int) :
    (ofDecimal negative digits exponent).negative = negative := by
  simp only [ofDecimal, ofRatio, zero, infinity]
  repeat' split
  all_goals rfl

theorem ofDecimal_rank (negative : Bool) (digits : Nat) (exponent : Int) :
    (ofDecimal negative digits exponent).rank = (ofDecimal false digits exponent).rank := by
  simp only [ofDecimal, ofRatio, zero, infinity]
  repeat' split
  all_goals rfl

end Double

end SignedMessaging
