import Mathlib.Algebra.Order.Floor.Semifield
import SignedMessaging.Proofs.Number.Magnitudes

/-!
# Correct rounding

A number rounds to the magnitude that no other is nearer to, and of two equally near ones
to the one whose last bit is zero.  Infinity takes part with the size of the next finite
magnitude that there would be, so that what lies half a unit or more above the greatest
finite one goes to it.

The rule does not mention how a rank is worked out.  It leaves one magnitude for a number
(`unique`), a greater one for a greater number (`mono`), and therefore an interval of
numbers for a magnitude (`between`).  The rank of a quotient obeys it (`roundsTo_rank`): the
quotient is rounded to whole units of its spacing, and every magnitude is either such a
whole number of units or smaller than all that the quotient could round to.  Hence a
decimal is rounded to a magnitude exactly if it rounds to it (`rank_ofDecimal_iff`).
-/

namespace SignedMessaging

open Double (size size_strictMono)

/-- Rounding to the nearest magnitude, ties to even. -/
structure RoundsTo (q : ℚ) (rank : Nat) : Prop where
  le : rank ≤ infinityRank
  nearest : ∀ other ≤ infinityRank, |q - size rank| ≤ |q - size other|
  even : ∀ other ≤ infinityRank, other ≠ rank → |q - size rank| = |q - size other| → Even rank

/-- The greater of two numbers is the nearer one from their middle on. -/
theorem abs_sub_le_abs_sub_iff {a b q : ℚ} (h : a < b) : |q - b| ≤ |q - a| ↔ a + b ≤ 2 * q := by
  rw [← sq_le_sq]
  constructor <;> intro hle <;> nlinarith

/-- The lesser of two numbers is the nearer one up to their middle. -/
theorem abs_sub_le_abs_sub_iff' {a b q : ℚ} (h : a < b) :
    |q - a| ≤ |q - b| ↔ 2 * q ≤ a + b := by
  rw [← sq_le_sq]
  constructor <;> intro hle <;> nlinarith

namespace RoundsTo

variable {q q' : ℚ} {rank rank' : Nat}

/-- A magnitude that another one is less than is reached from their middle on. -/
theorem middle_le (h : RoundsTo q rank) {other : Nat} (hlt : other < rank) :
    size other + size rank ≤ 2 * q :=
  (abs_sub_le_abs_sub_iff (size_strictMono hlt)).1 (h.nearest other (hlt.le.trans h.le))

/-- A magnitude that another one is greater than is left at their middle. -/
theorem le_middle (h : RoundsTo q rank) {other : Nat} (hlt : rank < other)
    (hother : other ≤ infinityRank) : 2 * q ≤ size rank + size other :=
  (abs_sub_le_abs_sub_iff' (size_strictMono hlt)).1 (h.nearest other hother)

/-- A greater number rounds to a greater magnitude. -/
theorem mono (h : RoundsTo q rank) (h' : RoundsTo q' rank') (hq : q ≤ q') : rank ≤ rank' := by
  by_contra hlt
  rw [not_le] at hlt
  -- Both numbers would have to be the middle of the two magnitudes, which then are both even.
  have hlower := h.middle_le hlt
  have hupper := h'.le_middle hlt h.le
  obtain rfl : q = q' := by linarith
  have hmiddle : 2 * q = size rank' + size rank := le_antisymm hupper hlower
  have htie : |q - size rank| = |q - size rank'| :=
    le_antisymm (h.nearest rank' h'.le) (h'.nearest rank h.le)
  have heven : Even rank := h.even rank' h'.le hlt.ne htie
  have heven' : Even rank' := h'.even rank h.le hlt.ne' htie.symm
  -- So there is a third magnitude between them, nearer than both.
  have hbetween : rank' + 1 < rank := by
    obtain ⟨half, rfl⟩ := heven
    obtain ⟨half', rfl⟩ := heven'
    omega
  have hthird := h.middle_le hbetween
  have hgap := size_strictMono (Nat.lt_succ_self rank')
  rw [Nat.succ_eq_add_one] at hgap
  linarith

theorem unique (h : RoundsTo q rank) (h' : RoundsTo q rank') : rank = rank' :=
  le_antisymm (h.mono h' le_rfl) (h'.mono h le_rfl)

/-- What lies between two numbers that round to a magnitude rounds to it. -/
theorem between {lower upper : ℚ} (hlower : RoundsTo lower rank) (hupper : RoundsTo upper rank)
    (hle : lower ≤ q) (hle' : q ≤ upper) (h : RoundsTo q rank') : rank' = rank :=
  le_antisymm (h.mono hupper hle') (hlower.mono h hle)

/-- What is nearer to a magnitude than half of the way to any other rounds to it. -/
theorem of_near (hrank : rank ≤ infinityRank)
    (hnear : ∀ other ≠ rank, 2 * |q - size rank| < |size rank - size other|) :
    RoundsTo q rank := by
  have hcloser : ∀ other ≠ rank, |q - size rank| < |q - size other| := by
    intro other hother
    have htriangle := abs_sub_le (size rank) q (size other)
    rw [abs_sub_comm (size rank) q] at htriangle
    linarith [hnear other hother]
  refine ⟨hrank, fun other _ => ?_, fun other _ hne htie => absurd htie (hcloser other hne).ne⟩
  rcases eq_or_ne other rank with rfl | hne
  · exact le_rfl
  · exact (hcloser other hne).le

end RoundsTo

/-- A magnitude rounds to itself. -/
theorem roundsTo_size {rank : Nat} (hrank : rank ≤ infinityRank) : RoundsTo (size rank) rank := by
  refine RoundsTo.of_near hrank fun other hother => ?_
  rw [sub_self, abs_zero, mul_zero, abs_pos]
  exact sub_ne_zero.2 (size_strictMono.injective.ne hother.symm)

namespace Rounding

variable {numerator denominator : Nat}

/-! ### The nearest whole number -/

theorem whole_le (numerator denominator : Nat) :
    ((numerator / denominator : Nat) : ℚ) ≤ numerator / denominator := by
  rw [← Nat.floor_div_eq_div (K := ℚ)]
  exact Nat.floor_le (by positivity)

theorem lt_whole_add_one (numerator denominator : Nat) :
    (numerator : ℚ) / denominator < (numerator / denominator : Nat) + 1 := by
  rw [← Nat.floor_div_eq_div (K := ℚ)]
  exact Nat.lt_floor_add_one _

/-- The remainder of a division measures the fraction of the quotient. -/
theorem remainder_eq (numerator : Nat) (hd : 0 < denominator) :
    ((numerator % denominator : Nat) : ℚ) =
      ((numerator : ℚ) / denominator - (numerator / denominator : Nat)) * denominator := by
  have hd' : (denominator : ℚ) ≠ 0 := by exact_mod_cast hd.ne'
  have hdivision : (denominator : ℚ) * (numerator / denominator : Nat) +
      (numerator % denominator : Nat) = numerator := by
    exact_mod_cast Nat.div_add_mod numerator denominator
  rw [sub_mul, div_mul_cancel₀ _ hd']
  linarith

theorem twice_remainder_lt_iff (numerator : Nat) (hd : 0 < denominator) :
    2 * (numerator % denominator) < denominator ↔
      (numerator : ℚ) / denominator - (numerator / denominator : Nat) < 1 / 2 := by
  have hd' : (0 : ℚ) < denominator := by exact_mod_cast hd
  rw [← Nat.cast_lt (α := ℚ), Nat.cast_mul, remainder_eq numerator hd, ← mul_assoc,
    mul_lt_iff_lt_one_left hd', Nat.cast_ofNat, ← lt_div_iff₀' two_pos]

theorem twice_remainder_eq_iff (numerator : Nat) (hd : 0 < denominator) :
    2 * (numerator % denominator) = denominator ↔
      (numerator : ℚ) / denominator - (numerator / denominator : Nat) = 1 / 2 := by
  have hd' : (denominator : ℚ) ≠ 0 := by exact_mod_cast hd.ne'
  rw [← Nat.cast_inj (R := ℚ), Nat.cast_mul, remainder_eq numerator hd, ← mul_assoc,
    mul_eq_right₀ hd', Nat.cast_ofNat, eq_div_iff two_ne_zero, mul_comm]

/-- The nearest whole number is at most half away, and even where it is half away. -/
theorem nearest_within (numerator : Nat) (hd : 0 < denominator) :
    |(numerator : ℚ) / denominator - nearest numerator denominator| ≤ 1 / 2 ∧
      (|(numerator : ℚ) / denominator - nearest numerator denominator| = 1 / 2 →
        Even (nearest numerator denominator)) := by
  have hlower := whole_le numerator denominator
  have hupper := lt_whole_add_one numerator denominator
  simp only [nearest]
  split
  · next hdown =>
    rw [abs_of_nonneg (by linarith)]
    rcases hdown with hless | ⟨hhalf, heven⟩
    · have hless' := (twice_remainder_lt_iff _ hd).1 hless
      exact ⟨hless'.le, fun hhalf => absurd hhalf hless'.ne⟩
    · exact ⟨((twice_remainder_eq_iff _ hd).1 hhalf).le, fun _ => Nat.even_iff.2 heven⟩
  · next hup =>
    rw [not_or, twice_remainder_lt_iff _ hd, twice_remainder_eq_iff _ hd, not_lt] at hup
    obtain ⟨hmore, hodd⟩ := hup
    rw [Nat.cast_succ, abs_of_neg (by linarith)]
    refine ⟨by linarith, fun hhalf => Nat.even_iff.2 ?_⟩
    have hodd' := not_and.1 hodd (by linarith)
    omega

/-- No other whole number is nearer, and none is as near unless the nearest one is even. -/
theorem nearest_closest (hd : 0 < denominator) {other : Nat}
    (hother : other ≠ nearest numerator denominator) :
    |(numerator : ℚ) / denominator - nearest numerator denominator| ≤
        |(numerator : ℚ) / denominator - other| ∧
      (|(numerator : ℚ) / denominator - nearest numerator denominator| =
        |(numerator : ℚ) / denominator - other| → Even (nearest numerator denominator)) := by
  obtain ⟨hhalf, heven⟩ := nearest_within numerator hd
  have hapart : (1 : ℚ) ≤ |(nearest numerator denominator : ℚ) - other| := by
    exact_mod_cast Int.one_le_abs (sub_ne_zero.2 (by exact_mod_cast hother.symm :
      ((nearest numerator denominator : Nat) : Int) ≠ (other : Int)))
  have htriangle := abs_sub_le (nearest numerator denominator : ℚ)
    ((numerator : ℚ) / denominator) other
  rw [abs_sub_comm _ ((numerator : ℚ) / denominator)] at htriangle
  exact ⟨by linarith, fun htie => heven (by linarith)⟩

/-! ### Whole units -/

/-- Where a quotient lies among the units of its spacing: below `2 ^ 53` of them, and not
below `2 ^ 52` unless they are the least ones. -/
theorem spacing_bounds (hn : 0 < numerator) (hd : 0 < denominator) :
    (numerator : ℚ) / denominator < 2 ^ 53 * 2 ^ spacing numerator denominator ∧
      (spacing numerator denominator = -1074 ∨
        (2 : ℚ) ^ 52 * 2 ^ spacing numerator denominator ≤ numerator / denominator) := by
  have hquotient : (0 : ℚ) < numerator / denominator := by positivity
  have hlower := Int.zpow_log_le_self (b := 2) (by norm_num) hquotient
  have hupper := Int.lt_zpow_succ_log_self (b := 2) (by norm_num) ((numerator : ℚ) / denominator)
  rw [← binaryOrder_eq_log hn hd, Nat.cast_ofNat] at hlower hupper
  have hshift (count : Nat) : (2 : ℚ) ^ count * 2 ^ spacing numerator denominator =
      2 ^ ((count : Int) + spacing numerator denominator) := by
    rw [zpow_add₀ two_ne_zero, zpow_natCast]
  rw [hshift, hshift]
  constructor
  · refine hupper.trans_le (zpow_le_zpow_right₀ (by norm_num) ?_)
    unfold spacing
    omega
  · rcases le_or_gt (binaryOrder numerator denominator - 52) (-1074) with hleast | hmore
    · exact .inl (by unfold spacing; omega)
    · refine .inr (le_trans (zpow_le_zpow_right₀ (by norm_num) ?_) hlower)
      unfold spacing
      omega

/-- A quotient counted in units of a power. -/
theorem quotient_in_units {base : Nat} (hbase : 0 < base) (numerator denominator : Nat)
    (power : Int) :
    ((numerator * base ^ (-power).toNat : Nat) : ℚ) / (denominator * base ^ power.toNat : Nat) =
      (numerator : ℚ) / denominator / (base : ℚ) ^ power := by
  have hbase' : (base : ℚ) ≠ 0 := by exact_mod_cast hbase.ne'
  rw [zpow_eq_div]
  push_cast
  field_simp

/-- The whole number of units that a quotient is rounded to. -/
def units (numerator denominator : Nat) : Nat :=
  let power := spacing numerator denominator
  nearest (numerator * 2 ^ (-power).toNat) (denominator * 2 ^ power.toNat)

/-- No other whole number of units is nearer. -/
theorem units_closest (hd : 0 < denominator) {other : Nat}
    (hother : other ≠ units numerator denominator) :
    |(numerator : ℚ) / denominator -
          units numerator denominator * 2 ^ spacing numerator denominator| ≤
        |(numerator : ℚ) / denominator - other * 2 ^ spacing numerator denominator| ∧
      (|(numerator : ℚ) / denominator -
          units numerator denominator * 2 ^ spacing numerator denominator| =
        |(numerator : ℚ) / denominator - other * 2 ^ spacing numerator denominator| →
          Even (units numerator denominator)) := by
  have hunit : (0 : ℚ) < 2 ^ spacing numerator denominator := by positivity
  have hscaled (count : Nat) :
      |(numerator : ℚ) / denominator - count * 2 ^ spacing numerator denominator| =
        |(numerator : ℚ) / denominator / 2 ^ spacing numerator denominator - count| *
          2 ^ spacing numerator denominator := by
    rw [← abs_of_pos hunit, ← abs_mul, abs_of_pos hunit, sub_mul, div_mul_cancel₀ _ hunit.ne']
  have hd' : 0 < denominator * 2 ^ (spacing numerator denominator).toNat := by positivity
  have hclosest := nearest_closest hd' hother
  rw [quotient_in_units two_pos, Nat.cast_ofNat] at hclosest
  rw [hscaled, hscaled, mul_le_mul_iff_of_pos_right hunit, mul_left_inj' hunit.ne']
  exact hclosest

theorem units_bounds (hn : 0 < numerator) (hd : 0 < denominator) :
    units numerator denominator ≤ 9007199254740992 ∧
      (spacing numerator denominator = -1074 ∨
        4503599627370496 ≤ units numerator denominator) := by
  obtain ⟨hupper, hlower⟩ := spacing_bounds hn hd
  have hunit : (0 : ℚ) < 2 ^ spacing numerator denominator := by positivity
  constructor
  · by_contra hlt
    rw [not_le] at hlt
    have hmore : ((9007199254740992 : Nat) : ℚ) * 2 ^ spacing numerator denominator <
        units numerator denominator * 2 ^ spacing numerator denominator := by gcongr
    have hcloser := (abs_sub_le_abs_sub_iff hmore).1 (units_closest hd hlt.ne).1
    push_cast at hcloser hmore
    linarith
  · refine hlower.imp_right fun hlower => ?_
    by_contra hlt
    rw [not_le] at hlt
    have hless : (units numerator denominator : ℚ) * 2 ^ spacing numerator denominator <
        (4503599627370496 : Nat) * 2 ^ spacing numerator denominator := by gcongr
    have hfarther := (units_closest hd hlt.ne').1
    push_cast at hfarther hless
    rw [abs_of_nonneg (by linarith), abs_of_nonneg (by linarith)] at hfarther
    linarith

/-- The rank before it is cut off at infinity. -/
def unboundedRank (numerator denominator : Nat) : Nat :=
  units numerator denominator +
    (spacing numerator denominator + 1074).toNat * 4503599627370496

theorem rank_eq_min (numerator denominator : Nat) :
    rank numerator denominator = min infinityRank (unboundedRank numerator denominator) :=
  rfl

theorem size_unboundedRank (hn : 0 < numerator) (hd : 0 < denominator) :
    size (unboundedRank numerator denominator) =
      units numerator denominator * 2 ^ spacing numerator denominator := by
  obtain ⟨hupper, hlower⟩ := units_bounds hn hd
  have hleast : -1074 ≤ spacing numerator denominator := le_max_left _ _
  rw [unboundedRank, Double.size_of_units hupper (hlower.imp_left fun hleast => by omega)]
  congr 2
  omega

/-- A magnitude is a whole number of units of a spacing, or it is less than `2 ^ 52` of them
while there are lesser units. -/
theorem size_in_units (power : Int) (r : Nat) :
    (∃ count : Nat, size r = count * 2 ^ power) ∨
      -1074 < power ∧ size r < 2 ^ 52 * 2 ^ power := by
  have hexponent := Double.exponent_ge r
  rw [Double.size_eq]
  rcases le_or_gt power (Double.exponent r) with hfine | hcoarse
  · obtain ⟨steps, hsteps⟩ := Int.eq_ofNat_of_zero_le (Int.sub_nonneg_of_le hfine)
    refine .inl ⟨Double.significand r * 2 ^ steps, ?_⟩
    rw [show Double.exponent r = steps + power by omega, zpow_add₀ two_ne_zero, zpow_natCast]
    push_cast
    ring
  · refine .inr ⟨by omega, ?_⟩
    calc (Double.significand r : ℚ) * 2 ^ Double.exponent r < 2 ^ 53 * 2 ^ Double.exponent r := by
          gcongr
          exact_mod_cast Double.significand_lt r
      _ = 2 ^ 52 * 2 ^ (Double.exponent r + 1) := by
          rw [zpow_add_one₀ two_ne_zero]
          ring
      _ ≤ 2 ^ 52 * 2 ^ power := by
          gcongr
          · norm_num
          · omega

/-- Of all magnitudes, finite or not, none is nearer to a quotient than that of its rank. -/
theorem unboundedRank_closest (hn : 0 < numerator) (hd : 0 < denominator) {other : Nat}
    (hother : other ≠ unboundedRank numerator denominator) :
    |(numerator : ℚ) / denominator - size (unboundedRank numerator denominator)| ≤
        |(numerator : ℚ) / denominator - size other| ∧
      (|(numerator : ℚ) / denominator - size (unboundedRank numerator denominator)| =
        |(numerator : ℚ) / denominator - size other| →
          Even (unboundedRank numerator denominator)) := by
  have heven (h : Even (units numerator denominator)) :
      Even (unboundedRank numerator denominator) :=
    h.add (Even.mul_left (by decide) _)
  have hsize := size_unboundedRank hn hd
  rcases size_in_units (spacing numerator denominator) other with
    ⟨count, hcount⟩ | ⟨hmore, hsmall⟩
  · have hne : count ≠ units numerator denominator := by
      rintro rfl
      exact hother (size_strictMono.injective (hcount.trans hsize.symm))
    rw [hsize, hcount]
    exact (units_closest hd hne).imp_right fun htie => heven ∘ htie
  · -- A magnitude in lesser units is below the first `2 ^ 52` of these, and so too far away.
    have hlower := (spacing_bounds hn hd).2.resolve_left hmore.ne'
    have hcloser : |(numerator : ℚ) / denominator - size (unboundedRank numerator denominator)| ≤
        |(numerator : ℚ) / denominator - 2 ^ 52 * 2 ^ spacing numerator denominator| := by
      rw [hsize]
      rcases eq_or_ne 4503599627370496 (units numerator denominator) with heq | hne
      · rw [← heq]
        norm_num
      · have := (units_closest hd hne).1
        norm_num at this ⊢
        exact this
    have hfarther : |(numerator : ℚ) / denominator -
        2 ^ 52 * 2 ^ spacing numerator denominator| <
          |(numerator : ℚ) / denominator - size other| := by
      rw [abs_of_nonneg (by linarith), abs_of_nonneg (by linarith)]
      linarith
    exact ⟨(hcloser.trans_lt hfarther).le, fun htie => absurd htie (hcloser.trans_lt hfarther).ne⟩

/-- A positive quotient is rounded correctly. -/
theorem roundsTo_rank (hn : 0 < numerator) (hd : 0 < denominator) :
    RoundsTo ((numerator : ℚ) / denominator) (rank numerator denominator) := by
  have hclosest {other : Nat} (hother : other ≠ unboundedRank numerator denominator) :=
    unboundedRank_closest hn hd hother
  rw [rank_eq_min]
  rcases le_or_gt (unboundedRank numerator denominator) infinityRank with hin | hout
  · rw [Nat.min_eq_right hin]
    refine ⟨hin, fun other _ => ?_, fun other _ hne htie => (hclosest hne).2 htie⟩
    rcases eq_or_ne other (unboundedRank numerator denominator) with rfl | hne
    · exact le_rfl
    · exact (hclosest hne).1
  · -- Beyond infinity the number is greater than all that take part, of which infinity is the last.
    rw [Nat.min_eq_left hout.le]
    have hbeyond := (abs_sub_le_abs_sub_iff (size_strictMono hout)).1 (hclosest hout.ne).1
    have hgap := size_strictMono hout
    have hcloser {other : Nat} (hother : other < infinityRank) :
        |(numerator : ℚ) / denominator - size infinityRank| <
          |(numerator : ℚ) / denominator - size other| := by
      have hless := size_strictMono hother
      rw [abs_of_nonneg (by linarith), abs_of_nonneg (by linarith)]
      linarith
    refine ⟨le_rfl, fun other hother => ?_, fun other hother hne htie => ?_⟩
    · rcases Nat.lt_or_eq_of_le hother with hlt | rfl
      · exact (hcloser hlt).le
      · exact le_rfl
    · exact absurd htie (hcloser (lt_of_le_of_ne hother hne)).ne

end Rounding

namespace Double

/-- A decimal is rounded to a magnitude exactly if its number rounds to it. -/
theorem rank_ofDecimal_iff {negative : Bool} {digits : Nat} {exponent : Int} {rank : Nat} :
    (ofDecimal negative digits exponent).rank = rank ↔
      RoundsTo (digits * 10 ^ exponent) rank := by
  have hrounds : RoundsTo (digits * 10 ^ exponent) (ofDecimal negative digits exponent).rank := by
    rw [ofDecimal_eq_ofRatio, ofRatio]
    rcases Nat.eq_zero_or_pos digits with rfl | hdigits
    · rw [Nat.zero_mul, if_pos rfl, Nat.cast_zero, zero_mul, ← size_zero]
      exact roundsTo_size (Nat.zero_le _)
    · have hn : 0 < digits * 10 ^ exponent.toNat := by positivity
      rw [if_neg hn.ne', ← decimal_quotient]
      exact Rounding.roundsTo_rank hn (by positivity)
  exact ⟨fun h => h ▸ hrounds, hrounds.unique⟩

end Double

end SignedMessaging
