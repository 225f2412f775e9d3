import SignedMessaging.Proofs.Number.Nearest
import SignedMessaging.Proofs.Number.Shortest

/-!
# The shortest decimal is the shortest

On each grid only the two decimals about the magnitude are tried.  That is enough: a
decimal with at most so many digits lies on the grid or below the magnitude's power of ten,
so it is not strictly between the two (`le_floor`, `next_le`), and with it the one of the
two that is on its side rounds to the magnitude (`exists_onGrid`).

With seventeen digits the grid is finer than the magnitudes lie apart, and the nearer of
the two decimals rounds to the magnitude whatever it is (`exists_onGrid_seventeen`).  So the
search always ends with a hit, and the first hit has the fewest digits that a decimal of
this magnitude can have; of the decimals with so many digits it is the nearest
(`isShortest_of_trimmed`).
-/

namespace SignedMessaging

namespace Double

/-- Every positive magnitude is above the powers of ten that the search for its order ends
with. -/
theorem ten_zpow_le_size {rank : Nat} (hrank : 0 < rank) :
    (10 : ℚ) ^ (-325 : Int) ≤ size rank := by
  have hleast : size 1 = 2 ^ (-1074 : Int) := by
    rw [size_eq]
    norm_num [significand, exponent]
  calc (10 : ℚ) ^ (-325 : Int) ≤ 10 ^ (-324 : Int) :=
        zpow_le_zpow_right₀ (by norm_num) (by norm_num)
    _ = ((10 : ℚ) ^ (54 : Int)) ^ (-6 : Int) := by rw [← zpow_mul]; rfl
    _ ≤ ((2 : ℚ) ^ (179 : Int)) ^ (-6 : Int) := by
        -- Powers of this size are not worked out; their sixth roots are.
        rw [zpow_neg, zpow_neg]
        gcongr
        norm_num
    _ = 2 ^ (-1074 : Int) := by rw [← zpow_mul]; rfl
    _ = size 1 := hleast.symm
    _ ≤ size rank := size_strictMono.monotone hrank

end Double

namespace Decimal

open Double (size size_strictMono)

variable {numerator denominator rank : Nat}

/-- The number of a decimal. -/
def value (decimal : Decimal) : ℚ := decimal.digits * 10 ^ decimal.exponent

/-- How many digits a decimal has. -/
def length (decimal : Decimal) : Nat := (Nat.toDigits 10 decimal.digits).length

/-- The exponent of the greatest power of ten that a decimal reaches; zero has it at 0. -/
def leadingExponent (decimal : Decimal) : Int := Int.log 10 decimal.value

/-- A decimal with the fewest digits of all that round to a magnitude, and of those with so
many digits one that is nearest to it. -/
structure IsShortest (decimal : Decimal) (rank : Nat) : Prop where
  rounds : RoundsTo decimal.value rank
  fewest : ∀ other : Decimal, RoundsTo other.value rank → decimal.length ≤ other.length
  nearest : ∀ other : Decimal, RoundsTo other.value rank → other.length = decimal.length →
    |size rank - decimal.value| ≤ |size rank - other.value|

theorem readsAs_iff {decimal : Decimal} :
    decimal.ReadsAs rank ↔ RoundsTo decimal.value rank :=
  Double.rank_ofDecimal_iff

theorem length_le_iff {decimal : Decimal} {count : Nat} (hcount : 0 < count) :
    decimal.length ≤ count ↔ decimal.digits < 10 ^ count :=
  Nat.length_toDigits_le_iff (by decide) hcount

/-- The digits of a positive number tell the two powers of ten that it lies between. -/
theorem exists_length_toDigits {n : Nat} (hn : 0 < n) : ∃ count : Nat,
    (Nat.toDigits 10 n).length = count + 1 ∧ 10 ^ count ≤ n ∧ n < 10 ^ (count + 1) := by
  obtain ⟨count, hcount⟩ := Nat.exists_eq_succ_of_ne_zero
    (Nat.length_toDigits_pos (b := 10) (n := n)).ne'
  refine ⟨count, hcount, ?_,
    (Nat.length_toDigits_le_iff (by decide) (Nat.succ_pos _)).1 hcount.le⟩
  rcases Nat.eq_zero_or_pos count with rfl | hpos
  · exact hn
  · exact Nat.le_of_not_lt fun hlt => absurd
      ((Nat.length_toDigits_le_iff (by decide) hpos).2 hlt) (by omega)

/-- The first digit of a positive decimal counts the greatest power of ten that it reaches. -/
theorem leadingExponent_eq {decimal : Decimal} (h : 0 < decimal.digits) :
    decimal.leadingExponent = decimal.exponent + decimal.length - 1 := by
  obtain ⟨count, hcount, hlower, hupper⟩ := exists_length_toDigits h
  have hfirst : decimal.exponent + decimal.length - 1 = count + decimal.exponent := by
    rw [length, hcount]
    push_cast
    ring
  rw [hfirst, leadingExponent, value]
  refine Rounding.log_eq_of_base (by decide) ?_ ?_
  · rw [Nat.cast_ofNat, zpow_add₀ (by norm_num), zpow_natCast]
    gcongr
    exact_mod_cast hlower
  · rw [Nat.cast_ofNat, add_right_comm, ← Nat.cast_succ, zpow_add₀ (by norm_num), zpow_natCast]
    gcongr
    exact_mod_cast hupper

theorem leadingExponent_zero (exponent : Int) : leadingExponent ⟨0, exponent⟩ = 0 := by
  rw [leadingExponent, value, Nat.cast_zero, zero_mul, Int.log_zero_right]

/-! ### The order of a magnitude -/

theorem reachesPower_iff (hd : 0 < denominator) (power : Int) :
    reachesPower numerator denominator power = true ↔
      (10 : ℚ) ^ power ≤ numerator / denominator := by
  rw [reachesPower, decide_eq_true_eq]
  exact Rounding.scaled_le_iff_of_base (show 0 < 10 by decide) hd power

theorem orderFrom_bounds (hd : 0 < denominator) {steps : Nat} {power : Int}
    (hlower : (10 : ℚ) ^ (power - steps) ≤ numerator / denominator)
    (hupper : (numerator : ℚ) / denominator < 10 ^ (power + 1)) :
    (10 : ℚ) ^ orderFrom numerator denominator steps power ≤ numerator / denominator ∧
      (numerator : ℚ) / denominator <
        10 ^ (orderFrom numerator denominator steps power + 1) := by
  induction steps generalizing power with
  | zero => exact ⟨by simpa [orderFrom] using hlower, hupper⟩
  | succ steps ih =>
      rw [orderFrom]
      split
      · next hreached => exact ⟨(reachesPower_iff hd power).1 hreached, hupper⟩
      · next hmissed =>
        rw [reachesPower_iff hd, not_le] at hmissed
        refine ih ?_ (by rwa [sub_add_cancel])
        rwa [show power - 1 - (steps : Int) = power - (steps + 1 : Nat) by push_cast; ring]

theorem order_bounds (hd : 0 < denominator)
    (hlower : (10 : ℚ) ^ (-325 : Int) ≤ numerator / denominator) :
    (10 : ℚ) ^ order numerator denominator ≤ numerator / denominator ∧
      (numerator : ℚ) / denominator < 10 ^ (order numerator denominator + 1) := by
  have hwhole := Rounding.whole_le numerator denominator
  have hnext := Rounding.lt_whole_add_one numerator denominator
  simp only [order]
  split
  · next hzero =>
    rw [hzero, Nat.cast_zero, zero_add] at hnext
    exact orderFrom_bounds hd hlower hnext
  · next hpositive =>
    obtain ⟨count, hcount, hreached, hupper⟩ :=
      exists_length_toDigits (Nat.pos_of_ne_zero hpositive)
    rw [hcount, Nat.cast_succ, add_sub_cancel_right, zpow_natCast, ← Nat.cast_succ, zpow_natCast]
    constructor
    · exact le_trans (by exact_mod_cast hreached) hwhole
    · exact hnext.trans_le (by exact_mod_cast hupper)

/-- The decimal exponent of a magnitude. -/
def orderOf (rank : Nat) : Int := order (Double.ratio rank).1 (Double.ratio rank).2

theorem orderOf_bounds (hrank : 0 < rank) :
    (10 : ℚ) ^ orderOf rank ≤ size rank ∧ size rank < 10 ^ (orderOf rank + 1) := by
  have hleast := Double.ten_zpow_le_size hrank
  rw [Double.size_eq, ← Rounding.ratio_eq] at hleast ⊢
  exact order_bounds (Rounding.ratio_pos hrank).2 hleast

/-! ### The two decimals about a magnitude -/

/-- The whole multiples of a power of ten in a magnitude. -/
def floorOf (rank : Nat) (power : Int) : Nat :=
  (below (Double.ratio rank).1 (Double.ratio rank).2 power).1

variable {power : Int}

theorem floorOf_bounds (rank : Nat) (power : Int) :
    (floorOf rank power : ℚ) * 10 ^ power ≤ size rank ∧
      size rank < (floorOf rank power + 1 : Nat) * 10 ^ power := by
  have hunit : (0 : ℚ) < 10 ^ power := by positivity
  have hscaled := Rounding.quotient_in_units (show 0 < 10 by decide) (Double.ratio rank).1
    (Double.ratio rank).2 power
  rw [Rounding.ratio_eq, ← Double.size_eq, Nat.cast_ofNat] at hscaled
  have hfloor : floorOf rank power =
      (Double.ratio rank).1 * 10 ^ (-power).toNat / ((Double.ratio rank).2 * 10 ^ power.toNat) :=
    rfl
  rw [← le_div_iff₀ hunit, ← div_lt_iff₀ hunit, ← hscaled, hfloor, Nat.cast_succ]
  exact ⟨Rounding.whole_le _ _, Rounding.lt_whole_add_one _ _⟩

/-- What is on a grid is a whole multiple of it. -/
theorem exists_multiple {decimal : Decimal} (h : power ≤ decimal.exponent) :
    ∃ count : Nat, decimal.value = count * 10 ^ power := by
  obtain ⟨zeros, hzeros⟩ := Int.eq_ofNat_of_zero_le (Int.sub_nonneg_of_le h)
  refine ⟨decimal.digits * 10 ^ zeros, ?_⟩
  rw [value, show decimal.exponent = zeros + power by omega, zpow_add₀ (by norm_num), zpow_natCast]
  push_cast
  ring

/-- A decimal with few digits that is not on the grid of so many digits is below the power of
ten of the magnitude. -/
theorem value_lt_of_lt {decimal : Decimal} {order : Int} {count : Nat}
    (hlength : decimal.digits < 10 ^ (count + 1)) (h : decimal.exponent < order - count) :
    decimal.value < 10 ^ order := by
  calc decimal.value < 10 ^ (count + 1) * 10 ^ decimal.exponent := by
        rw [value]
        gcongr
        exact_mod_cast hlength
    _ = 10 ^ ((count : Int) + 1 + decimal.exponent) := by
        rw [zpow_add₀ (by norm_num)]
        norm_cast
    _ ≤ 10 ^ order := zpow_le_zpow_right₀ (by norm_num) (by omega)

/-- The lower of the two decimals is not below any other decimal with so many digits that is
not above the magnitude. -/
theorem le_floor (hrank : 0 < rank) {decimal : Decimal} {count : Nat}
    (hlength : decimal.digits < 10 ^ (count + 1)) (hle : decimal.value ≤ size rank) :
    decimal.value ≤ floorOf rank (orderOf rank - count) * 10 ^ (orderOf rank - count) := by
  have hunit : (0 : ℚ) < 10 ^ (orderOf rank - count) := by positivity
  have hnext := (floorOf_bounds rank (orderOf rank - count)).2
  have hmultiple {other : Nat} (hother : (other : ℚ) * 10 ^ (orderOf rank - count) ≤ size rank) :
      (other : ℚ) * 10 ^ (orderOf rank - count) ≤
        floorOf rank (orderOf rank - count) * 10 ^ (orderOf rank - count) := by
    have hlt := lt_of_mul_lt_mul_right (hother.trans_lt hnext) hunit.le
    gcongr
    exact Nat.lt_succ_iff.1 (by exact_mod_cast hlt)
  rcases le_or_gt (orderOf rank - count) decimal.exponent with hgrid | hfiner
  · obtain ⟨other, hother⟩ := exists_multiple hgrid
    rw [hother] at hle ⊢
    exact hmultiple hle
  · -- The power of ten between them is on the grid.
    have hpower : (10 : ℚ) ^ orderOf rank = (10 ^ count : Nat) * 10 ^ (orderOf rank - count) := by
      push_cast
      rw [← zpow_natCast, ← zpow_add₀ (by norm_num)]
      congr 1
      ring
    refine (value_lt_of_lt hlength hfiner).le.trans ?_
    rw [hpower]
    exact hmultiple (hpower ▸ (orderOf_bounds hrank).1)

/-- The upper of the two decimals is not above any other decimal with so many digits that is
above the magnitude. -/
theorem next_le (hrank : 0 < rank) {decimal : Decimal} {count : Nat}
    (hlength : decimal.digits < 10 ^ (count + 1)) (hlt : size rank < decimal.value) :
    (floorOf rank (orderOf rank - count) + 1 : Nat) * 10 ^ (orderOf rank - count) ≤
      decimal.value := by
  have hunit : (0 : ℚ) < 10 ^ (orderOf rank - count) := by positivity
  have hfloor := (floorOf_bounds rank (orderOf rank - count)).1
  rcases le_or_gt (orderOf rank - count) decimal.exponent with hgrid | hfiner
  · obtain ⟨other, hother⟩ := exists_multiple hgrid
    rw [hother] at hlt ⊢
    have hmore := lt_of_mul_lt_mul_right (hfloor.trans_lt hlt) hunit.le
    gcongr
    exact Nat.succ_le_of_lt (by exact_mod_cast hmore)
  · have hless := value_lt_of_lt hlength hfiner
    exact absurd (orderOf_bounds hrank).1 (by linarith)

/-! ### Hits on a grid -/

/-- What twice the remainder of a magnitude is against the unit of a grid. -/
def sideOf (rank : Nat) (power : Int) : Ordering :=
  (below (Double.ratio rank).1 (Double.ratio rank).2 power).2

/-- Which of the two decimals a hit is, and why it is not the other one. -/
theorem onGrid_cases {decimal : Decimal} (h : onGrid rank power = some decimal) :
    (decimal = ⟨floorOf rank power, power⟩ ∧ (sideOf rank power ≠ .gt ∨
      ¬ (⟨floorOf rank power + 1, power⟩ : Decimal).ReadsAs rank)) ∨
    (decimal = ⟨floorOf rank power + 1, power⟩ ∧ (sideOf rank power ≠ .lt ∨
      ¬ (⟨floorOf rank power, power⟩ : Decimal).ReadsAs rank)) := by
  simp only [onGrid] at h
  split at h
  · -- If both are hits, the side decides.
    rw [show (below (Double.ratio rank).1 (Double.ratio rank).2 power).2 = sideOf rank power from
      rfl] at h
    cases hside : sideOf rank power with
    | lt =>
        rw [hside] at h
        cases h
        exact .inl ⟨rfl, .inl (by decide)⟩
    | gt =>
        rw [hside] at h
        cases h
        exact .inr ⟨rfl, .inl (by decide)⟩
    | eq =>
        rw [hside] at h
        cases h
        simp only
        split
        · exact .inr ⟨rfl, .inl (by decide)⟩
        · exact .inl ⟨rfl, .inl (by decide)⟩
  · next hmissed =>
    cases h
    exact .inl ⟨rfl, .inr (beq_eq_false_iff_ne.1 hmissed)⟩
  · next hmissed _ =>
    cases h
    exact .inr ⟨rfl, .inr (beq_eq_false_iff_ne.1 hmissed)⟩
  · cases h

theorem exists_onGrid (h : (⟨floorOf rank power, power⟩ : Decimal).ReadsAs rank ∨
    (⟨floorOf rank power + 1, power⟩ : Decimal).ReadsAs rank) :
    ∃ decimal, onGrid rank power = some decimal := by
  refine Option.ne_none_iff_exists'.1 fun hnone => ?_
  simp only [onGrid] at hnone
  split at hnone
  · cases hnone
  · cases hnone
  · cases hnone
  · next hfloor hnext =>
    rcases h with h | h
    · exact beq_eq_false_iff_ne.1 hfloor h
    · exact beq_eq_false_iff_ne.1 hnext h

/-- The side of a magnitude tells which of the two decimals is nearer to it. -/
theorem nearer_of_side (rank : Nat) (power : Int) :
    (sideOf rank power ≠ .gt → |size rank - floorOf rank power * 10 ^ power| ≤
      |size rank - (floorOf rank power + 1 : Nat) * 10 ^ power|) ∧
    (sideOf rank power ≠ .lt → |size rank - (floorOf rank power + 1 : Nat) * 10 ^ power| ≤
      |size rank - floorOf rank power * 10 ^ power|) := by
  have hunit : (0 : ℚ) < 10 ^ power := by positivity
  have hless : (floorOf rank power : ℚ) * 10 ^ power <
      (floorOf rank power + 1 : Nat) * 10 ^ power := by
    gcongr
    exact Nat.lt_succ_self _
  have hscaled := Rounding.quotient_in_units (show 0 < 10 by decide) (Double.ratio rank).1
    (Double.ratio rank).2 power
  rw [Rounding.ratio_eq, ← Double.size_eq, Nat.cast_ofNat] at hscaled
  have hd : 0 < (Double.ratio rank).2 * 10 ^ power.toNat := by
    simp only [Double.ratio, Nat.pow_eq]
    positivity
  have hlt := Rounding.twice_remainder_lt_iff ((Double.ratio rank).1 * 10 ^ (-power).toNat) hd
  have heq := Rounding.twice_remainder_eq_iff ((Double.ratio rank).1 * 10 ^ (-power).toNat) hd
  rw [hscaled] at hlt heq
  rw [abs_sub_le_abs_sub_iff hless, abs_sub_le_abs_sub_iff' hless, Nat.cast_succ]
  constructor
  · intro hside
    have hhalf : size rank / 10 ^ power ≤ floorOf rank power + 1 / 2 := by
      rcases Nat.lt_or_eq_of_le (Nat.compare_ne_gt.1 hside) with hless | hequal
      · exact (sub_lt_iff_lt_add'.1 (hlt.1 hless)).le
      · exact (sub_eq_iff_eq_add'.1 (heq.1 hequal)).le
    rw [div_le_iff₀ hunit] at hhalf
    linarith
  · intro hside
    have hhalf : (floorOf rank power : ℚ) + 1 / 2 ≤ size rank / 10 ^ power :=
      le_sub_iff_add_le'.1 (not_lt.1 fun hless => hside (Nat.compare_eq_lt.2 (hlt.2 hless)))
    rw [le_div_iff₀ hunit] at hhalf
    linarith

/-! ### Decimals that round to a magnitude -/

theorem readsAs_between {decimal : Decimal} {lower upper : ℚ} (hlower : RoundsTo lower rank)
    (hupper : RoundsTo upper rank) (hle : lower ≤ decimal.value) (hle' : decimal.value ≤ upper) :
    decimal.ReadsAs rank :=
  hlower.between hupper hle hle' (readsAs_iff.1 rfl)

/-- With a decimal that rounds to the magnitude, the neighbour of the magnitude on its side
does. -/
theorem neighbour_readsAs (hrank : 0 < rank) (hfinite : rank < infinityRank) {decimal : Decimal}
    {count : Nat} (hlength : decimal.digits < 10 ^ (count + 1))
    (hrounds : RoundsTo decimal.value rank) :
    (decimal.value ≤ size rank →
      (⟨floorOf rank (orderOf rank - count), orderOf rank - count⟩ : Decimal).ReadsAs rank) ∧
    (size rank < decimal.value →
      (⟨floorOf rank (orderOf rank - count) + 1, orderOf rank - count⟩ : Decimal).ReadsAs
        rank) := by
  have hself := roundsTo_size hfinite.le
  obtain ⟨hfloor, hnext⟩ := floorOf_bounds rank (orderOf rank - count)
  constructor
  · intro hle
    exact readsAs_between hrounds hself (le_floor hrank hlength hle) hfloor
  · intro hlt
    exact readsAs_between hself hrounds hnext.le (next_le hrank hlength hlt)

/-- The grid of so many digits has a hit if any decimal with so many digits is one. -/
theorem exists_onGrid_of_roundsTo (hrank : 0 < rank) (hfinite : rank < infinityRank)
    {decimal : Decimal} {count : Nat} (hlength : decimal.digits < 10 ^ (count + 1))
    (hrounds : RoundsTo decimal.value rank) :
    ∃ hit, onGrid rank (orderOf rank - count) = some hit := by
  obtain ⟨hbelow, habove⟩ := neighbour_readsAs hrank hfinite hlength hrounds
  exact exists_onGrid ((le_or_gt decimal.value (size rank)).imp hbelow habove)

/-- No other decimal with so many digits that rounds to the magnitude is nearer to it than the
hit on their grid. -/
theorem nearest_of_onGrid (hrank : 0 < rank) (hfinite : rank < infinityRank)
    {decimal hit : Decimal} {count : Nat} (hlength : decimal.digits < 10 ^ (count + 1))
    (hrounds : RoundsTo decimal.value rank)
    (hhit : onGrid rank (orderOf rank - count) = some hit) :
    |size rank - hit.value| ≤ |size rank - decimal.value| := by
  obtain ⟨hfloor, hnext⟩ := floorOf_bounds rank (orderOf rank - count)
  obtain ⟨hlower, hupper⟩ := nearer_of_side rank (orderOf rank - count)
  obtain ⟨hbelow, habove⟩ := neighbour_readsAs hrank hfinite hlength hrounds
  rcases le_or_gt decimal.value (size rank) with hle | hlt
  · have hnearer := le_floor hrank hlength hle
    have hdecimal : |size rank - floorOf rank (orderOf rank - count) *
        10 ^ (orderOf rank - count)| ≤ |size rank - decimal.value| := by
      rw [abs_of_nonneg (by linarith), abs_of_nonneg (by linarith)]
      linarith
    rcases onGrid_cases hhit with ⟨rfl, -⟩ | ⟨rfl, hside | hmissed⟩
    · exact hdecimal
    · exact (hupper hside).trans hdecimal
    · exact absurd (hbelow hle) hmissed
  · have hnearer := next_le hrank hlength hlt
    have hdecimal : |size rank - (floorOf rank (orderOf rank - count) + 1 : Nat) *
        10 ^ (orderOf rank - count)| ≤ |size rank - decimal.value| := by
      rw [abs_of_neg (by linarith), abs_of_neg (by linarith)]
      linarith
    rcases onGrid_cases hhit with ⟨rfl, hside | hmissed⟩ | ⟨rfl, -⟩
    · exact (hlower hside).trans hdecimal
    · exact absurd (habove hlt) hmissed
    · exact hdecimal

/-! ### Seventeen digits -/

/-- With seventeen digits the nearer of the two decimals is near enough. -/
theorem exists_onGrid_seventeen (hrank : 0 < rank) (hfinite : rank < infinityRank) :
    ∃ hit, onGrid rank (orderOf rank - 16) = some hit := by
  obtain ⟨hfloor, hnext⟩ := floorOf_bounds rank (orderOf rank - 16)
  have hfine : 10 ^ 16 * (10 : ℚ) ^ (orderOf rank - 16) ≤ size rank := by
    rw [← zpow_natCast, ← zpow_add₀ (by norm_num)]
    simpa using (orderOf_bounds hrank).1
  have hreads {count : Nat}
      (hnear : 2 * |count * 10 ^ (orderOf rank - 16) - size rank| ≤ 10 ^ (orderOf rank - 16)) :
      (⟨count, orderOf rank - 16⟩ : Decimal).ReadsAs rank := by
    refine readsAs_iff.2 (.of_near hfinite.le fun other hother => ?_)
    have hgap := Double.size_le_mul_abs_sub hother.symm
    have hpositive := Double.size_pos hrank
    rw [value]
    norm_num at hfine hgap
    linarith
  refine exists_onGrid ?_
  rw [Nat.cast_succ] at hnext
  rcases le_total (2 * size rank)
    ((2 * floorOf rank (orderOf rank - 16) + 1) * 10 ^ (orderOf rank - 16)) with hlower | hupper
  · refine .inl (hreads ?_)
    rw [abs_of_nonpos (by linarith)]
    linarith
  · refine .inr (hreads ?_)
    rw [Nat.cast_succ, abs_of_nonneg (by linarith)]
    linarith

/-! ### The search -/

/-- A search that meets a hit ends with the first one. -/
theorem firstOnGrid_spec {lengths : Nat}
    (h : ∃ count < lengths, ∃ hit, onGrid rank (power - (count : Nat)) = some hit) :
    ∃ (count : Nat) (hit : Decimal), firstOnGrid rank lengths power = some hit ∧
      onGrid rank (power - count) = some hit ∧
        ∀ less < count, onGrid rank (power - (less : Nat)) = none := by
  induction lengths generalizing power with
  | zero =>
      obtain ⟨count, hcount, -⟩ := h
      exact absurd hcount (Nat.not_lt_zero _)
  | succ lengths ih =>
      cases hfirst : onGrid rank power with
      | some hit => exact ⟨0, hit, by rw [firstOnGrid, hfirst], by simpa using hfirst, by simp⟩
      | none =>
          have hshift (count : Nat) : power - 1 - (count : Int) = power - (count + 1 : Nat) := by
            push_cast
            ring
          obtain ⟨count, hcount, hit, hhit⟩ := h
          cases count with
          | zero =>
              rw [Nat.cast_zero, sub_zero, hfirst] at hhit
              cases hhit
          | succ count =>
              have hlater : onGrid rank (power - 1 - count) = some hit := by rwa [hshift]
              obtain ⟨found, hit, hsearch, hfound, hless⟩ :=
                ih ⟨count, Nat.lt_of_succ_lt_succ hcount, hit, hlater⟩
              refine ⟨found + 1, hit, by rw [firstOnGrid, hfirst]; exact hsearch,
                by rwa [← hshift], fun less hlt => ?_⟩
              cases less with
              | zero => simpa using hfirst
              | succ less => exact hshift less ▸ hless less (Nat.lt_of_succ_lt_succ hlt)

/-- The shortest decimal is the first hit. -/
theorem exists_shortest_onGrid (hrank : 0 < rank) (hfinite : rank < infinityRank) :
    ∃ count : Nat, onGrid rank (orderOf rank - count) = some (shortest rank) ∧
      ∀ less < count, onGrid rank (orderOf rank - (less : Nat)) = none := by
  have hhits : ∃ count < 17, ∃ hit, onGrid rank (orderOf rank - (count : Nat)) = some hit :=
    ⟨16, by decide, exists_onGrid_seventeen hrank hfinite⟩
  obtain ⟨count, hit, hsearch, hhit, hless⟩ := firstOnGrid_spec hhits
  have hshortest : shortest rank = hit := by
    change (firstOnGrid rank 17 (orderOf rank)).getD (exact rank) = hit
    rw [hsearch, Option.getD_some]
  exact ⟨count, hshortest ▸ hhit, hless⟩

/-- A hit has at most as many digits as its grid, or it is the power of ten that follows. -/
theorem digits_le_of_onGrid (hrank : 0 < rank) {count : Nat} {hit : Decimal}
    (hhit : onGrid rank (orderOf rank - count) = some hit) : hit.digits ≤ 10 ^ (count + 1) := by
  have hunit : (0 : ℚ) < 10 ^ (orderOf rank - count) := by positivity
  have hfloor : floorOf rank (orderOf rank - count) < 10 ^ (count + 1) := by
    have hlt := (floorOf_bounds rank (orderOf rank - count)).1.trans_lt (orderOf_bounds hrank).2
    rw [show orderOf rank + 1 = (count + 1 : Nat) + (orderOf rank - count) by push_cast; ring,
      zpow_add₀ (by norm_num), zpow_natCast] at hlt
    exact_mod_cast lt_of_mul_lt_mul_right hlt hunit.le
  rcases onGrid_cases hhit with ⟨rfl, -⟩ | ⟨rfl, -⟩
  · exact hfloor.le
  · exact hfloor

/-- Without the zeros at its end the shortest decimal has the fewest digits of all that round
to the magnitude. -/
theorem isShortest_of_trimmed (hrank : 0 < rank) (hfinite : rank < infinityRank)
    {digits zeros : Nat} (hdigits : (shortest rank).digits = digits * 10 ^ zeros)
    (hlast : digits % 10 ≠ 0) :
    IsShortest ⟨digits, (shortest rank).exponent + zeros⟩ rank := by
  obtain ⟨count, hhit, hless⟩ := exists_shortest_onGrid hrank hfinite
  have hvalue : (⟨digits, (shortest rank).exponent + zeros⟩ : Decimal).value =
      (shortest rank).value := by
    rw [value, value, hdigits, zpow_add₀ (by norm_num), zpow_natCast]
    push_cast
    ring
  have hlength : (⟨digits, (shortest rank).exponent + zeros⟩ : Decimal).length ≤ count + 1 := by
    have hle := digits_le_of_onGrid hrank hhit
    rw [hdigits] at hle
    rw [length_le_iff (Nat.succ_pos _)]
    refine lt_of_le_of_ne ((Nat.le_mul_of_pos_right _ (by positivity)).trans hle) fun heq => ?_
    -- The power of ten that follows would end with a zero.
    rw [show digits = 10 ^ (count + 1) from heq, pow_succ, Nat.mul_mod_left] at hlast
    exact hlast rfl
  refine ⟨hvalue ▸ readsAs_iff.1 (readsAs_shortest hrank hfinite), fun other hother => ?_,
    fun other hother hsame => ?_⟩
  · refine hlength.trans (Nat.succ_le_of_lt (Nat.lt_of_not_le fun hfewer => ?_))
    -- A decimal with fewer digits would have been met before.
    obtain ⟨less, hless'⟩ := Nat.exists_eq_succ_of_ne_zero
      (Nat.length_toDigits_pos (b := 10) (n := other.digits)).ne'
    have hother' : other.digits < 10 ^ (less + 1) := (length_le_iff (Nat.succ_pos _)).1 hless'.le
    obtain ⟨hit, hearlier⟩ := exists_onGrid_of_roundsTo hrank hfinite hother' hother
    rw [hless less (lt_of_lt_of_le (Nat.lt_succ_self _) (hless' ▸ hfewer))] at hearlier
    cases hearlier
  · rw [hvalue]
    exact nearest_of_onGrid hrank hfinite
      ((length_le_iff (Nat.succ_pos _)).1 (hsame.trans_le hlength)) hother hhit

end Decimal

end SignedMessaging
