import SignedMessaging.Number.Shortest
import SignedMessaging.Proofs.Number.Rounding

/-!
# The shortest decimal reads back

Whatever decimal the search for the shortest one ends with is rounded to the magnitude
that was looked for: a hit on a grid has been tried, and the exact decimal, which is
taken for lack of a hit, is the magnitude itself.
-/

namespace SignedMessaging.Decimal

open Double (ofDecimal)

variable {rank : Nat}

/-- Whether a decimal is rounded to the magnitude of a rank. -/
def ReadsAs (decimal : Decimal) (rank : Nat) : Prop :=
  (ofDecimal false decimal.digits decimal.exponent).rank = rank

/-- If both neighbours are rounded to a magnitude, it does not matter which is taken. -/
theorem readsAs_choice {floor : Nat} {power : Int} (up : Bool)
    (hfloor : (⟨floor, power⟩ : Decimal).ReadsAs rank)
    (hnext : (⟨floor + 1, power⟩ : Decimal).ReadsAs rank) :
    (⟨if up then floor + 1 else floor, power⟩ : Decimal).ReadsAs rank := by
  cases up
  · exact hfloor
  · exact hnext

theorem readsAs_of_onGrid {power : Int} {decimal : Decimal}
    (h : onGrid rank power = some decimal) : decimal.ReadsAs rank := by
  simp only [onGrid] at h
  split at h
  · next hfloor hnext =>
    cases h
    exact readsAs_choice _ (beq_iff_eq.1 hfloor) (beq_iff_eq.1 hnext)
  · next hfloor _ =>
    cases h
    exact beq_iff_eq.1 hfloor
  · next _ hnext =>
    cases h
    exact beq_iff_eq.1 hnext
  · cases h

theorem readsAs_of_firstOnGrid {lengths : Nat} {power : Int} {decimal : Decimal}
    (h : firstOnGrid rank lengths power = some decimal) : decimal.ReadsAs rank := by
  induction lengths generalizing power with
  | zero => cases h
  | succ lengths ih =>
      simp only [firstOnGrid] at h
      split at h
      · next hhit =>
        cases h
        exact readsAs_of_onGrid hhit
      · exact ih h

theorem readsAs_exact (hrank : 0 < rank) (hfinite : rank < infinityRank) :
    (exact rank).ReadsAs rank := by
  obtain ⟨hn, hd⟩ := Rounding.ratio_pos hrank
  have hsignificand := Rounding.significand_pos hrank
  have hdigits : 0 < Double.significand rank * 2 ^ (Double.exponent rank).toNat *
      5 ^ (-Double.exponent rank).toNat := by positivity
  have hpositive : (min (Double.exponent rank) 0).toNat = 0 := by omega
  have hnegative : (-min (Double.exponent rank) 0).toNat = (-Double.exponent rank).toNat := by
    omega
  rw [ReadsAs, Double.ofDecimal_eq_ofRatio]
  simp only [exact, Nat.pow_eq, hpositive, hnegative, pow_zero, Nat.mul_one, Double.ofRatio,
    if_neg hdigits.ne']
  -- The two quotients differ by the powers of two that tens have over fives.
  refine Eq.trans ?_ (Rounding.rank_ratio hrank hfinite)
  refine Rounding.rank_congr hdigits (by positivity) hn hd ?_
  simp only [Double.ratio, Nat.pow_eq]
  rw [Nat.mul_assoc, ← Nat.mul_pow]

/-- The shortest decimal of a finite magnitude is rounded to that magnitude. -/
theorem readsAs_shortest (hrank : 0 < rank) (hfinite : rank < infinityRank) :
    (shortest rank).ReadsAs rank := by
  simp only [shortest]
  cases h : firstOnGrid rank 17 (order (Double.ratio rank).1 (Double.ratio rank).2) with
  | none => exact readsAs_exact hrank hfinite
  | some decimal => exact readsAs_of_firstOnGrid h

theorem digits_pos_of_readsAs {decimal : Decimal} (hrank : 0 < rank)
    (h : decimal.ReadsAs rank) : 0 < decimal.digits := by
  rcases Nat.eq_zero_or_pos decimal.digits with hzero | hpos
  · rw [ReadsAs, hzero] at h
    exact absurd h hrank.ne
  · exact hpos

/-- The decimal of a double with its sign is the double. -/
theorem ofDecimal_of_readsAs {decimal : Decimal} {x : Double} (h : decimal.ReadsAs x.rank) :
    ofDecimal x.negative decimal.digits decimal.exponent = x := by
  have hrank : (ofDecimal x.negative decimal.digits decimal.exponent).rank = x.rank :=
    (Double.ofDecimal_rank ..).trans h
  have hnegative := Double.ofDecimal_negative x.negative decimal.digits decimal.exponent
  cases hread : ofDecimal x.negative decimal.digits decimal.exponent with
  | mk negative rank rank_lt =>
      rw [hread] at hrank hnegative
      cases x
      cases hrank
      cases hnegative
      rfl

end SignedMessaging.Decimal
