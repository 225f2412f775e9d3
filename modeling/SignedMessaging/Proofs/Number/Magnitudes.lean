import Mathlib.Order.Monotone.Basic
import Mathlib.Tactic.FieldSimp
import SignedMessaging.Proofs.Number.Rounding

/-!
# The sizes of magnitudes

A magnitude is the exact number that its 63 bits denote: eleven bits of an exponent and 52
of a fraction behind a leading bit, which is one except under the least exponent.  The
significand and the exponent of a rank write the same number (`size_eq`).

From one rank to the next the size grows by one unit of the lower rank's exponent
(`size_succ`).  So the sizes grow with the ranks, and they lie no closer together than one
part in `2 ^ 53` (`size_le_mul_abs_sub`), which the narrow side of a power of two attains.
-/

namespace SignedMessaging.Double

/-- The number that the 63 bits of a magnitude denote.  At the rank of infinity this is
`2 ^ 1024`, where the next finite magnitude would stand. -/
def size (rank : Nat) : ℚ :=
  if rank / 2 ^ 52 = 0 then ((rank % 2 ^ 52 : Nat) : ℚ) / 2 ^ 52 * 2 ^ (-1022 : Int)
  else (1 + ((rank % 2 ^ 52 : Nat) : ℚ) / 2 ^ 52) * 2 ^ (((rank / 2 ^ 52 : Nat) : Int) - 1023)

/-- A size is a whole number of units. -/
theorem size_eq (rank : Nat) : size rank = significand rank * 2 ^ exponent rank := by
  have hshift (power : Int) : (2 : ℚ) ^ (power + 52) = 2 ^ 52 * 2 ^ power := by
    rw [zpow_add₀ two_ne_zero, mul_comm]
    norm_cast
  by_cases hsubnormal : rank < 4503599627370496
  · rw [size, if_pos (by omega), significand, if_pos hsubnormal, exponent, if_pos hsubnormal,
      Nat.mod_eq_of_lt (by omega), show (-1022 : Int) = -1074 + 52 by norm_num, hshift]
    field_simp
  · rw [size, if_neg (by omega), significand, if_neg hsubnormal, exponent, if_neg hsubnormal,
      show ((rank / 2 ^ 52 : Nat) : Int) - 1023 = (rank / 4503599627370496 : Nat) - 1075 + 52 by
        omega, hshift]
    push_cast
    field_simp
    norm_num

theorem size_pos {rank : Nat} (hrank : 0 < rank) : 0 < size rank := by
  have hsignificand : (0 : ℚ) < significand rank := by
    exact_mod_cast Rounding.significand_pos hrank
  rw [size_eq]
  positivity

theorem size_zero : size 0 = 0 := by
  simp [size]

theorem exponent_ge (rank : Nat) : -1074 ≤ exponent rank := by
  unfold exponent
  split <;> omega

/-- The next magnitude has one unit more, or it is the first one of twice the unit. -/
theorem significand_succ (rank : Nat) :
    (significand (rank + 1) = significand rank + 1 ∧ exponent (rank + 1) = exponent rank) ∨
      (2 * significand (rank + 1) = significand rank + 1 ∧
        exponent (rank + 1) = exponent rank + 1) := by
  unfold significand exponent
  split <;> split <;> omega

theorem size_succ (rank : Nat) : size (rank + 1) = size rank + 2 ^ exponent rank := by
  rw [size_eq, size_eq]
  rcases significand_succ rank with ⟨hsignificand, hexponent⟩ | ⟨hsignificand, hexponent⟩
  · rw [hsignificand, hexponent]
    push_cast
    ring
  · have hdouble : 2 * (significand (rank + 1) : ℚ) = significand rank + 1 := by
      exact_mod_cast hsignificand
    rw [hexponent, zpow_add_one₀ two_ne_zero]
    calc (significand (rank + 1) : ℚ) * (2 ^ exponent rank * 2)
        = 2 * significand (rank + 1) * 2 ^ exponent rank := by ring
      _ = significand rank * 2 ^ exponent rank + 2 ^ exponent rank := by rw [hdouble]; ring

theorem size_strictMono : StrictMono size := by
  refine strictMono_nat_of_lt_succ fun rank => ?_
  rw [size_succ]
  exact lt_add_of_pos_right _ (by positivity)

/-- Two magnitudes differ by at least one part in `2 ^ 53` of either. -/
theorem size_le_mul_abs_sub {rank other : Nat} (h : rank ≠ other) :
    size rank ≤ 2 ^ 53 * |size rank - size other| := by
  have hunits (r : Nat) : ((significand r : ℚ) + 1) * 2 ^ exponent r ≤ 2 ^ 53 * 2 ^ exponent r := by
    gcongr
    exact_mod_cast significand_lt r
  rcases Nat.lt_or_gt_of_ne h with habove | hbelow
  · -- Above, the nearest magnitude is one unit away.
    have hnext := size_strictMono.monotone (Nat.succ_le_of_lt habove)
    rw [Nat.succ_eq_add_one, size_succ] at hnext
    rw [abs_sub_comm, abs_of_nonneg (by linarith [size_strictMono habove])]
    calc size rank ≤ (significand rank + 1) * 2 ^ exponent rank := by
          rw [size_eq]
          gcongr
          linarith
      _ ≤ 2 ^ 53 * 2 ^ exponent rank := hunits rank
      _ ≤ 2 ^ 53 * (size other - size rank) := by
          gcongr
          linarith
  · -- Below, it is one unit of its own away, which may be half a unit of this one.
    obtain ⟨below, rfl⟩ := Nat.exists_eq_succ_of_ne_zero (Nat.ne_zero_of_lt hbelow)
    have hnext := size_strictMono.monotone (Nat.le_of_lt_succ hbelow)
    rw [abs_of_nonneg (by linarith [size_strictMono hbelow])]
    rw [Nat.succ_eq_add_one, size_succ]
    calc size below + 2 ^ exponent below = (significand below + 1) * 2 ^ exponent below := by
          rw [size_eq]
          ring
      _ ≤ 2 ^ 53 * 2 ^ exponent below := hunits below
      _ ≤ 2 ^ 53 * (size below + 2 ^ exponent below - size other) := by
          gcongr
          linarith

/-- A magnitude counted in units: with so many that the leading bit is set, or in the least
unit.  Twice the leading bit is the first magnitude of the next unit. -/
theorem size_of_units {units steps : Nat} (hupper : units ≤ 9007199254740992)
    (hlower : steps = 0 ∨ 4503599627370496 ≤ units) :
    size (units + steps * 4503599627370496) = units * 2 ^ ((steps : Int) - 1074) := by
  rw [size_eq]
  rcases Nat.lt_or_eq_of_le hupper with hlt | rfl
  · have hsignificand : significand (units + steps * 4503599627370496) = units := by
      unfold significand
      split <;> omega
    have hexponent : exponent (units + steps * 4503599627370496) = steps - 1074 := by
      unfold exponent
      split <;> omega
    rw [hsignificand, hexponent]
  · have hsignificand : significand (9007199254740992 + steps * 4503599627370496) =
        4503599627370496 := by
      unfold significand
      split <;> omega
    have hexponent : exponent (9007199254740992 + steps * 4503599627370496) =
        steps - 1074 + 1 := by
      unfold exponent
      split <;> omega
    rw [hsignificand, hexponent, zpow_add_one₀ two_ne_zero]
    push_cast
    ring

end SignedMessaging.Double
