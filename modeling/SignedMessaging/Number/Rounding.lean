import SignedMessaging.Number.Double

/-!
# Rounding to a double

Every quotient of whole numbers has a nearest double; of two equally near ones
the one with the even significand is taken, and magnitudes half a unit or more
above the greatest finite one go to infinity.  A decimal `digits * 10 ^ exponent`
is rounded as the quotient that it is, however long it is written.
-/

namespace SignedMessaging

namespace Rounding

/-- The whole number nearest to a quotient; a half goes to the even neighbour. -/
def nearest (numerator denominator : Nat) : Nat :=
  let quotient := numerator / denominator
  let twice := 2 * (numerator % denominator)
  if twice < denominator ∨ (twice = denominator ∧ quotient % 2 = 0) then quotient
  else quotient + 1

/-- Whether `2 ^ power` is at most the quotient. -/
def reachesPower (numerator denominator : Nat) (power : Int) : Bool :=
  decide (denominator * Nat.pow 2 power.toNat ≤ numerator * Nat.pow 2 (-power).toNat)

/-- The greatest power of two that a positive quotient reaches. -/
def binaryOrder (numerator denominator : Nat) : Int :=
  let guess : Int := (numerator.log2 : Int) - denominator.log2
  if reachesPower numerator denominator guess then guess else guess - 1

/-- The spacing of the doubles about a positive quotient, as a power of two. -/
def spacing (numerator denominator : Nat) : Int :=
  max (-1074) (binaryOrder numerator denominator - 52)

/-- The rank of the magnitude nearest to a positive quotient. -/
def rank (numerator denominator : Nat) : Nat :=
  let power := spacing numerator denominator
  let units := nearest (numerator * Nat.pow 2 (-power).toNat) (denominator * Nat.pow 2 power.toNat)
  min infinityRank (units + (power + 1074).toNat * 4503599627370496)

theorem rank_le (numerator denominator : Nat) : rank numerator denominator ≤ infinityRank :=
  Nat.min_le_left _ _

end Rounding

namespace Double

/-- The double nearest to a signed quotient of whole numbers. -/
def ofRatio (negative : Bool) (numerator denominator : Nat) : Double :=
  if numerator = 0 then zero negative
  else
    ⟨negative, Rounding.rank numerator denominator,
      Nat.lt_of_le_of_lt (Rounding.rank_le numerator denominator) (by decide)⟩

/-- The double nearest to an integer. -/
def ofInt (n : Int) : Double := ofRatio (decide (n < 0)) n.natAbs 1

/-- The double nearest to `digits * 10 ^ exponent`.  A power of ten from 309 on
is above every finite double, and a decimal below `2 ^ -1075` goes to zero;
only what lies between is worked out. -/
def ofDecimal (negative : Bool) (digits : Nat) (exponent : Int) : Double :=
  if digits = 0 then zero negative
  else if 309 ≤ exponent then infinity negative
  else if (digits.log2 : Int) + 1 + 3 * exponent ≤ -1075 then zero negative
  else ofRatio negative (digits * Nat.pow 10 exponent.toNat) (Nat.pow 10 (-exponent).toNat)

end Double

end SignedMessaging
