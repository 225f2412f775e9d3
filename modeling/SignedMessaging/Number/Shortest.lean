import SignedMessaging.Number.Rounding

/-!
# Shortest decimals

The shortest decimal of a double is the one with the fewest significant digits
that rounds to it, and among those of that length the one nearest to it; an
exact tie goes to the even last digit.  For each length only the two decimals
next to the number need a trial, one at most the number and one above it.
-/

namespace SignedMessaging

/-- The number `digits * 10 ^ exponent`. -/
structure Decimal where
  digits : Nat
  exponent : Int
deriving DecidableEq

namespace Decimal

/-- Whether `10 ^ power` is at most the quotient. -/
def reachesPower (numerator denominator : Nat) (power : Int) : Bool :=
  decide (denominator * Nat.pow 10 power.toNat ≤ numerator * Nat.pow 10 (-power).toNat)

/-- Lower `power` until the quotient reaches that power of ten, at most `steps` times. -/
def orderFrom (numerator denominator : Nat) : Nat → Int → Int
  | 0, power => power
  | steps + 1, power =>
      if reachesPower numerator denominator power then power
      else orderFrom numerator denominator steps (power - 1)

/-- The greatest power of ten that a positive quotient reaches.  The length of
the integer part gives it for a quotient of one or more. -/
def order (numerator denominator : Nat) : Int :=
  let whole := numerator / denominator
  if whole = 0 then orderFrom numerator denominator 324 (-1)
  else ((Nat.toDigits 10 whole).length : Int) - 1

/-- The whole multiples of `10 ^ power` in a quotient, and what twice the
remainder is against the unit. -/
def below (numerator denominator : Nat) (power : Int) : Nat × Ordering :=
  let scaled := numerator * Nat.pow 10 (-power).toNat
  let unit := denominator * Nat.pow 10 power.toNat
  (scaled / unit, compare (2 * (scaled % unit)) unit)

/-- The decimal in multiples of `10 ^ power` that rounds to the magnitude of
this rank and lies nearest to it. -/
def onGrid (rank : Nat) (power : Int) : Option Decimal :=
  let (numerator, denominator) := Double.ratio rank
  let (floor, side) := below numerator denominator power
  let reads (n : Nat) : Bool := (Double.ofDecimal false n power).rank == rank
  let up := match side with
    | .lt => false
    | .eq => floor % 2 == 1
    | .gt => true
  match reads floor, reads (floor + 1) with
  | true, true => some ⟨if up then floor + 1 else floor, power⟩
  | true, false => some ⟨floor, power⟩
  | false, true => some ⟨floor + 1, power⟩
  | false, false => none

/-- The first hit among `lengths` grids, each ten times finer than the last. -/
def firstOnGrid (rank : Nat) : Nat → Int → Option Decimal
  | 0, _ => none
  | lengths + 1, power =>
      match onGrid rank power with
      | some decimal => some decimal
      | none => firstOnGrid rank lengths (power - 1)

/-- The decimal that equals a finite magnitude: halving costs one digit each time. -/
def exact (rank : Nat) : Decimal :=
  let exponent := Double.exponent rank
  ⟨Double.significand rank * Nat.pow 2 exponent.toNat * Nat.pow 5 (-exponent).toNat,
    min exponent 0⟩

/-- The shortest decimal of the finite magnitude of this rank.  Seventeen digits
tell any two doubles apart, so the exact decimal stands only for lack of a hit. -/
def shortest (rank : Nat) : Decimal :=
  let (numerator, denominator) := Double.ratio rank
  (firstOnGrid rank 17 (order numerator denominator)).getD (exact rank)

end Decimal

end SignedMessaging
