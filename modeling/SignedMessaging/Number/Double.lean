/-!
# Double-precision numbers

A double is a sign and the rank of its magnitude.  The magnitudes, in
increasing order, are the multiples of the least positive one below `2 ^ 53`
of them, then the numbers of 53 significant bits, then infinity, then the
values that are no number; the rank is the place in that order, which is also
the magnitude's own 63 bits.  Sizes are exact: a finite magnitude is
`significand * 2 ^ exponent`.
-/

namespace SignedMessaging

/-- The magnitudes below this rank are finite; it is the rank of infinity. -/
def infinityRank : Nat := 2047 * 4503599627370496

/-- A number of 64 bits: a sign and the place of its magnitude. -/
structure Double where
  negative : Bool
  rank : Nat
  rank_lt : rank < 9223372036854775808
deriving DecidableEq

namespace Double

/-- Positive and negative zero. -/
def zero (negative : Bool) : Double := ⟨negative, 0, by decide⟩

/-- Positive and negative infinity. -/
def infinity (negative : Bool) : Double := ⟨negative, infinityRank, by decide⟩

/-- The value that is no number. -/
def notANumber : Double := ⟨false, infinityRank + 2251799813685248, by decide⟩

def isFinite (x : Double) : Bool := decide (x.rank < infinityRank)

def isInfinite (x : Double) : Bool := decide (x.rank = infinityRank)

def isNotANumber (x : Double) : Bool := decide (infinityRank < x.rank)

/-- The integer part of a magnitude's exact size: its 53 bits. -/
def significand (rank : Nat) : Nat :=
  if rank < 4503599627370496 then rank
  else 4503599627370496 + rank % 4503599627370496

theorem significand_lt (rank : Nat) : significand rank < 9007199254740992 := by
  unfold significand
  split <;> omega

/-- The power of two that scales the significand. -/
def exponent (rank : Nat) : Int :=
  if rank < 4503599627370496 then -1074
  else (rank / 4503599627370496 : Nat) - 1075

/-- A finite magnitude as a quotient of two whole numbers. -/
def ratio (rank : Nat) : Nat × Nat :=
  (significand rank * Nat.pow 2 (exponent rank).toNat, Nat.pow 2 (-exponent rank).toNat)

/-- A finite number without its fraction. -/
def truncate (x : Double) : Int :=
  let (numerator, denominator) := ratio x.rank
  let whole : Int := (numerator / denominator : Nat)
  if x.negative then -whole else whole

/-- The integer that a number equals, if it equals one. -/
def integer? (x : Double) : Option Int :=
  let (numerator, denominator) := ratio x.rank
  if x.isFinite ∧ numerator % denominator = 0 then some x.truncate else none

/-- Equality of numbers: zero equals zero whatever the signs, and a value
that is no number equals nothing. -/
def same (x y : Double) : Bool :=
  !x.isNotANumber && !y.isNotANumber &&
    (decide (x.rank = 0 ∧ y.rank = 0) || decide (x = y))

end Double

end SignedMessaging
