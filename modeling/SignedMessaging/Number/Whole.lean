/-!
# Decimal text of integers

An integer is written with the fewest decimal digits, a minus sign before a
negative one.  Texts that an application gets to see have a limit to the digits
of one integer; JSON has none.
-/

namespace SignedMessaging.Whole

/-- The decimal digits of an integer, with the sign of a negative one. -/
def text (n : Int) : List Char :=
  (if n < 0 then ['-'] else []) ++ Nat.toDigits 10 n.natAbs

/-- The number of digits that an integer may have in a text. -/
def digitLimit : Nat := 4300

/-- Whether an integer has more digits than a text may show. -/
def tooLong (n : Int) : Bool :=
  decide (digitLimit < (Nat.toDigits 10 n.natAbs).length)

end SignedMessaging.Whole
