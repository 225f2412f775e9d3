import SignedMessaging.Number.Shortest

/-!
# Decimal text of doubles

A finite double is written by its shortest decimal.  A layout says for which
decimal exponents the point stands among the digits, and how wide an exponent
is written otherwise.  Positional text has a digit on each side of the point;
scientific text has one digit before it, no point after a lone digit, and an
exponent with a sign.
-/

namespace SignedMessaging

/-- How the text of a double is laid out. -/
structure Layout where
  leastPositional : Int
  greatestPositional : Int
  exponentWidth : Nat

namespace Layout

/-- The digits of a decimal without the zeros that end it. -/
def significant (digits : Nat) : List Char :=
  ((Nat.toDigits 10 digits).reverse.dropWhile (· == '0')).reverse

/-- The point among the digits of a number of decimal exponent `exponent`. -/
def positional (digits : List Char) (exponent : Int) : List Char :=
  if exponent < 0 then
    '0' :: '.' :: List.replicate (-exponent - 1).toNat '0' ++ digits
  else
    let whole := exponent.toNat + 1
    if digits.length ≤ whole then
      digits ++ List.replicate (whole - digits.length) '0' ++ ['.', '0']
    else digits.take whole ++ '.' :: digits.drop whole

/-- An exponent with its sign, filled with zeros to the layout's width. -/
def exponentText (width : Nat) (exponent : Int) : List Char :=
  let digits := Nat.toDigits 10 exponent.natAbs
  (if exponent < 0 then '-' else '+') :: List.replicate (width - digits.length) '0' ++ digits

/-- One digit, the others after a point, and the exponent. -/
def scientific (width : Nat) (digits : List Char) (exponent : Int) : List Char :=
  let fraction := digits.drop 1
  digits.take 1 ++ (if fraction = [] then [] else '.' :: fraction) ++
    'e' :: exponentText width exponent

/-- The text of a positive finite magnitude. -/
def magnitude (layout : Layout) (rank : Nat) : List Char :=
  let decimal := Decimal.shortest rank
  let exponent := decimal.exponent + (Nat.toDigits 10 decimal.digits).length - 1
  let digits := significant decimal.digits
  if layout.leastPositional ≤ exponent ∧ exponent ≤ layout.greatestPositional then
    positional digits exponent
  else scientific layout.exponentWidth digits exponent

/-- The text of a finite double; the sign of zero is kept. -/
def text (layout : Layout) (x : Double) : List Char :=
  (if x.negative then ['-'] else []) ++
    if x.rank = 0 then ['0', '.', '0'] else layout.magnitude x.rank

end Layout

end SignedMessaging
