import SignedMessaging.Json.Reader
import SignedMessaging.Number.Rounding
import SignedMessaging.Value.Basic

/-!
# JSON numbers

A number is an optional minus sign, digits without a needless leading zero, an
optional fraction and an optional exponent.  Without the last two it is an
integer, kept exactly from `-2 ^ 63` up to below `2 ^ 64`; any other number is
the double nearest to it, which has to be finite.
-/

namespace SignedMessaging.Json

/-- A number as it is written. -/
structure NumberLiteral where
  negative : Bool
  whole : List Char
  fraction : Option (List Char)
  exponent : Option Int

namespace NumberLiteral

/-- Whether an integer keeps its kind in JSON. -/
def fitsInteger (n : Int) : Bool :=
  decide (-9223372036854775808 ≤ n ∧ n ≤ 18446744073709551615)

/-- The double that a literal with a fraction or an exponent is rounded to. -/
def double (literal : NumberLiteral) : Double :=
  let fraction := literal.fraction.getD []
  Double.ofDecimal literal.negative (Nat.ofDigitChars 10 (literal.whole ++ fraction) 0)
    (literal.exponent.getD 0 - fraction.length)

/-- The integer that a literal without fraction and exponent denotes. -/
def integer (literal : NumberLiteral) : Int :=
  let magnitude : Int := Nat.ofDigitChars 10 literal.whole 0
  if literal.negative then -magnitude else magnitude

/-- A finite double as a value. -/
def finite? (x : Double) : Option Value :=
  if x.isFinite then some (.float x) else none

/-- The value that a literal denotes, unless it is beyond the doubles. -/
def value? (literal : NumberLiteral) : Option Value :=
  if literal.fraction = none ∧ literal.exponent = none then
    if fitsInteger literal.integer then some (.int literal.integer)
    else finite? (Double.ofInt literal.integer)
  else finite? literal.double

end NumberLiteral

/-- An optional minus sign. -/
def minusSign : List Char → Bool × List Char
  | '-' :: rest => (true, rest)
  | cs => (false, cs)

/-- Digits without a needless leading zero. -/
def wholeDigits (cs : List Char) : Option (List Char × List Char) :=
  match cs.takeWhile Char.isDigit with
  | [] => none
  | first :: more =>
      if first = '0' ∧ more ≠ [] then none
      else some (first :: more, cs.dropWhile Char.isDigit)

/-- At least one digit. -/
def someDigits (cs : List Char) : Option (List Char × List Char) :=
  match cs.takeWhile Char.isDigit with
  | [] => none
  | first :: more => some (first :: more, cs.dropWhile Char.isDigit)

/-- An optional fraction: a point and digits. -/
def fractionPart : List Char → Option (Option (List Char) × List Char)
  | '.' :: rest => (someDigits rest).map fun (digits, rest) => (some digits, rest)
  | cs => some (none, cs)

/-- An optional sign of an exponent, and whether it is a minus. -/
def exponentSign : List Char → Bool × List Char
  | '-' :: rest => (true, rest)
  | '+' :: rest => (false, rest)
  | cs => (false, cs)

/-- An optional exponent: a letter e, a sign and digits. -/
def exponentPart (cs : List Char) : Option (Option Int × List Char) :=
  match cs with
  | [] => some (none, [])
  | c :: rest =>
      if c = 'e' ∨ c = 'E' then
        let sign := exponentSign rest
        (someDigits sign.2).map fun (digits, rest) =>
          let magnitude : Int := Nat.ofDigitChars 10 digits 0
          (some (if sign.1 then -magnitude else magnitude), rest)
      else some (none, c :: rest)

/-- A number as it is written. -/
def numberLiteral (cs : List Char) : Option (NumberLiteral × List Char) :=
  match wholeDigits (minusSign cs).2 with
  | none => none
  | some (whole, afterWhole) =>
      match fractionPart afterWhole with
      | none => none
      | some (fraction, afterFraction) =>
          match exponentPart afterFraction with
          | none => none
          | some (exponent, rest) => some (⟨(minusSign cs).1, whole, fraction, exponent⟩, rest)

theorem minusSign_length_le (cs : List Char) : (minusSign cs).2.length ≤ cs.length := by
  unfold minusSign
  split <;> simp

theorem length_dropWhile_digits {cs : List Char} {first : Char} {more : List Char}
    (h : cs.takeWhile Char.isDigit = first :: more) :
    (cs.dropWhile Char.isDigit).length < cs.length := by
  have whole := congrArg List.length (List.takeWhile_append_dropWhile (p := Char.isDigit) (l := cs))
  rw [h, List.length_append, List.length_cons] at whole
  omega

theorem wholeDigits_shortens {cs digits rest : List Char}
    (h : wholeDigits cs = some (digits, rest)) : rest.length < cs.length := by
  unfold wholeDigits at h
  split at h
  · cases h
  · next hdigits =>
      split at h
      · cases h
      · cases h
        exact length_dropWhile_digits hdigits

theorem someDigits_shortens {cs digits rest : List Char}
    (h : someDigits cs = some (digits, rest)) : rest.length < cs.length := by
  unfold someDigits at h
  split at h
  · cases h
  · next hdigits =>
      cases h
      exact length_dropWhile_digits hdigits

theorem fractionPart_length_le {cs rest : List Char} {fraction : Option (List Char)}
    (h : fractionPart cs = some (fraction, rest)) : rest.length ≤ cs.length := by
  unfold fractionPart at h
  split at h
  · obtain ⟨⟨digits, final⟩, hdigits, heq⟩ := Option.map_eq_some_iff.1 h
    cases heq
    have := someDigits_shortens hdigits
    simp only [List.length_cons]
    omega
  · cases h
    exact Nat.le_refl _

theorem exponentSign_length_le (cs : List Char) : (exponentSign cs).2.length ≤ cs.length := by
  unfold exponentSign
  split <;> simp

theorem exponentPart_length_le {cs rest : List Char} {exponent : Option Int}
    (h : exponentPart cs = some (exponent, rest)) : rest.length ≤ cs.length := by
  unfold exponentPart at h
  split at h
  · cases h
    exact Nat.le_refl _
  · next c after =>
      split at h
      · obtain ⟨⟨digits, final⟩, hdigits, heq⟩ := Option.map_eq_some_iff.1 h
        cases heq
        have first := exponentSign_length_le after
        have second := someDigits_shortens hdigits
        simp only [List.length_cons]
        omega
      · cases h
        exact Nat.le_refl _

theorem numberLiteral_shortens {cs rest : List Char} {literal : NumberLiteral}
    (h : numberLiteral cs = some (literal, rest)) : rest.length < cs.length := by
  unfold numberLiteral at h
  have sign := minusSign_length_le cs
  split at h
  · cases h
  · next hwhole =>
      have whole := wholeDigits_shortens hwhole
      split at h
      · cases h
      · next hfraction =>
          have fraction := fractionPart_length_le hfraction
          split at h
          · cases h
          · next hexponent =>
              have exponent := exponentPart_length_le hexponent
              cases h
              omega

/-- A number and the value that it denotes. -/
def number : Reader Value where
  run cs :=
    match numberLiteral cs with
    | none => none
    | some (literal, rest) => literal.value?.map fun value => (value, rest)
  shortens h := by
    split at h
    · cases h
    · next hliteral =>
        obtain ⟨_, _, heq⟩ := Option.map_eq_some_iff.1 h
        cases heq
        exact numberLiteral_shortens hliteral

end SignedMessaging.Json
