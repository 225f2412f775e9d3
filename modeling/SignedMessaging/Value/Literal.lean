import SignedMessaging.Number.Layout
import SignedMessaging.Number.Whole
import SignedMessaging.Text.Quoted
import SignedMessaging.Value.Basic

/-!
# Values in error messages

A message shows a value as a literal: names for the null value and the
booleans, quoted texts and byte strings, a trailing comma in a tuple of one,
and a space after every comma and colon.  A double stands positionally from
`1e-4` up to below `1e16`, and its exponent has two digits at least.  A value
with an integer of too many digits has no literal.
-/

namespace SignedMessaging

namespace Value

/-- Doubles in literals: positional for decimal exponents from -4 to 15. -/
def literalLayout : Layout := ⟨-4, 15, 2⟩

/-- A double as a literal; infinities and the value that is no number by name. -/
def floatLiteral (x : Double) : String :=
  if x.isNotANumber then "nan"
  else if x.isInfinite then if x.negative then "-inf" else "inf"
  else String.ofList (literalLayout.text x)

mutual

/-- A value as an error message shows it. -/
def literal : Value → String
  | .null => "None"
  | .bool true => "True"
  | .bool false => "False"
  | .int n => String.ofList (Whole.text n)
  | .float x => floatLiteral x
  | .text s => Quoted.text s
  | .list items => "[" ++ ", ".intercalate (literals items) ++ "]"
  | .tuple items =>
      match literals items with
      | [only] => "(" ++ only ++ ",)"
      | shown => "(" ++ ", ".intercalate shown ++ ")"
  | .dictionary entries => "\x7b" ++ ", ".intercalate (entryLiterals entries) ++ "\x7d"
  | .bytes b => Quoted.bytes b
  | .emptySet => "set()"
  | .object => "<object object>"
  | .complexZero => "0j"
termination_by structural v => v

/-- The literals of several values. -/
def literals : List Value → List String
  | [] => []
  | item :: items => literal item :: literals items
termination_by structural items => items

/-- The entries of a dictionary, each a key, a colon and a value. -/
def entryLiterals : List (Value × Value) → List String
  | [] => []
  | (key, value) :: entries =>
      (literal key ++ ": " ++ literal value) :: entryLiterals entries
termination_by structural entries => entries

end

mutual

/-- Whether an integer in a value has too many digits for a literal. -/
def hasLongInteger : Value → Bool
  | .int n => Whole.tooLong n
  | .list items => hasLongItem items
  | .tuple items => hasLongItem items
  | .dictionary entries => hasLongEntry entries
  | _ => false
termination_by structural v => v

/-- Whether an integer among items has too many digits. -/
def hasLongItem : List Value → Bool
  | [] => false
  | item :: items => hasLongInteger item || hasLongItem items
termination_by structural items => items

/-- Whether an integer among keys and values has too many digits. -/
def hasLongEntry : List (Value × Value) → Bool
  | [] => false
  | (key, value) :: entries =>
      hasLongInteger key || hasLongInteger value || hasLongEntry entries
termination_by structural entries => entries

end

end Value

end SignedMessaging
