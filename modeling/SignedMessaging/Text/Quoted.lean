import SignedMessaging.Bytes
import SignedMessaging.Text.Printable

/-!
# Quoted text

Error messages show a text between quotes: single ones, or double ones when the
text holds a single quote and no double one.  The quote in use and the backslash
get a backslash, three controls have short forms, and any other character that
does not print is written by its code in lower-case hexadecimal, two, four or
eight digits wide.  Byte strings follow the same rule byte by byte.
-/

namespace SignedMessaging.Quoted

/-- The quote that surrounds these characters. -/
def quoteFor (cs : List Char) : Char :=
  if '\'' ∈ cs ∧ '"' ∉ cs then '"' else '\''

/-- A number in lower-case hexadecimal, filled with zeros to `width` digits. -/
def hex (width n : Nat) : List Char :=
  let digits := Nat.toDigits 16 n
  List.replicate (width - digits.length) '0' ++ digits

/-- One character inside the given quotes. -/
def character (printable : Char → Bool) (quote c : Char) : List Char :=
  if c = quote ∨ c = '\\' then ['\\', c]
  else if c = '\n' then ['\\', 'n']
  else if c = '\r' then ['\\', 'r']
  else if c = '\t' then ['\\', 't']
  else if printable c then [c]
  else if c.toNat < 0x100 then '\\' :: 'x' :: hex 2 c.toNat
  else if c.toNat < 0x10000 then '\\' :: 'u' :: hex 4 c.toNat
  else '\\' :: 'U' :: hex 8 c.toNat

/-- Characters between the quotes that suit them. -/
def characters (printable : Char → Bool) (cs : List Char) : List Char :=
  let quote := quoteFor cs
  quote :: cs.flatMap (character printable quote) ++ [quote]

/-- A text as an error message shows it. -/
def text (s : String) : String :=
  String.ofList (characters Text.isPrintable s.toList)

/-- A byte string as an error message shows it; beyond printable ASCII every
byte is written by its code. -/
def bytes (bs : Bytes) : String :=
  let printable (c : Char) : Bool := 0x20 ≤ c.toNat && c.toNat ≤ 0x7e
  String.ofList ('b' :: characters printable (bs.map Char.ofUInt8))

end SignedMessaging.Quoted
