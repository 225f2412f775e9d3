import SignedMessaging.Json.Number
import SignedMessaging.Json.Text
import SignedMessaging.Number.Layout
import SignedMessaging.Number.Whole

/-!
# Writing JSON

A value is written without blanks, members in the order of the entries, tuples
as lists, and doubles positionally from `1e-5` up to below `1e16`; infinities
and the value that is no number become null.  What has no JSON form is refused,
the first such thing in the order of writing: a member's key comes before its
value.  Every container counts as one level, and the count of levels fits a byte.
A list or an object that would stand at the last level that fits is refused, so
lists and objects nest 254 deep; a tuple is never refused, and below one at the
last level the count starts again.
-/

namespace SignedMessaging.Json

/-- Why a value cannot be written. -/
inductive WriteFault where
  | keyNotText
  | integerRange
  | unsupported (kind : Kind)
  | tooDeep
deriving DecidableEq, Repr

namespace WriteFault

/-- What a refusal says. -/
def message : WriteFault → String
  | .keyNotText => "Dict key must be str"
  | .integerRange => "Integer exceeds 64-bit range"
  | .unsupported kind => "Type is not JSON serializable: " ++ kind.name
  | .tooDeep => "Recursion limit reached"

end WriteFault

/-- Doubles in JSON: positional for decimal exponents from -5 to 15. -/
def layout : Layout := ⟨-5, 15, 1⟩

/-- A double as it is written. -/
def writeDouble (x : Double) : List Char :=
  if x.isFinite then layout.text x else ['n', 'u', 'l', 'l']

/-- Parts with commas between them, inside brackets. -/
def bracketed (opening closing : Char) (parts : List (List Char)) : List Char :=
  opening :: [','].intercalate parts ++ [closing]

/-- The level of a container inside one at `level`; the count fits a byte. -/
def deeper (level : Nat) : Nat := (level + 1) % 256

/-- The level at which no list and no object can stand. -/
def lastLevel : Nat := 255

mutual

/-- A value as it is written inside containers down to `level`. -/
def writeValue (level : Nat) : Value → Except WriteFault (List Char)
  | .null => .ok ['n', 'u', 'l', 'l']
  | .bool true => .ok ['t', 'r', 'u', 'e']
  | .bool false => .ok ['f', 'a', 'l', 's', 'e']
  | .int n =>
      if NumberLiteral.fitsInteger n then .ok (Whole.text n) else .error .integerRange
  | .float x => .ok (writeDouble x)
  | .text s => .ok (writeText s.toList)
  | .list items =>
      if deeper level = lastLevel then .error .tooDeep
      else (writeItems (deeper level) items).map (bracketed '[' ']')
  | .tuple items => (writeItems (deeper level) items).map (bracketed '[' ']')
  | .dictionary entries =>
      if deeper level = lastLevel then .error .tooDeep
      else (writeMembers (deeper level) entries).map (bracketed '\x7b' '\x7d')
  | .bytes _ => .error (.unsupported .bytes)
  | .emptySet => .error (.unsupported .set)
  | .object => .error (.unsupported .object)
  | .complexZero => .error (.unsupported .complex)
termination_by structural v => v

/-- The items of a list, each as it is written. -/
def writeItems (level : Nat) : List Value → Except WriteFault (List (List Char))
  | [] => .ok []
  | item :: items =>
      match writeValue level item with
      | .error fault => .error fault
      | .ok first => (writeItems level items).map (first :: ·)
termination_by structural items => items

/-- The members of an object, each as it is written. -/
def writeMembers (level : Nat) : List (Value × Value) → Except WriteFault (List (List Char))
  | [] => .ok []
  | (key, item) :: entries =>
      match key.text? with
      | none => .error .keyNotText
      | some s =>
          match writeValue level item with
          | .error fault => .error fault
          | .ok written =>
              (writeMembers level entries).map ((writeText s.toList ++ ':' :: written) :: ·)
termination_by structural entries => entries

end

/-- The document of a value. -/
def write (v : Value) : Except WriteFault Bytes :=
  (writeValue 0 v).map fun cs => Bytes.ofText (String.ofList cs)

end SignedMessaging.Json
