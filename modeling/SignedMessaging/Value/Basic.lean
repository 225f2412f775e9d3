import SignedMessaging.Bytes
import SignedMessaging.Number.Double

/-!
# Values

What an application puts into a message.  JSON has the null value, booleans,
numbers, texts, lists and dictionaries; integers have any size and stay apart
from doubles.  Tuples are lists that were built with a fixed length.  The other
kinds exist in applications but have no JSON form.  A dictionary is a list of
entries in insertion order, its keys values of any kind that can be a key.

Some of what an application has is left out.  The kinds that a JSON writer takes
apart by itself, which are dataclasses, members of an `Enum`, UUIDs, dates and
times, are no values here, nor are classes.  A text is made of characters, so that
there is none with a surrogate that stands alone; a path may have them (`Path`).
And a value may be of any depth, where a program has a limit to its recursion.
-/

namespace SignedMessaging

/-- A value of an application. -/
inductive Value where
  | null
  | bool (b : Bool)
  | int (n : Int)
  | float (x : Double)
  | text (s : String)
  | list (items : List Value)
  | tuple (items : List Value)
  | dictionary (entries : List (Value × Value))
  | bytes (b : Bytes)
  | emptySet
  | object
  | complexZero

/-- The kinds of values, as messages about a wrong kind tell them apart. -/
inductive Kind where
  | null | bool | int | float | text | list | tuple | dictionary | bytes | set | object | complex
deriving DecidableEq, Repr

namespace Kind

/-- The name of a kind in error messages. -/
def name : Kind → String
  | .null => "NoneType"
  | .bool => "bool"
  | .int => "int"
  | .float => "float"
  | .text => "str"
  | .list => "list"
  | .tuple => "tuple"
  | .dictionary => "dict"
  | .bytes => "bytes"
  | .set => "set"
  | .object => "object"
  | .complex => "complex"

end Kind

namespace Value

/-- The kind of a value. -/
def kind : Value → Kind
  | .null => .null
  | .bool _ => .bool
  | .int _ => .int
  | .float _ => .float
  | .text _ => .text
  | .list _ => .list
  | .tuple _ => .tuple
  | .dictionary _ => .dictionary
  | .bytes _ => .bytes
  | .emptySet => .set
  | .object => .object
  | .complexZero => .complex

/-- The characters of a value that is a text. -/
def text? : Value → Option String
  | .text s => some s
  | _ => none

/-- A value that is a text equals the text read from it. -/
theorem text?_eq_some_iff {v : Value} {s : String} : v.text? = some s ↔ v = .text s := by
  cases v <;> simp [text?]

end Value

end SignedMessaging
