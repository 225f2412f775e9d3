import SignedMessaging.Value.Pairing

/-!
# Values given for byte strings

Where bytes are expected an application may give something else.  A count
stands for that many zeros, as long as there is room for them, and a value with
elements for the bytes that its elements number.  A text has no bytes of its own,
unless its place takes the UTF-8 form of texts.
-/

namespace SignedMessaging

/-- Why a value has no bytes. -/
inductive OctetFault where
  | negativeCount
  | countTooWide
  | stringTooLarge
  | noRoom
  | outOfRange
  | needsEncoding
  | notOctets (kind : Kind)
  | elementNotInteger (kind : Kind)
deriving DecidableEq, Repr

namespace OctetFault

/-- What the failure says. -/
def message : OctetFault → String
  | .negativeCount => "negative count"
  | .countTooWide => "cannot fit 'int' into an index-sized integer"
  | .stringTooLarge => "byte string is too large"
  | .noRoom => ""
  | .outOfRange => "bytes must be in range(0, 256)"
  | .needsEncoding => "string argument without an encoding"
  | .notOctets kind => "cannot convert '" ++ kind.name ++ "' object to bytes"
  | .elementNotInteger kind =>
      "'" ++ kind.name ++ "' object cannot be interpreted as an integer"

end OctetFault

namespace Value

/-- The integer that a value is, where doubles are none. -/
def wholeNumber? : Value → Option Int
  | .bool b => some (if b then 1 else 0)
  | .int n => some n
  | _ => none

/-- The bytes that elements number. -/
def octetsOf : List Value → Except OctetFault Bytes
  | [] => .ok []
  | item :: rest =>
      match item.wholeNumber? with
      | none => .error (.elementNotInteger item.kind)
      | some n =>
          if 0 ≤ n ∧ n < 256 then (octetsOf rest).map (UInt8.ofNat n.toNat :: ·)
          else .error .outOfRange

/-- The largest number of bytes that a byte string can be asked to have. -/
def longestString : Int := 9223372036854775774

/-- The number of bytes from which on there is no room for them. -/
def roomlessString : Int := 1099511627776

/-- As many zeros as a count says; a count has 64 bits with its sign. -/
def zeros (count : Int) : Except OctetFault Bytes :=
  if count < -9223372036854775808 ∨ 9223372036854775807 < count then .error .countTooWide
  else if count < 0 then .error .negativeCount
  else if longestString < count then .error .stringTooLarge
  else if roomlessString ≤ count then .error .noRoom
  else .ok (List.replicate count.toNat 0)

/-- The bytes of a value. -/
def octets (v : Value) : Except OctetFault Bytes :=
  match v with
  | .bytes b => .ok b
  | .text _ => .error .needsEncoding
  | _ =>
      match v.wholeNumber?, v.elements? with
      | some count, _ => zeros count
      | none, some items => octetsOf items
      | none, none => .error (.notOctets v.kind)

/-- The bytes of a value where texts stand for their UTF-8 form. -/
def encoded (v : Value) : Except OctetFault Bytes :=
  match v with
  | .text s => .ok (Bytes.ofText s)
  | _ => v.octets

@[simp]
theorem octets_bytes (b : Bytes) : (Value.bytes b).octets = .ok b := rfl

@[simp]
theorem encoded_bytes (b : Bytes) : (Value.bytes b).encoded = .ok b := rfl

@[simp]
theorem encoded_text (s : String) : (Value.text s).encoded = .ok (Bytes.ofText s) := rfl

end Value

end SignedMessaging
