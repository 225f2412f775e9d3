import SignedMessaging.Number.Whole
import SignedMessaging.Text.Blank
import SignedMessaging.Text.DecimalDigit
import SignedMessaging.Fault.Usage

/-!
# Ports

A port may be given as a number, a fraction of which is dropped, or as a text:
blanks around an optional sign and decimal digits of any script, with at most one
underscore between two digits and at most 4300 digits in all.  Byte strings
follow the same rule with the blanks and digits of ASCII.  In an endpoint a port
stands as a decimal number, which again has at most 4300 digits.
-/

namespace SignedMessaging

/-- Why a value is no port. -/
inductive PortFault where
  | notInteger
  | infinite
deriving DecidableEq, Repr

namespace Port

/-- The values of digits with at most one underscore between two of them. -/
def digits? {α : Type} (digit : α → Option Nat) (separator : α → Bool) :
    List α → Option (List Nat)
  | [] => none
  | [c] => (digit c).map ([·])
  | c :: next :: rest =>
      match digit c with
      | none => none
      | some d =>
          if separator next then (digits? digit separator rest).map (d :: ·)
          else (digits? digit separator (next :: rest)).map (d :: ·)

/-- The number that digits denote. -/
def ofDigits (digits : List Nat) : Nat :=
  digits.foldl (fun n d => 10 * n + d) 0

/-- The number of digits, if there are not too many. -/
def natural? (digit : Char → Option Nat) (cs : List Char) : Option Nat :=
  match digits? digit (· == '_') cs with
  | none => none
  | some digits => if digits.length ≤ Whole.digitLimit then some (ofDigits digits) else none

/-- The integer of an optional sign and digits. -/
def signed? (digit : Char → Option Nat) : List Char → Option Int
  | '-' :: rest => (natural? digit rest).map fun n => -(n : Int)
  | '+' :: rest => (natural? digit rest).map fun n => (n : Int)
  | cs => (natural? digit cs).map fun n => (n : Int)

/-- Characters without the blanks around them. -/
def trim (blank : Char → Bool) (cs : List Char) : List Char :=
  ((cs.dropWhile blank).reverse.dropWhile blank).reverse

/-- The port that a text denotes. -/
def ofText? (text : String) : Option Int :=
  signed? Text.digitValue? (trim Text.isBlank text.toList)

/-- The port that a byte string denotes. -/
def ofBytes? (bytes : Bytes) : Option Int :=
  let digit (c : Char) : Option Nat := if c.toNat < 128 then Text.digitValue? c else none
  signed? digit (trim Text.isAsciiBlank (bytes.map Char.ofUInt8))

/-- The port of a value. -/
def ofValue (v : Value) : Except PortFault Int :=
  let integer (n : Option Int) : Except PortFault Int :=
    match n with
    | some n => .ok n
    | none => .error .notInteger
  match v with
  | .float x =>
      if x.isInfinite then .error .infinite
      else if x.isNotANumber then .error .notInteger
      else .ok x.truncate
  | .text s => integer (ofText? s)
  | .bytes b => integer (ofBytes? b)
  | _ => integer v.wholeNumber?

/-- The decimal number of a port in an endpoint. -/
def decimal (n : Int) : Except EndpointFault String :=
  if Whole.tooLong n then .error .tooManyDigits else .ok (String.ofList (Whole.text n))

/-- What stands for a port in an endpoint. -/
def written (v : Value) : Except EndpointFault String :=
  match v with
  | .float x =>
      if x.isNotANumber then .error .portUndefined
      else if x.isInfinite then .error .portInfinite
      else decimal x.truncate
  | _ =>
      match v.wholeNumber? with
      | some n => decimal n
      | none => .error (.portNotNumber v.kind)

end Port

end SignedMessaging
