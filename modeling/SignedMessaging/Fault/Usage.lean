import SignedMessaging.Message.Identifier
import SignedMessaging.Path
import SignedMessaging.Value.Literal
import SignedMessaging.Value.Octets

/-!
# Usage faults

What goes wrong when an application hands over something that an operation has
no use for: a wrong number of frames, an unusable digest, a port that is no
number, a path that no system of files can be asked for, a name that was never
given, arguments of which no error can be made, or a transport that does not work.
-/

namespace SignedMessaging

/-- Why frames cannot be authenticated with a key. -/
inductive DigestFault where
  | noName
  | unknown
  | extendable
  | textFrame
  | noBytes
  | frameCount (found : Nat)
  | signatureNotAscii
deriving DecidableEq, Repr

namespace DigestFault

def message : DigestFault → String
  | .noName => "Missing required parameter 'digestmod'."
  | .unknown => "[digital envelope routines] unsupported"
  | .extendable => "no reason supplied"
  | .textFrame => "Strings must be encoded before hashing"
  | .noBytes => "object supporting the buffer API required"
  | .frameCount found => "expected 4 frames to sign, got " ++ found.repr
  | .signatureNotAscii => "string argument should contain only ASCII characters"

end DigestFault

/-- A wrong number of frames, where five are joined or four decoded. -/
inductive CountFault where
  | toJoin (found : Nat)
  | toDecode (found : Nat)
deriving DecidableEq, Repr

namespace CountFault

def message : CountFault → String
  | .toJoin found => "expected 5 signed frames, got " ++ found.repr
  | .toDecode found =>
      if found < 4 then
        "not enough values to unpack (expected 4, got " ++ found.repr ++ ")"
      else "too many values to unpack (expected 4)"

end CountFault

/-- What is said of a value with an integer of too many digits for a literal. -/
def tooManyDigitsMessage : String :=
  "Exceeds the limit (4300 digits) for integer string conversion; " ++
    "use sys.set_int_max_str_digits() to increase the limit"

/-- Why a channel has no endpoint. -/
inductive EndpointFault where
  | unknownChannel (v : Value)
  | portNotNumber (kind : Kind)
  | portUndefined
  | portInfinite
  | tooManyDigits

namespace EndpointFault

def message : EndpointFault → String
  | .unknownChannel v => "unknown channel: " ++ v.literal
  | .portNotNumber kind => "%d format: a real number is required, not " ++ kind.name
  | .portUndefined => "cannot convert float NaN to integer"
  | .portInfinite => "cannot convert float infinity to integer"
  | .tooManyDigits => tooManyDigitsMessage

end EndpointFault

/-- Why no system of files can be asked for a path. -/
inductive PathFault where
  | surrogates (stray : StraySurrogates)
  | zero
deriving DecidableEq, Repr

namespace PathFault

def message : PathFault → String
  | .surrogates stray => stray.message
  | .zero => "embedded null byte"

end PathFault

/-- Why a message cannot be made from another, or changed. -/
inductive MessageFault where
  | identifier (failure : EntropyFailure)
  | parentNotHeader
  | noMessageType (kind : Kind)
  | typeNotText (kind : Kind)
  | notPairs (fault : PairingFault)
  | notEntries (kind : Kind)
deriving DecidableEq, Repr

namespace MessageFault

/-- What is said of a value that is no dictionary. -/
def pairingMessage : PairingFault → String
  | .notIterable kind => "'" ++ kind.name ++ "' object is not iterable"
  | .elementNotSequence index =>
      "cannot convert dictionary update sequence element #" ++ index.repr ++ " to a sequence"
  | .elementLength index length =>
      "dictionary update sequence element #" ++ index.repr ++ " has length " ++ length.repr ++
        "; 2 is required"
  | .unusableKey kind => "unhashable type: '" ++ kind.name ++ "'"

def message : MessageFault → String
  | .identifier _ => "could not generate a message id"
  | .parentNotHeader => "replace() should be called on dataclass instances"
  | .noMessageType kind => "'" ++ kind.name ++ "' object has no attribute 'msg_type'"
  | .typeNotText kind => "'" ++ kind.name ++ "' object has no attribute 'encode'"
  | .notPairs fault => pairingMessage fault
  | .notEntries .list => "list indices must be integers or slices, not str"
  | .notEntries kind => "'" ++ kind.name ++ "' object does not support item assignment"

end MessageFault

/-- What a receipt is used for. -/
inductive ReceiptUse where
  | reply | send
deriving DecidableEq, Repr

namespace ReceiptUse

/-- The name of a use in error messages. -/
def name : ReceiptUse → String
  | .reply => "reply"
  | .send => "send"

end ReceiptUse

/-- Why a session cannot take a step. -/
inductive SessionFault where
  | transport
  | unknownName (name : String)
  | notReceipt (purpose : ReceiptUse)
  | nothingSent
deriving DecidableEq, Repr

namespace SessionFault

def message : SessionFault → String
  | .transport => "Resource temporarily unavailable"
  | .unknownName name => Quoted.text name
  | .notReceipt purpose => "'ComposedMessage' object has no attribute '" ++ purpose.name ++ "'"
  | .nothingSent => "list index out of range"

end SessionFault

/-- The errors of the protocol that are made of a limited number of arguments. -/
inductive LimitedError where
  | signature | decoding | encoding
deriving DecidableEq, Repr

namespace LimitedError

/-- What makes such an error, in error messages. -/
def maker : LimitedError → String
  | .signature => "InvalidSignature.__init__()"
  | .decoding => "DecodeError.__init__()"
  | .encoding => "EncodeError.__init__()"

/-- The smallest and the largest number of arguments, the new error being the first. -/
def range : LimitedError → Nat × Nat
  | .signature => (1, 2)
  | .decoding | .encoding => (2, 3)

end LimitedError

/-- Why an error cannot be made of the arguments given for it. -/
inductive ArgumentFault where
  | noField (limited : LimitedError)
  | tooMany (limited : LimitedError) (given : Nat)
  | tooManyDigits
deriving DecidableEq, Repr

namespace ArgumentFault

def message : ArgumentFault → String
  | .noField limited => limited.maker ++ " missing 1 required positional argument: 'field'"
  | .tooMany limited given =>
      limited.maker ++ " takes from " ++ limited.range.1.repr ++ " to " ++
        limited.range.2.repr ++ " positional arguments but " ++ (given + 1).repr ++
        " were given"
  | .tooManyDigits => tooManyDigitsMessage

end ArgumentFault

end SignedMessaging
