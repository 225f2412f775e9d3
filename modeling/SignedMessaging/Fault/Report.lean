import SignedMessaging.Fault.Protocol
import SignedMessaging.Fault.Usage

/-!
# Faults and their reports

A fault is any cause for which an operation gives no result.  Its report has a
category, a text, and the part of the message that a decoding or encoding fault
concerns.  The categories of the protocol's own faults stand apart from those of
wrong usage.
-/

namespace SignedMessaging

/-- Why an operation gives no result. -/
inductive Fault where
  | framing (cause : FramingFault)
  | signature (cause : SignatureFault)
  | decoding (fault : DecodingFault)
  | encoding (fault : EncodingFault)
  | configuration (cause : ConfigurationFault)
  | octets (cause : OctetFault)
  | digest (cause : DigestFault)
  | count (cause : CountFault)
  | endpoint (cause : EndpointFault)
  | message (cause : MessageFault)
  | session (cause : SessionFault)
  | arguments (cause : ArgumentFault)
  | writing (cause : Json.WriteFault)
  | reading
  | path (cause : PathFault)

/-- What kind of thing went wrong. -/
inductive Category where
  | protocol
  | malformedFrames
  | invalidSignature
  | decoding
  | encoding
  | identity
  | configuration
  | wrongType
  | wrongValue
  | unencodable
  | overflow
  | noMemory
  | missingAttribute
  | missingName
  | missingIndex
  | transport
  | document
deriving DecidableEq, Repr

namespace Category

/-- Whether the protocol itself raises this category. -/
def isProtocol : Category → Bool
  | .protocol | .malformedFrames | .invalidSignature | .decoding | .encoding
  | .identity | .configuration => true
  | _ => false

end Category

/-- What is told about a fault. -/
structure Report where
  category : Category
  field : Option Value := none
  text : Option String := none

namespace Report

/-- A value as it stands inside a text: a text itself, another value as a literal. -/
def shown : Value → String
  | .text s => s
  | v => v.literal

/-- Whether a value counts as a reason: nothing empty, zero or null does. -/
def isReason : Value → Bool
  | .null | .emptySet | .complexZero => false
  | .bool b => b
  | .int n => n != 0
  | .float x => x.rank != 0
  | .text s => s != ""
  | .bytes b => !b.isEmpty
  | .list items | .tuple items => !items.isEmpty
  | .dictionary entries => !entries.isEmpty
  | .object => true

/-- The text of a decoding or encoding fault. -/
def fieldText (verb : String) (field reason : Value) : String :=
  "could not " ++ verb ++ " " ++ shown field ++
    (if isReason reason then ": " ++ shown reason else "")

/-- A report about a part of a message. -/
def ofField (category : Category) (verb : String) (field reason : Value) : Report :=
  ⟨category, some field, some (fieldText verb field reason)⟩

/-- The report of a category whose errors are made of any arguments: one is the text,
several are shown together. -/
def ofAny (category : Category) : List Value → Report
  | [] => ⟨category, none, some ""⟩
  | [only] => ⟨category, none, some (shown only)⟩
  | several => ⟨category, none, some (Value.tuple several).literal⟩

/-- The report of a category whose errors concern a part of a message: that part is the
first argument, and a reason may follow. -/
def ofPart (limited : LimitedError) (category : Category) (verb : String) :
    List Value → Except ArgumentFault Report
  | [] => .error (.noField limited)
  | [field] => .ok (ofField category verb field .null)
  | [field, reason] => .ok (ofField category verb field reason)
  | more => .error (.tooMany limited more.length)

/-- The report that an application makes of a category with arguments of its own. -/
def made (category : Category) (arguments : List Value) : Except ArgumentFault Report :=
  match category with
  | .decoding => ofPart .decoding category "decode" arguments
  | .encoding => ofPart .encoding category "encode" arguments
  | .invalidSignature =>
      match arguments with
      | [] => .ok ⟨category, none, some SignatureFault.mismatch.message⟩
      | [only] => .ok ⟨category, none, some (shown only)⟩
      | more => .error (.tooMany .signature more.length)
  | _ => .ok (ofAny category arguments)

/-- The report made with arguments that are shown, so that they must have literals. -/
def ofArguments (category : Category) (arguments : List Value) : Except Fault Report :=
  match made category arguments with
  | .error fault => .error (.arguments fault)
  | .ok report =>
      if Value.hasLongItem arguments then .error (.arguments .tooManyDigits) else .ok report

end Report

namespace DigestFault

def category : DigestFault → Category
  | .unknown | .extendable | .frameCount _ | .signatureNotAscii => .wrongValue
  | .noName | .textFrame | .noBytes => .wrongType

end DigestFault

namespace OctetFault

def category : OctetFault → Category
  | .negativeCount | .outOfRange => .wrongValue
  | .countTooWide | .stringTooLarge => .overflow
  | .noRoom => .noMemory
  | .needsEncoding | .notOctets _ | .elementNotInteger _ => .wrongType

end OctetFault

namespace EndpointFault

def category : EndpointFault → Category
  | .unknownChannel _ | .portUndefined | .tooManyDigits => .wrongValue
  | .portNotNumber _ => .wrongType
  | .portInfinite => .overflow

end EndpointFault

namespace PathFault

def category : PathFault → Category
  | .surrogates _ => .unencodable
  | .zero => .wrongValue

end PathFault

namespace MessageFault

def category : MessageFault → Category
  | .identifier _ => .identity
  | .noMessageType _ | .typeNotText _ => .missingAttribute
  | .notPairs (.elementLength _ _) => .wrongValue
  | .parentNotHeader | .notPairs _ | .notEntries _ => .wrongType

end MessageFault

namespace SessionFault

def category : SessionFault → Category
  | .transport => .transport
  | .unknownName _ => .missingName
  | .notReceipt _ => .missingAttribute
  | .nothingSent => .missingIndex

end SessionFault

namespace ArgumentFault

def category : ArgumentFault → Category
  | .noField _ | .tooMany _ _ => .wrongType
  | .tooManyDigits => .wrongValue

end ArgumentFault

namespace Fault

/-- What is told about a fault. -/
def report : Fault → Report
  | .framing cause => ⟨.malformedFrames, none, some cause.message⟩
  | .signature cause => ⟨.invalidSignature, none, some cause.message⟩
  | .decoding fault =>
      Report.ofField .decoding "decode" (.text fault.field.name) (.text fault.cause.message)
  | .encoding fault =>
      Report.ofField .encoding "encode" (.text fault.field.name) (.text fault.cause.message)
  | .configuration cause => ⟨.configuration, none, some cause.message⟩
  | .octets cause => ⟨cause.category, none, some cause.message⟩
  | .digest cause => ⟨cause.category, none, some cause.message⟩
  | .count cause => ⟨.wrongValue, none, some cause.message⟩
  | .endpoint cause => ⟨cause.category, none, some cause.message⟩
  | .message cause => ⟨cause.category, none, some cause.message⟩
  | .session cause => ⟨cause.category, none, some cause.message⟩
  | .arguments cause => ⟨cause.category, none, some cause.message⟩
  | .writing cause => ⟨.wrongType, none, some cause.message⟩
  | .reading => ⟨.document, none, none⟩
  | .path cause => ⟨cause.category, none, some cause.message⟩

end Fault

end SignedMessaging
