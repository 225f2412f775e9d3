import SignedMessaging.Connection.Channel
import SignedMessaging.Files
import SignedMessaging.Json.Writer
import SignedMessaging.Message.Basic
import SignedMessaging.Message.Frames
import SignedMessaging.Path
import SignedMessaging.Value.Literal

/-!
# Protocol faults

What the protocol itself refuses: frames that hold no message, a signature that
does not belong to its frames, frames or parts that cannot be decoded or encoded,
and connection information that cannot be used.  A cause keeps what is needed to
say it.
-/

namespace SignedMessaging

/-- Why a list of frames holds no message. -/
inductive FramingFault where
  | noDelimiter (frames : Nat)
  | cutShort (found : Nat)
  | tooFew (found : Nat)
deriving DecidableEq, Repr

namespace FramingFault

def message : FramingFault → String
  | .noDelimiter frames =>
      "no " ++ Quoted.bytes delimiter ++ " delimiter in " ++ frames.repr ++ " frames"
  | .cutShort found => "expected 5 frames after the delimiter, got " ++ found.repr
  | .tooFew found => "expected 5 frames, got " ++ found.repr

end FramingFault

/-- Why a signature is refused. -/
inductive SignatureFault where
  | notHex
  | mismatch
deriving DecidableEq, Repr

namespace SignatureFault

def message : SignatureFault → String
  | .notHex => "signature is not valid hex"
  | .mismatch => "a message had an invalid signature"

end SignatureFault

/-- What a header says about a member that is no text. -/
def notTextMessage (key : HeaderKey) (kind : Kind) : String :=
  key.name ++ " must be a string, got " ++ kind.name

/-- Why a frame cannot be decoded. -/
inductive DecodingCause where
  | malformed
  | notObject (kind : Kind)
  | memberNotText (key : HeaderKey) (kind : Kind)
deriving DecidableEq, Repr

namespace DecodingCause

/-- What is said of a cause; where a document breaks the rules is not told. -/
def message : DecodingCause → String
  | .malformed => "<json>"
  | .notObject kind => "expected a JSON object, got " ++ kind.name
  | .memberNotText key kind => notTextMessage key kind

end DecodingCause

/-- The frame that cannot be decoded, and why. -/
structure DecodingFault where
  field : Field
  cause : DecodingCause
deriving DecidableEq, Repr

/-- Why a part of a message cannot be encoded. -/
inductive EncodingCause where
  | notHeader (kind : Kind)
  | memberNotText (key : HeaderKey) (kind : Kind)
  | notMapping (kind : Kind)
  | notFinite (x : Double)
  | unwritable (fault : Json.WriteFault)
deriving DecidableEq

namespace EncodingCause

def message : EncodingCause → String
  | .notHeader kind => "expected a MessageHeader, got " ++ kind.name
  | .memberNotText key kind => notTextMessage key kind
  | .notMapping kind => "expected a mapping, got " ++ kind.name
  | .notFinite x => "non-finite float " ++ Value.floatLiteral x ++ " is not valid JSON"
  | .unwritable fault => fault.message

end EncodingCause

/-- The part that cannot be encoded, and why. -/
structure EncodingFault where
  field : Field
  cause : EncodingCause
deriving DecidableEq

/-- Why a signature scheme is refused. -/
inductive SchemeFault where
  | unsupported (scheme : String)
  | unknownDigest (scheme : String)
deriving DecidableEq, Repr

namespace SchemeFault

def message : SchemeFault → String
  | .unsupported scheme => "unsupported signature scheme: " ++ Quoted.text scheme
  | .unknownDigest scheme => "unknown digest in signature scheme: " ++ Quoted.text scheme

end SchemeFault

/-- The texts in connection information, in the order in which they are checked. -/
inductive ConnectionText where
  | signatureScheme | transport | ip
deriving DecidableEq, Repr

namespace ConnectionText

/-- The name of a text in a connection file. -/
def name : ConnectionText → String
  | .signatureScheme => "signature_scheme"
  | .transport => "transport"
  | .ip => "ip"

end ConnectionText

/-- The variable that names the connection file where no path is given. -/
def connectionFileVariable : String := "KERNELWIRE_CONNECTION_FILE"

/-- Why connection information cannot be used. -/
inductive ConfigurationFault where
  | notObject
  | keyNotText
  | notText (entry : ConnectionText)
  | portNotInteger (channel : Channel)
  | unsupportedTransport (name : String)
  | scheme (fault : SchemeFault)
  | noFile
  | unreadable (path : Path) (fault : OpenFault)
  | notDocument (path : Path)
deriving DecidableEq, Repr

namespace ConfigurationFault

def message : ConfigurationFault → String
  | .notObject => "connection info must be a JSON object"
  | .keyNotText => "key must be a string"
  | .notText entry => entry.name ++ " must be a string"
  | .portNotInteger channel => channel.portName ++ " must be an integer"
  | .unsupportedTransport name => "unsupported transport: " ++ Quoted.text name
  | .scheme fault => fault.message
  | .noFile => "no connection file specified, and " ++ connectionFileVariable ++ " is not set"
  | .unreadable path fault =>
      "cannot read connection file " ++ path.literal ++ ": " ++ fault.message ++
        if fault.namesPath then ": " ++ path.literal else ""
  | .notDocument path => "connection file " ++ path.literal ++ " is not valid JSON"

end ConfigurationFault

end SignedMessaging
