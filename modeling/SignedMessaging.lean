import SignedMessaging.Bytes
import SignedMessaging.Connection.Basic
import SignedMessaging.Connection.Channel
import SignedMessaging.Connection.File
import SignedMessaging.Connection.Information
import SignedMessaging.Connection.Port
import SignedMessaging.Digest.Algorithm
import SignedMessaging.Digest.Blake2
import SignedMessaging.Digest.Hmac
import SignedMessaging.Digest.Library
import SignedMessaging.Digest.Md5
import SignedMessaging.Digest.Sha1
import SignedMessaging.Digest.Sha2
import SignedMessaging.Digest.Sha3
import SignedMessaging.Digest.Words
import SignedMessaging.Envelope
import SignedMessaging.Fault.Protocol
import SignedMessaging.Fault.Report
import SignedMessaging.Fault.Usage
import SignedMessaging.Files
import SignedMessaging.Json.Document
import SignedMessaging.Json.Number
import SignedMessaging.Json.Reader
import SignedMessaging.Json.Text
import SignedMessaging.Json.Writer
import SignedMessaging.Message.Basic
import SignedMessaging.Message.Compose
import SignedMessaging.Message.Decoding
import SignedMessaging.Message.Delivery
import SignedMessaging.Message.Encoding
import SignedMessaging.Message.Frames
import SignedMessaging.Message.Identifier
import SignedMessaging.Message.Objects
import SignedMessaging.Message.Signed
import SignedMessaging.Number.Double
import SignedMessaging.Number.Layout
import SignedMessaging.Number.Rounding
import SignedMessaging.Number.Shortest
import SignedMessaging.Number.Whole
import SignedMessaging.Path
import SignedMessaging.Proofs.Connection.Endpoints
import SignedMessaging.Proofs.Connection.Information
import SignedMessaging.Proofs.Connection.Loading
import SignedMessaging.Proofs.Connection.Numerals
import SignedMessaging.Proofs.Connection.PortTexts
import SignedMessaging.Proofs.Connection.Ports
import SignedMessaging.Proofs.Connection.Storing
import SignedMessaging.Proofs.Framing
import SignedMessaging.Proofs.Hex
import SignedMessaging.Proofs.Json.Compactness
import SignedMessaging.Proofs.Json.DocumentReading
import SignedMessaging.Proofs.Json.DoubleTexts
import SignedMessaging.Proofs.Json.Grammar
import SignedMessaging.Proofs.Json.ListReading
import SignedMessaging.Proofs.Json.MemberMerging
import SignedMessaging.Proofs.Json.Members
import SignedMessaging.Proofs.Json.NumberReading
import SignedMessaging.Proofs.Json.NumberWriting
import SignedMessaging.Proofs.Json.Portability
import SignedMessaging.Proofs.Json.Positions
import SignedMessaging.Proofs.Json.PrefixFree
import SignedMessaging.Proofs.Json.TextReading
import SignedMessaging.Proofs.Json.Writing
import SignedMessaging.Proofs.Message.Boundaries
import SignedMessaging.Proofs.Message.Compactness
import SignedMessaging.Proofs.Message.Composition
import SignedMessaging.Proofs.Message.Decodable
import SignedMessaging.Proofs.Message.Delivery
import SignedMessaging.Proofs.Message.Encodable
import SignedMessaging.Proofs.Message.Finiteness
import SignedMessaging.Proofs.Message.Forwarding
import SignedMessaging.Proofs.Message.FrameDecoding
import SignedMessaging.Proofs.Message.FrameEncoding
import SignedMessaging.Proofs.Message.Identifier
import SignedMessaging.Proofs.Message.Inside
import SignedMessaging.Proofs.Message.Normal
import SignedMessaging.Proofs.Message.Objects
import SignedMessaging.Proofs.Message.Parts
import SignedMessaging.Proofs.Message.Reception
import SignedMessaging.Proofs.Message.RoundTrip
import SignedMessaging.Proofs.Message.Signing
import SignedMessaging.Proofs.Message.Snapshots
import SignedMessaging.Proofs.Number.FewestDigits
import SignedMessaging.Proofs.Number.Magnitudes
import SignedMessaging.Proofs.Number.Nearest
import SignedMessaging.Proofs.Number.Rounding
import SignedMessaging.Proofs.Number.Shortest
import SignedMessaging.Proofs.Outcome
import SignedMessaging.Proofs.Path
import SignedMessaging.Proofs.Session.Actions
import SignedMessaging.Proofs.Session.ByValue
import SignedMessaging.Proofs.Session.Changes
import SignedMessaging.Proofs.Session.Freshness
import SignedMessaging.Proofs.Session.Ledger
import SignedMessaging.Proofs.Session.Logging
import SignedMessaging.Proofs.Session.Mirroring
import SignedMessaging.Proofs.Session.Naming
import SignedMessaging.Proofs.Session.Publication
import SignedMessaging.Proofs.Session.Receiving
import SignedMessaging.Proofs.Session.Refusal
import SignedMessaging.Proofs.Session.Replies
import SignedMessaging.Proofs.Session.Sending
import SignedMessaging.Proofs.Session.Sharing
import SignedMessaging.Proofs.Signer.Schemes
import SignedMessaging.Proofs.Signer.Signature
import SignedMessaging.Proofs.Signer.Verification
import SignedMessaging.Proofs.Value.Normal
import SignedMessaging.Session.Action
import SignedMessaging.Session.Kept
import SignedMessaging.Session.State
import SignedMessaging.Session.Step
import SignedMessaging.Signer.Basic
import SignedMessaging.Signer.Frames
import SignedMessaging.Signer.Scheme
import SignedMessaging.Text.Blank
import SignedMessaging.Text.DecimalDigit
import SignedMessaging.Text.Printable
import SignedMessaging.Text.Quoted
import SignedMessaging.Value.Basic
import SignedMessaging.Value.Entries
import SignedMessaging.Value.Equality
import SignedMessaging.Value.Literal
import SignedMessaging.Value.Octets
import SignedMessaging.Value.Pairing
