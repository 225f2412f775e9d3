import SignedMessaging.Envelope
import SignedMessaging.Message.Signed

/-!
# Delivery of messages

A message is delivered by signing it, joining its frames with routing identities,
splitting the parts on the other side and reading the message under the same
signer.  An identity that is itself the delimiter ends the identities early.
-/

namespace SignedMessaging

/-- What passes over the wire for one message, and what arrives. -/
structure Delivery where
  parts : List Value
  identities : List Bytes
  message : Message

namespace Message

/-- Read the parts of a message under a signer, with its routing identities. -/
def ofParts (signer : Signer) (parts : List Value) : Except Fault (List Bytes × Message) :=
  match Envelope.ofValues parts with
  | .error fault => .error fault
  | .ok envelope =>
      match ofSigned signer envelope.frames with
      | .error fault => .error fault
      | .ok message => .ok (envelope.identities, message)

/-- The parts of a signed message behind routing identities as they were handed over. -/
def toParts (signer : Signer) (identities : List Value) (message : Message) :
    Except Fault (List Value) :=
  match message.toSigned signer with
  | .error fault => .error fault
  | .ok frames => .ok (Envelope.joined (.bytes delimiter) ⟨identities, frames.map .bytes⟩)

/-- Send a message and read what arrives. -/
def deliver (signer : Signer) (identities : List Value) (message : Message) :
    Except Fault Delivery := do
  let parts ← message.toParts signer identities
  let (received, arrived) ← ofParts signer parts
  return ⟨parts, received, arrived⟩

end Message

end SignedMessaging
