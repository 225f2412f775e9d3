import SignedMessaging.Message.Delivery
import SignedMessaging.Session.State

/-!
# Actions of a session

An action changes the state and gives a result or a fault; what it did before a
fault stays done.  Outgoing messages are encoded and signed before the transport
sees them, and logged after it took them.  Incoming messages are taken from the
transport and then read, so that one that cannot be read is gone.
-/

namespace SignedMessaging

/-- A change of a session's state that gives a result or a fault. -/
abbrev Action := ExceptT Fault (StateM State)

namespace Action

/-- The result of a pure operation. -/
def ofExcept {α : Type} (result : Except Fault α) : Action α :=
  fun state => (result, state)

/-- A composition with the session's randomness. -/
def drawing {α : Type} (composition : Drawing α) : Action α := fun state =>
  let (result, entropy) := composition state.entropy
  (result.mapError .message, { state with entropy })

/-- Add a message to the session, and give its place. -/
def store (message : Message) : Action Nat := fun state =>
  (.ok state.messages.length, state.keep (Kept.ownedBy state.unmarked message))

/-- Add a message that was made in answer to the one at the place `parent`, and give its
own place. -/
def storeAnswer (parent : Nat) (message : Message) : Action Nat := fun state =>
  (.ok state.messages.length,
    state.keep (Kept.answering state.unmarked (state.kept parent) message))

/-- What a name stands for. -/
def named (name : String) : Action Named := fun state =>
  match state.names.lookup name with
  | some found => (.ok found, state)
  | none => (.error (.session (.unknownName name)), state)

/-- The receipt of a name, which cannot be that of a message. -/
def receiptNamed (name : String) (purpose : ReceiptUse) : Action Receipt := do
  match ← named name with
  | .receipt receipt => return receipt
  | .message _ => throw (.session (.notReceipt purpose))

/-- The place of the message of a name. -/
def placeNamed (name : String) : Action Nat := return (← named name).place

/-- The message of a name. -/
def messageNamed (name : String) : Action Message := do
  let place ← placeNamed name
  return (← get).message place

/-- Let a name, if there is one, stand for something. -/
def keep (name : Option String) (found : Named) : Action Unit :=
  match name with
  | none => return ()
  | some name => modify fun state => { state with names := (name, found) :: state.names }

/-- Hand the parts of a message to the transport. -/
def transmit (parts : List Value) : Action Unit := fun state =>
  match state.transport.send parts with
  | .error fault => (.error (.session fault), state)
  | .ok transport => (.ok (), { state with transport })

/-- Take the parts of a message from the transport. -/
def takeInbound : Action (List Value) := fun state =>
  match state.transport.receive with
  | .error fault => (.error (.session fault), state)
  | .ok (parts, transport) => (.ok parts, { state with transport })

/-- Sign a message, send it behind identities, and log it; the parts are those sent. -/
def dispatch (identities : List Value) (signer : Signer) (message : Message) :
    Action (List Value) := do
  let parts ← ofExcept (message.toParts signer identities)
  transmit parts
  modify fun state => { state with log := state.log.sent message }
  return parts

/-- Send a message to where a receipt came from, under the receipt's own signer. -/
def send (receipt : Receipt) (message : Message) : Action (List Value) :=
  dispatch receipt.identities receipt.signer message

/-- The topic of a message where none is given: the UTF-8 form of its type. -/
def defaultTopic (message : Message) : Except MessageFault Value :=
  match message.messageType with
  | .error fault => .error fault
  | .ok (.text s) => .ok (.bytes (Bytes.ofText s))
  | .ok v => .error (.typeNotText v.kind)

/-- Send a message under a topic, and the session's signer. -/
def publish (message : Message) (topic : Value) : Action (List Value) := do
  let topic ← match topic with
    | .null => ofExcept ((defaultTopic message).mapError .message)
    | given => pure given
  dispatch [topic] (← get).signer message

/-- Answer the message of a receipt, and give the place of the answer. -/
def reply (receipt : Receipt) (msgType content metadata : Value) : Action Nat := do
  let parent := (← get).message receipt.message
  let message ← drawing (Message.respond msgType parent content metadata)
  let _ ← send receipt message
  storeAnswer receipt.message message

/-- Read the parts of a message that arrived. -/
def accept (parts : List Value) : Action Receipt := do
  let signer := (← get).signer
  let (identities, message) ← ofExcept (Message.ofParts signer parts)
  let place ← store message
  return ⟨place, identities.map .bytes, signer⟩

/-- Receive the next message. -/
def receive : Action Receipt := do
  accept (← takeInbound)

end Action

end SignedMessaging
