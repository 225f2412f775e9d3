import SignedMessaging.Fault.Usage
import SignedMessaging.Message.Basic
import SignedMessaging.Value.Entries

/-!
# Composing messages

New messages take an identifier of their own, one draw each.  A root message
starts a conversation; an answer belongs to that of its parent, keeps session and
user name, and has the parent's header beside its own.  A draw that was taken
stays taken even where no message can be made.
-/

namespace SignedMessaging

/-- A composition: what it gives, and the randomness that is left. -/
abbrev Drawing := ExceptT MessageFault (StateM EntropySource)

namespace Drawing

/-- Take the next draw. -/
def draw : Drawing Draw := do
  match (← get).next with
  | .error failure => throw (.identifier failure)
  | .ok (drawn, rest) =>
      set rest
      return drawn

/-- A new identifier. -/
def identifier : Drawing String := return (← draw).identifier

end Drawing

namespace Message

/-- A message that answers no other. -/
def root (msgType session username : Value) (msgId : String) : Message :=
  { header := .header ⟨.text msgId, username, session, msgType⟩ }

/-- A message that answers the one with the header `parent`. -/
def answer (msgType : Value) (parent : Header) (msgId : String) : Message :=
  { header := .header ⟨.text msgId, parent.username, parent.session, msgType⟩
    parentHeader := .header parent }

/-- A new message that starts a conversation. -/
def newRoot (msgType session username : Value) : Drawing Message :=
  return root msgType session username (← Drawing.identifier)

/-- A new message in answer to another, with content and metadata still to be filled in. -/
def newAnswer (msgType : Value) (parent : Message) : Drawing Message :=
  match parent.header with
  | .other _ => throw .parentNotHeader
  | .header header => return answer msgType header (← Drawing.identifier)

/-- A new message in answer to another, with its content and metadata. -/
def respond (msgType : Value) (parent : Message) (content metadata : Value) :
    Drawing Message := do
  let message ← newAnswer msgType parent
  match metadata with
  | .null => return { message with content }
  | given =>
      match Entries.ofValue given with
      | .error fault => throw (.notPairs fault)
      | .ok entries => return { message with content, metadata := .dictionary entries }

/-- The type of a message. -/
def messageType (message : Message) : Except MessageFault Value :=
  match message.header with
  | .header header => .ok header.msgType
  | .other v => .error (.noMessageType v.kind)

/-- Put an entry into the metadata of a message. -/
def putMetadata (key : String) (value : Value) (message : Message) :
    Except MessageFault Message :=
  match message.metadata with
  | .dictionary entries =>
      .ok { message with metadata := .dictionary (Entries.put entries (.text key) value) }
  | v => .error (.notEntries v.kind)

end Message

end SignedMessaging
