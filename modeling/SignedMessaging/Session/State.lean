import SignedMessaging.Fault.Report
import SignedMessaging.Message.Compose
import SignedMessaging.Session.Kept
import SignedMessaging.Signer.Basic

/-!
# The state of a session

A session has a transport with messages that arrived and messages that were sent,
a log, a source of randomness, and the signer that is current.  Messages live in
one list and are referred to by their places in it, so that all who refer to a
message see what becomes of it.  A receipt refers to a message that was received
and keeps what an answer needs: the routing identities and the signer of its
time.
-/

namespace SignedMessaging

/-- A transport of multipart messages; one that fails moves nothing. -/
structure Transport where
  inbound : List (List Value) := []
  sent : List (List Value) := []
  failing : Bool := false

namespace Transport

/-- Send the parts of one message. -/
def send (parts : List Value) (transport : Transport) : Except SessionFault Transport :=
  if transport.failing then .error .transport
  else .ok { transport with sent := transport.sent ++ [parts] }

/-- Take the parts of the next message that arrived. -/
def receive (transport : Transport) : Except SessionFault (List Value × Transport) :=
  if transport.failing then .error .transport
  else
    match transport.inbound with
    | [] => .error .transport
    | parts :: rest => .ok (parts, { transport with inbound := rest })

/-- Let a message arrive. -/
def feed (parts : List Value) (transport : Transport) : Transport :=
  { transport with inbound := transport.inbound ++ [parts] }

end Transport

/-- What is logged of a message that was sent. -/
inductive LogRecord where
  | messageType (v : Value)
  | content (v : Value)

namespace LogRecord

/-- The format in which a record is shown. -/
def format : LogRecord → String
  | .messageType _ => "<-- %s"
  | .content _ => "%r"

/-- The value that a record shows. -/
def argument : LogRecord → Value
  | .messageType v => v
  | .content v => v

end LogRecord

/-- A log, which may refuse records; `accepts` tells which of those offered it takes. -/
structure Log where
  records : List LogRecord := []
  offered : Nat := 0
  accepts : Nat → Bool := fun _ => true

namespace Log

/-- Offer a record, and tell whether it was taken. -/
def offer (record : LogRecord) (log : Log) : Bool × Log :=
  let next := { log with offered := log.offered + 1 }
  if log.accepts log.offered then (true, { next with records := log.records ++ [record] })
  else (false, next)

/-- Log a message that was sent: its type, and its content unless the type was refused. -/
def sent (message : Message) (log : Log) : Log :=
  match message.messageType with
  | .error _ => log
  | .ok messageType =>
      match log.offer (.messageType messageType) with
      | (false, log) => log
      | (true, log) => (log.offer (.content message.content)).2

end Log

/-- A message that was received, with what an answer to it needs. -/
structure Receipt where
  message : Nat
  identities : List Value
  signer : Signer

/-- What a name stands for. -/
inductive Named where
  | message (place : Nat)
  | receipt (receipt : Receipt)

namespace Named

/-- The place of the message that is meant; a receipt stands for its message. -/
def place : Named → Nat
  | .message place => place
  | .receipt found => found.message

end Named

/-- The state of a session; marks from `unmarked` on are not in use. -/
structure State where
  transport : Transport := {}
  log : Log := {}
  entropy : EntropySource
  signer : Signer := {}
  messages : List Kept := []
  unmarked : Nat := 0
  names : List (String × Named) := []

namespace State

/-- The message at a place, with its marks. -/
def kept (state : State) (place : Nat) : Kept :=
  state.messages[place]?.getD (Kept.ownedBy 0 {})

/-- The message at a place. -/
def message (state : State) (place : Nat) : Message :=
  (state.kept place).message

/-- Whether the messages at two places are equal; a message is equal to itself. -/
def same (state : State) (first second : Nat) : Bool :=
  first == second || (state.kept first).same (state.kept second)

/-- Put a message at the end. -/
def keep (kept : Kept) (state : State) : State :=
  { state with messages := state.messages ++ [kept], unmarked := state.unmarked + 2 }

/-- Replace the message at a place. -/
def replace (place : Nat) (kept : Kept) (state : State) : State :=
  { state with messages := state.messages.set place kept, unmarked := state.unmarked + 1 }

end State

end SignedMessaging
