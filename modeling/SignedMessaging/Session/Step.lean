import SignedMessaging.Session.Action
import SignedMessaging.Signer.Scheme

/-!
# Steps of a session

An application works on a session in steps: it receives, makes, changes, compares
and sends messages, and it acts on the transport and the signer.  The messages
and receipts that it makes can be given names for later steps.  Each step reports
its result or fault, and beside it what it sent and what it logged.
-/

namespace SignedMessaging

/-- A change of one part of a message. -/
inductive Edit where
  | header (slot : HeaderSlot)
  | parentHeader (slot : HeaderSlot)
  | metadata (v : Value)
  | content (v : Value)

namespace Edit

/-- The message after a change. -/
def apply : Edit → Message → Message
  | .header slot, message => { message with header := slot }
  | .parentHeader slot, message => { message with parentHeader := slot }
  | .metadata v, message => { message with metadata := v }
  | .content v, message => { message with content := v }

/-- The kept message after a change; a header that was replaced has a mark of its own. -/
def applyKept (mark : Nat) (edit : Edit) (kept : Kept) : Kept :=
  let message := edit.apply kept.message
  match edit with
  | .header _ => { kept with message, headerMarks := Marks.own mark }
  | .parentHeader _ => { kept with message, parentMarks := Marks.own mark }
  | .metadata _ | .content _ => { kept with message }

end Edit

/-- A step of an application.  Where a message or receipt is made, `name` is what it
is called from then on. -/
inductive Step where
  | receive (name : Option String)
  | accept (name : Option String) (parts : List Value)
  | makeReceipt (name : Option String) (message : String) (identities : List Value)
      (unsigned : Bool)
  | makeMessage (name : Option String) (message : Message)
  | newRoot (name : Option String) (msgType session username : Value)
  | newAnswer (name : Option String) (msgType : Value) (parent : String)
  | respond (name : Option String) (msgType : Value) (parent : String)
      (content metadata : Value)
  | newIdentifier
  | edit (message : String) (change : Edit)
  | putMetadata (message key : String) (value : Value)
  | look (message : String)
  | messageType (message : String)
  | compare (first second : String)
  | reply (name : Option String) (receipt : String) (msgType content metadata : Value)
  | send (receipt message : String)
  | publish (message : String) (topic : Value)
  | feed (parts : List Value)
  | loopBack
  | setFailing (failing : Bool)
  | setSigner (request : SignerRequest)

/-- What a step gives. -/
inductive Outcome where
  | message (message : Message)
  | receipt (message : Message) (receipt : Receipt)
  | text (s : String)
  | value (v : Value)
  | flag (b : Bool)
  | count (n : Nat)
  | parts (parts : List Value)
  | signer (signer : Signer)

/-- What is told about a step. -/
structure StepReport where
  result : Except Fault Outcome
  sent : List (List Value)
  records : List LogRecord

namespace Step

/-- Give the message at a place a name, and show it. -/
def made (name : Option String) (place : Nat) : Action Outcome := do
  Action.keep name (.message place)
  return .message ((← get).message place)

/-- Keep a receipt, and show it. -/
def received (name : Option String) (receipt : Receipt) : Action Outcome := do
  Action.keep name (.receipt receipt)
  return .receipt ((← get).message receipt.message) receipt

/-- Change the message of a name, with a mark at hand, and show it. -/
def changed (name : String) (change : Nat → Kept → Except MessageFault Kept) :
    Action Outcome := do
  let place ← Action.placeNamed name
  let state ← get
  let kept ← Action.ofExcept ((change state.unmarked (state.kept place)).mapError .message)
  modify (State.replace place kept)
  return .message kept.message

/-- Let a message arrive, and count those that wait. -/
def arrived (parts : List Value) : Action Outcome := do
  modify fun state => { state with transport := state.transport.feed parts }
  return .count (← get).transport.inbound.length

/-- The action of a step. -/
def action : Step → Action Outcome
  | .receive name => do received name (← Action.receive)
  | .accept name parts => do received name (← Action.accept parts)
  | .makeReceipt name message identities unsigned => do
      let place ← Action.placeNamed message
      let current := (← get).signer
      received name ⟨place, identities, if unsigned then {} else current⟩
  | .makeMessage name message => do made name (← Action.store message)
  | .newRoot name msgType session username => do
      let message ← Action.drawing (Message.newRoot msgType session username)
      made name (← Action.store message)
  | .newAnswer name msgType parent => do
      let place ← Action.placeNamed parent
      let parent := (← get).message place
      let message ← Action.drawing (Message.newAnswer msgType parent)
      made name (← Action.storeAnswer place message)
  | .respond name msgType parent content metadata => do
      let place ← Action.placeNamed parent
      let parent := (← get).message place
      let message ← Action.drawing (Message.respond msgType parent content metadata)
      made name (← Action.storeAnswer place message)
  | .newIdentifier => return .text (← Action.drawing Drawing.identifier)
  | .edit message change => changed message fun mark kept => .ok (change.applyKept mark kept)
  | .putMetadata message key value => changed message fun _ kept =>
      (Message.putMetadata key value kept.message).map fun message => { kept with message }
  | .look message => return .message (← Action.messageNamed message)
  | .messageType message => do
      let message ← Action.messageNamed message
      return .value (← Action.ofExcept (message.messageType.mapError .message))
  | .compare first second => do
      let first ← Action.placeNamed first
      let second ← Action.placeNamed second
      return .flag ((← get).same first second)
  | .reply name receipt msgType content metadata => do
      let receipt ← Action.receiptNamed receipt .reply
      made name (← Action.reply receipt msgType content metadata)
  | .send receipt message => do
      let receipt ← Action.receiptNamed receipt .send
      let message ← Action.messageNamed message
      return .parts (← Action.send receipt message)
  | .publish message topic => do
      let message ← Action.messageNamed message
      return .parts (← Action.publish message topic)
  | .feed parts => arrived parts
  | .loopBack => do
      match (← get).transport.sent.getLast? with
      | none => throw (.session .nothingSent)
      | some parts => arrived parts
  | .setFailing failing => do
      modify fun state => { state with transport := { state.transport with failing } }
      return .flag failing
  | .setSigner request => do
      let signer ← Action.ofExcept request.build
      modify fun state => { state with signer }
      return .signer signer

/-- Take a step; the report has what was added to the messages sent and to the log. -/
def take (step : Step) (state : State) : StepReport × State :=
  let (result, next) := step.action state
  (⟨result, next.transport.sent.drop state.transport.sent.length,
    next.log.records.drop state.log.records.length⟩, next)

/-- Take steps one after another. -/
def takeAll : List Step → State → List StepReport × State
  | [], state => ([], state)
  | step :: rest, state =>
      let (report, next) := step.take state
      let (reports, final) := takeAll rest next
      (report :: reports, final)

end Step

end SignedMessaging
