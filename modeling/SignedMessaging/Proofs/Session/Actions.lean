import SignedMessaging.Proofs.Message.Reception
import SignedMessaging.Session.Step

/-!
# What an action does to a session

One equation for each action, with its result and the state after it.  An action ends at
its first fault.  `dispatch_eq` has the one place where a message is sent: encoding and
signing come before it and may fail, the transport may refuse it, and nothing behind it
fails any more, so that a state is either `posted` or as it was.
-/

namespace SignedMessaging

/-! ### States -/

namespace State

/-- The state after a message was sent: its parts stand last, and the log was told. -/
def posted (parts : List Value) (message : Message) (state : State) : State :=
  { state with
    transport := { state.transport with sent := state.transport.sent ++ [parts] }
    log := state.log.sent message }

/-- The state after something got a name, if it got one. -/
def called (name : Option String) (found : Named) (state : State) : State :=
  match name with
  | none => state
  | some name => { state with names := (name, found) :: state.names }

variable (name : Option String) (found : Named) (state : State)

@[simp]
theorem called_transport : (state.called name found).transport = state.transport := by
  cases name <;> rfl

@[simp]
theorem called_log : (state.called name found).log = state.log := by
  cases name <;> rfl

@[simp]
theorem called_entropy : (state.called name found).entropy = state.entropy := by
  cases name <;> rfl

@[simp]
theorem called_messages : (state.called name found).messages = state.messages := by
  cases name <;> rfl

@[simp]
theorem called_message (place : Nat) : (state.called name found).message place =
    state.message place := by
  cases name <;> rfl

end State

namespace Action

variable (state : State)

/-! ### Names -/

theorem receiptNamed_eq (name : String) (purpose : ReceiptUse) :
    receiptNamed name purpose state =
      match state.names.lookup name with
      | none => (.error (.session (.unknownName name)), state)
      | some (.message _) => (.error (.session (.notReceipt purpose)), state)
      | some (.receipt receipt) => (.ok receipt, state) := by
  simp only [receiptNamed, bind_apply, named]
  rcases state.names.lookup name with _ | ⟨_ | _⟩ <;> rfl

theorem placeNamed_eq (name : String) :
    placeNamed name state =
      match state.names.lookup name with
      | none => (.error (.session (.unknownName name)), state)
      | some found => (.ok found.place, state) := by
  simp only [placeNamed, bind_apply, named]
  cases state.names.lookup name <;> rfl

theorem messageNamed_eq (name : String) :
    messageNamed name state =
      match state.names.lookup name with
      | none => (.error (.session (.unknownName name)), state)
      | some found => (.ok (state.message found.place), state) := by
  simp only [messageNamed, placeNamed, bind_apply, named]
  cases state.names.lookup name <;> rfl

theorem keep_eq (name : Option String) (found : Named) :
    keep name found state = (.ok (), state.called name found) := by
  cases name <;> rfl

/-! ### Sending -/

/-- A message is sent where it can be encoded and signed and the transport works. -/
theorem dispatch_eq (identities : List Value) (signer : Signer) (message : Message) :
    dispatch identities signer message state =
      match message.toParts signer identities with
      | .error fault => (.error fault, state)
      | .ok parts =>
          if state.transport.failing then (.error (.session .transport), state)
          else (.ok parts, state.posted parts message) := by
  simp only [dispatch, bind_apply, ofExcept]
  cases message.toParts signer identities with
  | error fault => rfl
  | ok parts =>
      simp only [transmit, Transport.send]
      by_cases hfailing : state.transport.failing = true
      · rw [if_pos hfailing, if_pos hfailing]
      · rw [if_neg hfailing, if_neg hfailing]
        rfl

/-- What was sent left in its parts over a working transport, and the log was told. -/
theorem dispatch_eq_ok_iff {identities parts : List Value} {signer : Signer} {message : Message}
    {state after : State} : dispatch identities signer message state = (.ok parts, after) ↔
      message.toParts signer identities = .ok parts ∧ state.transport.failing = false ∧
        after = state.posted parts message := by
  rw [dispatch_eq]
  cases message.toParts signer identities with
  | error fault => exact iff_of_false (by rintro ⟨⟩) (by rintro ⟨⟨⟩, -⟩)
  | ok built =>
      cases hfailing : state.transport.failing with
      | true => exact iff_of_false (by rintro ⟨⟩) (by rintro ⟨-, ⟨⟩, -⟩)
      | false =>
          constructor
          · rintro ⟨⟩
            exact ⟨rfl, rfl, rfl⟩
          · rintro ⟨⟨⟩, -, rfl⟩
            rfl

/-- The frame under which a message is published. -/
def topicOf (message : Message) (topic : Value) : Except Fault Value :=
  match topic with
  | .null => (defaultTopic message).mapError .message
  | given => .ok given

/-- A message is published by sending it behind its topic alone. -/
theorem publish_eq (message : Message) (topic : Value) :
    publish message topic state =
      match topicOf message topic with
      | .error fault => (.error fault, state)
      | .ok frame => dispatch [frame] state.signer message state := by
  cases topic with
  | null =>
      simp only [publish, topicOf, bind_apply, get_apply, ofExcept]
      cases defaultTopic message <;> rfl
  | _ => rfl

/-- What was published left behind its topic, under the signer of the session. -/
theorem publish_eq_ok_iff {message : Message} {topic : Value} {parts : List Value}
    {state after : State} : publish message topic state = (.ok parts, after) ↔
      ∃ frame, topicOf message topic = .ok frame ∧
        message.toParts state.signer [frame] = .ok parts ∧
        state.transport.failing = false ∧ after = state.posted parts message := by
  rw [publish_eq]
  cases topicOf message topic with
  | error fault => exact iff_of_false (by rintro ⟨⟩) (by rintro ⟨_, ⟨⟩, -⟩)
  | ok frame =>
      dsimp only
      rw [dispatch_eq_ok_iff]
      constructor
      · rintro ⟨hparts, hworking, hafter⟩
        exact ⟨frame, rfl, hparts, hworking, hafter⟩
      · rintro ⟨_, ⟨⟩, hparts, hworking, hafter⟩
        exact ⟨hparts, hworking, hafter⟩

/-- An answer is composed, sent to where the receipt came from, and kept. -/
theorem reply_eq (receipt : Receipt) (msgType content metadata : Value) :
    reply receipt msgType content metadata state =
      match Message.respond msgType (state.message receipt.message) content metadata
        state.entropy with
      | (.error fault, entropy) => (.error (.message fault), { state with entropy })
      | (.ok message, entropy) =>
          (send receipt message >>= fun _ => storeAnswer receipt.message message)
            { state with entropy } := by
  rw [reply, bind_apply, get_apply]
  dsimp only
  rw [bind_apply, drawing]
  rcases Message.respond msgType (state.message receipt.message) content metadata
    state.entropy with ⟨_ | _, _⟩ <;> rfl

/-! ### Receiving -/

theorem takeInbound_eq :
    takeInbound state =
      if state.transport.failing then (.error (.session .transport), state)
      else
        match state.transport.inbound with
        | [] => (.error (.session .transport), state)
        | parts :: rest =>
            (.ok parts, { state with transport := { state.transport with inbound := rest } }) := by
  simp only [takeInbound, Transport.receive]
  by_cases hfailing : state.transport.failing = true
  · rw [if_pos hfailing, if_pos hfailing]
  · rw [if_neg hfailing, if_neg hfailing]
    cases state.transport.inbound <;> rfl

end Action

namespace Step

theorem result_take {step : Step} {state after : State} {result : Except Fault Outcome}
    (h : step.action state = (result, after)) : (step.take state).1.result = result :=
  congrArg Prod.fst h

theorem state_take {step : Step} {state after : State} {result : Except Fault Outcome}
    (h : step.action state = (result, after)) : (step.take state).2 = after :=
  congrArg Prod.snd h

/-- A step reports as sent what stands behind the messages that were sent before. -/
theorem sent_take (step : Step) (state : State) : (step.take state).1.sent =
    (step.take state).2.transport.sent.drop state.transport.sent.length := rfl

/-! ### Naming what a step made -/

theorem made_eq (name : Option String) (place : Nat) (state : State) :
    made name place state =
      (.ok (.message (state.message place)), state.called name (.message place)) := by
  simp only [made, Action.bind_apply, Action.keep_eq, Action.get_apply, State.called_message]
  rfl

theorem received_eq (name : Option String) (receipt : Receipt) (state : State) :
    received name receipt state =
      (.ok (.receipt (state.message receipt.message) receipt),
        state.called name (.receipt receipt)) := by
  simp only [received, Action.bind_apply, Action.keep_eq, Action.get_apply, State.called_message]
  rfl

end Step

end SignedMessaging
