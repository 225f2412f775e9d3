import SignedMessaging.Proofs.Message.Delivery
import SignedMessaging.Proofs.Session.Changes

/-!
# Sending in steps

Three sorts of steps are to send a message: a message is sent to where a receipt came
from, published, or sent as the answer that the step itself composes.  What such a step is
to send can be told before it is taken, where it can be sent at all (`Step.sending?`).  The
step then ends in one of two ways (`Step.ends_of_sends`): with a fault, having sent and
logged nothing, or with exactly that message behind those that were sent before, told to
the log once.
-/

namespace SignedMessaging

/-- A message that was sent: what it was sent under and behind, its type, and the parts
in which it left. -/
structure Sending where
  signer : Signer
  identities : List Value
  message : Message
  messageType : Value
  parts : List Value
  built : message.toParts signer identities = .ok parts
  typed : message.messageType = .ok messageType

namespace Sending

/-- The sending of a message behind identities, where its parts can be built. -/
def of? (signer : Signer) (identities : List Value) (message : Message) : Option Sending :=
  match hparts : message.toParts signer identities, htype : message.messageType with
  | .ok parts, .ok messageType =>
      some ⟨signer, identities, message, messageType, parts, hparts, htype⟩
  | _, _ => none

/-- What is logged of it, each record with its format. -/
def records (sending : Sending) : List (String × Value) :=
  [("<-- %s", sending.messageType), ("%r", sending.message.content)]

/-- Whether an outcome is that of the step that sent it: the parts, or the message. -/
def GivenAs (sending : Sending) : Outcome → Prop
  | .parts parts => parts = sending.parts
  | .message message => message = sending.message
  | _ => False

variable {signer : Signer} {identities parts : List Value} {message : Message}
  {sending : Sending}

/-- What is to be sent is the given message, under the given signer and identities. -/
theorem of?_eq_some (h : of? signer identities message = some sending) :
    sending.signer = signer ∧ sending.identities = identities ∧ sending.message = message := by
  unfold of? at h
  split at h
  · cases h
    exact ⟨rfl, rfl, rfl⟩
  · cases h

/-- The parts that a message leaves in are those built of it. -/
theorem toParts_of_of? (h : of? signer identities message = some sending) :
    message.toParts signer identities = .ok sending.parts := by
  obtain ⟨rfl, rfl, rfl⟩ := of?_eq_some h
  exact sending.built

theorem of?_of_toParts (h : message.toParts signer identities = .ok parts) :
    ∃ sending, of? signer identities message = some sending ∧ sending.message = message ∧
      sending.parts = parts := by
  obtain ⟨frames, hframes, -⟩ := Message.toParts_eq_ok_iff.1 h
  obtain ⟨s, hs⟩ := Message.exists_messageType (Message.toSigned_eq_ok_iff.1 hframes).1
  unfold of?
  split
  · next hparts _ => exact ⟨_, rfl, rfl, Except.ok.inj (hparts.symm.trans h)⟩
  · next hnone => exact absurd hs (hnone _ _ h)

end Sending

namespace State

/-- The state after an answer was composed, sent and kept. -/
def answered (name : Option String) (receipt : Receipt) (sending : Sending)
    (entropy : EntropySource) (state : State) : State :=
  let next := posted sending.parts sending.message { state with entropy }
  (next.keep (Kept.answering next.unmarked (next.kept receipt.message) sending.message)).called
    name (.message next.messages.length)

variable (name : Option String) (receipt : Receipt) (sending : Sending) (entropy : EntropySource)
  (state : State)

theorem answered_sent : (state.answered name receipt sending entropy).transport.sent =
    state.transport.sent ++ [sending.parts] := by
  rw [answered, called_transport]
  rfl

theorem answered_log :
    (state.answered name receipt sending entropy).log = state.log.sent sending.message := by
  rw [answered, called_log]
  rfl

theorem answered_entropy : (state.answered name receipt sending entropy).entropy = entropy := by
  rw [answered, called_entropy]
  rfl

end State

namespace Action

/-- A message is refused, and nothing is changed, or it is sent as a whole. -/
theorem dispatch_ends (identities : List Value) (signer : Signer) (message : Message)
    (state : State) :
    (∃ fault, dispatch identities signer message state = (.error fault, state)) ∨
      ∃ sending, Sending.of? signer identities message = some sending ∧
        dispatch identities signer message state =
          (.ok sending.parts, state.posted sending.parts sending.message) ∧
        sending.message = message := by
  rw [dispatch_eq]
  cases hparts : message.toParts signer identities with
  | error fault => exact .inl ⟨fault, rfl⟩
  | ok parts =>
      by_cases hfailing : state.transport.failing = true
      · exact .inl ⟨.session .transport, if_pos hfailing⟩
      · obtain ⟨sending, hof, rfl, rfl⟩ := Sending.of?_of_toParts hparts
        exact .inr ⟨sending, hof, if_neg hfailing, rfl⟩

end Action

namespace Step

/-- What a step is to send, where all that it takes can be had. -/
def sending? (step : Step) (state : State) : Option Sending :=
  match step with
  | .send receipt message =>
      match state.names.lookup receipt, state.names.lookup message with
      | some (.receipt receipt), some found =>
          Sending.of? receipt.signer receipt.identities (state.message found.place)
      | _, _ => none
  | .publish message topic =>
      match state.names.lookup message with
      | none => none
      | some found =>
          match Action.topicOf (state.message found.place) topic with
          | .error _ => none
          | .ok frame => Sending.of? state.signer [frame] (state.message found.place)
  | .reply _ receipt msgType content metadata =>
      match state.names.lookup receipt with
      | some (.receipt receipt) =>
          match (Message.respond msgType (state.message receipt.message) content metadata
            state.entropy).1 with
          | .error _ => none
          | .ok message => Sending.of? receipt.signer receipt.identities message
      | _ => none
  | _ => none

/-- How a step that is to send a message may end. -/
inductive Ends (step : Step) (state : State) : Prop
  /-- It has a fault, and neither the messages sent nor the log show anything of it. -/
  | refused (fault : Fault) (hresult : (step.take state).1.result = .error fault)
      (hsent : (step.take state).2.transport.sent = state.transport.sent)
      (hlog : (step.take state).2.log = state.log)
  /-- It sends what it is to send, gives it as its outcome, and tells the log. -/
  | sent (sending : Sending) (outcome : Outcome)
      (hsending : step.sending? state = some sending)
      (hresult : (step.take state).1.result = .ok outcome) (hgiven : sending.GivenAs outcome)
      (hsent : (step.take state).2.transport.sent = state.transport.sent ++ [sending.parts])
      (hlog : (step.take state).2.log = state.log.sent sending.message)

namespace Ends

variable {step : Step} {state after : State} {fault : Fault} {sending : Sending}
  {outcome : Outcome}

theorem of_fault (h : step.action state = (.error fault, after))
    (hsent : after.transport.sent = state.transport.sent) (hlog : after.log = state.log) :
    step.Ends state := by
  refine .refused fault (result_take h) ?_ ?_
  · rw [state_take h, hsent]
  · rw [state_take h, hlog]

theorem of_posted (h : step.action state = (.ok outcome, after))
    (hsending : step.sending? state = some sending) (hgiven : sending.GivenAs outcome)
    (hsent : after.transport.sent = state.transport.sent ++ [sending.parts])
    (hlog : after.log = state.log.sent sending.message) : step.Ends state := by
  refine .sent sending outcome hsending (result_take h) hgiven ?_ ?_
  · rw [state_take h, hsent]
  · rw [state_take h, hlog]

/-- A step that comes down to sending one message and giving its parts ends in such a way. -/
theorem of_dispatch {identities : List Value} {signer : Signer} {message : Message}
    (haction : step.action state =
      (Action.dispatch identities signer message >>= fun parts => pure (.parts parts)) state)
    (hsending : step.sending? state = Sending.of? signer identities message) :
    step.Ends state := by
  rw [Action.bind_apply] at haction
  rcases Action.dispatch_ends identities signer message state with
    ⟨fault, hdispatch⟩ | ⟨sending, hof, hdispatch, -⟩
  · rw [hdispatch] at haction
    exact .of_fault haction rfl rfl
  · rw [hdispatch] at haction
    have hgiven : sending.GivenAs (.parts sending.parts) := rfl
    exact .of_posted haction (hsending.trans hof) hgiven rfl rfl

end Ends

open SignedMessaging.Action (bind_apply receiptNamed_eq messageNamed_eq publish_eq reply_eq
  dispatch_ends)

theorem send_ends (receipt message : String) (state : State) :
    (Step.send receipt message).Ends state := by
  cases hreceipt : state.names.lookup receipt with
  | none => exact .of_fault (by rw [action, bind_apply, receiptNamed_eq, hreceipt]) rfl rfl
  | some named =>
    cases named with
    | message _ => exact .of_fault (by rw [action, bind_apply, receiptNamed_eq, hreceipt]) rfl rfl
    | receipt found =>
      have haction : (Step.send receipt message).action state =
          (Action.messageNamed message >>= fun message =>
            Action.send found message >>= fun parts => pure (.parts parts)) state := by
        rw [action, bind_apply, receiptNamed_eq, hreceipt]
      rw [bind_apply, messageNamed_eq] at haction
      cases hmessage : state.names.lookup message with
      | none => exact .of_fault (by rw [haction, hmessage]) rfl rfl
      | some named =>
        refine .of_dispatch (by rw [haction, hmessage]; rfl) ?_
        simp only [sending?, hreceipt, hmessage]

theorem publish_ends (message : String) (topic : Value) (state : State) :
    (Step.publish message topic).Ends state := by
  have haction : (Step.publish message topic).action state =
      (Action.messageNamed message >>= fun message =>
        Action.publish message topic >>= fun parts => pure (.parts parts)) state := rfl
  rw [bind_apply, messageNamed_eq] at haction
  cases hmessage : state.names.lookup message with
  | none => exact .of_fault (by rw [haction, hmessage]) rfl rfl
  | some named =>
    rw [hmessage] at haction
    dsimp only at haction
    rw [bind_apply, publish_eq] at haction
    cases htopic : Action.topicOf (state.message named.place) topic with
    | error fault => exact .of_fault (by rw [haction, htopic]) rfl rfl
    | ok frame =>
      refine .of_dispatch (by rw [haction, htopic, bind_apply]) ?_
      simp only [sending?, hmessage, htopic]

/-- An answer is refused, and at most a draw is gone, or it is composed, sent and kept. -/
theorem reply_cases (name : Option String) {called : String} {receipt : Receipt}
    (msgType content metadata : Value) {state : State}
    (hreceipt : state.names.lookup called = some (.receipt receipt)) :
    (∃ fault entropy, (reply name called msgType content metadata).action state =
        (.error fault, { state with entropy })) ∨
      ∃ sending entropy,
        Message.respond msgType (state.message receipt.message) content metadata state.entropy =
          (.ok sending.message, entropy) ∧
        Sending.of? receipt.signer receipt.identities sending.message = some sending ∧
        (reply name called msgType content metadata).action state =
          (.ok (.message sending.message), state.answered name receipt sending entropy) := by
  rw [action, bind_apply, receiptNamed_eq, hreceipt]
  dsimp only
  rw [bind_apply, reply_eq]
  rcases Message.respond msgType (state.message receipt.message) content metadata
    state.entropy with ⟨fault | message, entropy⟩
  · exact .inl ⟨_, _, rfl⟩
  · dsimp only
    rw [bind_apply, Action.send]
    rcases dispatch_ends receipt.identities receipt.signer message { state with entropy } with
      ⟨fault, hdispatch⟩ | ⟨sending, hsending, hdispatch, rfl⟩
    · rw [hdispatch]
      exact .inl ⟨_, _, rfl⟩
    · refine .inr ⟨sending, entropy, rfl, hsending, ?_⟩
      rw [hdispatch]
      simp only [Action.storeAnswer, made_eq, Action.message_keep]
      rfl

theorem reply_ends (name : Option String) (receipt : String) (msgType content metadata : Value)
    (state : State) : (Step.reply name receipt msgType content metadata).Ends state := by
  cases hreceipt : state.names.lookup receipt with
  | none => exact .of_fault (by rw [action, bind_apply, receiptNamed_eq, hreceipt]) rfl rfl
  | some named =>
    cases named with
    | message _ => exact .of_fault (by rw [action, bind_apply, receiptNamed_eq, hreceipt]) rfl rfl
    | receipt found =>
      rcases reply_cases name msgType content metadata hreceipt with
        ⟨fault, entropy, haction⟩ | ⟨sending, entropy, hrespond, hsending, haction⟩
      · exact .of_fault haction rfl rfl
      · have hgiven : sending.GivenAs (.message sending.message) := rfl
        refine .of_posted haction ?_ hgiven (State.answered_sent ..) (State.answered_log ..)
        simp only [sending?, hreceipt, hrespond, hsending]

/-- A step that is to send a message is refused as a whole, or sends it as a whole. -/
theorem ends_of_sends {step : Step} (h : step.sends = true) (state : State) : step.Ends state := by
  cases step with
  | send receipt message => exact send_ends receipt message state
  | publish message topic => exact publish_ends message topic state
  | reply name receipt msgType content metadata =>
      exact reply_ends name receipt msgType content metadata state
  | _ => cases h

end Step
end SignedMessaging
