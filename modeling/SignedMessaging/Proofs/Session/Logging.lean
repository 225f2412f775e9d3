import Mathlib.Data.List.Forall2
import SignedMessaging.Proofs.Session.Ledger

/-!
# Independence of the log

A log may refuse records, at any time and for good.  No action looks at the log before it
tells it something, or at what came of that after it did, so that an action goes the same
under any log and leaves states that differ in their logs alone (`Action.Blind`).  Two runs of
the same steps under two logs stay that close, step by step (`log_never_interferes`).
-/

namespace SignedMessaging

namespace State

/-- A state with another log. -/
def logging (log : Log) (state : State) : State :=
  { state with log }

end State

namespace Action

variable {α β : Type}

/-- Whether an action goes the same under any log, and changes nothing differently but the
log itself. -/
def Blind (action : Action α) : Prop :=
  ∀ log state, ∃ after,
    action (state.logging log) = ((action state).1, (action state).2.logging after)

namespace Blind

theorem pure (a : α) : Blind (pure a : Action α) := fun log _ => ⟨log, rfl⟩

theorem throw (fault : Fault) : Blind (throw fault : Action α) := fun log _ => ⟨log, rfl⟩

theorem ofExcept (result : Except Fault α) : Blind (ofExcept result) := fun log _ => ⟨log, rfl⟩

/-- A change of a state that sets something beside the log. -/
theorem modify {f : State → State}
    (h : ∀ log state, ∃ after, f (state.logging log) = (f state).logging after) :
    Blind (modify f : Action Unit) := by
  intro log state
  obtain ⟨after, hafter⟩ := h log state
  exact ⟨after, congrArg (Prod.mk _) hafter⟩

theorem bind {action : Action α} {next : α → Action β} (h : Blind action)
    (hnext : ∀ a, Blind (next a)) : Blind (action >>= next) := by
  intro log state
  obtain ⟨after, hafter⟩ := h log state
  rw [bind_apply, bind_apply, hafter]
  rcases action state with ⟨fault | a, middle⟩
  · exact ⟨after, rfl⟩
  · exact hnext a after middle

/-- What is looked at of a state must be there under any log. -/
theorem get_bind {next : State → Action β}
    (hlog : ∀ log state, next (state.logging log) = next state)
    (hnext : ∀ state, Blind (next state)) : Blind (get >>= next) := by
  intro log state
  rw [bind_apply, bind_apply, get_apply, get_apply]
  dsimp only
  rw [hlog]
  exact hnext state log state

theorem named (name : String) : Blind (named name) := by
  intro log state
  refine ⟨log, ?_⟩
  unfold Action.named State.logging
  dsimp only
  cases state.names.lookup name <;> rfl

theorem placeNamed (name : String) : Blind (placeNamed name) :=
  (named name).bind fun _ => pure _

theorem messageNamed (name : String) : Blind (messageNamed name) :=
  (placeNamed name).bind fun _ => get_bind (fun _ _ => rfl) fun _ => pure _

theorem receiptNamed (name : String) (purpose : ReceiptUse) :
    Blind (receiptNamed name purpose) := by
  refine (named name).bind fun found => ?_
  cases found with
  | message _ => exact throw _
  | receipt _ => exact pure _

theorem drawing (composition : Drawing α) : Blind (drawing composition) :=
  fun log _ => ⟨log, rfl⟩

theorem store (message : Message) : Blind (store message) := fun log _ => ⟨log, rfl⟩

theorem storeAnswer (parent : Nat) (message : Message) : Blind (storeAnswer parent message) :=
  fun log _ => ⟨log, rfl⟩

theorem keep (name : Option String) (found : Named) : Blind (keep name found) := by
  cases name with
  | none => exact pure ()
  | some name => exact modify fun log _ => ⟨log, rfl⟩

theorem takeInbound : Blind takeInbound := by
  intro log state
  refine ⟨log, ?_⟩
  rw [takeInbound_eq, takeInbound_eq]
  unfold State.logging
  dsimp only
  split
  · rfl
  · cases state.transport.inbound <;> rfl

/-- A message that cannot be sent is not told to the log, and one that was sent is told to it
last. -/
theorem dispatch (identities : List Value) (signer : Signer) (message : Message) :
    Blind (dispatch identities signer message) := by
  intro log state
  rw [dispatch_eq, dispatch_eq]
  unfold State.logging
  dsimp only
  cases message.toParts signer identities with
  | error fault => exact ⟨log, rfl⟩
  | ok parts =>
      cases state.transport.failing with
      | true => exact ⟨log, rfl⟩
      | false => exact ⟨log.sent message, rfl⟩

theorem publish (message : Message) (topic : Value) : Blind (publish message topic) := by
  intro log state
  rw [publish_eq, publish_eq]
  cases topicOf message topic with
  | error fault => exact ⟨log, rfl⟩
  | ok frame => exact dispatch [frame] state.signer message log state

theorem reply (receipt : Receipt) (msgType content metadata : Value) :
    Blind (reply receipt msgType content metadata) :=
  get_bind (fun _ _ => rfl) fun _ => (drawing _).bind fun _ =>
    (dispatch receipt.identities receipt.signer _).bind fun _ => storeAnswer _ _

theorem accept (parts : List Value) : Blind (accept parts) :=
  get_bind (fun _ _ => rfl) fun _ => (ofExcept _).bind fun _ => (store _).bind fun _ => pure _

theorem receive : Blind receive := takeInbound.bind accept

end Blind
end Action

namespace Step

open SignedMessaging.Action (Blind)

theorem blind_made (name : Option String) (place : Nat) : Blind (made name place) :=
  (Blind.keep name _).bind fun _ => .get_bind (fun _ _ => rfl) fun _ => .pure _

theorem blind_received (name : Option String) (receipt : Receipt) :
    Blind (received name receipt) :=
  (Blind.keep name _).bind fun _ => .get_bind (fun _ _ => rfl) fun _ => .pure _

theorem blind_changed (name : String) (change : Nat → Kept → Except MessageFault Kept) :
    Blind (changed name change) :=
  (Blind.placeNamed name).bind fun _ => .get_bind (fun _ _ => rfl) fun _ =>
    (Blind.ofExcept _).bind fun _ => (Blind.modify fun log _ => ⟨log, rfl⟩).bind fun _ => .pure _

theorem blind_arrived (parts : List Value) : Blind (arrived parts) :=
  (Blind.modify fun log _ => ⟨log, rfl⟩).bind fun _ => .get_bind (fun _ _ => rfl) fun _ => .pure _

/-- Whatever a step does, it does under any log. -/
theorem blind_action (step : Step) : Blind step.action := by
  cases step with
  | receive name => exact Blind.receive.bind (blind_received name)
  | accept name parts => exact (Blind.accept parts).bind (blind_received name)
  | makeReceipt name message identities unsigned =>
      exact (Blind.placeNamed message).bind fun _ => .get_bind (fun _ _ => rfl) fun _ =>
        blind_received name _
  | makeMessage name message => exact (Blind.store message).bind (blind_made name)
  | newRoot name msgType session username =>
      exact (Blind.drawing _).bind fun _ => (Blind.store _).bind (blind_made name)
  | newAnswer name msgType parent =>
      exact (Blind.placeNamed parent).bind fun _ => .get_bind (fun _ _ => rfl) fun _ =>
        (Blind.drawing _).bind fun _ => (Blind.storeAnswer _ _).bind (blind_made name)
  | respond name msgType parent content metadata =>
      exact (Blind.placeNamed parent).bind fun _ => .get_bind (fun _ _ => rfl) fun _ =>
        (Blind.drawing _).bind fun _ => (Blind.storeAnswer _ _).bind (blind_made name)
  | newIdentifier => exact (Blind.drawing _).bind fun _ => .pure _
  | edit message change =>
      rw [action]
      exact blind_changed message _
  | putMetadata message key value =>
      rw [action]
      exact blind_changed message _
  | look message => exact (Blind.messageNamed message).bind fun _ => .pure _
  | messageType message =>
      exact (Blind.messageNamed message).bind fun _ => (Blind.ofExcept _).bind fun _ => .pure _
  | compare first second =>
      exact (Blind.placeNamed first).bind fun _ => (Blind.placeNamed second).bind fun _ =>
        .get_bind (fun _ _ => rfl) fun _ => .pure _
  | reply name receipt msgType content metadata =>
      exact (Blind.receiptNamed _ _).bind fun _ => (Blind.reply _ _ _ _).bind (blind_made name)
  | send receipt message =>
      exact (Blind.receiptNamed _ _).bind fun _ => (Blind.messageNamed _).bind fun _ =>
        (Blind.dispatch _ _ _).bind fun _ => .pure _
  | publish message topic =>
      exact (Blind.messageNamed _).bind fun _ => (Blind.publish _ _).bind fun _ => .pure _
  | feed parts => exact blind_arrived parts
  | loopBack =>
      refine .get_bind (fun _ _ => rfl) fun state => ?_
      cases state.transport.sent.getLast? with
      | none => exact .throw _
      | some parts => exact blind_arrived parts
  | setFailing failing => exact (Blind.modify fun log _ => ⟨log, rfl⟩).bind fun _ => .pure _
  | setSigner request =>
      exact (Blind.ofExcept _).bind fun _ => (Blind.modify fun log _ => ⟨log, rfl⟩).bind fun _ =>
        .pure _

/-! ### Runs under two logs -/

/-- Whether two outcomes of a step, each a report with the state after it, are the same but
for what the logs have. -/
structure Alike (first second : StepReport × State) : Prop where
  result : first.1.result = second.1.result
  sent : first.1.sent = second.1.sent
  state : second.2 = first.2.logging second.2.log

theorem take_logging (step : Step) (log : Log) (state : State) :
    Alike (step.take state) (step.take (state.logging log)) := by
  obtain ⟨after, hafter⟩ := blind_action step log state
  have hstate : (step.take (state.logging log)).2 = (step.take state).2.logging after :=
    state_take hafter
  constructor
  case result => exact (result_take hafter).symm
  case sent =>
    rw [sent_take, sent_take, hstate]
    rfl
  case state =>
    rw [hstate]
    rfl

/-- What a step is to send does not depend on the log. -/
theorem sending?_logging (step : Step) (log : Log) (state : State) :
    step.sending? (state.logging log) = step.sending? state := by
  cases step <;> rfl

theorem sendings_logging (step : Step) (log : Log) (state : State) :
    step.sendings (state.logging log) = step.sendings state := by
  rw [sendings, sendings, (take_logging step log state).result, sending?_logging]

/-- What the steps of a run report, each with the state after it. -/
def history : List Step → State → List (StepReport × State) :=
  along fun step state => [step.take state]

theorem history_cons (step : Step) (rest : List Step) (state : State) :
    history (step :: rest) state = step.take state :: history rest (step.take state).2 := rfl

theorem history_logging (steps : List Step) (log : Log) (state : State) :
    List.Forall₂ Alike (history steps state) (history steps (state.logging log)) := by
  induction steps generalizing log state with
  | nil => exact .nil
  | cons step rest ih =>
      have halike := take_logging step log state
      rw [history_cons, history_cons]
      refine .cons halike ?_
      rw [halike.state]
      exact ih _ _

theorem sendings_throughout (steps : List Step) (log : Log) (state : State) :
    along sendings steps (state.logging log) = along sendings steps state := by
  induction steps generalizing log state with
  | nil => rfl
  | cons step rest ih =>
      rw [along, along, sendings_logging, (take_logging step log state).state, ih]

/-- Two runs of the same steps from the same state but for the log. -/
structure Undisturbed (steps : List Step) (state : State) (first second : Log) : Prop where
  /-- Each step has the same result and sends the same, and the state after it is the same
  but for the log: the transport, the randomness that is left, the signer, all messages, and
  all names with their receipts. -/
  alike : List.Forall₂ Alike (history steps (state.logging first))
    (history steps (state.logging second))
  /-- Both logs are told of the same messages, whatever they make of it. -/
  told : ∀ log ∈ [first, second], (takeAll steps (state.logging log)).2.log =
    (along sendings steps state).foldl (fun log sending => log.sent sending.message) log

/-- A log never interferes: it makes no difference which records it refuses. -/
theorem log_never_interferes (steps : List Step) (state : State) (first second : Log) :
    Undisturbed steps state first second where
  alike := history_logging steps second (state.logging first)
  told log _ := by
    rw [(takeAll_sendings steps (state.logging log)).2, sendings_throughout]
    rfl

end Step
end SignedMessaging
