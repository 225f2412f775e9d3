import Mathlib.Logic.Relation
import SignedMessaging.Proofs.Session.Actions

/-!
# What a step may change

A step works on the state of a session by changes of a few sorts, and which of them are
open to it can be seen from the step: names are given to what it makes, a message is
sent only by a step that is to send one, and messages that are there change only where
they are edited.  Every step is a sequence of changes open to it (`makes_action`); what
all of these leave true, a step and a run leave true (`take_preserves`,
`takeAll_preserves`).  Which changes a step makes, and whether it makes them, is not
said here.
-/

namespace SignedMessaging

open Relation (ReflTransGen)

namespace Step

/-- What a step calls the message or receipt that it makes. -/
def name? : Step → Option String
  | .receive name | .accept name _ | .makeReceipt name _ _ _ | .makeMessage name _
  | .newRoot name _ _ _ | .newAnswer name _ _ | .respond name _ _ _ _
  | .reply name _ _ _ _ => name
  | _ => none

/-- Whether a step changes a message that was there before. -/
def edits : Step → Bool
  | .edit _ _ | .putMetadata _ _ _ => true
  | _ => false

/-- Whether a step is to send a message. -/
def sends : Step → Bool
  | .reply _ _ _ _ _ | .send _ _ | .publish _ _ => true
  | _ => false

/-- Whether a step takes a message from those that wait, or lets one arrive. -/
def queues : Step → Bool
  | .receive _ | .feed _ | .loopBack => true
  | _ => false

/-- Whether a step is to draw randomness. -/
def draws : Step → Bool
  | .newRoot _ _ _ _ | .newAnswer _ _ _ | .respond _ _ _ _ _ | .newIdentifier
  | .reply _ _ _ _ _ => true
  | _ => false

/-- One change that a step may make to the state of a session. -/
inductive Change (step : Step) (state : State) : State → Prop
  | named {name : String} (h : step.name? = some name) (found : Named) :
      Change step state { state with names := (name, found) :: state.names }
  | drawn (h : step.draws = true) (entropy : EntropySource) :
      Change step state { state with entropy }
  | kept (kept : Kept) : Change step state (state.keep kept)
  | replaced (h : step.edits = true) (place : Nat) (kept : Kept) :
      Change step state (state.replace place kept)
  | queued (h : step.queues = true) (inbound : List (List Value)) :
      Change step state { state with transport := { state.transport with inbound } }
  | posted (h : step.sends = true) (parts : List Value) (message : Message) :
      Change step state (state.posted parts message)
  | switched {failing : Bool} (h : step = .setFailing failing) :
      Change step state { state with transport := { state.transport with failing } }
  | rekeyed {request : SignerRequest} (h : step = .setSigner request) (signer : Signer) :
      Change step state { state with signer }

end Step

namespace Action

variable {α β : Type} {R : State → State → Prop}

/-- Whether an action does nothing but make changes of a sort. -/
def Makes (R : State → State → Prop) (action : Action α) : Prop :=
  ∀ state, ReflTransGen R state (action state).2

theorem Makes.pure (a : α) : Makes R (pure a : Action α) := fun _ => .refl

theorem Makes.throw (fault : Fault) : Makes R (throw fault : Action α) := fun _ => .refl

theorem Makes.get : Makes R (get : Action State) := fun _ => .refl

theorem Makes.ofExcept (result : Except Fault α) : Makes R (ofExcept result) := fun _ => .refl

theorem Makes.modify {f : State → State} (h : ∀ state, R state (f state)) :
    Makes R (modify f : Action Unit) := fun state => .single (h state)

theorem Makes.bind {action : Action α} {next : α → Action β} (h : Makes R action)
    (hnext : ∀ a, Makes R (next a)) : Makes R (action >>= next) := by
  intro state
  have hfirst := h state
  rw [bind_apply]
  rcases hresult : action state with ⟨fault | a, after⟩
  · rw [hresult] at hfirst
    exact hfirst
  · rw [hresult] at hfirst
    exact hfirst.trans (hnext a after)

theorem Makes.named (name : String) : Makes R (named name) := by
  intro state
  rw [Action.named]
  cases state.names.lookup name <;> exact .refl

theorem Makes.placeNamed (name : String) : Makes R (placeNamed name) :=
  (Makes.named name).bind fun _ => .pure _

theorem Makes.messageNamed (name : String) : Makes R (messageNamed name) :=
  (Makes.placeNamed name).bind fun _ => Makes.get.bind fun _ => .pure _

theorem Makes.receiptNamed (name : String) (purpose : ReceiptUse) :
    Makes R (receiptNamed name purpose) := by
  refine (Makes.named name).bind fun found => ?_
  cases found with
  | message _ => exact .throw _
  | receipt _ => exact .pure _

theorem Makes.drawing (h : ∀ state entropy, R state { state with entropy })
    (composition : Drawing α) : Makes R (drawing composition) := fun _ => .single (h _ _)

theorem Makes.dispatch (h : ∀ state parts message, R state (state.posted parts message))
    (identities : List Value) (signer : Signer) (message : Message) :
    Makes R (dispatch identities signer message) := by
  intro state
  rw [Action.dispatch_eq]
  split
  · exact .refl
  · split
    · exact .refl
    · exact .single (h _ _ _)

theorem Makes.publish (h : ∀ state parts message, R state (state.posted parts message))
    (message : Message) (topic : Value) : Makes R (publish message topic) := by
  intro state
  rw [Action.publish_eq]
  split
  · exact .refl
  · exact Makes.dispatch h _ _ _ state

end Action

namespace Step

open SignedMessaging.Action (Makes)

variable {α : Type} {step : Step}

theorem makes_drawing (h : step.draws = true) (composition : Drawing α) :
    Makes step.Change (Action.drawing composition) :=
  Makes.drawing (fun _ => .drawn h) composition

theorem makes_store (message : Message) : Makes step.Change (Action.store message) :=
  fun _ => .single (.kept _)

theorem makes_storeAnswer (parent : Nat) (message : Message) :
    Makes step.Change (Action.storeAnswer parent message) := fun _ => .single (.kept _)

theorem makes_accept (parts : List Value) : Makes step.Change (Action.accept parts) :=
  Makes.get.bind fun _ => (Makes.ofExcept _).bind fun _ => (makes_store _).bind fun _ => .pure _

theorem makes_takeInbound (h : step.queues = true) : Makes step.Change Action.takeInbound := by
  intro state
  rw [Action.takeInbound_eq]
  split
  · exact .refl
  · split
    · exact .refl
    · exact .single (.queued h _)

theorem makes_dispatch (h : step.sends = true) (identities : List Value) (signer : Signer)
    (message : Message) : Makes step.Change (Action.dispatch identities signer message) :=
  Makes.dispatch (fun _ => .posted h) identities signer message

theorem makes_publish (h : step.sends = true) (message : Message) (topic : Value) :
    Makes step.Change (Action.publish message topic) :=
  Makes.publish (fun _ => .posted h) message topic

theorem makes_receive (h : step.queues = true) : Makes step.Change Action.receive :=
  (makes_takeInbound h).bind makes_accept

theorem makes_reply (hsends : step.sends = true) (hdraws : step.draws = true) (receipt : Receipt)
    (msgType content metadata : Value) :
    Makes step.Change (Action.reply receipt msgType content metadata) :=
  Makes.get.bind fun _ => (makes_drawing hdraws _).bind fun _ =>
    (makes_dispatch hsends receipt.identities receipt.signer _).bind fun _ => makes_storeAnswer _ _

theorem makes_keep {name : Option String} (h : step.name? = name) (found : Named) :
    Makes step.Change (Action.keep name found) := by
  cases name with
  | none => exact .pure ()
  | some name => exact .modify fun _ => .named h found

theorem makes_made {name : Option String} (h : step.name? = name) (place : Nat) :
    Makes step.Change (made name place) :=
  (makes_keep h _).bind fun _ => Makes.get.bind fun _ => .pure _

theorem makes_received {name : Option String} (h : step.name? = name) (receipt : Receipt) :
    Makes step.Change (received name receipt) :=
  (makes_keep h _).bind fun _ => Makes.get.bind fun _ => .pure _

theorem makes_changed (h : step.edits = true) (name : String)
    (change : Nat → Kept → Except MessageFault Kept) : Makes step.Change (changed name change) :=
  (Makes.placeNamed name).bind fun _ => Makes.get.bind fun _ => (Makes.ofExcept _).bind fun _ =>
    (Makes.modify fun _ => .replaced h _ _).bind fun _ => .pure _

theorem makes_arrived {R : State → State → Prop}
    (h : ∀ state inbound, R state { state with transport := { state.transport with inbound } })
    (parts : List Value) : Makes R (arrived parts) :=
  (Makes.modify fun _ => h _ _).bind fun _ => Makes.get.bind fun _ => .pure _

/-- Whatever a step does, it does by changes that are open to it. -/
theorem makes_action (step : Step) : Makes step.Change step.action := by
  cases step with
  | receive name =>
      exact (makes_receive rfl).bind (makes_received rfl)
  | accept name parts => exact (makes_accept parts).bind (makes_received rfl)
  | makeReceipt name message identities unsigned =>
      exact (Makes.placeNamed message).bind fun _ => Makes.get.bind fun _ => makes_received rfl _
  | makeMessage name message => exact (makes_store message).bind (makes_made rfl)
  | newRoot name msgType session username =>
      exact (makes_drawing rfl _).bind fun _ => (makes_store _).bind (makes_made rfl)
  | newAnswer name msgType parent =>
      exact (Makes.placeNamed parent).bind fun _ => Makes.get.bind fun _ =>
        (makes_drawing rfl _).bind fun _ => (makes_storeAnswer _ _).bind (makes_made rfl)
  | respond name msgType parent content metadata =>
      exact (Makes.placeNamed parent).bind fun _ => Makes.get.bind fun _ =>
        (makes_drawing rfl _).bind fun _ => (makes_storeAnswer _ _).bind (makes_made rfl)
  | newIdentifier => exact (makes_drawing rfl _).bind fun _ => .pure _
  | edit message change =>
      rw [action]
      exact makes_changed rfl message _
  | putMetadata message key value =>
      rw [action]
      exact makes_changed rfl message _
  | look message => exact (Makes.messageNamed message).bind fun _ => .pure _
  | messageType message =>
      exact (Makes.messageNamed message).bind fun _ => (Makes.ofExcept _).bind fun _ => .pure _
  | compare first second =>
      exact (Makes.placeNamed first).bind fun _ => (Makes.placeNamed second).bind fun _ =>
        Makes.get.bind fun _ => .pure _
  | reply name receipt msgType content metadata =>
      exact (Makes.receiptNamed _ _).bind fun _ =>
        (makes_reply rfl rfl _ _ _ _).bind (makes_made rfl)
  | send receipt message =>
      exact (Makes.receiptNamed _ _).bind fun _ => (Makes.messageNamed _).bind fun _ =>
        (makes_dispatch rfl _ _ _).bind fun _ => .pure _
  | publish message topic =>
      exact (Makes.messageNamed _).bind fun _ => (makes_publish rfl _ _).bind fun _ => .pure _
  | feed parts => exact makes_arrived (fun _ => .queued rfl) parts
  | loopBack =>
      refine Makes.get.bind fun state => ?_
      cases state.transport.sent.getLast? with
      | none => exact .throw _
      | some parts => exact makes_arrived (fun _ => .queued rfl) parts
  | setFailing failing => exact (Makes.modify fun _ => .switched rfl).bind fun _ => .pure _
  | setSigner request =>
      exact (Makes.ofExcept _).bind fun _ => (Makes.modify fun _ => .rekeyed rfl _).bind fun _ =>
        .pure _

/-- What every change that is open to a step leaves true, the step leaves true. -/
theorem take_preserves {I : State → Prop}
    (h : ∀ {before after}, step.Change before after → I before → I after) {state : State}
    (hstate : I state) : I (step.take state).2 := by
  have hchanges : ReflTransGen step.Change state (step.take state).2 := makes_action step state
  generalize (step.take state).2 = after at hchanges
  induction hchanges with
  | refl => exact hstate
  | tail _ hchange ih => exact h hchange ih

/-- What every change that is open to the steps of a run leaves true, the run leaves true. -/
theorem takeAll_preserves {I : State → Prop} {steps : List Step}
    (h : ∀ step ∈ steps, ∀ {before after}, step.Change before after → I before → I after)
    {state : State} (hstate : I state) : I (takeAll steps state).2 := by
  induction steps generalizing state with
  | nil => exact hstate
  | cons step rest ih =>
      rw [List.forall_mem_cons] at h
      exact ih h.2 (take_preserves h.1 hstate)

/-- A step that is not to send leaves the messages sent and the log as they are. -/
theorem take_of_not_sends (h : step.sends = false) (state : State) :
    (step.take state).2.transport.sent = state.transport.sent ∧
      (step.take state).2.log = state.log := by
  refine take_preserves (I := fun after => after.transport.sent = state.transport.sent ∧
    after.log = state.log) (fun hchange hbefore => ?_) ⟨rfl, rfl⟩
  cases hchange with
  | posted hsends _ _ => simp [h] at hsends
  | _ => exact hbefore

/-- A step that has nothing to do with the messages that wait leaves them as they are. -/
theorem take_of_not_queues (h : step.queues = false) (state : State) :
    (step.take state).2.transport.inbound = state.transport.inbound := by
  refine take_preserves (I := fun after => after.transport.inbound = state.transport.inbound)
    (fun hchange hbefore => ?_) rfl
  cases hchange with
  | queued hqueues _ => simp [h] at hqueues
  | _ => exact hbefore

/-- A step that is not to draw leaves the source of randomness as it is. -/
theorem take_of_not_draws (h : step.draws = false) (state : State) :
    (step.take state).2.entropy = state.entropy := by
  refine take_preserves (I := fun after => after.entropy = state.entropy)
    (fun hchange hbefore => ?_) rfl
  cases hchange with
  | drawn hdraws _ => simp [h] at hdraws
  | _ => exact hbefore

/-- A step gives no name but its own to anything, and takes none away. -/
theorem lookup_take {called : String} (h : step.name? ≠ some called) (state : State) :
    (step.take state).2.names.lookup called = state.names.lookup called := by
  refine take_preserves (I := fun after => after.names.lookup called = state.names.lookup called)
    (fun hchange hbefore => ?_) rfl
  cases hchange with
  | @named other hother _ =>
      have hne : (called == other) = false := by
        rw [beq_eq_false_iff_ne]
        rintro rfl
        exact h hother
      rw [List.lookup_cons, hne]
      exact hbefore
  | _ => exact hbefore

/-- Messages are added, and none is taken away. -/
theorem length_messages_take (step : Step) (state : State) :
    state.messages.length ≤ (step.take state).2.messages.length := by
  refine take_preserves (I := fun after => state.messages.length ≤ after.messages.length)
    (fun hchange hbefore => ?_) (Nat.le_refl _)
  cases hchange with
  | kept _ =>
      rw [State.keep, List.length_append]
      exact Nat.le_add_right_of_le hbefore
  | replaced _ _ _ =>
      rw [State.replace, List.length_set]
      exact hbefore
  | _ => exact hbefore

end Step
end SignedMessaging
