import SignedMessaging.Proofs.Session.Receiving
import SignedMessaging.Proofs.Session.Sending

/-!
# What steps change and what they name

Two sorts of steps do something to the messages of a session and to its names.  A step that
edits a message changes it through a name, or is refused (`Step.Edited`).  A step that is to
make something keeps a new message and may give it a name, makes a receipt of a message that
has a name, or is refused (`Step.Gives`).
-/

namespace SignedMessaging

/-- The message that an outcome shows. -/
def Outcome.message? : Outcome → Option Message
  | .message shown | .receipt shown _ => some shown
  | _ => none

namespace State

/-- Whether every name stands for a message that is there. -/
def Sound (state : State) : Prop :=
  ∀ name found, state.names.lookup name = some found → found.place < state.messages.length

end State

namespace Step

variable {step : Step} {state : State} {name called : String}

/-! ### Changing a message -/

/-- The name through which a step changes a message, and what it makes of the message. -/
def editing? : Step → Option (String × (Message → Except MessageFault Message))
  | .edit message change => some (message, fun found => .ok (change.apply found))
  | .putMetadata message key value => some (message, Message.putMetadata key value)
  | _ => none

/-- The place of the message that a step is to change. -/
def target? (step : Step) (state : State) : Option Nat :=
  step.editing?.bind fun editing => (state.names.lookup editing.1).map Named.place

/-- How a step ends that is to change the message of a name. -/
inductive Edited (step : Step) (name : String) (change : Message → Except MessageFault Message)
    (state : State) : Prop
  | unknown (hname : state.names.lookup name = none)
      (haction : step.action state = (.error (.session (.unknownName name)), state))
  | refused (found : Named) (fault : MessageFault) (hname : state.names.lookup name = some found)
      (hchange : change (state.message found.place) = .error fault)
      (haction : step.action state = (.error (.message fault), state))
  | changed (found : Named) (kept : Kept) (hname : state.names.lookup name = some found)
      (hchange : change (state.message found.place) = .ok kept.message)
      (haction : step.action state =
        (.ok (.message kept.message), state.replace found.place kept))

theorem changed_eq (name : String) (change : Nat → Kept → Except MessageFault Kept)
    (state : State) :
    changed name change state =
      match state.names.lookup name with
      | none => (.error (.session (.unknownName name)), state)
      | some found =>
          match change state.unmarked (state.kept found.place) with
          | .error fault => (.error (.message fault), state)
          | .ok kept => (.ok (.message kept.message), state.replace found.place kept) := by
  rw [changed, Action.bind_apply, Action.placeNamed_eq]
  cases state.names.lookup name with
  | none => rfl
  | some found =>
      dsimp only
      rw [Action.bind_apply, Action.get_apply]
      dsimp only
      rw [Action.bind_apply, Action.ofExcept]
      cases change state.unmarked (state.kept found.place) <;> rfl

theorem message_applyKept (mark : Nat) (change : Edit) (kept : Kept) :
    (change.applyKept mark kept).message = change.apply kept.message := by
  cases change <;> rfl

/-- The message at the place that was replaced, and at every other. -/
theorem message_replace {place other : Nat} (hplace : place < state.messages.length)
    (kept : Kept) : (state.replace place kept).message other =
      if other = place then kept.message else state.message other := by
  by_cases hother : other = place
  · subst hother
    simp [State.message, State.kept, State.replace, hplace]
  · have hne : place ≠ other := fun h => hother h.symm
    simp [State.message, State.kept, State.replace, hother, hne]

/-- A step that is to change a message changes it, and gives it, where the change is possible. -/
theorem edited_of_editing {change : Message → Except MessageFault Message}
    (h : step.editing? = some (name, change)) (state : State) : step.Edited name change state := by
  cases step with
  | edit called edit =>
      cases h
      cases hname : state.names.lookup name with
      | none => exact .unknown hname (by rw [action, changed_eq, hname])
      | some found =>
          refine .changed found (edit.applyKept state.unmarked (state.kept found.place)) hname ?_
            (by rw [action, changed_eq, hname])
          rw [message_applyKept]
          rfl
  | putMetadata called key value =>
      cases h
      cases hname : state.names.lookup name with
      | none => exact .unknown hname (by rw [action, changed_eq, hname])
      | some found =>
          cases hput : Message.putMetadata key value (state.kept found.place).message with
          | error fault =>
              refine .refused found fault hname hput ?_
              rw [action, changed_eq, hname]
              simp [hput, Except.map]
          | ok message =>
              refine .changed found { state.kept found.place with message } hname hput ?_
              rw [action, changed_eq, hname]
              simp [hput, Except.map]
  | _ => cases h

/-! ### Giving a name -/

/-- The name of the message of which a step makes a receipt. -/
def source? : Step → Option String
  | .makeReceipt _ message _ _ => some message
  | _ => none

/-- Whether a step is to make something that can have a name. -/
def makes : Step → Bool
  | .receive _ | .accept _ _ | .makeReceipt _ _ _ _ | .makeMessage _ _ | .newRoot _ _ _ _
  | .newAnswer _ _ _ | .respond _ _ _ _ _ | .reply _ _ _ _ _ => true
  | _ => false

/-- What a step is to compose, where it finds what it is to answer. -/
def composition? (step : Step) (state : State) : Option (Drawing Message) :=
  match step with
  | .newRoot _ msgType session username => some (Message.newRoot msgType session username)
  | .newAnswer _ msgType parent =>
      (state.names.lookup parent).map fun found =>
        Message.newAnswer msgType (state.message found.place)
  | .respond _ msgType parent content metadata | .reply _ parent msgType content metadata =>
      (state.names.lookup parent).map fun found =>
        Message.respond msgType (state.message found.place) content metadata
  | _ => none

/-- How a step ends that is to make something that can have a name. -/
inductive Gives (step : Step) (state : State) : Prop
  /-- Nothing is made, and no name is given. -/
  | refused (fault : Fault) (after : State) (haction : step.action state = (.error fault, after))
      (hmessages : after.messages = state.messages) (hnames : after.names = state.names)
  /-- A message is kept, and the name stands for it; what was to be composed is this message. -/
  | made (outcome : Outcome) (after : State) (kept : Kept) (found : Named)
      (hsource : step.source? = none) (haction : step.action state = (.ok outcome, after))
      (hshown : outcome.message? = some kept.message)
      (hcomposed : ∀ composition, step.composition? state = some composition →
        (composition state.entropy).1 = .ok kept.message)
      (hfound : found.place = state.messages.length)
      (hmessages : after.messages = state.messages ++ [kept])
      (hnames : after.names = (state.called step.name? found).names)
  /-- The name stands for a receipt of a message that is there. -/
  | referred (outcome : Outcome) (source : String) (whose : Named) (receipt : Receipt)
      (hsource : step.source? = some source) (hwhose : state.names.lookup source = some whose)
      (hreceipt : receipt.message = whose.place)
      (haction : step.action state = (.ok outcome, state.called step.name? (.receipt receipt)))

namespace Gives

variable {before : State} {kept : Kept} {found : Named} {outcome : Outcome}

/-- A step that keeps a message and then names it. -/
theorem of_kept (hsource : step.source? = none)
    (haction : step.action state = (.ok outcome, (before.keep kept).called step.name? found))
    (hshown : outcome.message? = some kept.message)
    (hcomposed : ∀ composition, step.composition? state = some composition →
      (composition state.entropy).1 = .ok kept.message)
    (hfound : found.place = before.messages.length) (hmessages : before.messages = state.messages)
    (hnames : before.names = state.names) : step.Gives state := by
  refine .made outcome _ kept found hsource haction hshown hcomposed (hmessages ▸ hfound) ?_ ?_
  · rw [State.called_messages, State.keep, hmessages]
  · cases step.name? with
    | none => exact hnames
    | some name => exact congrArg (List.cons _) hnames

/-- A step that composes a message, and then keeps and names it. -/
theorem of_drawing (hsource : step.source? = none) {composition : Drawing Message}
    (hcomposition : step.composition? state = some composition)
    (store : Message → Action Nat) (keep : State → Message → Kept)
    (hstore : ∀ message before, store message before =
      (.ok before.messages.length, before.keep (keep before message)))
    (hkeep : ∀ message before, (keep before message).message = message)
    (haction : step.action state = (Action.drawing composition >>= fun message =>
      store message >>= Step.made step.name?) state) :
    step.Gives state := by
  rw [Action.bind_apply, Action.drawing] at haction
  rcases hcomposed : composition state.entropy with ⟨fault | message, rest⟩
  · rw [hcomposed] at haction
    exact .refused _ _ haction rfl rfl
  · simp only [hcomposed, Except.mapError, Action.bind_apply, hstore, made_eq,
      Action.message_keep] at haction
    refine .of_kept hsource haction rfl ?_ rfl rfl rfl
    rintro _ hsome
    rw [← Option.some.inj (hcomposition.symm.trans hsome), hcomposed, hkeep]

/-- A step that accepts parts and then names the receipt. -/
theorem of_accept {parts : List Value} (hsource : step.source? = none)
    (hcomposition : step.composition? state = none)
    (haction : step.action state = (Action.accept parts >>= received step.name?) before)
    (hmessages : before.messages = state.messages) (hnames : before.names = state.names) :
    step.Gives state := by
  rw [Action.bind_apply, Action.accept_eq] at haction
  cases hread : Message.ofParts before.signer parts with
  | error fault =>
      rw [hread] at haction
      exact .refused _ _ haction hmessages hnames
  | ok read =>
      simp only [hread, received_eq, Action.message_keep] at haction
      exact .of_kept hsource haction rfl (hcomposition ▸ by rintro _ ⟨⟩) rfl hmessages hnames

end Gives

open SignedMessaging.Action (bind_apply placeNamed_eq receiptNamed_eq)

variable (name : Option String) (state : State)

theorem receive_gives : (receive name).Gives state := by
  have haction : (receive name).action state = (Action.receive >>= received name) state := rfl
  rw [bind_apply] at haction
  rcases Action.receive_cases state with hreceive | ⟨parts, rest, -, hreceive⟩
  · rw [hreceive] at haction
    exact .refused _ _ haction rfl rfl
  · rw [hreceive, ← bind_apply] at haction
    exact .of_accept rfl rfl haction rfl rfl

theorem makeReceipt_gives (message : String) (identities : List Value) (unsigned : Bool) :
    (makeReceipt name message identities unsigned).Gives state := by
  have haction : (makeReceipt name message identities unsigned).action state =
      (Action.placeNamed message >>= fun place => do
        let current := (← get).signer
        received name ⟨place, identities, if unsigned then {} else current⟩) state := rfl
  rw [bind_apply, placeNamed_eq] at haction
  cases hwhose : state.names.lookup message with
  | none =>
      rw [hwhose] at haction
      exact .refused _ _ haction rfl rfl
  | some whose =>
      simp only [hwhose, bind_apply, Action.get_apply, received_eq] at haction
      exact .referred _ message whose _ rfl hwhose rfl haction

/-- A step that answers the message of a name composes the answer of that message. -/
theorem answer_gives {step : Step} {parent : String} (hsource : step.source? = none)
    (compose : Message → Drawing Message)
    (hcomposition : step.composition? state = (state.names.lookup parent).map fun found =>
      compose (state.message found.place))
    (haction : step.action = (do
      let place ← Action.placeNamed parent
      let parent := (← get).message place
      let message ← Action.drawing (compose parent)
      made step.name? (← Action.storeAnswer place message))) : step.Gives state := by
  cases hparent : state.names.lookup parent with
  | none =>
      refine .refused (.session (.unknownName parent)) state ?_ rfl rfl
      rw [haction, bind_apply, placeNamed_eq, hparent]
  | some found =>
      rw [hparent] at hcomposition
      refine .of_drawing hsource hcomposition (Action.storeAnswer found.place) _
        (fun _ _ => rfl) (fun _ _ => rfl) ?_
      rw [haction, bind_apply, placeNamed_eq, hparent]
      rfl

theorem reply_gives (receipt : String) (msgType content metadata : Value) :
    (reply name receipt msgType content metadata).Gives state := by
  have hunnamed : ∀ fault, Action.receiptNamed receipt .reply state = (.error fault, state) →
      (reply name receipt msgType content metadata).Gives state := fun fault hfault =>
    .refused fault state (by rw [action, bind_apply, hfault]) rfl rfl
  cases hreceipt : state.names.lookup receipt with
  | none => exact hunnamed _ (by rw [receiptNamed_eq, hreceipt])
  | some named =>
      cases named with
      | message _ => exact hunnamed _ (by rw [receiptNamed_eq, hreceipt])
      | receipt found =>
          rcases reply_cases name msgType content metadata hreceipt with
            ⟨fault, entropy, haction⟩ | ⟨sending, entropy, hrespond, -, haction⟩
          · exact .refused _ _ haction rfl rfl
          · refine .of_kept rfl haction rfl ?_ rfl rfl rfl
            rintro _ hcomposition
            rw [composition?, hreceipt] at hcomposition
            cases hcomposition
            exact congrArg Prod.fst hrespond

/-- A step that is to make something makes it, or is refused. -/
theorem gives_of_makes (h : step.makes = true) (state : State) : step.Gives state := by
  cases step with
  | receive name => exact receive_gives name state
  | accept name parts => exact .of_accept rfl rfl rfl rfl rfl
  | makeReceipt name message identities unsigned =>
      exact makeReceipt_gives name state message identities unsigned
  | makeMessage name message =>
      refine .of_kept rfl (made_eq name _ _) ?_ (by rintro _ ⟨⟩) rfl rfl rfl
      rw [Action.message_keep]
      rfl
  | newRoot name msgType session username =>
      exact .of_drawing rfl rfl Action.store _ (fun _ _ => rfl) (fun _ _ => rfl) rfl
  | newAnswer name msgType parent =>
      exact answer_gives state rfl (Message.newAnswer msgType) rfl rfl
  | respond name msgType parent content metadata =>
      exact answer_gives state rfl (Message.respond msgType · content metadata) rfl rfl
  | reply name receipt msgType content metadata =>
      exact reply_gives name state receipt msgType content metadata
  | _ => cases h

theorem gives_of_name (h : step.name? = some called) (state : State) : step.Gives state := by
  refine gives_of_makes ?_ state
  cases step <;> first | rfl | cases h

variable {state}

/-- Names stand for messages that are there, whatever a step does. -/
theorem sound_take (h : state.Sound) (step : Step) : (step.take state).2.Sound := by
  intro called found hfound
  by_cases hname : step.name? = some called
  · cases gives_of_name hname state with
    | refused _ after haction hmessages hnames =>
        rw [state_take haction, hnames] at hfound
        rw [state_take haction, hmessages]
        exact h called found hfound
    | made _ after kept given _ haction _ _ hplace hmessages hnames =>
        rw [state_take haction, hnames, hname, State.called, List.lookup_cons_self] at hfound
        cases hfound
        rw [state_take haction, hmessages, hplace, List.length_append]
        exact Nat.lt_succ_self _
    | referred _ _ whose receipt _ hwhose hreceipt haction =>
        rw [state_take haction, hname, State.called, List.lookup_cons_self] at hfound
        cases hfound
        rw [state_take haction, State.called_messages, Named.place, hreceipt]
        exact h _ whose hwhose
  · rw [lookup_take hname] at hfound
    exact Nat.lt_of_lt_of_le (h called found hfound) (length_messages_take step state)

theorem sound_takeAll (h : state.Sound) (steps : List Step) : (takeAll steps state).2.Sound := by
  induction steps generalizing state with
  | nil => exact h
  | cons step rest ih => exact ih (sound_take h step)

/-! ### Doing neither -/

/-- Whether two states have the same messages. -/
def SameMessages (before after : State) : Prop :=
  after.messages = before.messages

open SignedMessaging.Action (Makes)

theorem makes_sameMessages (hmakes : step.makes = false) (hediting : step.editing? = none) :
    Makes SameMessages step.action := by
  cases step with
  | newIdentifier => exact (Makes.drawing (fun _ _ => rfl) _).bind fun _ => .pure _
  | look message => exact (Makes.messageNamed message).bind fun _ => .pure _
  | messageType message =>
      exact (Makes.messageNamed message).bind fun _ => (Makes.ofExcept _).bind fun _ => .pure _
  | compare first second =>
      exact (Makes.placeNamed first).bind fun _ => (Makes.placeNamed second).bind fun _ =>
        Makes.get.bind fun _ => .pure _
  | send receipt message =>
      exact (Makes.receiptNamed _ _).bind fun _ => (Makes.messageNamed _).bind fun _ =>
        (Makes.dispatch (fun _ _ _ => rfl) _ _ _).bind fun _ => .pure _
  | publish message topic =>
      exact (Makes.messageNamed _).bind fun _ =>
        (Makes.publish (fun _ _ _ => rfl) _ _).bind fun _ => .pure _
  | feed parts => exact makes_arrived (fun _ _ => rfl) parts
  | loopBack =>
      refine Makes.get.bind fun state => ?_
      cases state.transport.sent.getLast? with
      | none => exact .throw _
      | some parts => exact makes_arrived (fun _ _ => rfl) parts
  | setFailing failing =>
      have hset : ∀ state : State,
          SameMessages state { state with transport := { state.transport with failing } } :=
        fun _ => rfl
      exact (Makes.modify hset).bind fun _ => .pure _
  | setSigner request =>
      have hset : ∀ (signer : Signer) (state : State), SameMessages state { state with signer } :=
        fun _ _ => rfl
      exact (Makes.ofExcept _).bind fun signer => (Makes.modify (hset signer)).bind fun _ => .pure _
  | edit _ _ | putMetadata _ _ _ => cases hediting
  | _ => cases hmakes

/-- A step that is neither to change a message nor to make something leaves the messages as they
are. -/
theorem messages_take (hmakes : step.makes = false) (hediting : step.editing? = none)
    (state : State) : (step.take state).2.messages = state.messages := by
  have hsteps := makes_sameMessages hmakes hediting state
  change (step.action state).2.messages = state.messages
  generalize (step.action state).2 = after at hsteps
  induction hsteps with
  | refl => rfl
  | tail _ hstep ih => exact hstep.trans ih

end Step
end SignedMessaging
