import SignedMessaging.Proofs.Session.ByValue
import SignedMessaging.Proofs.Session.Naming

/-!
# Sessions and objects

What a session does to messages that it keeps by value, an application does to objects that
it refers to: the step that builds a message builds an object, and the step that changes one
changes the object at its place (`Step.deed?`).  The objects show what the session keeps,
before every step and after it (`Objects.Shows.take`, `Objects.Shows.takeAll`).
-/

namespace SignedMessaging

/-- The object of a message that is made of its values. -/
def MessageObject.ofMessage (message : Message) : MessageObject :=
  ⟨message.header, message.parentHeader, .value message.metadata, .value message.content⟩

namespace Step

/-- What is built by a step that is to compose a message. -/
def building? (step : Step) (state : State) : Option Building :=
  match step with
  | .newRoot _ msgType session username => some (.newRoot msgType session username)
  | .newAnswer _ msgType parent =>
      (state.names.lookup parent).map fun found => .newAnswer msgType found.place
  | .respond _ msgType parent content metadata | .reply _ parent msgType content metadata =>
      (state.names.lookup parent).map fun found =>
        .respond msgType found.place (.value content) (.value metadata)
  | _ => none

/-- What is done to objects by a step that gives an outcome.  A message that was not composed
is made of the values that show. -/
def deed? (step : Step) (state : State) (outcome : Outcome) : Option Deed :=
  match step with
  | .edit name change =>
      (state.names.lookup name).map fun found => .replace found.place (.ofEdit change)
  | .putMetadata name key value =>
      (state.names.lookup name).map fun found => .putMetadata found.place (.text key) value
  | .makeReceipt _ _ _ _ => none
  | step =>
      match step.building? state with
      | some building => some (.build building)
      | none =>
          if step.makes then outcome.message?.map fun message => .makeMessage (.ofMessage message)
          else none

/-- The objects after a step; one that is refused does nothing to them. -/
def mirror (step : Step) (state : State) (objects : Objects) : Objects :=
  match (step.take state).1.result with
  | .error _ => objects
  | .ok outcome =>
      match step.deed? state outcome with
      | none => objects
      | some deed => (deed.run (objects, state.entropy)).1

/-- The objects after a run. -/
def mirrorAll : List Step → State → Objects → Objects
  | [], _, objects => objects
  | step :: rest, state, objects => mirrorAll rest (step.take state).2 (step.mirror state objects)

variable {step : Step} {state : State} {building : Building} {outcome : Outcome}

theorem deed?_of_makes (hmakes : step.makes = true) (hsource : step.source? = none) :
    step.deed? state outcome =
      match step.building? state with
      | some building => some (.build building)
      | none => outcome.message?.map fun message => .makeMessage (.ofMessage message) := by
  cases step with
  | makeReceipt _ _ _ _ => simp [source?] at hsource
  | edit _ _ | putMetadata _ _ _ => cases hmakes
  | newIdentifier | look _ | messageType _ | compare _ _ | send _ _ | publish _ _ | feed _
  | loopBack | setFailing _ | setSigner _ => cases hmakes
  | _ => rfl

theorem deed?_of_neither (hmakes : step.makes = false) (hediting : step.editing? = none) :
    step.deed? state outcome = none := by
  cases step with
  | edit _ _ | putMetadata _ _ _ => simp [editing?] at hediting
  | receive _ | accept _ _ | makeMessage _ _ | newRoot _ _ _ _ | newAnswer _ _ _
  | respond _ _ _ _ _ | reply _ _ _ _ _ => cases hmakes
  | _ => rfl

theorem mirror_of_fault {fault : Fault} {after : State} {objects : Objects}
    (h : step.action state = (.error fault, after)) : step.mirror state objects = objects := by
  rw [mirror, result_take h]

theorem mirror_of_outcome {after : State} {objects : Objects}
    (h : step.action state = (.ok outcome, after)) :
    step.mirror state objects =
      match step.deed? state outcome with
      | none => objects
      | some deed => (deed.run (objects, state.entropy)).1 := by
  rw [mirror, result_take h]

end Step

namespace Objects

/-- Objects show what a session keeps, each message at its place, and share no dictionary. -/
structure Shows (objects : Objects) (state : State) : Prop where
  apart : objects.Apart
  length : objects.messages.length = state.messages.length
  message : ∀ place < state.messages.length, objects.message place = state.message place

namespace Shows

variable {objects after : Objects} {state next : State} {step : Step} {kept : Kept}

/-- What a session shows does not depend on anything but its messages. -/
theorem of_messages (h : objects.Shows state) (hmessages : next.messages = state.messages) :
    objects.Shows next where
  apart := h.apart
  length := by rw [hmessages, h.length]
  message place hplace := by
    rw [hmessages] at hplace
    rw [h.message place hplace, State.message, State.message, State.kept, State.kept, hmessages]

/-- A message that is added shows in its place, and what was there shows as before. -/
theorem of_grows (h : objects.Shows state) (hapart : after.Apart) {object : MessageObject}
    (hextends : objects.Extends after) (hadded : after.messages = objects.messages ++ [object])
    (hshown : after.shownMessage object = kept.message)
    (hmessages : next.messages = state.messages ++ [kept]) : after.Shows next where
  apart := hapart
  length := by rw [hadded, hmessages, List.length_append, List.length_append, h.length]; rfl
  message place hplace := by
    rw [hmessages, List.length_append, List.length_singleton] at hplace
    rcases Nat.lt_succ_iff_lt_or_eq.1 hplace with hlt | rfl
    · rw [hextends.message (h.length ▸ hlt), h.message place hlt, State.message, State.message,
        State.kept, State.kept, hmessages, List.getElem?_append_left hlt]
    · have hlast : after.messages[state.messages.length]? = some object := by
        rw [hadded, ← h.length, List.getElem?_concat_length]
      rw [Objects.message, hlast, State.message, State.kept, hmessages,
        List.getElem?_concat_length]
      exact hshown

theorem addMessage (h : objects.Shows state)
    (hmessages : next.messages = state.messages ++ [kept]) :
    (objects.addMessage (.ofMessage kept.message)).Shows next := by
  have hadded : (objects.addMessage (.ofMessage kept.message)).messages =
      objects.messages ++ [.ofMessage kept.message] := messages_addMessage ⟨trivial, trivial⟩
  refine h.of_grows (h.apart.addMessage rfl rfl) ⟨?_, ?_⟩ hadded rfl hmessages
  · rw [dictionaries_addMessage]
  · rw [hadded]
    exact List.prefix_append _ _

/-- What a step is to compose is composed of objects that are there. -/
theorem composition (h : objects.Shows state) (hsound : state.Sound) {building : Building}
    (hbuilding : step.building? state = some building) :
    building.Known objects ∧ (∃ v, building.content = .value v) ∧
      step.composition? state = some (building.composition objects) := by
  -- A name stands for a message that is there, and its object shows the same.
  have hnamed : ∀ {name : String} {found : Named}, state.names.lookup name = some found →
      found.place < objects.messages.length ∧
        objects.message found.place = state.message found.place := fun hfound =>
    ⟨h.length ▸ hsound _ _ hfound, h.message _ (hsound _ _ hfound)⟩
  cases step with
  | newRoot _ msgType session username =>
      cases hbuilding
      exact ⟨trivial, ⟨.null, rfl⟩, rfl⟩
  | newAnswer _ msgType parent =>
      obtain ⟨found, hfound, rfl⟩ := Option.map_eq_some_iff.1 hbuilding
      obtain ⟨hthere, hsame⟩ := hnamed hfound
      refine ⟨hthere, ⟨.null, rfl⟩, ?_⟩
      rw [Step.composition?, hfound, Building.composition, hsame]
      rfl
  | respond _ msgType parent content metadata | reply _ parent msgType content metadata =>
      obtain ⟨found, hfound, rfl⟩ := Option.map_eq_some_iff.1 hbuilding
      obtain ⟨hthere, hsame⟩ := hnamed hfound
      refine ⟨⟨hthere, trivial, trivial⟩, ⟨content, rfl⟩, ?_⟩
      rw [Step.composition?, hfound, Building.composition, hsame]
      rfl
  | _ => cases hbuilding

/-- A message that is built of objects shows what the session keeps. -/
theorem build (h : objects.Shows state) {building : Building} (hknown : building.Known objects)
    {v : Value} (hcontent : building.content = .value v)
    (hcomposed : (building.composition objects state.entropy).1 = .ok kept.message)
    (hmessages : next.messages = state.messages ++ [kept]) :
    ((Deed.build building).run (objects, state.entropy)).1.Shows next := by
  rw [Deed.run, if_pos hknown]
  have hmakes := building.makes hknown state.entropy
  generalize building.composition objects state.entropy = composed at hmakes hcomposed
  generalize building.run (objects, state.entropy) = taken at hmakes
  cases hmakes with
  | refused _ _ _ => cases hcomposed
  | made _ hgrows hshown =>
      cases hcomposed
      exact h.of_grows (h.apart.of_grows (hcontent ▸ hgrows)) hgrows.extends hgrows.messages hshown
        hmessages

/-- What a step makes shows in what it does to objects. -/
theorem take_of_makes (h : objects.Shows state) (hsound : state.Sound)
    (hmakes : step.makes = true) : (step.mirror state objects).Shows (step.take state).2 := by
  cases Step.gives_of_makes hmakes state with
  | refused _ after haction hmessages _ =>
      rw [Step.mirror_of_fault haction, Step.state_take haction]
      exact h.of_messages hmessages
  | referred outcome source _ receipt hsource _ _ haction =>
      have hnone : step.deed? state outcome = none := by
        cases step <;> first | rfl | cases hsource
      rw [Step.mirror_of_outcome haction, hnone, Step.state_take haction]
      exact h.of_messages (State.called_messages _ _ _)
  | made outcome after kept _ hsource haction hshown hcomposed _ hmessages _ =>
      rw [Step.mirror_of_outcome haction, Step.deed?_of_makes hmakes hsource,
        Step.state_take haction]
      cases hbuilding : step.building? state with
      | none =>
          rw [hshown]
          exact h.addMessage hmessages
      | some building =>
          obtain ⟨hknown, ⟨v, hcontent⟩, hcomposition⟩ := h.composition hsound hbuilding
          exact h.build hknown hcontent (hcomposed _ hcomposition) hmessages

/-- A message that is changed shows the change, and every other shows as before. -/
theorem of_change (h : objects.Shows state) {place : Nat} (hplace : place < state.messages.length)
    (hapart : after.Apart) (hlength : after.messages.length = objects.messages.length)
    (hmessage : ∀ other, after.message other =
      if other = place then kept.message else objects.message other) :
    after.Shows (state.replace place kept) where
  apart := hapart
  length := by rw [hlength, h.length, State.replace, List.length_set]
  message other hother := by
    rw [State.replace, List.length_set] at hother
    rw [hmessage, Step.message_replace hplace, h.message other hother]

/-- What a step changes shows in what it does to objects. -/
theorem take_of_editing (h : objects.Shows state) (hsound : state.Sound) {name : String}
    {change : Message → Except MessageFault Message}
    (hediting : step.editing? = some (name, change)) :
    (step.mirror state objects).Shows (step.take state).2 := by
  cases Step.edited_of_editing hediting state with
  | unknown _ haction | refused _ _ _ _ haction =>
      rw [Step.mirror_of_fault haction, Step.state_take haction]
      exact h
  | changed found kept hname hchange haction =>
      rw [Step.mirror_of_outcome haction, Step.state_take haction]
      have hplace := hsound name found hname
      have hthere : found.place < objects.messages.length := h.length ▸ hplace
      rw [← h.message _ hplace] at hchange
      cases step with
      | edit called edit =>
          cases hediting
          have hdeed : (Step.edit name edit).deed? state (.message kept.message) =
              some (.replace found.place (.ofEdit edit)) := by
            rw [Step.deed?, hname]
            rfl
          rw [hdeed]
          refine h.of_change hplace (h.apart.replace found.place edit) ?_ fun other => ?_
          · exact length_messages_replace
          · rw [← Except.ok.inj hchange]
            exact message_edit edit hthere
      | putMetadata called key value =>
          cases hediting
          have hdeed : (Step.putMetadata name key value).deed? state (.message kept.message) =
              some (.putMetadata found.place (.text key) value) := by
            rw [Step.deed?, hname]
            rfl
          rw [hdeed]
          refine h.of_change hplace (h.apart.putMetadata found.place (.text key) value) ?_
            fun other => ?_
          · exact length_messages_putMetadata _ _
          · refine (h.apart.message_putMetadata key value hthere).trans ?_
            rw [hchange]
            rfl
      | _ => cases hediting

/-- Objects that show what a session keeps do so after every step. -/
theorem take (h : objects.Shows state) (hsound : state.Sound) (step : Step) :
    (step.mirror state objects).Shows (step.take state).2 := by
  cases hmakes : step.makes with
  | true => exact h.take_of_makes hsound hmakes
  | false =>
      cases hediting : step.editing? with
      | some editing => exact h.take_of_editing hsound hediting
      | none =>
          have hmirror : step.mirror state objects = objects := by
            rw [Step.mirror]
            split
            · rfl
            · rw [Step.deed?_of_neither hmakes hediting]
          rw [hmirror]
          exact h.of_messages (Step.messages_take hmakes hediting state)

/-- And so they do after every run. -/
theorem takeAll (h : objects.Shows state) (hsound : state.Sound) (steps : List Step) :
    (Step.mirrorAll steps state objects).Shows (Step.takeAll steps state).2 := by
  induction steps generalizing state objects with
  | nil => exact h
  | cons step rest ih => exact ih (h.take hsound step) (Step.sound_take hsound step)

end Shows

/-- The objects of messages that are made of their values. -/
def ofState (state : State) : Objects where
  messages := state.messages.map fun kept => .ofMessage kept.message
  closed := by
    rintro _ hobject
    obtain ⟨kept, -, rfl⟩ := List.mem_map.1 hobject
    exact ⟨trivial, trivial⟩

/-- What a session keeps can be shown. -/
theorem shows_ofState (state : State) : (ofState state).Shows state where
  apart := by
    refine ⟨?_, ?_⟩
    · intro first second dictionary a b ha _ hdictionary _
      obtain ⟨kept, -, rfl⟩ := List.mem_map.1 (List.mem_of_getElem? ha)
      cases hdictionary
    · intro object hobject
      obtain ⟨kept, -, rfl⟩ := List.mem_map.1 hobject
      exact ⟨_, rfl⟩
  length := List.length_map _
  message place hplace := by
    simp [ofState, message, State.message, State.kept, hplace]
    rfl

end Objects
end SignedMessaging
