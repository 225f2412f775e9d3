import SignedMessaging.Proofs.Message.Composition
import SignedMessaging.Proofs.Message.Identifier
import SignedMessaging.Proofs.Session.Sending

/-!
# Identifiers of a run

A step that is to draw is refused before it draws, finds no draw, takes one in vain, or gives
something with the identifier of the one that it takes (`Step.Issues`); no other step draws.
So along a run the identifiers that were given belong to different draws, in order
(`whole_throughout`), and repeat only where draws do.  The source of randomness may be
replaced at any time, so that one that failed may work again.
-/

namespace SignedMessaging

namespace Outcome

/-- The identifier that an outcome has: a message's, or one that was asked for alone. -/
def identifier? : Outcome → Option Value
  | .message found => found.identifier?
  | .text s => some (.text s)
  | _ => none

end Outcome

namespace Step

variable {step : Step} {state : State}

/-- Whether a step that is to draw has all that it needs before that: where it answers a
message, one with a header. -/
def Ready (step : Step) (state : State) : Prop :=
  match step with
  | .newRoot _ _ _ _ | .newIdentifier => True
  | .newAnswer _ _ parent | .respond _ _ parent _ _ =>
      ∃ found header, state.names.lookup parent = some found ∧
        (state.message found.place).header = .header header
  | .reply _ receipt _ _ _ =>
      ∃ found header, state.names.lookup receipt = some (.receipt found) ∧
        (state.message found.message).header = .header header
  | _ => False

/-- The draws that a step takes. -/
def drawn (step : Step) (state : State) : List Draw :=
  state.entropy.draws.take
    (state.entropy.draws.length - (step.take state).2.entropy.draws.length)

/-- Whether a step that draws does nothing after that which can fail. -/
def composes : Step → Bool
  | .newRoot _ _ _ _ | .newAnswer _ _ _ | .newIdentifier => true
  | .respond _ _ _ _ metadata => metadata.kind = .null ∨ metadata.kind = .dictionary
  | _ => false

/-- What a step gives that is to draw. -/
def issued (step : Step) (state : State) : List Outcome :=
  match step.draws, (step.take state).1.result with
  | true, .ok outcome => [outcome]
  | _, _ => []

/-- How a step goes that is to draw. -/
inductive Issues (step : Step) (state : State) : Prop
  | unready (fault : Fault) (hready : ¬ step.Ready state)
      (hresult : (step.take state).1.result = .error fault)
      (hleft : (step.take state).2.entropy = state.entropy)
  | starved (hready : step.Ready state) (hdraws : state.entropy.draws = [])
      (haction : step.action state =
        (.error (.message (.identifier state.entropy.failure)), state))
  | spent (fault : Fault) (draw : Draw) (rest : List Draw) (hready : step.Ready state)
      (hdraws : state.entropy.draws = draw :: rest)
      (hresult : (step.take state).1.result = .error fault)
      (hleft : (step.take state).2.entropy = { state.entropy with draws := rest })
  | issued (outcome : Outcome) (draw : Draw) (rest : List Draw) (hready : step.Ready state)
      (hdraws : state.entropy.draws = draw :: rest)
      (hresult : (step.take state).1.result = .ok outcome)
      (hleft : (step.take state).2.entropy = { state.entropy with draws := rest })
      (hid : outcome.identifier? = some (.text draw.identifier))

namespace Issues

variable {α : Type}

theorem of_fault {fault : Fault} (hready : ¬ step.Ready state)
    (haction : step.action state = (.error fault, state)) : step.Issues state := by
  refine .unready fault hready (result_take haction) ?_
  rw [state_take haction]

/-- A step that first composes something, and draws no more after that. -/
theorem of_drawing (composition : Drawing α) (finish : α → Action Outcome)
    {identifier? : α → Option Value}
    (haction : step.action state = (Action.drawing composition >>= finish) state)
    (htakes : Drawing.Takes (step.Ready state) identifier? state.entropy
      (composition state.entropy))
    (hentropy : ∀ a before, (finish a before).2.entropy = before.entropy)
    (hid : ∀ {a before outcome}, (finish a before).1 = .ok outcome →
      outcome.identifier? = identifier? a) : step.Issues state := by
  rw [Action.bind_apply, Action.drawing] at haction
  generalize composition state.entropy = result at haction htakes
  cases htakes with
  | unready fault hready =>
      exact .unready _ hready (result_take haction) (by rw [state_take haction])
  | starved hready hdraws => exact .starved hready hdraws haction
  | spent fault hready hdraws =>
      exact .spent _ _ _ hready hdraws (result_take haction) (by rw [state_take haction])
  | @issued a draw rest hready hdraws ha =>
      have hleft : (step.take state).2.entropy = { state.entropy with draws := rest } := by
        rw [state_take haction]
        exact hentropy a _
      cases hresult : (step.take state).1.result with
      | error fault => exact .spent fault draw rest hready hdraws hresult hleft
      | ok outcome =>
          rw [result_take haction] at hresult
          exact .issued outcome draw rest hready hdraws (result_take (haction.trans
            (Prod.ext hresult rfl))) hleft ((hid hresult).trans ha)

end Issues

open SignedMessaging.Action (bind_apply get_apply placeNamed_eq receiptNamed_eq)

/-- A message that is kept and shown has the identifier with which it was composed. -/
theorem identifier_made {name : Option String} {kept : Kept} {message : Message}
    {before : State} {outcome : Outcome} (hkept : kept.message = message)
    (h : (made name before.messages.length (before.keep kept)).1 = .ok outcome) :
    outcome.identifier? = message.identifier? := by
  rw [made_eq, Action.message_keep] at h
  cases h
  rw [← hkept]
  rfl

theorem entropy_made (name : Option String) (place : Nat) (before : State) :
    (made name place before).2.entropy = before.entropy := by
  rw [made_eq]
  exact State.called_entropy ..

theorem newRoot_issues (name : Option String) (msgType session username : Value)
    (state : State) : (newRoot name msgType session username).Issues state :=
  .of_drawing _ (fun message => Action.store message >>= made name) rfl
    (Message.newRoot_takes msgType session username state.entropy)
    (fun _ _ => entropy_made ..) (identifier_made rfl)

theorem newIdentifier_issues (state : State) : newIdentifier.Issues state :=
  .of_drawing _ (fun text => pure (.text text)) rfl
    (Drawing.identifier_takes state.entropy) (fun _ _ => rfl) (by rintro _ _ _ ⟨⟩; rfl)

/-- A step that answers the message of a name draws where this has a header. -/
theorem answer_issues {name : Option String} {parent : String}
    (compose : Message → Drawing Message)
    (haction : step.action = (do
      let place ← Action.placeNamed parent
      let parent := (← get).message place
      let message ← Action.drawing (compose parent)
      made name (← Action.storeAnswer place message)))
    (hready : step.Ready state ↔ ∃ found header, state.names.lookup parent = some found ∧
      (state.message found.place).header = .header header)
    (htakes : ∀ parent source, Drawing.Takes (∃ header, parent.header = .header header)
      Message.identifier? source (compose parent source)) : step.Issues state := by
  cases hparent : state.names.lookup parent with
  | none =>
      rw [hparent] at hready
      exact .of_fault (by simp [hready])
        (by rw [haction, bind_apply, placeNamed_eq, hparent])
  | some found =>
      rw [hparent] at hready
      simp only [Option.some.injEq, exists_and_left, exists_eq_left'] at hready
      refine .of_drawing (compose (state.message found.place))
        (fun message => Action.storeAnswer found.place message >>= made name) ?_ ?_
        (fun _ _ => entropy_made ..) (identifier_made rfl)
      · rw [haction, bind_apply, placeNamed_eq, hparent]
        rfl
      · rw [hready]
        exact htakes ..

/-- Sending an answer and keeping it draws nothing, and gives the answer as it was sent. -/
theorem send_made (name : Option String) (receipt : Receipt) (message : Message) (before : State) :
    let sent := (Action.send receipt message >>= fun _ =>
      Action.storeAnswer receipt.message message >>= made name) before
    sent.2.entropy = before.entropy ∧
      ∀ {outcome}, sent.1 = .ok outcome → outcome.identifier? = message.identifier? := by
  dsimp only
  rw [bind_apply, Action.send]
  rcases Action.dispatch_ends receipt.identities receipt.signer message before with
    ⟨fault, hdispatch⟩ | ⟨sending, -, hdispatch, -⟩
  · rw [hdispatch]
    exact ⟨rfl, by rintro _ ⟨⟩⟩
  · rw [hdispatch]
    exact ⟨entropy_made .., identifier_made rfl⟩

/-- An answer that is sent as well is composed first, and sending it draws no more. -/
theorem reply_issues (name : Option String) (receipt : String) (msgType content metadata : Value)
    (state : State) : (reply name receipt msgType content metadata).Issues state := by
  cases hreceipt : state.names.lookup receipt with
  | none =>
      refine .of_fault ?_ (by rw [action, bind_apply, receiptNamed_eq, hreceipt])
      simp [Ready, hreceipt]
  | some named =>
    cases named with
    | message _ =>
        refine .of_fault ?_ (by rw [action, bind_apply, receiptNamed_eq, hreceipt])
        simp [Ready, hreceipt]
    | receipt found =>
        have hready : (reply name receipt msgType content metadata).Ready state ↔
            ∃ header, (state.message found.message).header = .header header := by
          simp only [Ready, hreceipt, Option.some.injEq, Named.receipt.injEq, exists_and_left,
            exists_eq_left']
        have htakes := Message.respond_takes msgType (state.message found.message) content metadata
          state.entropy
        rw [← hready] at htakes
        refine .of_drawing _ (fun message => Action.send found message >>= fun _ =>
          Action.storeAnswer found.message message >>= made name) ?_ htakes
          (fun message before => (send_made name found message before).1)
          (send_made name found _ _).2
        rw [action, bind_apply, receiptNamed_eq, hreceipt]
        dsimp only
        rw [Action.reply, bind_assoc, bind_apply, get_apply]
        simp only [bind_assoc]

theorem issues_of_draws (h : step.draws = true) (state : State) : step.Issues state := by
  cases step with
  | newRoot name msgType session username =>
      exact newRoot_issues name msgType session username state
  | newIdentifier => exact newIdentifier_issues state
  | newAnswer name msgType parent =>
      exact answer_issues (Message.newAnswer msgType) rfl .rfl (Message.newAnswer_takes msgType)
  | respond name msgType parent content metadata =>
      exact answer_issues (Message.respond msgType · content metadata) rfl .rfl fun parent =>
        Message.respond_takes msgType parent content metadata
  | reply name receipt msgType content metadata =>
      exact reply_issues name receipt msgType content metadata state
  | _ => cases h

/-! ### The draws of a step -/

theorem drawn_of_same (h : (step.take state).2.entropy = state.entropy) :
    step.drawn state = [] := by
  rw [drawn, h, Nat.sub_self, List.take_zero]

theorem drawn_of_cons {draw : Draw} {rest : List Draw} (hdraws : state.entropy.draws = draw :: rest)
    (hleft : (step.take state).2.entropy = { state.entropy with draws := rest }) :
    step.drawn state = [draw] := by
  rw [drawn, hleft, hdraws, List.length_cons, Nat.add_sub_cancel_left, List.take_succ_cons,
    List.take_zero]

theorem issued_of_fault {fault : Fault} (h : (step.take state).1.result = .error fault) :
    step.issued state = [] := by
  unfold issued
  rw [h]
  cases step.draws <;> rfl

/-- What a step draws comes from the front of the source, one draw at most, and the rest stays. -/
theorem drawn_append (step : Step) (state : State) :
    state.entropy.draws = step.drawn state ++ (step.take state).2.entropy.draws ∧
      (step.drawn state).length ≤ 1 := by
  have hsame : (step.take state).2.entropy = state.entropy →
      state.entropy.draws = step.drawn state ++ (step.take state).2.entropy.draws ∧
        (step.drawn state).length ≤ 1 := fun h => by
    rw [drawn_of_same h, h]
    exact ⟨rfl, Nat.zero_le 1⟩
  cases hdraws : step.draws with
  | false => exact hsame (take_of_not_draws hdraws state)
  | true =>
      cases issues_of_draws hdraws state with
      | unready _ _ _ hleft => exact hsame hleft
      | starved _ _ haction => exact hsame (by rw [state_take haction])
      | spent _ _ _ _ hcons _ hleft | issued _ _ _ _ hcons _ hleft _ =>
          rw [drawn_of_cons hcons hleft, hcons, hleft]
          exact ⟨rfl, Nat.le_refl 1⟩

/-- What a step gives that is to draw has the identifier of the one draw that it took. -/
theorem own_draw {outcome : Outcome} (hdraws : step.draws = true)
    (hresult : (step.take state).1.result = .ok outcome) :
    ∃ draw, step.drawn state = [draw] ∧ outcome.identifier? = some (.text draw.identifier) := by
  cases issues_of_draws hdraws state with
  | unready _ _ hfault _ | spent _ _ _ _ _ hfault _ => cases hfault.symm.trans hresult
  | starved _ _ haction => cases (result_take haction).symm.trans hresult
  | issued _ draw _ _ hcons hok hleft hid =>
      cases hok.symm.trans hresult
      exact ⟨draw, drawn_of_cons hcons hleft, hid⟩

theorem identifiers_issued (step : Step) (state : State) :
    ∃ used, List.Sublist used (step.drawn state) ∧
      (step.issued state).map Outcome.identifier? =
        used.map fun draw => some (.text draw.identifier) := by
  cases hdraws : step.draws with
  | false => exact ⟨[], List.nil_sublist _, by rw [issued, hdraws]; rfl⟩
  | true =>
      cases hresult : (step.take state).1.result with
      | error fault => exact ⟨[], List.nil_sublist _, by rw [issued_of_fault hresult]; rfl⟩
      | ok outcome =>
          obtain ⟨draw, hdrawn, hid⟩ := own_draw hdraws hresult
          refine ⟨[draw], by rw [hdrawn], ?_⟩
          rw [issued, hdraws, hresult]
          exact congrArg (fun id => [id]) hid

theorem draws_of_ready (hready : step.Ready state) : step.draws = true := by
  cases step <;> first | rfl | cases hready

/-- A step that has all it needs but a draw fails for want of it, and changes nothing. -/
theorem take_of_starved (hready : step.Ready state) (hnone : state.entropy.draws = []) :
    step.take state =
      (⟨.error (.message (.identifier state.entropy.failure)), [], []⟩, state) := by
  cases issues_of_draws (draws_of_ready hready) state with
  | unready _ hunready _ _ => exact absurd hready hunready
  | spent _ _ _ _ hcons _ _ | issued _ _ _ _ hcons _ _ _ => cases hnone.symm.trans hcons
  | starved _ _ haction =>
      rw [take, haction]
      simp only [List.drop_length]

/-- A step that has all it needs takes a draw where one is left. -/
theorem length_drawn_of_ready (hready : step.Ready state) (hleft : state.entropy.draws ≠ []) :
    (step.drawn state).length = 1 := by
  cases issues_of_draws (draws_of_ready hready) state with
  | unready _ hunready _ _ => exact absurd hready hunready
  | starved _ hnone _ => exact absurd hnone hleft
  | spent _ _ _ _ hcons _ hleft | issued _ _ _ _ hcons _ hleft _ =>
      rw [drawn_of_cons hcons hleft]
      rfl

/-- A step that only composes something gives it, where it has all it needs and a draw. -/
theorem exists_outcome (hcomposes : step.composes = true) (hready : step.Ready state)
    (hleft : state.entropy.draws ≠ []) :
    ∃ outcome, (step.take state).1.result = .ok outcome := by
  obtain ⟨draw, rest, hdraws⟩ := List.exists_cons_of_ne_nil hleft
  change ∃ outcome, (step.action state).1 = .ok outcome
  cases step with
  | newRoot name msgType session username =>
      rw [action, bind_apply, Action.drawing, Message.newRoot, Drawing.bind_apply,
        Drawing.identifier_eq, hdraws]
      exact ⟨_, congrArg Prod.fst (made_eq ..)⟩
  | newIdentifier =>
      rw [action, bind_apply, Action.drawing, Drawing.identifier_eq, hdraws]
      exact ⟨_, rfl⟩
  | newAnswer name msgType parent =>
      obtain ⟨found, header, hfound, hheader⟩ := hready
      rw [action, bind_apply, placeNamed_eq, hfound]
      dsimp only
      rw [bind_apply, get_apply]
      dsimp only
      rw [bind_apply, Action.drawing, Message.newAnswer_eq, hheader, hdraws]
      exact ⟨_, congrArg Prod.fst (made_eq ..)⟩
  | respond name msgType parent content metadata =>
      obtain ⟨found, header, hfound, hheader⟩ := hready
      rw [action, bind_apply, placeNamed_eq, hfound]
      dsimp only
      rw [bind_apply, get_apply]
      dsimp only
      rw [bind_apply, Action.drawing, Message.respond_eq (of_decide_eq_true hcomposes), hheader,
        hdraws]
      exact ⟨_, congrArg Prod.fst (made_eq ..)⟩
  | _ => cases hcomposes

end Step

/-- What may happen to a session: a step is taken, or randomness has another source from then
on. -/
inductive Event where
  | takes (step : Step)
  | renews (entropy : EntropySource)

namespace Event

/-- The state after events. -/
def runAll : List Event → State → State
  | [], state => state
  | .takes step :: rest, state => runAll rest (step.take state).2
  | .renews entropy :: rest, state => runAll rest { state with entropy }

/-- What the steps among events give, one after another. -/
def throughout {α : Type} (f : Step → State → List α) : List Event → State → List α
  | [], _ => []
  | .takes step :: rest, state => f step state ++ throughout f rest (step.take state).2
  | .renews entropy :: rest, state => throughout f rest { state with entropy }

/-- Each identifier that was given belongs to a draw of its own, in order. -/
theorem whole_throughout (events : List Event) (state : State) :
    ∃ used, List.Sublist used (throughout Step.drawn events state) ∧
      (throughout Step.issued events state).map Outcome.identifier? =
        used.map fun draw => some (.text draw.identifier) := by
  induction events generalizing state with
  | nil => exact ⟨[], List.nil_sublist _, rfl⟩
  | cons event rest ih =>
      cases event with
      | renews entropy => exact ih _
      | takes step =>
          obtain ⟨first, hfirst, hissued⟩ := step.identifiers_issued state
          obtain ⟨used, hused, hrest⟩ := ih (step.take state).2
          refine ⟨first ++ used, hfirst.append hused, ?_⟩
          rw [throughout, List.map_append, List.map_append, hissued, hrest]

/-- Where the source stays the same, what was drawn came from its front, one after another. -/
theorem drawn_throughout (steps : List Step) (state : State) :
    state.entropy.draws = throughout Step.drawn (steps.map .takes) state ++
      (runAll (steps.map .takes) state).entropy.draws := by
  induction steps generalizing state with
  | nil => rfl
  | cons step rest ih =>
      rw [List.map_cons, throughout, runAll, List.append_assoc, ← ih]
      exact (step.drawn_append state).1

/-- The draws of a run, from one state to another, and the identifiers made of them. -/
structure Fresh (events : List Event) (start after : State) : Prop where
  /-- A further step takes at most one draw, from the front of the source. -/
  taken (step : Step) :
    after.entropy.draws = step.drawn after ++ (step.take after).2.entropy.draws ∧
      (step.drawn after).length ≤ 1
  /-- What it gives, where it is one that draws, has the identifier of the draw it took. -/
  own {step : Step} {outcome : Outcome} : step.draws = true →
    (step.take after).1.result = .ok outcome →
      ∃ draw, step.drawn after = [draw] ∧ outcome.identifier? = some (.text draw.identifier)
  /-- A step of another sort takes none. -/
  others {step : Step} : step.draws = false → step.drawn after = []
  /-- A step that has all else takes a draw where there is one. -/
  served {step : Step} : step.Ready after → after.entropy.draws ≠ [] →
    (step.drawn after).length = 1
  /-- A step that does nothing else that can fail has a result then. -/
  made {step : Step} : step.composes = true → step.Ready after → after.entropy.draws ≠ [] →
    ∃ outcome, (step.take after).1.result = .ok outcome
  /-- Where there is none it reports that no identifier could be made; nothing is sent, and
  nothing is changed. -/
  starved {step : Step} : step.Ready after → after.entropy.draws = [] →
    ∃ fault, fault.report.category = .identity ∧
      step.take after = (⟨.error fault, [], []⟩, after)
  /-- Each identifier that the run gave belongs to a draw of its own. -/
  whole : ∃ used, List.Sublist used (throughout Step.drawn events start) ∧
    (throughout Step.issued events start).map Outcome.identifier? =
      used.map fun draw => some (.text draw.identifier)
  /-- What a run of steps draws are the first draws of the source, each taken once. -/
  spent {steps : List Step} : events = steps.map .takes →
    start.entropy.draws = throughout Step.drawn events start ++ after.entropy.draws
  /-- The identifier of a draw is the canonical text of its bytes as they are stamped. -/
  canonical (draw : Draw) : Draw.Canonical draw.stamped draw.identifier
  /-- Stamped are the version, 4, and the variant, 10; all other bits are those drawn. -/
  stamped (draw : Draw) (place : Fin 128) : draw.stamped.bit place =
    if place ∈ Draw.versionPlaces then decide (place.val = 49)
    else if place ∈ Draw.variantPlaces then decide (place.val = 64)
    else draw.bit place
  /-- There are 122 of these, and two draws have one identifier where they agree on them. -/
  same : ((List.finRange 128).filter fun place => Draw.Free place).length = 122 ∧
    ∀ first second : Draw, first.identifier = second.identifier ↔ Draw.Agree first second
  /-- The identifiers of a run are different wherever its draws are, on these bits. -/
  distinct : (throughout Step.drawn events start).Pairwise (fun first second =>
      ¬ Draw.Agree first second) →
    ((throughout Step.issued events start).map Outcome.identifier?).Nodup

/-- Identifiers are fresh in every run, from whatever source its randomness comes. -/
theorem identifiers_fresh (events : List Event) (start : State) :
    Fresh events start (runAll events start) where
  taken step := step.drawn_append _
  own := Step.own_draw
  others hdraws := Step.drawn_of_same (Step.take_of_not_draws hdraws _)
  served := Step.length_drawn_of_ready
  made := Step.exists_outcome
  starved hready hnone := ⟨_, rfl, Step.take_of_starved hready hnone⟩
  whole := whole_throughout events start
  spent hsteps := by
    subst hsteps
    exact drawn_throughout _ start
  canonical := Draw.canonical_identifier
  stamped := Draw.bit_stamped
  same := ⟨Draw.length_filter_free, fun _ _ => Draw.identifier_eq_iff⟩
  distinct hdistinct := by
    obtain ⟨used, hused, hissued⟩ := whole_throughout events start
    rw [hissued, List.Nodup, List.pairwise_map]
    refine (hdistinct.sublist hused).imp fun hdiffer h => hdiffer ?_
    exact Draw.identifier_eq_iff.1 (Value.text.inj (Option.some.inj h))

end Event
end SignedMessaging
