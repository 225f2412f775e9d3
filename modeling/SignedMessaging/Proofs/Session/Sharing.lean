import SignedMessaging.Proofs.Session.Ledger
import SignedMessaging.Proofs.Session.Mirroring
import SignedMessaging.Proofs.Session.Replies

/-!
# Who shares a message

In a session a message is changed only by a step that edits it through a name that stands for
it.  Names come to stand for one message when a receipt is made of a named message, and in no
other way.  So a change shows through the names of the message and through no others
(`Step.Frames`), and a message through whose names nothing is edited stays as it is
(`Step.getElem?_takeAll_of_targets`).  With what is known of objects this makes every message
that was built a snapshot (`Step.replies_are_snapshots`).
-/

namespace SignedMessaging

namespace Step

variable {step : Step} {state : State} {called : String}

/-! ### What a step leaves as it is -/

/-- A message is as it was, unless the step was to change it and did so. -/
theorem getElem?_take {place : Nat} (hplace : place < state.messages.length)
    (h : step.target? state ≠ some place ∨ ∃ fault, (step.take state).1.result = .error fault) :
    (step.take state).2.messages[place]? = state.messages[place]? := by
  cases hediting : step.editing? with
  | none =>
      have hedits : step.edits = false := by
        cases step <;> first | rfl | cases hediting
      have hkept := List.getElem?_eq_getElem hplace
      have hnone : ∀ step' ∈ [step], step'.edits = false := by simpa using hedits
      rw [hkept]
      exact getElem?_takeAll hnone hkept
  | some editing =>
      obtain ⟨name, change⟩ := editing
      cases edited_of_editing hediting state with
      | unknown _ haction | refused _ _ _ _ haction => rw [state_take haction]
      | changed found kept hname _ haction =>
          rcases h with htarget | ⟨fault, hfault⟩
          · have hne : found.place ≠ place := by
              simpa [target?, hediting, hname] using htarget
            rw [state_take haction, State.replace, List.getElem?_set_ne hne]
          · cases (result_take haction).symm.trans hfault

/-- The places of the messages that a step is to change. -/
def targets (step : Step) (state : State) : List Nat :=
  (step.target? state).toList

/-- Whatever else a run does, a message that no step of it is to change is as it was. -/
theorem getElem?_takeAll_of_targets {steps : List Step} {place : Nat}
    (hplace : place < state.messages.length) (h : place ∉ along targets steps state) :
    (takeAll steps state).2.messages[place]? = state.messages[place]? := by
  induction steps generalizing state with
  | nil => rfl
  | cons step rest ih =>
      rw [along, List.mem_append, not_or] at h
      have htarget : step.target? state ≠ some place := by
        simpa [targets] using h.1
      have hlength := Nat.lt_of_lt_of_le hplace (length_messages_take step state)
      exact (ih hlength h.2).trans (getElem?_take hplace (.inl htarget))

/-! ### Who sees a change -/

/-- How a change of the message of a name goes; `taken` is what taking the step gives. -/
structure ShowsThrough (change : Message → Except MessageFault Message) (found : Named)
    (state : State) (taken : StepReport × State) : Prop where
  /-- It is refused for what it does to the message. -/
  refused : ∀ fault, change (state.message found.place) = .error fault →
    taken.1.result = .error (.message fault)
  /-- Or it is given, and shows through the names that stand for this message and through no
  others. -/
  shown : ∀ message, change (state.message found.place) = .ok message →
    taken.1.result = .ok (.message message) ∧
      ∀ other seen, taken.2.names.lookup other = some seen →
        taken.2.message seen.place =
          if seen.place = found.place then message else state.message seen.place

/-- What a name is given to: a message that no other name stands for, or a receipt of the
message of a name. -/
def GivenTo (step : Step) (name : String) (state after : State) : Prop :=
  ∃ given, after.names.lookup name = some given ∧
    ∀ other seen, other ≠ name → state.names.lookup other = some seen →
      (given.place = seen.place ↔ ∃ source whose, step.source? = some source ∧
        state.names.lookup source = some whose ∧ whose.place = seen.place)

/-- What a step does to the messages that are there and to what names stand for; `taken` is
what taking it gives. -/
structure Frames (step : Step) (state : State) (taken : StepReport × State) : Prop where
  /-- A message stays as it is, unless the step is to change it and succeeds. -/
  messages : ∀ place < state.messages.length,
    (step.target? state ≠ some place ∨ ∃ fault, taken.1.result = .error fault) →
      taken.2.messages[place]? = state.messages[place]?
  /-- A name stands for what it stood for, a receipt with its identities and its signer, unless
  the step gives it away and succeeds. -/
  names : ∀ name, (step.name? ≠ some name ∨ ∃ fault, taken.1.result = .error fault) →
    taken.2.names.lookup name = state.names.lookup name
  /-- A change through a name shows through the names of the same message. -/
  changed : ∀ name change found, step.editing? = some (name, change) →
    state.names.lookup name = some found → ShowsThrough change found state taken
  /-- Names come to stand for one message when a receipt is made of it. -/
  given : ∀ name outcome, step.name? = some name → taken.1.result = .ok outcome →
    step.GivenTo name state taken.2

/-- A refused step gives its name to nothing. -/
theorem names_take_of_fault {fault : Fault} (hname : step.name? = some called)
    (hfault : (step.take state).1.result = .error fault) :
    (step.take state).2.names = state.names := by
  cases gives_of_name hname state with
  | refused _ after haction _ hnames => rw [state_take haction, hnames]
  | made _ _ _ _ _ haction _ _ _ _ _ | referred _ _ _ _ _ _ _ haction =>
      cases (result_take haction).symm.trans hfault

theorem showsThrough_take {change : Message → Except MessageFault Message} {found : Named}
    (hsound : state.Sound) (hediting : step.editing? = some (called, change))
    (hfound : state.names.lookup called = some found) :
    ShowsThrough change found state (step.take state) := by
  cases edited_of_editing hediting state with
  | unknown hname _ => cases hname.symm.trans hfound
  | refused _ fault hname hchange haction =>
      cases hname.symm.trans hfound
      refine ⟨fun other hother => ?_, fun message hmessage => ?_⟩
      · cases hchange.symm.trans hother
        exact result_take haction
      · cases hchange.symm.trans hmessage
  | changed _ kept hname hchange haction =>
      cases hname.symm.trans hfound
      refine ⟨fun fault hfault => ?_, fun message hmessage => ?_⟩
      · cases hchange.symm.trans hfault
      · cases hchange.symm.trans hmessage
        refine ⟨result_take haction, fun other seen _ => ?_⟩
        rw [state_take haction, message_replace (hsound called found hfound)]

theorem givenTo_take {outcome : Outcome} (hsound : state.Sound) (hname : step.name? = some called)
    (hresult : (step.take state).1.result = .ok outcome) :
    step.GivenTo called state (step.take state).2 := by
  cases gives_of_name hname state with
  | refused _ _ haction _ _ => cases (result_take haction).symm.trans hresult
  | made _ after kept given hsource haction _ _ hplace _ hnames =>
      refine ⟨given, ?_, fun other seen _ hseen => ?_⟩
      · rw [state_take haction, hnames, hname, State.called, List.lookup_cons_self]
      · -- The place is a new one, and names stand for what is there.
        refine iff_of_false ?_ ?_
        · rw [hplace]
          exact Nat.ne_of_gt (hsound other seen hseen)
        · rintro ⟨source, _, hsome, -⟩
          cases hsource.symm.trans hsome
  | referred _ source whose receipt hsource hwhose hreceipt haction =>
      refine ⟨.receipt receipt, ?_, fun other seen _ _ => ?_⟩
      · rw [state_take haction, hname, State.called, List.lookup_cons_self]
      · rw [Named.place, hreceipt]
        constructor
        · exact fun hsame => ⟨source, whose, hsource, hwhose, hsame⟩
        · rintro ⟨_, _, hsome, hlookup, hsame⟩
          cases hsource.symm.trans hsome
          cases hwhose.symm.trans hlookup
          exact hsame

theorem frames_take (hsound : state.Sound) (step : Step) : step.Frames state (step.take state) where
  messages _ hplace h := getElem?_take hplace h
  names name h := by
    rcases h with hname | ⟨fault, hfault⟩
    · exact lookup_take hname state
    · by_cases hname : step.name? = some name
      · rw [names_take_of_fault hname hfault]
      · exact lookup_take hname state
  changed _ _ _ hediting hfound := showsThrough_take hsound hediting hfound
  given _ _ hname hresult := givenTo_take hsound hname hresult

/-- Messages that are built are snapshots, and a change shows where the message is referred to.
Among objects, a message that is built shows what was composed, leaves what was there as it is,
and keeps its headers and metadata whatever is done that spares it.  A session keeps what
objects show that go through the same steps and share no dictionary.  In it, a message that no
step of a run was to change is as it was, whether the steps succeeded or not; and a change
through a name shows through the names of the same message alone, which are those of receipts
that were made of it. -/
theorem replies_are_snapshots {building : Building} {objects : Objects}
    (hknown : building.Known objects) (source : EntropySource) {start : State}
    (hsound : start.Sound) (steps : List Step) (step : Step) :
    building.IsSnapshot objects source (building.run (objects, source)) ∧
      (mirrorAll steps start (.ofState start)).Shows (takeAll steps start).2 ∧
      (∀ place < start.messages.length, place ∉ along targets steps start →
        (takeAll steps start).2.messages[place]? = start.messages[place]?) ∧
      step.Frames (takeAll steps start).2 (step.take (takeAll steps start).2) :=
  ⟨building.isSnapshot hknown source, (Objects.shows_ofState start).takeAll hsound steps,
    fun _ => getElem?_takeAll_of_targets, frames_take (sound_takeAll hsound steps) step⟩

/-- A message whose metadata are a dictionary that its application can also reach. -/
def lent : Objects where
  dictionaries := [[(.text "k", .int 1)]]
  messages := [⟨.header {}, .header {}, .dictionary 0, .value .null⟩]
  closed := by simp [MessageObject.Within, Held.Within]

/-- An answer to it with this dictionary for metadata. -/
def answerLent : Building := .respond (.text "pong") 0 (.value .null) (.dictionary 0)

/-- A source with one draw. -/
def oneDraw : EntropySource := ⟨[Vector.replicate 16 7], .unavailable⟩

/-- The application changes the dictionary, then the message that was answered. -/
def afterwards : List Deed :=
  [.put 0 (.text "k") (.int 2), .putMetadata 0 (.text "l") .null,
    .replace 0 (.header (.other .null)), .replace 0 (.metadata (.value .null))]

/-- A session in which a message and a receipt of it have names. -/
def paired : List Step :=
  [.makeMessage (some "m") {}, .makeReceipt (some "r") "m" [] true]

/-- The answer keeps the entry that it was given, and what is changed through the receipt
shows through the name of the message. -/
theorem replies_are_snapshots_lent :
    answerLent.Known lent ∧ State.Sound { entropy := oneDraw } ∧
      (∃ content, (Deed.runAll afterwards (answerLent.run (lent, oneDraw)).2).1.message 1 =
        { (answerLent.run (lent, oneDraw)).2.1.message 1 with content }) ∧
      ((answerLent.run (lent, oneDraw)).2.1.message 1).metadata =
        .dictionary [(.text "k", .int 1)] ∧
      (Deed.runAll afterwards (answerLent.run (lent, oneDraw)).2).1.shown (.dictionary 0) =
        .dictionary [(.text "k", .int 2), (.text "l", .null)] ∧
      ∃ seen, ((Step.edit "r" (.content (.int 5))).take
          (takeAll paired { entropy := oneDraw }).2).2.names.lookup "m" = some seen ∧
        ((Step.edit "r" (.content (.int 5))).take
          (takeAll paired { entropy := oneDraw }).2).2.message seen.place =
            { content := .int 5 } := by
  have hknown : answerLent.Known lent := by decide
  have hsound : State.Sound { entropy := oneDraw } := by
    rintro name found ⟨⟩
  obtain ⟨hsnapshot, -, -, hframes⟩ := replies_are_snapshots hknown oneDraw hsound paired
    (.edit "r" (.content (.int 5)))
  refine ⟨hknown, hsound, ?_, rfl, rfl, ?_⟩
  · obtain ⟨-, object, -, hspares, hstays⟩ := hsnapshot.stays 1 rfl
    have hdeeds : ∀ deed ∈ afterwards, deed.Known lent := by
      simp [afterwards, Deed.Known, lent, Replacement.Within, Held.Within]
    exact hstays afterwards fun deed hdeed => hspares deed (hdeeds deed hdeed)
  · have hchanged := hframes.changed "r" _ (.receipt ⟨0, [], {}⟩) rfl rfl
    exact ⟨.message 0, rfl, (hchanged.shown _ rfl).2 "m" (.message 0) rfl⟩

end Step
end SignedMessaging
