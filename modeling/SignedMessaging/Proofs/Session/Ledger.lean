import SignedMessaging.Proofs.Session.Receiving
import SignedMessaging.Proofs.Session.Sending

/-!
# The account of a run

Which messages the steps of a run sent, which arrived and which were taken can be listed
from the steps and their outcomes (`sendings`, `arrivals`, `takings`).  The state after a
run holds just what is listed: what was sent is what was sent before and then the parts
that were built, in order; what waited and what arrived was taken or still waits; the log
was told of every message that was sent and of nothing else (`Ledger`).  One step keeps the
account (`take_sendings`, `take_inbound`), and so does a run.
-/

namespace SignedMessaging

namespace Log

variable {log : Log} {message : Message} {messageType : Value}

/-- What a log shows: each record with its format. -/
def lines (log : Log) : List (String × Value) :=
  log.records.map fun record => (record.format, record.argument)

theorem accepts_offer (log : Log) (record : LogRecord) :
    (log.offer record).2.accepts = log.accepts := by
  unfold offer
  split <;> rfl

theorem accepts_sent (message : Message) : (log.sent message).accepts = log.accepts := by
  unfold sent
  split
  · rfl
  · split
    · next h => rw [← accepts_offer log, h]
    · next h => rw [accepts_offer, ← accepts_offer log, h]

/-- A log that takes every record is told type and content of a message that was sent. -/
theorem lines_sent (haccepts : ∀ n, log.accepts n = true)
    (htype : message.messageType = .ok messageType) :
    (log.sent message).lines =
      log.lines ++ [("<-- %s", messageType), ("%r", message.content)] := by
  simp [sent, htype, offer, haccepts, lines, LogRecord.format, LogRecord.argument]

end Log

namespace Step

/-- The message that a step sent, and none where it had a fault. -/
def sendings (step : Step) (state : State) : List Sending :=
  match (step.take state).1.result with
  | .error _ => []
  | .ok _ => (step.sending? state).toList

/-- The message that a step took from those that wait; where the transport failed, or none
waited, there is none. -/
def takings (step : Step) (state : State) : List (List Value) :=
  match step with
  | .receive _ =>
      match (step.take state).1.result with
      | .error (.session .transport) => []
      | _ => state.transport.inbound.take 1
  | _ => []

/-- The message that a step lets arrive. -/
def arrivals (step : Step) (state : State) : List (List Value) :=
  match step with
  | .feed parts => [parts]
  | .loopBack => state.transport.sent.getLast?.toList
  | _ => []

theorem sendings_of_fault {step : Step} {state : State} {fault : Fault}
    (h : (step.take state).1.result = .error fault) : step.sendings state = [] := by
  rw [sendings, h]

theorem sendings_of_not_sends {step : Step} (h : step.sends = false) (state : State) :
    step.sendings state = [] := by
  have hnone : step.sending? state = none := by
    cases step with
    | send _ _ | publish _ _ | reply _ _ _ _ _ => cases h
    | _ => rfl
  unfold sendings
  rw [hnone]
  split <;> rfl

/-- What a step sent stands behind what was sent before, and the log was told of it. -/
theorem take_sendings (step : Step) (state : State) :
    (step.take state).2.transport.sent =
        state.transport.sent ++ (step.sendings state).map Sending.parts ∧
      (step.take state).2.log =
        (step.sendings state).foldl (fun log sending => log.sent sending.message) state.log := by
  cases hsends : step.sends with
  | false =>
      obtain ⟨hsent, hlog⟩ := take_of_not_sends hsends state
      rw [hsent, hlog, sendings_of_not_sends hsends]
      exact ⟨(List.append_nil _).symm, rfl⟩
  | true =>
      cases ends_of_sends hsends state with
      | refused fault hresult hsent hlog =>
          rw [hsent, hlog, sendings_of_fault hresult]
          exact ⟨(List.append_nil _).symm, rfl⟩
      | sent sending outcome hsending hresult _ hsent hlog =>
          have hsendings : step.sendings state = [sending] := by
            rw [sendings, hresult, hsending]
            rfl
          rw [hsent, hlog, hsendings]
          exact ⟨rfl, rfl⟩

theorem takings_of_transport {name : Option String} {state : State}
    (h : ((receive name).take state).1.result = .error (.session .transport)) :
    (receive name).takings state = [] := by
  unfold takings
  rw [h]

theorem takings_of_taken {name : Option String} {state : State}
    (h : ((receive name).take state).1.result ≠ .error (.session .transport)) :
    (receive name).takings state = state.transport.inbound.take 1 := by
  unfold takings
  dsimp only
  split
  · next htransport => exact absurd htransport h
  · rfl

/-- A step that receives takes no message and leaves all that wait, where it fails in the
transport, and else takes the first. -/
theorem receive_takings (name : Option String) (state : State) :
    (((receive name).take state).1.result = .error (.session .transport) ∧
        (receive name).takings state = [] ∧
        ((receive name).take state).2.transport.inbound = state.transport.inbound) ∨
      ((receive name).take state).1.result ≠ .error (.session .transport) ∧
        ∃ parts, (receive name).takings state = [parts] ∧
          state.transport.inbound = parts :: ((receive name).take state).2.transport.inbound := by
  cases receive_takes name state with
  | nothing hresult hstate =>
      exact .inl ⟨hresult, takings_of_transport hresult, by rw [hstate]⟩
  | refused parts rest fault hinbound hread hresult hstate =>
      -- A fault of reading is none of the transport, so that the message counts as taken.
      have htaken : ((receive name).take state).1.result ≠ .error (.session .transport) := by
        rw [hresult]
        rintro ⟨⟩
        exact Message.ofParts_ne_session _ _ _ hread
      refine .inr ⟨htaken, parts, ?_, ?_⟩
      · rw [takings_of_taken htaken, hinbound, List.take_one, List.head?_cons, Option.toList_some]
      · rw [hinbound, hstate, State.took]
  | received parts rest identities message hinbound _ hresult hstate =>
      have htaken : ((receive name).take state).1.result ≠ .error (.session .transport) := by
        rw [hresult]
        simp
      refine .inr ⟨htaken, parts, ?_, ?_⟩
      · rw [takings_of_taken htaken, hinbound, List.take_one, List.head?_cons, Option.toList_some]
      · rw [hinbound, hstate, State.receiving, State.called_transport]
        rfl

/-- What waited before a step, and what it let arrive, was taken by it or waits after it. -/
theorem take_inbound (step : Step) (state : State) :
    state.transport.inbound ++ step.arrivals state =
      step.takings state ++ (step.take state).2.transport.inbound := by
  cases step with
  | receive name =>
      have harrivals : (receive name).arrivals state = [] := rfl
      rw [harrivals, List.append_nil]
      rcases receive_takings name state with ⟨-, hnone, hinbound⟩ | ⟨-, parts, hone, hinbound⟩
      · rw [hnone, hinbound, List.nil_append]
      · rw [hone, hinbound, List.singleton_append]
  | feed parts => rfl
  | loopBack =>
      have harrivals : loopBack.arrivals state = state.transport.sent.getLast?.toList := rfl
      change _ = (loopBack.action state).2.transport.inbound
      rw [harrivals, action, Action.bind_apply, Action.get_apply]
      dsimp only
      cases state.transport.sent.getLast? with
      | none => exact List.append_nil _
      | some parts => rfl
  | _ =>
      rw [take_of_not_queues rfl]
      exact List.append_nil _

/-- What the steps of a run give, one after another. -/
def along {α : Type} (f : Step → State → List α) : List Step → State → List α
  | [], _ => []
  | step :: rest, state => f step state ++ along f rest (step.take state).2

theorem takeAll_sendings (steps : List Step) (state : State) :
    (takeAll steps state).2.transport.sent =
        state.transport.sent ++ (along sendings steps state).map Sending.parts ∧
      (takeAll steps state).2.log =
        (along sendings steps state).foldl (fun log sending => log.sent sending.message)
          state.log := by
  induction steps generalizing state with
  | nil => exact ⟨(List.append_nil _).symm, rfl⟩
  | cons step rest ih =>
      obtain ⟨hsent, hlog⟩ := take_sendings step state
      obtain ⟨ihsent, ihlog⟩ := ih (step.take state).2
      rw [along, List.map_append, List.foldl_append, ← hlog, ← List.append_assoc, ← hsent]
      exact ⟨ihsent, ihlog⟩

theorem takeAll_inbound (steps : List Step) (state : State) :
    state.transport.inbound ++ along arrivals steps state =
      along takings steps state ++ (takeAll steps state).2.transport.inbound := by
  induction steps generalizing state with
  | nil => exact List.append_nil _
  | cons step rest ih =>
      have hstep := take_inbound step state
      calc state.transport.inbound ++ along arrivals (step :: rest) state
          = state.transport.inbound ++ step.arrivals state ++
              along arrivals rest (step.take state).2 := by rw [along, List.append_assoc]
        _ = step.takings state ++ ((step.take state).2.transport.inbound ++
              along arrivals rest (step.take state).2) := by rw [hstep, List.append_assoc]
        _ = step.takings state ++ (along takings rest (step.take state).2 ++
              (takeAll rest (step.take state).2).2.transport.inbound) := by rw [ih]
        _ = along takings (step :: rest) state ++
              (takeAll (step :: rest) state).2.transport.inbound := by
            rw [along, List.append_assoc]
            rfl

/-- A log that takes every record has the records of all messages that it was told of. -/
theorem lines_foldl_sent (sendings : List Sending) {log : Log}
    (haccepts : ∀ n, log.accepts n = true) :
    (sendings.foldl (fun log sending => log.sent sending.message) log).lines =
      log.lines ++ sendings.flatMap Sending.records := by
  induction sendings generalizing log with
  | nil => exact (List.append_nil _).symm
  | cons sending rest ih =>
      have hnext : ∀ n, (log.sent sending.message).accepts n = true := by
        rw [Log.accepts_sent]
        exact haccepts
      rw [List.foldl_cons, ih hnext, Log.lines_sent haccepts sending.typed, List.flatMap_cons,
        List.append_assoc, Sending.records]

/-- A step with a fault leaves the messages sent and the log as they are. -/
theorem take_of_fault {step : Step} {state : State} {fault : Fault}
    (h : (step.take state).1.result = .error fault) :
    (step.take state).2.transport.sent = state.transport.sent ∧
      (step.take state).2.log = state.log := by
  obtain ⟨hsent, hlog⟩ := take_sendings step state
  rw [sendings_of_fault h] at hsent hlog
  exact ⟨hsent.trans (List.append_nil _), hlog⟩

/-- A step that is to send a message and has no fault sent one, which it gives. -/
theorem exists_sending {step : Step} {state : State} {outcome : Outcome}
    (hsends : step.sends = true) (h : (step.take state).1.result = .ok outcome) :
    ∃ sending, step.sendings state = [sending] ∧ step.sending? state = some sending ∧
      sending.GivenAs outcome := by
  cases ends_of_sends hsends state with
  | refused _ hresult _ _ => cases hresult.symm.trans h
  | sent sending _ hsending hresult hgiven _ _ =>
      cases hresult.symm.trans h
      refine ⟨sending, ?_, hsending, hgiven⟩
      rw [sendings, hresult, hsending]
      rfl

/-- The account of a run. -/
structure Ledger (steps : List Step) (state : State) : Prop where
  /-- What was sent are the parts that were built by the steps without a fault, in order. -/
  sent : (takeAll steps state).2.transport.sent =
    state.transport.sent ++ (along sendings steps state).map Sending.parts
  /-- What waited and what arrived was taken from the front, in order, or still waits. -/
  inbound : state.transport.inbound ++ along arrivals steps state =
    along takings steps state ++ (takeAll steps state).2.transport.inbound
  /-- The log was told of each message that was sent, in order, and of nothing else. -/
  log : (takeAll steps state).2.log =
    (along sendings steps state).foldl (fun log sending => log.sent sending.message) state.log
  /-- A log that takes every record has two for each: the type and then the content. -/
  lines : (∀ n, state.log.accepts n = true) → (takeAll steps state).2.log.lines =
    state.log.lines ++ (along sendings steps state).flatMap Sending.records
  /-- A further step that has a fault sends nothing and logs nothing. -/
  refused {step : Step} {fault : Fault} :
    (step.take (takeAll steps state).2).1.result = .error fault →
      (step.take (takeAll steps state).2).2.transport.sent =
          (takeAll steps state).2.transport.sent ∧
        (step.take (takeAll steps state).2).2.log = (takeAll steps state).2.log
  /-- A further step that is to send a message and has no fault sends one, and gives it. -/
  accepted {step : Step} {outcome : Outcome} : step.sends = true →
    (step.take (takeAll steps state).2).1.result = .ok outcome →
      ∃ sending, step.sendings (takeAll steps state).2 = [sending] ∧
        step.sending? (takeAll steps state).2 = some sending ∧ sending.GivenAs outcome
  /-- Steps of other sorts send nothing. -/
  others {step : Step} : step.sends = false → step.sendings (takeAll steps state).2 = []
  /-- A further step that receives takes the one message that is next, whatever comes of it,
  unless it fails in the transport, and then takes none. -/
  taken (name : Option String) :
    (((receive name).take (takeAll steps state).2).1.result = .error (.session .transport) ∧
        (receive name).takings (takeAll steps state).2 = []) ∨
      ((receive name).take (takeAll steps state).2).1.result ≠ .error (.session .transport) ∧
        ∃ parts, (receive name).takings (takeAll steps state).2 = [parts]

/-- Every run keeps its account, whatever state it starts from. -/
theorem ledger_takeAll (steps : List Step) (state : State) : Ledger steps state where
  sent := (takeAll_sendings steps state).1
  inbound := takeAll_inbound steps state
  log := (takeAll_sendings steps state).2
  lines haccepts := by
    rw [(takeAll_sendings steps state).2, lines_foldl_sent _ haccepts]
  refused := take_of_fault
  accepted := exists_sending
  others hsends := sendings_of_not_sends hsends _
  taken name := (receive_takings name _).imp (fun h => ⟨h.1, h.2.1⟩)
    fun ⟨hresult, parts, hone, _⟩ => ⟨hresult, parts, hone⟩

end Step
end SignedMessaging
