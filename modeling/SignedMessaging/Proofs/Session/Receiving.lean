import SignedMessaging.Proofs.Session.Actions

/-!
# Receiving in steps

A step that receives ends in one of three ways (`Step.receive_takes`).  Where the transport
fails, or nothing waits, it changes nothing.  Else the next message is gone, and is refused
for what its parts are, or is kept and stands behind a receipt with the identities that the
parts were read to and the signer that was current.
-/

namespace SignedMessaging

namespace Action

/-- Receiving fails with the transport, and changes nothing, or takes the next message from
those that wait and reads it. -/
theorem receive_cases (state : State) :
    receive state = (.error (.session .transport), state) ∨
      ∃ parts rest, state.transport.inbound = parts :: rest ∧
        receive state =
          accept parts { state with transport := { state.transport with inbound := rest } } := by
  cases hfailing : state.transport.failing with
  | true =>
      refine .inl ?_
      rw [receive, bind_apply, takeInbound_eq, if_pos hfailing]
  | false =>
      cases hinbound : state.transport.inbound with
      | nil =>
          refine .inl ?_
          rw [receive, bind_apply, takeInbound_eq, if_neg (by simp [hfailing]), hinbound]
      | cons parts rest => exact .inr ⟨parts, rest, rfl, receive_eq hfailing hinbound⟩

end Action

namespace State

/-- The state after the first message of those that wait was taken. -/
def took (rest : List (List Value)) (state : State) : State :=
  { state with transport := { state.transport with inbound := rest } }

/-- The receipt of a message that is the next to be kept. -/
def receiptOf (identities : List Bytes) (state : State) : Receipt :=
  ⟨state.messages.length, identities.map .bytes, state.signer⟩

/-- The state after a message was received that had been the first of those that waited. -/
def receiving (name : Option String) (identities : List Bytes) (message : Message)
    (rest : List (List Value)) (state : State) : State :=
  ((state.took rest).keep (Kept.ownedBy state.unmarked message)).called name
    (.receipt (state.receiptOf identities))

end State

namespace Action

/-- Parts are accepted exactly as what they are read to. -/
theorem accept_eq_ok_iff {parts : List Value} {state : State} {identities : List Bytes}
    {message : Message} :
    accept parts state = (.ok (state.receiptOf identities),
        state.keep (Kept.ownedBy state.unmarked message)) ↔
      Message.ofParts state.signer parts = .ok (identities, message) := by
  rw [accept_eq]
  cases Message.ofParts state.signer parts with
  | error fault => exact iff_of_false (by rintro ⟨⟩) (by rintro ⟨⟩)
  | ok read =>
      obtain ⟨found, kept⟩ := read
      constructor
      · intro h
        obtain ⟨hreceipt, hstate⟩ := Prod.mk.inj h
        have hfound : found = identities :=
          List.map_injective_iff.2 (fun _ _ => Value.bytes.inj)
            (congrArg Receipt.identities (Except.ok.inj hreceipt))
        have hkept := congrArg (State.message · state.messages.length) hstate
        simp only [message_keep] at hkept
        rw [hfound, show kept = message from hkept]
      · rintro ⟨⟩
        rfl

end Action

namespace Step

/-- How a step that receives a message may end. -/
inductive Takes (name : Option String) (state : State) : Prop
  /-- No message could be taken, and nothing is changed. -/
  | nothing (hresult : ((receive name).take state).1.result = .error (.session .transport))
      (hstate : ((receive name).take state).2 = state)
  /-- A message was taken that could not be read, and is gone. -/
  | refused (parts : List Value) (rest : List (List Value)) (fault : Fault)
      (hinbound : state.transport.inbound = parts :: rest)
      (hread : Message.ofParts state.signer parts = .error fault)
      (hresult : ((receive name).take state).1.result = .error fault)
      (hstate : ((receive name).take state).2 = state.took rest)
  /-- A message was taken and read, and there is a receipt of it. -/
  | received (parts : List Value) (rest : List (List Value)) (identities : List Bytes)
      (message : Message) (hinbound : state.transport.inbound = parts :: rest)
      (hread : Message.ofParts state.signer parts = .ok (identities, message))
      (hresult : ((receive name).take state).1.result =
        .ok (.receipt message (state.receiptOf identities)))
      (hstate : ((receive name).take state).2 = state.receiving name identities message rest)

theorem receive_takes (name : Option String) (state : State) : Takes name state := by
  have haction : (receive name).action state = (Action.receive >>= received name) state := rfl
  rw [Action.bind_apply] at haction
  rcases Action.receive_cases state with hreceive | ⟨parts, rest, hinbound, hreceive⟩
  · rw [hreceive] at haction
    exact .nothing (result_take haction) (state_take haction)
  · rw [hreceive, Action.accept_eq] at haction
    cases hread : Message.ofParts state.signer parts with
    | error fault =>
        simp only [hread] at haction
        exact .refused parts rest fault hinbound hread (result_take haction) (state_take haction)
    | ok read =>
        obtain ⟨identities, message⟩ := read
        simp only [hread, received_eq] at haction
        have hkept : ((state.took rest).keep (Kept.ownedBy state.unmarked message)).message
            state.messages.length = message := Action.message_keep _ _
        refine .received parts rest identities message hinbound hread ?_ (state_take haction)
        rw [result_take haction]
        exact congrArg (fun shown => Except.ok (Outcome.receipt shown _)) hkept

end Step
end SignedMessaging
