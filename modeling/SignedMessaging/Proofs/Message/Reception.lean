import SignedMessaging.Proofs.Framing
import SignedMessaging.Proofs.Message.FrameDecoding
import SignedMessaging.Proofs.Message.Signing
import SignedMessaging.Session.Action

/-!
# Reception

Reading the parts of a message goes through three gates, and the first that is shut
decides: framing, then the signature, then decoding.  `ReceptionLaw` has an `iff` for
each way in which it may end, and `Indifference` says what the outcome does not depend
on.  Both rest on two equations: `ofParts_framed` reads framed parts by their five frames
alone, and `ofSigned_of_accepts` and `ofSigned_of_not_accepts` split that by the
signature.  What is made of a signature that is not good is a function of that signature,
so nothing in the other frames is told before they are known to be authentic.

A session receives by taking the next message from its transport and reading its parts
under the signer that is current; the message is gone whatever comes of it.
-/

namespace SignedMessaging

namespace Message

variable {signer : Signer}

/-- The parts of an envelope and what may follow them. -/
def framed (identities : List Bytes) (frames : SignedFrames Bytes) (more : List Bytes) :
    List Bytes :=
  Envelope.parts ⟨identities, frames⟩ ++ more

/-- When reading parts ends in each of the ways in which it may end. -/
structure ReceptionLaw (signer : Signer) (parts : List Bytes)
    (outcome : Except Fault (List Bytes × Message)) : Prop where
  /-- There is no delimiter, or fewer than five frames follow the first. -/
  framing : (∃ fault, outcome = .error (.framing fault)) ↔
    delimiter ∉ parts ∨ ∃ identities after, parts = identities ++ delimiter :: after ∧
      delimiter ∉ identities ∧ after.length < 5
  /-- There is a key, and the first of the five is not hexadecimal of the keyed digest. -/
  signature : (∃ fault, outcome = .error (.signature fault)) ↔
    ∃ identities frames more, parts = framed identities frames more ∧
      delimiter ∉ identities ∧ ¬ signer.Accepts frames.signature frames.body
  /-- The signature is good and the four frames cannot be decoded. -/
  decoding (fault : DecodingFault) : outcome = .error (.decoding fault) ↔
    ∃ identities frames more, parts = framed identities frames more ∧
      delimiter ∉ identities ∧ signer.Accepts frames.signature frames.body ∧
        decode frames.body = .error fault
  /-- The signature is good and the four frames are decoded to the message. -/
  receipt (identities : List Bytes) (message : Message) : outcome = .ok (identities, message) ↔
    ∃ frames more, parts = framed identities frames more ∧
      delimiter ∉ identities ∧ signer.Accepts frames.signature frames.body ∧
        decode frames.body = .ok message
  /-- No other fault is possible. -/
  faults (fault : Fault) : outcome = .error fault → (∃ cause, fault = .framing cause) ∨
    (∃ cause, fault = .signature cause) ∨ ∃ cause, fault = .decoding cause

/-- What the outcome of reading parts does not depend on. -/
structure Indifference (signer : Signer) : Prop where
  /-- Frames whose signature is not good may hold anything. -/
  content {identities more more' : List Bytes} {frames frames' : SignedFrames Bytes} :
    delimiter ∉ identities → frames.signature = frames'.signature →
      ¬ signer.Accepts frames.signature frames.body →
      ¬ signer.Accepts frames'.signature frames'.body →
      ofParts signer ((framed identities frames more).map .bytes) =
        ofParts signer ((framed identities frames' more').map .bytes)
  /-- Without a key the signature may be anything. -/
  signature {identities more : List Bytes} {frames frames' : SignedFrames Bytes} :
    delimiter ∉ identities → signer.key = [] → frames.body = frames'.body →
      ofParts signer ((framed identities frames more).map .bytes) =
        ofParts signer ((framed identities frames' more).map .bytes)
  /-- The identities and what follows the five frames may be anything. -/
  surroundings {identities identities' more more' : List Bytes} {frames : SignedFrames Bytes} :
    delimiter ∉ identities → delimiter ∉ identities' →
      (ofParts signer ((framed identities frames more).map .bytes)).map (·.2) =
        (ofParts signer ((framed identities' frames more').map .bytes)).map (·.2)

/-! ### The three gates -/

/-- Framed parts are read by their five frames alone. -/
theorem ofParts_framed {identities : List Bytes} (h : delimiter ∉ identities)
    (frames : SignedFrames Bytes) (more : List Bytes) :
    ofParts signer ((framed identities frames more).map .bytes) =
      (ofSigned signer frames).map (identities, ·) := by
  have hframed : Envelope.ofParts (framed identities frames more) = .ok ⟨identities, frames⟩ :=
    Envelope.ofParts_eq_ok_iff.2 ⟨h, more, rfl⟩
  rw [ofParts, Envelope.ofValues_bytes, hframed]
  simp only [Except.mapError]
  cases ofSigned signer frames <;> rfl

/-- Parts that are not framed are refused as such. -/
theorem ofParts_of_framing {parts : List Bytes} {fault : FramingFault}
    (h : Envelope.ofParts parts = .error fault) :
    ofParts signer (parts.map .bytes) = .error (.framing fault) := by
  rw [ofParts, Envelope.ofValues_bytes, h]
  rfl

/-- Parts are framed, or they are refused for the reason that they are not. -/
theorem framed_or_fault (parts : List Bytes) :
    (∃ identities frames more, parts = framed identities frames more ∧ delimiter ∉ identities) ∨
      ∃ fault, Envelope.ofParts parts = .error fault := by
  cases h : Envelope.ofParts parts with
  | error fault => exact .inr ⟨fault, rfl⟩
  | ok envelope =>
      obtain ⟨hidentities, more, hparts⟩ := Envelope.ofParts_eq_ok_iff.1 h
      exact .inl ⟨envelope.identities, envelope.frames, more, hparts, hidentities⟩

/-- The frames of framed parts are determined, and so are the identities. -/
theorem framed_inj {identities identities' more more' : List Bytes}
    {frames frames' : SignedFrames Bytes} (h : delimiter ∉ identities)
    (h' : delimiter ∉ identities')
    (heq : framed identities frames more = framed identities' frames' more') :
    identities = identities' ∧ frames = frames' := by
  have hfirst : Envelope.ofParts (framed identities frames more) = .ok ⟨identities, frames⟩ :=
    Envelope.ofParts_eq_ok_iff.2 ⟨h, more, rfl⟩
  have hsecond : Envelope.ofParts (framed identities frames more) = .ok ⟨identities', frames'⟩ :=
    Envelope.ofParts_eq_ok_iff.2 ⟨h', more', heq⟩
  cases hfirst.symm.trans hsecond
  exact ⟨rfl, rfl⟩

/-- What is said of some reading of framed parts is said of their own. -/
theorem exists_framed_iff {identities more : List Bytes} {frames : SignedFrames Bytes}
    (h : delimiter ∉ identities) {P : List Bytes → SignedFrames Bytes → Prop} :
    (∃ identities' frames' more', framed identities frames more = framed identities' frames' more' ∧
      delimiter ∉ identities' ∧ P identities' frames') ↔ P identities frames := by
  constructor
  · rintro ⟨identities', frames', more', heq, h', hP⟩
    obtain ⟨rfl, rfl⟩ := framed_inj h h' heq
    exact hP
  · intro hP
    exact ⟨identities, frames, more, rfl, h, hP⟩

theorem exists_frames_iff {identities identities' more : List Bytes} {frames : SignedFrames Bytes}
    (h : delimiter ∉ identities) {P : SignedFrames Bytes → Prop} :
    (∃ frames' more', framed identities frames more = framed identities' frames' more' ∧
      delimiter ∉ identities' ∧ P frames') ↔ identities' = identities ∧ P frames := by
  constructor
  · rintro ⟨frames', more', heq, h', hP⟩
    obtain ⟨rfl, rfl⟩ := framed_inj h h' heq
    exact ⟨rfl, hP⟩
  · rintro ⟨rfl, hP⟩
    exact ⟨frames, more, rfl, h, hP⟩

/-! ### The law -/

/-- Framed parts are not refused as such. -/
theorem not_misframed {identities : List Bytes} (h : delimiter ∉ identities)
    (frames : SignedFrames Bytes) (more : List Bytes) :
    ¬ (delimiter ∉ framed identities frames more ∨ ∃ identities' after,
      framed identities frames more = identities' ++ delimiter :: after ∧
        delimiter ∉ identities' ∧ after.length < 5) := by
  have hok : Envelope.ofParts (framed identities frames more) = .ok ⟨identities, frames⟩ :=
    Envelope.ofParts_eq_ok_iff.2 ⟨h, more, rfl⟩
  rintro (hmem | ⟨identities', after, heq, h', hshort⟩)
  · cases hok.symm.trans (Envelope.ofParts_of_not_mem hmem)
  · cases hok.symm.trans
      (Envelope.ofParts_eq_error_iff.2 (.inr ⟨identities', after, heq, h', hshort, rfl⟩))

/-- Behind a good signature only decoding is left. -/
theorem receptionLaw_of_accepts (husable : signer.Usable) {identities : List Bytes}
    (h : delimiter ∉ identities) (frames : SignedFrames Bytes) (more : List Bytes)
    (haccepts : signer.Accepts frames.signature frames.body) :
    ReceptionLaw signer (framed identities frames more)
      ((ofSigned signer frames).map (identities, ·)) := by
  rw [ofSigned_of_accepts husable haccepts]
  constructor
  case framing =>
    refine iff_of_false ?_ (not_misframed h frames more)
    cases decode frames.body <;> simp [Except.map, Except.mapError]
  case signature =>
    rw [exists_framed_iff h (P := fun _ frames => ¬ signer.Accepts frames.signature frames.body)]
    refine iff_of_false ?_ (not_not_intro haccepts)
    cases decode frames.body <;> simp [Except.map, Except.mapError]
  case decoding =>
    intro fault
    rw [exists_framed_iff h (P := fun _ frames =>
      signer.Accepts frames.signature frames.body ∧ decode frames.body = .error fault)]
    cases decode frames.body <;> simp [Except.map, Except.mapError, haccepts]
  case receipt =>
    intro identities' message
    rw [exists_frames_iff h (P := fun frames =>
      signer.Accepts frames.signature frames.body ∧ decode frames.body = .ok message)]
    cases decode frames.body <;> simp [Except.map, Except.mapError, haccepts, eq_comm]
  case faults =>
    intro fault
    cases decode frames.body with
    | error cause =>
        rintro ⟨⟩
        exact .inr (.inr ⟨cause, rfl⟩)
    | ok _ => rintro ⟨⟩

/-- Behind a signature that is not good nothing counts. -/
theorem receptionLaw_of_not_accepts (husable : signer.Usable) {identities : List Bytes}
    (h : delimiter ∉ identities) (frames : SignedFrames Bytes) (more : List Bytes)
    (haccepts : ¬ signer.Accepts frames.signature frames.body) :
    ReceptionLaw signer (framed identities frames more)
      ((ofSigned signer frames).map (identities, ·)) := by
  rw [ofSigned_of_not_accepts husable haccepts]
  constructor
  case framing =>
    exact iff_of_false (by simp [Except.map]) (not_misframed h frames more)
  case signature =>
    rw [exists_framed_iff h (P := fun _ frames => ¬ signer.Accepts frames.signature frames.body)]
    exact iff_of_true ⟨_, rfl⟩ haccepts
  case decoding =>
    intro fault
    rw [exists_framed_iff h (P := fun _ frames =>
      signer.Accepts frames.signature frames.body ∧ decode frames.body = .error fault)]
    exact iff_of_false (by simp [Except.map]) fun hdecode => haccepts hdecode.1
  case receipt =>
    intro identities' message
    rw [exists_frames_iff h (P := fun frames =>
      signer.Accepts frames.signature frames.body ∧ decode frames.body = .ok message)]
    exact iff_of_false (by simp [Except.map]) fun hdecode => haccepts hdecode.2.1
  case faults =>
    rintro fault ⟨⟩
    exact .inr (.inl ⟨_, rfl⟩)

/-- Parts that are not framed end as the law says. -/
theorem receptionLaw_of_framing {parts : List Bytes} {fault : FramingFault}
    (h : Envelope.ofParts parts = .error fault) :
    ReceptionLaw signer parts (.error (.framing fault)) := by
  -- The other three outcomes need framed parts, of which these are none.
  have hunframed : ∀ {identities frames more}, parts = framed identities frames more →
      delimiter ∈ identities := by
    rintro identities frames more rfl
    by_contra hidentities
    have hok : Envelope.ofParts (framed identities frames more) = .ok ⟨identities, frames⟩ :=
      Envelope.ofParts_eq_ok_iff.2 ⟨hidentities, more, rfl⟩
    cases h.symm.trans hok
  constructor
  case framing =>
    refine iff_of_true ⟨fault, rfl⟩ ?_
    rcases Envelope.ofParts_eq_error_iff.1 h with
      ⟨hmem, -⟩ | ⟨identities, after, heq, h', hshort, -⟩
    · exact .inl hmem
    · exact .inr ⟨identities, after, heq, h', hshort⟩
  case signature =>
    exact iff_of_false (by simp) fun ⟨_, _, _, heq, h', _⟩ => h' (hunframed heq)
  case decoding =>
    exact fun _ => iff_of_false (by simp) fun ⟨_, _, _, heq, h', _⟩ => h' (hunframed heq)
  case receipt =>
    exact fun _ _ => iff_of_false (by simp) fun ⟨_, _, heq, h', _⟩ => h' (hunframed heq)
  case faults =>
    rintro _ ⟨⟩
    exact .inl ⟨fault, rfl⟩

/-- Reading parts under a usable signer ends as the law says. -/
theorem receptionLaw_ofParts (husable : signer.Usable) (parts : List Bytes) :
    ReceptionLaw signer parts (ofParts signer (parts.map .bytes)) := by
  -- The gates one by one: framing, and behind it the signature.
  rcases framed_or_fault parts with ⟨identities, frames, more, rfl, hidentities⟩ | ⟨fault, hfault⟩
  · rw [ofParts_framed hidentities]
    by_cases haccepts : signer.Accepts frames.signature frames.body
    · exact receptionLaw_of_accepts husable hidentities frames more haccepts
    · exact receptionLaw_of_not_accepts husable hidentities frames more haccepts
  · rw [ofParts_of_framing hfault]
    exact receptionLaw_of_framing hfault

theorem indifference (husable : signer.Usable) : Indifference signer where
  content hidentities hsignature hfirst hsecond := by
    rw [ofParts_framed hidentities, ofParts_framed hidentities,
      ofSigned_of_not_accepts husable hfirst, ofSigned_of_not_accepts husable hsecond, hsignature]
  signature {_ _ frames frames'} hidentities hkey hbody := by
    have hfirst : signer.Accepts frames.signature frames.body := .inl hkey
    have hsecond : signer.Accepts frames'.signature frames'.body := .inl hkey
    rw [ofParts_framed hidentities, ofParts_framed hidentities,
      ofSigned_of_accepts husable hfirst, ofSigned_of_accepts husable hsecond, hbody]
  surroundings {_ _ _ _ frames} hidentities hidentities' := by
    rw [ofParts_framed hidentities, ofParts_framed hidentities']
    cases ofSigned signer frames <;> rfl

end Message

/-! ### Receiving in a session -/

namespace Action

theorem bind_apply {α β : Type} (action : Action α) (next : α → Action β) (state : State) :
    (action >>= next) state =
      match action state with
      | (.ok a, after) => next a after
      | (.error fault, after) => (.error fault, after) := by
  simp only [bind, ExceptT.bind, ExceptT.mk, StateT.bind]
  rcases action state with ⟨_ | _, _⟩ <;> rfl

theorem get_apply (state : State) : (get : Action State) state = (.ok state, state) := rfl

/-- Parts that are refused change nothing; those that are read add their message, and the
receipt has the identities and the signer that is current. -/
theorem accept_eq (parts : List Value) (state : State) :
    accept parts state =
      match Message.ofParts state.signer parts with
      | .error fault => (.error fault, state)
      | .ok (identities, message) =>
          (.ok ⟨state.messages.length, identities.map .bytes, state.signer⟩,
            state.keep (Kept.ownedBy state.unmarked message)) := by
  simp only [accept, bind_apply, get_apply, ofExcept]
  cases Message.ofParts state.signer parts <;> rfl

/-- A working transport hands over the next message and drops it before it is read. -/
theorem receive_eq {state : State} {parts : List Value} {rest : List (List Value)}
    (hworking : state.transport.failing = false)
    (hinbound : state.transport.inbound = parts :: rest) :
    receive state =
      accept parts { state with transport := { state.transport with inbound := rest } } := by
  have htaken : takeInbound state = (.ok parts,
      { state with transport := { state.transport with inbound := rest } }) := by
    simp [takeInbound, Transport.receive, hworking, hinbound]
  rw [receive, bind_apply, htaken]

theorem accept_transport (parts : List Value) (state : State) :
    (accept parts state).2.transport = state.transport := by
  rw [accept_eq]
  cases Message.ofParts state.signer parts <;> rfl

theorem message_keep (state : State) (kept : Kept) :
    (state.keep kept).message state.messages.length = kept.message := by
  simp [State.message, State.kept, State.keep]

/-- Parts are accepted, and the next message of a working transport is received, as the
law says; no outcome leaves the message in the queue. -/
theorem receive_decides (state : State) (husable : state.signer.Usable) (parts : List Bytes) :
    Message.ReceptionLaw state.signer parts (Message.ofParts state.signer (parts.map .bytes)) ∧
    Message.Indifference state.signer ∧
    (∀ fault, Message.ofParts state.signer (parts.map .bytes) = .error fault →
      accept (parts.map .bytes) state = (.error fault, state)) ∧
    (∀ identities message,
      Message.ofParts state.signer (parts.map .bytes) = .ok (identities, message) →
        ∃ next, accept (parts.map .bytes) state =
          (.ok ⟨state.messages.length, identities.map .bytes, state.signer⟩, next) ∧
            next.message state.messages.length = message) ∧
    (∀ rest, state.transport.failing = false →
      state.transport.inbound = parts.map .bytes :: rest →
        receive state = accept (parts.map .bytes)
            { state with transport := { state.transport with inbound := rest } } ∧
          (receive state).2.transport = { state.transport with inbound := rest }) := by
  refine ⟨Message.receptionLaw_ofParts husable parts, Message.indifference husable, ?_, ?_, ?_⟩
  · intro fault hfault
    rw [accept_eq, hfault]
  · intro identities message hread
    rw [accept_eq, hread]
    exact ⟨_, rfl, message_keep _ _⟩
  · intro rest hworking hinbound
    rw [receive_eq hworking hinbound]
    exact ⟨rfl, accept_transport _ _⟩

/-- A session with a key and one message waiting, all of whose frames are empty but the
signature, which is no hexadecimal. -/
def garbled : State where
  entropy := ⟨[], .unavailable⟩
  signer := ⟨[1], "sha256"⟩
  transport := { inbound := [(Message.framed [] ⟨[122, 122], ⟨[], [], [], []⟩⟩ []).map .bytes] }

/-- The message is refused for its signature, not for its frames, and is gone. -/
theorem receive_decides_garbled :
    garbled.signer.Usable ∧
      (∃ fault, Message.ofParts garbled.signer
        ((Message.framed [] ⟨[122, 122], ⟨[], [], [], []⟩⟩ []).map .bytes) =
          .error (.signature fault)) ∧
      (Action.receive garbled).2.transport.inbound = [] := by
  have husable : garbled.signer.Usable := by decide
  obtain ⟨hlaw, -, -, -, hreceive⟩ := receive_decides garbled husable
    (Message.framed [] ⟨[122, 122], ⟨[], [], [], []⟩⟩ [])
  refine ⟨husable, hlaw.signature.2 ⟨[], _, [], rfl, by simp, ?_⟩, ?_⟩
  · -- No bytes have the signature as their hexadecimal, so no digest has.
    have hdecode : Hex.decode [122, 122] = none := by decide
    rintro (hkey | ⟨algorithm, -, hspells⟩)
    · cases hkey
    · exact Hex.decode_eq_none_iff.1 hdecode _ hspells
  · rw [(hreceive [] rfl rfl).2]

end Action

end SignedMessaging
