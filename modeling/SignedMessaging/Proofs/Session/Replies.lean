import SignedMessaging.Proofs.Message.Composition
import SignedMessaging.Proofs.Message.Inside
import SignedMessaging.Proofs.Session.Receiving
import SignedMessaging.Proofs.Session.Sending

/-!
# Answers to requests

A session that received a request may receive, answer, publish and send whatever else there
is before it answers that request.  A receipt keeps what it was made with, and the message
that it refers to stays where it is (`lookup_takeAll`, `getElem?_takeAll`); so the answer
goes back behind the identities of the request, under the signer that read it, and takes
over from the header of the request what an answer takes over (`Answered`).  Identities
that were read are never the delimiter, so that the requester finds the same identities
and frames again.
-/

namespace SignedMessaging

namespace Step

variable {steps : List Step} {state : State}

/-! ### What a run leaves as it is -/

/-- A name stands for what it stood for until a step gives it away. -/
theorem lookup_takeAll {name : String} {found : Named}
    (hnames : ∀ step ∈ steps, step.name? ≠ some name)
    (h : state.names.lookup name = some found) :
    (takeAll steps state).2.names.lookup name = some found := by
  induction steps generalizing state with
  | nil => exact h
  | cons step rest ih =>
      rw [List.forall_mem_cons] at hnames
      exact ih hnames.2 ((lookup_take hnames.1 state).trans h)

/-- A message stays where it is, and as it is where no step edits messages. -/
theorem getElem?_takeAll {place : Nat} {kept : Kept}
    (hedits : ∀ step ∈ steps, step.edits = false) (h : state.messages[place]? = some kept) :
    (takeAll steps state).2.messages[place]? = some kept := by
  refine takeAll_preserves (I := fun state => state.messages[place]? = some kept)
    (fun step hstep _ _ hchange hbefore => ?_) h
  cases hchange with
  | kept _ =>
      rw [State.keep, List.getElem?_append_left (List.getElem?_eq_some_iff.1 hbefore).1]
      exact hbefore
  | replaced hedit _ _ => simp [hedits step hstep] at hedit
  | _ => exact hbefore

/-! ### Receiving and answering -/

/-- A receipt that a step gives is that of the message that was next, and the name of the
step stands for it. -/
theorem receive_ok {name : Option String} {message : Message} {receipt : Receipt}
    (h : ((receive name).take state).1.result = .ok (.receipt message receipt)) :
    ∃ parts rest identities, state.transport.inbound = parts :: rest ∧
      Message.ofParts state.signer parts = .ok (identities, message) ∧
      receipt = state.receiptOf identities ∧
      ((receive name).take state).2 = state.receiving name identities message rest := by
  cases receive_takes name state with
  | nothing hresult _ => cases hresult.symm.trans h
  | refused _ _ _ _ _ hresult _ => cases hresult.symm.trans h
  | received parts rest identities _ hinbound hread hresult hstate =>
      cases hresult.symm.trans h
      exact ⟨parts, rest, identities, hinbound, hread, rfl, hstate⟩

/-- An answer that was sent was composed, and left in its parts. -/
theorem reply_ok {name : Option String} {called : String} {receipt : Receipt}
    {msgType content metadata : Value} {outcome : Outcome}
    (hreceipt : state.names.lookup called = some (.receipt receipt))
    (h : ((reply name called msgType content metadata).take state).1.result = .ok outcome) :
    ∃ answer parts,
      Message.respond msgType (state.message receipt.message) content metadata state.entropy =
        (.ok answer, ((reply name called msgType content metadata).take state).2.entropy) ∧
      answer.toParts receipt.signer receipt.identities = .ok parts ∧
      outcome = .message answer ∧
      ((reply name called msgType content metadata).take state).1.sent = [parts] := by
  rcases reply_cases name msgType content metadata hreceipt with
    ⟨fault, entropy, haction⟩ | ⟨sending, entropy, hrespond, hsending, haction⟩
  · cases (result_take haction).symm.trans h
  · refine ⟨sending.message, sending.parts, ?_, Sending.toParts_of_of? hsending, ?_, ?_⟩
    · rw [state_take haction, State.answered_entropy, hrespond]
    · exact Except.ok.inj (h.symm.trans (result_take haction))
    · rw [sent_take, state_take haction, State.answered_sent, List.drop_left]

/-- An answer that can be composed and built is sent, unless the transport fails. -/
theorem reply_sends {name : Option String} {called : String} {receipt : Receipt}
    {msgType content metadata : Value} {answer : Message} {entropy : EntropySource}
    {parts : List Value} (hreceipt : state.names.lookup called = some (.receipt receipt))
    (hrespond : Message.respond msgType (state.message receipt.message) content metadata
      state.entropy = (.ok answer, entropy))
    (hparts : answer.toParts receipt.signer receipt.identities = .ok parts)
    (hworking : state.transport.failing = false) :
    ((reply name called msgType content metadata).take state).1.result = .ok (.message answer) := by
  rcases reply_cases name msgType content metadata hreceipt with
    ⟨fault, after, haction⟩ | ⟨sending, after, hcomposed, -, haction⟩
  · have hdispatch : Action.dispatch receipt.identities receipt.signer answer
        { state with entropy } = (.ok parts, State.posted parts answer { state with entropy }) :=
      Action.dispatch_eq_ok_iff.2 ⟨hparts, hworking, rfl⟩
    rw [action, Action.bind_apply, Action.receiptNamed_eq, hreceipt] at haction
    dsimp only at haction
    rw [Action.bind_apply, Action.reply_eq, hrespond] at haction
    dsimp only at haction
    rw [Action.bind_apply, Action.send, hdispatch] at haction
    simp only [Action.storeAnswer, made_eq] at haction
    cases haction
  · cases hcomposed.symm.trans hrespond
    exact result_take haction

/-- What became of an answer to a request: `entropy` is what could be drawn from before, and
`taken` what taking the step gave. -/
structure Answered (signer : Signer) (identities : List Bytes) (request : Message)
    (msgType content metadata : Value) (entropy : EntropySource) (taken : StepReport × State)
    (answer : Message) (frames : SignedFrames Bytes) (parent : Header) (draw : Draw) : Prop where
  /-- The step gives the answer. -/
  result : taken.1.result = .ok (.message answer)
  /-- One message was sent, and it was sent behind the identities. -/
  sent : taken.1.sent = [(Envelope.parts ⟨identities, frames⟩).map .bytes]
  /-- The parts are split into the identities and the five frames. -/
  split : Envelope.ofValues ((Envelope.parts ⟨identities, frames⟩).map .bytes) =
    .ok ⟨identities, frames⟩
  /-- The signature is good under the signer. -/
  verified : signer.verify frames.signature frames.body = .ok ()
  /-- The frames are read to the normal form of the answer, as deep as the reader goes. -/
  read : Message.ofSigned signer frames = .ok answer.normal ↔ answer.nesting ≤ Json.readDepth
  /-- Deeper ones are refused. -/
  refused : Json.readDepth < answer.nesting →
    ∃ fault, Message.ofSigned signer frames = .error (.decoding fault)
  /-- Only what has tuples in it could be sent and yet be deeper. -/
  depth : answer.TupleFree → answer.nesting ≤ Json.readDepth
  /-- A draw was taken, from which the identifier is. -/
  drawn : entropy.draws = draw :: taken.2.entropy.draws
  /-- The parent header is the header of the request. -/
  parent_eq : request.header = .header parent
  /-- The normal form has nothing but what was given, the draw and what the header had. -/
  normal : answer.normal = ⟨.header ⟨.text draw.identifier, parent.username, parent.session,
    msgType⟩, .header parent, (Message.sentMetadata metadata).normal, content.normal⟩

/-- An answer that succeeds, given under the name of a receipt whose identities are byte
strings other than the delimiter, became what it should. -/
theorem answered_of_reply {name : Option String} {called : String} {receipt : Receipt}
    {identities : List Bytes} {msgType content metadata : Value} {outcome : Outcome}
    (hreceipt : state.names.lookup called = some (.receipt receipt))
    (hidentities : receipt.identities = identities.map .bytes) (hdelimiter : delimiter ∉ identities)
    (hmetadata : metadata.kind = .null ∨ metadata.kind = .dictionary)
    (hkeyed : metadata.WellKeyed ∧ content.WellKeyed)
    (h : ((reply name called msgType content metadata).take state).1.result = .ok outcome) :
    ∃ answer frames parent draw,
      Answered receipt.signer identities (state.message receipt.message) msgType content metadata
        state.entropy ((reply name called msgType content metadata).take state) answer frames
        parent draw := by
  obtain ⟨answer, parts, hrespond, hparts, houtcome, hsent⟩ := reply_ok hreceipt h
  obtain ⟨parent, draw, hparent, hdraws, -, hanswer⟩ :=
    (Message.respond_eq_ok_iff hmetadata).1 hrespond
  rw [hidentities] at hparts
  obtain ⟨frames, hsigned, rfl⟩ := Message.toParts_bytes hparts
  have hanswerKeyed : answer.WellKeyed := by
    rw [hanswer]
    exact ⟨Message.wellKeyed_sentMetadata hkeyed.1, hkeyed.2⟩
  refine ⟨answer, frames, parent, draw, ?_⟩
  constructor
  case result => rw [h, houtcome]
  case sent => exact hsent
  case split => exact Envelope.ofValues_parts frames hdelimiter
  case verified => exact Signer.verify_of_sign (Message.toSigned_eq_ok_iff.1 hsigned).2
  case read => exact Message.ofSigned_of_toSigned hsigned hanswerKeyed
  case refused => exact Message.ofSigned_of_deep hsigned hanswerKeyed
  case depth => exact Message.nesting_le_readDepth hsigned hanswerKeyed
  case drawn => exact hdraws
  case parent_eq => exact hparent
  case normal => rw [hanswer, Message.normal_composed]

/-- Whatever a session does between receiving a request and answering it, as long as the
name of the receipt is not given away: the answer goes to where the request came from,
under the signer that read the request, and answers the message of the receipt as it then
is, which is the request if no message was edited. -/
theorem reply_answers_request {start : State} {name : String} {request : Message}
    {receipt : Receipt} {between : List Step} {called : Option String}
    {msgType content metadata : Value} {outcome : Outcome}
    (hreceive : ((receive (some name)).take start).1.result = .ok (.receipt request receipt))
    (hnames : ∀ step ∈ between, step.name? ≠ some name)
    (hmetadata : metadata.kind = .null ∨ metadata.kind = .dictionary)
    (hkeyed : metadata.WellKeyed ∧ content.WellKeyed)
    (hreply : ((reply called name msgType content metadata).take
      (takeAll (receive (some name) :: between) start).2).1.result = .ok outcome) :
    ∃ parts rest identities, start.transport.inbound = parts :: rest ∧
      Message.ofParts start.signer parts = .ok (identities, request) ∧
      receipt.identities = identities.map .bytes ∧ receipt.signer = start.signer ∧
      (∃ answer frames parent draw,
        Answered start.signer identities
          ((takeAll (receive (some name) :: between) start).2.message receipt.message)
          msgType content metadata (takeAll (receive (some name) :: between) start).2.entropy
          ((reply called name msgType content metadata).take
            (takeAll (receive (some name) :: between) start).2) answer frames parent draw) ∧
      ((∀ step ∈ between, step.edits = false) →
        (takeAll (receive (some name) :: between) start).2.message receipt.message = request) := by
  obtain ⟨parts, rest, identities, hinbound, hread, rfl, hstate⟩ := receive_ok hreceive
  refine ⟨parts, rest, identities, hinbound, hread, rfl, rfl, ?_, fun hedits => ?_⟩
  · -- The receipt is what its name stands for up to the answer.
    have hnamed : (start.receiving (some name) identities request rest).names.lookup name =
        some (.receipt (start.receiptOf identities)) := List.lookup_cons_self
    rw [← hstate] at hnamed
    exact answered_of_reply (lookup_takeAll hnames hnamed) rfl (Message.not_mem_of_ofParts hread)
      hmetadata hkeyed hreply
  · -- The message stays in its place, and nobody edits it.
    have hkept : (start.receiving (some name) identities request rest).messages[
        start.messages.length]? = some (Kept.ownedBy start.unmarked request) := by
      rw [State.receiving, State.called_messages]
      exact List.getElem?_concat_length
    rw [← hstate] at hkept
    have hlast := getElem?_takeAll hedits hkept
    exact congrArg (fun kept => (kept.getD (Kept.ownedBy 0 {})).message) hlast

/-- The parts of a message with nothing in it, as they come from an identity. -/
def greeting (identity : Bytes) : List Value :=
  (Message.framed [identity] ⟨[], ⟨Message.emptyObject, Message.emptyObject, Message.emptyObject,
    Bytes.ofText "null"⟩⟩ []).map .bytes

/-- A session without a key in which messages of `a` and `b` wait. -/
def asked : State where
  entropy := ⟨[Vector.replicate 16 7, Vector.replicate 16 8], .unavailable⟩
  transport := { inbound := [greeting [97], greeting [98]] }

/-- What may come before the message of `a` is answered: the signer is changed, and the
message of `b` is received and answered. -/
def meanwhile : List Step :=
  [setSigner ⟨.bytes [], .named "sha512"⟩, receive (some "s"),
    reply none "s" (.text "pong") .null .null]

/-- The session when all this is done. -/
def resumed : State := (takeAll (receive (some "r") :: meanwhile) asked).2

/-- The answer to `a` goes to `a`, under the signer of the time when `a` was heard. -/
theorem reply_answers_request_meanwhile :
    ((receive (some "r")).take asked).1.result = .ok (.receipt {} (asked.receiptOf [[97]])) ∧
      (∃ outcome, ((reply none "r" (.text "pong") (.tuple [.int 1]) .null).take
        resumed).1.result = .ok outcome) ∧
      resumed.transport.sent.length = 1 ∧ resumed.signer ≠ asked.signer ∧
      ∃ answer frames parent draw,
        Answered asked.signer [[97]] {} (.text "pong") (.tuple [.int 1]) .null resumed.entropy
          ((reply none "r" (.text "pong") (.tuple [.int 1]) .null).take resumed) answer frames
          parent draw := by
  have hreceive : ((receive (some "r")).take asked).1.result =
      .ok (.receipt {} (asked.receiptOf [[97]])) := rfl
  have hnames : ∀ step ∈ meanwhile, step.name? ≠ some "r" := by
    simp [meanwhile, name?]
  have hedits : ∀ step ∈ meanwhile, step.edits = false := by
    simp [meanwhile, edits]
  have hkeyed : Value.WellKeyed .null ∧ Value.WellKeyed (.tuple [.int 1]) := by
    simp [Value.WellKeyed, Value.Everywhere, Value.EverywhereIn]
  obtain ⟨outcome, hreply⟩ : ∃ outcome, ((reply none "r" (.text "pong") (.tuple [.int 1])
      .null).take resumed).1.result = .ok outcome := ⟨_, rfl⟩
  obtain ⟨_, _, identities, _, _, hidentities, _, hanswered, hrequest⟩ :=
    reply_answers_request hreceive hnames (.inl rfl) hkeyed hreply
  have hsame : [[97]] = identities := List.map_injective_iff.2 (fun _ _ => Value.bytes.inj)
    hidentities
  rw [hrequest hedits, ← hsame] at hanswered
  have hsigner : resumed.signer = { digest := "sha512" } := rfl
  have hchanged : resumed.signer ≠ asked.signer := by
    rw [hsigner]
    decide
  exact ⟨hreceive, ⟨outcome, hreply⟩, rfl, hchanged, hanswered⟩

/-- The session when it has heard `a`. -/
def heard : State := ((receive (some "r")).take asked).2

/-- An answer of tuples that are too deep for the reader is sent to `a`, who cannot read it. -/
theorem reply_not_read :
    ((receive (some "r")).take asked).1.result = .ok (.receipt {} (asked.receiptOf [[97]])) ∧
    ∃ answer frames fault,
      ((reply none "r" (.text "pong") (Message.inside .tuple 1025 .null) .null).take
        heard).1.result = .ok (.message answer) ∧
      ((reply none "r" (.text "pong") (Message.inside .tuple 1025 .null) .null).take
        heard).1.sent = [(Envelope.parts ⟨[[97]], frames⟩).map .bytes] ∧
      Message.ofSigned asked.signer frames = .error (.decoding fault) := by
  refine ⟨rfl, ?_⟩
  have hreceipt : heard.names.lookup "r" = some (.receipt (asked.receiptOf [[97]])) := rfl
  obtain ⟨answer, entropy, hrespond, hencode, hnesting⟩ : ∃ answer entropy,
      Message.respond (.text "pong") (heard.message 0) (Message.inside .tuple 1025 .null) .null
        heard.entropy = (.ok answer, entropy) ∧
      (∃ body, answer.encode = .ok body) ∧ answer.nesting = 1025 := by
    refine ⟨_, _, rfl, ?_, ?_⟩
    · obtain ⟨cs, hcs⟩ := Message.exists_write_inside_tuple 1025 0
      have hcontent := Message.encodeValue_eq_ok_iff.2
        ⟨Message.nonFinite?_inside (.inr rfl) 1025 rfl, cs, hcs, rfl⟩
      unfold Message.encode
      rw [hcontent]
      exact ⟨_, rfl⟩
    · rw [Message.nesting, Message.nesting_inside (.inr rfl)]
      rfl
  obtain ⟨body, hbody⟩ := hencode
  have husable : asked.signer.Usable := by decide
  obtain ⟨parts, hparts⟩ := Message.exists_toParts hbody husable [.bytes [97]]
  have hresult : ((reply none "r" (.text "pong") (Message.inside .tuple 1025 .null) .null).take
      heard).1.result = .ok (.message answer) := reply_sends hreceipt hrespond hparts rfl
  have hkeyed : Value.WellKeyed .null ∧ Value.WellKeyed (Message.inside .tuple 1025 .null) :=
    ⟨by simp [Value.WellKeyed, Value.Everywhere], Message.wellKeyed_inside (.inr rfl) 1025
      (by simp [Value.WellKeyed, Value.Everywhere])⟩
  have hdelimiter : delimiter ∉ [[97]] := by decide
  obtain ⟨sent, frames, _, _, hanswered⟩ :=
    answered_of_reply hreceipt rfl hdelimiter (.inl rfl) hkeyed hresult
  cases hanswered.result.symm.trans hresult
  obtain ⟨fault, hfault⟩ := hanswered.refused (by rw [hnesting]; decide)
  exact ⟨answer, frames, fault, hresult, hanswered.sent, hfault⟩

end Step
end SignedMessaging
