import SignedMessaging.Proofs.Message.Delivery
import SignedMessaging.Proofs.Session.Receiving

/-!
# Publication

A message is published behind one frame, its topic, and what was published can be received
under the same signer if the topic is not the delimiter (`published_of_publish`).  Nothing
keeps a topic from being the delimiter: it may be given, and it may be the type of the
message.  The message is sent and logged then as any other, but whoever reads its parts
takes the topic for the end of the identities, and the delimiter behind it for the
signature; such a message is always refused (`accept_of_delimiter`).
-/

namespace SignedMessaging

namespace Message

variable {message : Message} {signer : Signer} {parts : List Value}

/-- The bytes behind which a message is published: the topic that is given, or else the
type of the message in its UTF-8 form. -/
inductive Topic (message : Message) : Value → Bytes → Prop
  | given (name : Bytes) : Topic message (.bytes name) name
  | standard {s : String} (h : message.messageType = .ok (.text s)) :
      Topic message .null (Bytes.ofText s)

/-- Why parts are refused in which a second delimiter stands behind the first. -/
def misreading (signer : Signer) : Fault :=
  if signer.key = [] then .decoding ⟨.header, .malformed⟩ else .signature .notHex

/-- Behind the delimiter a message is not read, whatever it is. -/
theorem ofParts_of_delimiter (h : message.toParts signer [.bytes delimiter] = .ok parts) :
    ofParts signer parts = .error (misreading signer) := by
  obtain ⟨frames, hsigned, rfl⟩ := @toParts_bytes message signer parts [delimiter] h
  obtain ⟨signature, header, parentHeader, metadata, content⟩ := frames
  -- The five frames that are read are the delimiter and the first four of the message.
  have hframed := @ofParts_framed signer [] (by simp)
    ⟨delimiter, ⟨signature, header, parentHeader, metadata⟩⟩ [content]
  refine hframed.trans ?_
  rw [ofSigned, misreading]
  by_cases hkey : signer.key = []
  · -- Without a key the signature is empty, and an empty frame is no header.
    have hsignature : signature = [] := by
      have hsign := (toSigned_eq_ok_iff.1 hsigned).2
      rw [Signer.sign, if_pos hkey] at hsign
      exact (Except.ok.inj hsign).symm
    rw [Signer.verify_of_no_key hkey, if_pos hkey, hsignature]
    rfl
  · rw [Signer.verify, if_neg hkey, if_neg hkey]
    rfl

end Message

namespace Action

variable {message : Message} {topic : Value} {state after : State} {parts : List Value}

/-- Where a topic is bytes, or is left to the message, its frame is the one it should be. -/
theorem topic_of_topicOf {frame : Value} (htopic : topic = .null ∨ ∃ b, topic = .bytes b)
    (h : topicOf message topic = .ok frame) : ∃ name, frame = .bytes name ∧
      message.Topic topic name := by
  rcases htopic with rfl | ⟨name, rfl⟩
  · obtain htype := Outcome.mapError_eq_ok_iff.1 h
    unfold defaultTopic at htype
    split at htype
    · cases htype
    · next s hs =>
      cases htype
      exact ⟨_, rfl, .standard hs⟩
    · cases htype
  · cases h
    exact ⟨name, rfl, .given name⟩

/-- Behind the delimiter a message is refused, and nothing is changed. -/
theorem accept_of_delimiter {receiver : State}
    (h : message.toParts receiver.signer [.bytes delimiter] = .ok parts) :
    accept parts receiver = (.error (Message.misreading receiver.signer), receiver) := by
  rw [accept_eq, Message.ofParts_of_delimiter h]

/-- What can be encoded can be published behind the delimiter, and is refused by the very
session that sent it. -/
theorem exists_publish_of_delimiter {body : Body Bytes} (hencode : message.encode = .ok body)
    (husable : state.signer.Usable) (hworking : state.transport.failing = false)
    (htopic : topicOf message topic = .ok (.bytes delimiter)) :
    ∃ parts after, publish message topic state = (.ok parts, after) ∧
      accept parts state = (.error (Message.misreading state.signer), state) := by
  obtain ⟨parts, hparts⟩ := Message.exists_toParts hencode husable [.bytes delimiter]
  exact ⟨parts, _, publish_eq_ok_iff.2 ⟨_, htopic, hparts, hworking, rfl⟩,
    accept_of_delimiter hparts⟩

/-- What becomes of a message that was published. -/
structure Published (message : Message) (signer : Signer) (parts : List Value) (name : Bytes) :
    Prop where
  /-- Under the same signer it is received, behind its topic alone and in normal form, exactly
  if the topic is not the delimiter and the reader goes as deep. -/
  received {receiver : State} : receiver.signer = signer →
    (accept parts receiver = (.ok (receiver.receiptOf [name]),
        receiver.keep (Kept.ownedBy receiver.unmarked message.normal)) ↔
      name ≠ delimiter ∧ message.nesting ≤ Json.readDepth)
  /-- Only what has tuples in it could be sent and yet be deeper. -/
  depth : message.TupleFree → message.nesting ≤ Json.readDepth
  /-- Behind the delimiter it is refused. -/
  refused {receiver : State} : receiver.signer = signer → name = delimiter →
    accept parts receiver = (.error (Message.misreading signer), receiver)

/-- What was published can be received, unless it was published under the delimiter. -/
theorem published_of_publish (htopic : topic = .null ∨ ∃ b, topic = .bytes b)
    (hkeyed : message.WellKeyed) (h : publish message topic state = (.ok parts, after)) :
    ∃ name, message.Topic topic name ∧ Published message state.signer parts name := by
  obtain ⟨frame, hframe, hparts, -, -⟩ := publish_eq_ok_iff.1 h
  obtain ⟨name, rfl, hname⟩ := topic_of_topicOf htopic hframe
  obtain ⟨frames, hsigned, -⟩ := Message.toParts_eq_ok_iff.1 hparts
  refine ⟨name, hname, ?_⟩
  constructor
  case received =>
    intro receiver hsigner
    rw [accept_eq_ok_iff, hsigner]
    by_cases hdelimiter : name = delimiter
    · subst hdelimiter
      rw [Message.ofParts_of_delimiter hparts]
      simp
    · have hidentities : delimiter ∉ [name] := by simpa using Ne.symm hdelimiter
      rw [Message.ofParts_of_toParts hkeyed hidentities hparts, and_iff_right hdelimiter]
  case depth => exact Message.nesting_le_readDepth hsigned hkeyed
  case refused =>
    intro receiver hsigner hdelimiter
    rw [hdelimiter, ← hsigner] at hparts
    rw [← hsigner]
    exact accept_of_delimiter hparts

/-- A session in which nothing happened. -/
def quiet (signer : Signer) : State := { entropy := ⟨[], .unavailable⟩, signer }

/-- A message with a type and a tuple as its content. -/
def typed (messageType : String) : Message :=
  { header := .header { msgType := .text messageType }, content := .tuple [.int 1] }

/-- A message published under its type is received with a list for its tuple. -/
theorem published_of_publish_typed :
    ∃ parts after, publish (typed "status") .null (quiet {}) = (.ok parts, after) ∧
      (typed "status").WellKeyed ∧
      accept parts (quiet {}) = (.ok ⟨0, [.bytes (Bytes.ofText "status")], {}⟩,
        (quiet {}).keep (Kept.ownedBy 0
          { header := .header { msgType := .text "status" }, content := .list [.int 1] })) := by
  obtain ⟨parts, after, hpublish⟩ : ∃ parts after,
      publish (typed "status") .null (quiet {}) = (.ok parts, after) := ⟨_, _, rfl⟩
  have hcontent : Value.WellKeyed (.tuple [.int 1]) := by
    simp [Value.WellKeyed, Value.Everywhere, Value.EverywhereIn]
  have hkeyed : (typed "status").WellKeyed := Message.wellKeyed_of_content hcontent
  obtain ⟨name, htopic, hpublished⟩ := published_of_publish (.inl rfl) hkeyed hpublish
  obtain ⟨s, hs, rfl⟩ : ∃ s, (typed "status").messageType = .ok (.text s) ∧
      name = Bytes.ofText s := by
    cases htopic with
    | standard h => exact ⟨_, h, rfl⟩
  cases hs
  have hname : Bytes.ofText "status" ≠ delimiter := by decide
  exact ⟨parts, after, hpublish, hkeyed, (hpublished.received rfl).2 ⟨hname, by decide⟩⟩

/-- A message is published behind the delimiter, once given as the topic and once as the
type of the message, with a key and without, and both times it cannot be received. -/
theorem not_received :
    (∃ parts after,
      publish (typed "status") (.bytes delimiter) (quiet { key := [115] }) = (.ok parts, after) ∧
        accept parts (quiet { key := [115] }) =
          (.error (.signature .notHex), quiet { key := [115] })) ∧
      ∃ parts after, publish (typed "<IDS|MSG>") .null (quiet {}) = (.ok parts, after) ∧
        accept parts (quiet {}) = (.error (.decoding ⟨.header, .malformed⟩), quiet {}) := by
  obtain ⟨body, hbody⟩ : ∃ body, Message.encode (typed "status") = .ok body := ⟨_, rfl⟩
  obtain ⟨body', hbody'⟩ : ∃ body, Message.encode (typed "<IDS|MSG>") = .ok body := ⟨_, rfl⟩
  have husable : (quiet { key := [115] }).signer.Usable := by decide
  have husable' : (quiet {}).signer.Usable := by decide
  exact ⟨exists_publish_of_delimiter hbody husable rfl rfl,
    exists_publish_of_delimiter hbody' husable' rfl rfl⟩

end Action
end SignedMessaging
