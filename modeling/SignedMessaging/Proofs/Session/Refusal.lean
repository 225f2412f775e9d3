import SignedMessaging.Proofs.Message.Delivery
import SignedMessaging.Proofs.Session.Actions

/-!
# Messages that cannot be encoded

A message that cannot be encoded is refused wherever it is to be sent, and the session is
left as it was.  Sending it to where a receipt came from, or under a topic that is given,
reports the part that cannot be encoded.  Publishing it under its own type looks at that
type before anything is encoded; where the message has no header, or a type that is no
text, this is what fails, with a fault that is none of the protocol (`refused_of_encode`).
-/

namespace SignedMessaging

namespace Message

variable {message : Message}

/-- Where the type of a message is no text, its header is the part that cannot be encoded. -/
theorem field_of_encode {fault : EncodingFault} (h : encode message = .error fault)
    (htype : ¬ ∃ s, message.messageType = .ok (.text s)) : fault.field = .header := by
  unfold encode at h
  cases hheader : encodeHeader message.header with
  | error cause =>
      rw [hheader] at h
      cases h
      rfl
  | ok document =>
      obtain ⟨header, heq, htextual, -⟩ := encodeHeader_eq_ok_iff.1 hheader
      obtain ⟨s, hs⟩ := htextual .msgType
      rw [messageType, heq] at htype
      exact absurd ⟨s, congrArg Except.ok hs⟩ htype

end Message

namespace Action

variable {message : Message}

/-- The type of a message is its topic where it is text, and else an attribute is missing. -/
theorem defaultTopic_cases (message : Message) :
    (∃ s, message.messageType = .ok (.text s) ∧
        defaultTopic message = .ok (.bytes (Bytes.ofText s))) ∨
      (¬ ∃ s, message.messageType = .ok (.text s)) ∧
        ∃ cause, defaultTopic message = .error cause ∧ cause.category = .missingAttribute := by
  unfold defaultTopic
  cases hheader : message.header with
  | other v =>
      have htype : message.messageType = .error (.noMessageType v.kind) := by
        rw [Message.messageType, hheader]
      rw [htype]
      exact .inr ⟨by simp, _, rfl, rfl⟩
  | header header =>
      have htype : message.messageType = .ok header.msgType := by
        rw [Message.messageType, hheader]
      rw [htype]
      cases header.msgType with
      | text s => exact .inl ⟨s, rfl, rfl⟩
      | _ => exact .inr ⟨by simp, _, rfl, rfl⟩

/-- How a message is refused that cannot be encoded. -/
structure Refused (message : Message) (fault : EncodingFault) : Prop where
  /-- Sending it behind a receipt reports what cannot be encoded. -/
  sent (receipt : Receipt) (state : State) :
    send receipt message state = (.error (.encoding fault), state)
  /-- So does publishing it under a topic that is given. -/
  published (name : Bytes) (state : State) :
    publish message (.bytes name) state = (.error (.encoding fault), state)
  /-- Publishing it under its own type does so exactly if the type is text. -/
  byType (state : State) : publish message .null state = (.error (.encoding fault), state) ↔
    ∃ s, message.messageType = .ok (.text s)
  /-- Else an attribute is missing, which no fault of the protocol is. -/
  stray (state : State) : (¬ ∃ s, message.messageType = .ok (.text s)) →
    ∃ cause, publish message .null state = (.error cause, state) ∧
      cause.report.category = .missingAttribute
  /-- This concerns only messages whose header is what cannot be encoded. -/
  header : (¬ ∃ s, message.messageType = .ok (.text s)) → fault.field = .header

theorem dispatch_of_encode {fault : EncodingFault} (h : message.encode = .error fault)
    (identities : List Value) (signer : Signer) (state : State) :
    dispatch identities signer message state = (.error (.encoding fault), state) := by
  rw [dispatch_eq, Message.toParts_of_encode h]

/-- A message that cannot be encoded is refused on every way out, and nothing is changed. -/
theorem refused_of_encode {fault : EncodingFault} (h : message.encode = .error fault) :
    Refused message fault := by
  -- What publishing under the type comes to is settled by the type alone.
  have htopicOf : topicOf message .null = (defaultTopic message).mapError .message := rfl
  constructor
  case sent => exact fun receipt state => dispatch_of_encode h _ _ state
  case published =>
    intro name state
    rw [publish_eq]
    exact dispatch_of_encode h _ _ state
  case byType =>
    intro state
    rw [publish_eq, htopicOf]
    rcases defaultTopic_cases message with ⟨s, htype, htopic⟩ | ⟨htype, cause, htopic, -⟩
    · rw [htopic]
      exact iff_of_true (dispatch_of_encode h _ _ state) ⟨s, htype⟩
    · rw [htopic]
      exact iff_of_false (by rintro ⟨⟩) htype
  case stray =>
    intro state htype
    rw [publish_eq, htopicOf]
    rcases defaultTopic_cases message with ⟨s, hs, -⟩ | ⟨-, cause, htopic, hcategory⟩
    · exact absurd ⟨s, hs⟩ htype
    · rw [htopic]
      exact ⟨.message cause, rfl, hcategory⟩
  case header => exact Message.field_of_encode h

/-- A message that has a number for its type. -/
def numbered : Message := { header := .header { msgType := .int 5 } }

/-- Such a message is refused for its header under a topic, and under no topic for want of
what a text has. -/
theorem refused_of_encode_numbered :
    numbered.encode = .error ⟨.header, .memberNotText .msgType .int⟩ ∧
      publish numbered (.bytes [116]) { entropy := ⟨[], .unavailable⟩ } =
        (.error (.encoding ⟨.header, .memberNotText .msgType .int⟩),
          { entropy := ⟨[], .unavailable⟩ }) ∧
      ∃ cause, publish numbered .null { entropy := ⟨[], .unavailable⟩ } =
          (.error cause, { entropy := ⟨[], .unavailable⟩ }) ∧
        cause.report.category = .missingAttribute := by
  have hencode : numbered.encode = .error ⟨.header, .memberNotText .msgType .int⟩ := rfl
  have htype : ¬ ∃ s, numbered.messageType = .ok (.text s) := by
    rintro ⟨s, ⟨⟩⟩
  have hrefused := refused_of_encode hencode
  exact ⟨hencode, hrefused.published _ _, hrefused.stray _ htype⟩

/-- A dictionary in the place of the header is reported as what cannot be encoded by
sending and by publishing under a topic, but not by publishing without one. -/
theorem not_reported_alike :
    Message.encode { header := .other (.dictionary []) } =
        .error ⟨.header, .notHeader .dictionary⟩ ∧
      send ⟨0, [], {}⟩ { header := .other (.dictionary []) } { entropy := ⟨[], .unavailable⟩ } =
        (.error (.encoding ⟨.header, .notHeader .dictionary⟩),
          { entropy := ⟨[], .unavailable⟩ }) ∧
      publish { header := .other (.dictionary []) } .null { entropy := ⟨[], .unavailable⟩ } =
        (.error (.message (.noMessageType .dictionary)), { entropy := ⟨[], .unavailable⟩ }) :=
  ⟨rfl, rfl, rfl⟩

end Action
end SignedMessaging
