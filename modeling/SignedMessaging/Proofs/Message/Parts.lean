import SignedMessaging.Message.Decoding
import SignedMessaging.Message.Encoding
import SignedMessaging.Proofs.Outcome

/-!
# The part at fault

A message is encoded and decoded part by part, in the order of the frames.  What is reported is
the first part that has a fault, with the cause that it has by itself: what comes after
that part is not looked at.

* `Body.first?`: the first part with something, and what it has.
* `encode_eq_error_iff`, `decode_eq_error_iff`: encoding and decoding report the first part with
  a fault.
-/

namespace SignedMessaging

namespace Field

/-- The parts whose frames come before that of a part. -/
def before : Field → List Field
  | .header => []
  | .parentHeader => [.header]
  | .metadata => [.header, .parentHeader]
  | .content => [.header, .parentHeader, .metadata]

end Field

namespace Body

variable {α : Type}

/-- What stands for a part. -/
def get (body : Body α) : Field → α
  | .header => body.header
  | .parentHeader => body.parentHeader
  | .metadata => body.metadata
  | .content => body.content

/-- The first part that has something, and what it has. -/
def first? : Body (Option α) → Option (Field × α)
  | ⟨some a, _, _, _⟩ => some (.header, a)
  | ⟨none, some a, _, _⟩ => some (.parentHeader, a)
  | ⟨none, none, some a, _⟩ => some (.metadata, a)
  | ⟨none, none, none, a⟩ => a.map (.content, ·)

/-- A part is the first if it has something and none before it has. -/
theorem first?_eq_some_iff {body : Body (Option α)} {field : Field} {a : α} :
    body.first? = some (field, a) ↔
      body.get field = some a ∧ ∀ earlier ∈ field.before, body.get earlier = none := by
  obtain ⟨header, parentHeader, metadata, content⟩ := body
  cases header <;> cases parentHeader <;> cases metadata <;> cases content <;>
    cases field <;> simp [first?, get, Field.before]

/-- A part is the first with something if it has any and none before it has. -/
theorem exists_first?_iff {body : Body (Option α)} {field : Field} :
    (∃ a, body.first? = some (field, a)) ↔
      body.get field ≠ none ∧ ∀ earlier ∈ field.before, body.get earlier = none := by
  simp only [first?_eq_some_iff, exists_and_right, Option.ne_none_iff_exists']

theorem first?_eq_none_iff {body : Body (Option α)} :
    body.first? = none ↔ ∀ field, body.get field = none := by
  obtain ⟨header, parentHeader, metadata, content⟩ := body
  have hall : (∀ field, get ⟨header, parentHeader, metadata, content⟩ field = none) ↔
      header = none ∧ parentHeader = none ∧ metadata = none ∧ content = none :=
    ⟨fun h => ⟨h .header, h .parentHeader, h .metadata, h .content⟩,
      fun ⟨hheader, hparent, hmetadata, hcontent⟩ field => by cases field <;> assumption⟩
  rw [hall]
  cases header <;> cases parentHeader <;> cases metadata <;> cases content <;> simp [first?]

end Body

namespace Outcome

variable {ε ζ α β γ δ ρ : Type}

/-- Of four operations in order, one for each part, the first fault is reported. -/
theorem fault?_parts (fault : Field → ε → ζ) (header : Except ε α) (parentHeader : Except ε β)
    (metadata : Except ε γ) (content : Except ε δ) (result : α → β → γ → δ → ρ) :
    fault? (do
      let a ← header.mapError (fault .header)
      let b ← parentHeader.mapError (fault .parentHeader)
      let c ← metadata.mapError (fault .metadata)
      let d ← content.mapError (fault .content)
      return result a b c d) =
    (Body.first? ⟨fault? header, fault? parentHeader, fault? metadata, fault? content⟩).map
      fun (field, cause) => fault field cause := by
  cases header with
  | error _ => rfl
  | ok a =>
      cases parentHeader with
      | error _ => rfl
      | ok b =>
          cases metadata with
          | error _ => rfl
          | ok c => cases content <;> rfl

end Outcome

namespace Message

/-- Why each part of a message cannot be encoded, if it cannot. -/
def encodingCauses (message : Message) : Body (Option EncodingCause) :=
  ⟨Outcome.fault? (encodeHeader message.header),
    Outcome.fault? (encodeHeader message.parentHeader),
    Outcome.fault? (encodeMetadata message.metadata),
    Outcome.fault? (encodeValue message.content)⟩

/-- Why each frame cannot be decoded, if it cannot. -/
def decodingCauses (body : Body Bytes) : Body (Option DecodingCause) :=
  ⟨Outcome.fault? (decodeHeader body.header),
    Outcome.fault? (decodeHeader body.parentHeader),
    Outcome.fault? (decodeEntries body.metadata),
    Outcome.fault? (decodeValue body.content)⟩

theorem fault?_encode (message : Message) : Outcome.fault? (encode message) =
    message.encodingCauses.first?.map fun (field, cause) => ⟨field, cause⟩ :=
  Outcome.fault?_parts EncodingFault.mk _ _ _ _ Body.mk

theorem fault?_decode (body : Body Bytes) : Outcome.fault? (decode body) =
    (decodingCauses body).first?.map fun (field, cause) => ⟨field, cause⟩ :=
  Outcome.fault?_parts DecodingFault.mk _ _ _ _ fun header parentHeader metadata content =>
    (⟨.header header, .header parentHeader, .dictionary metadata, content⟩ : Message)

/-- A message is encoded exactly if each of its parts is. -/
theorem exists_encode_iff {message : Message} :
    (∃ body, encode message = .ok body) ↔ ∀ field, message.encodingCauses.get field = none := by
  rw [← Outcome.fault?_eq_none_iff, fault?_encode, Option.map_eq_none_iff, Body.first?_eq_none_iff]

theorem encode_eq_error_iff_first {message : Message} {field : Field} {cause : EncodingCause} :
    encode message = .error ⟨field, cause⟩ ↔
      message.encodingCauses.first? = some (field, cause) := by
  rw [← Outcome.fault?_eq_some_iff, fault?_encode]
  simp

/-- Encoding reports the first part that is not encoded. -/
theorem encode_eq_error_iff {message : Message} {field : Field} {cause : EncodingCause} :
    encode message = .error ⟨field, cause⟩ ↔ message.encodingCauses.get field = some cause ∧
      ∀ earlier ∈ field.before, message.encodingCauses.get earlier = none :=
  encode_eq_error_iff_first.trans Body.first?_eq_some_iff

theorem exists_encode_eq_error_iff {message : Message} {field : Field} :
    (∃ cause, encode message = .error ⟨field, cause⟩) ↔
      message.encodingCauses.get field ≠ none ∧
        ∀ earlier ∈ field.before, message.encodingCauses.get earlier = none := by
  simp only [encode_eq_error_iff_first, Body.exists_first?_iff]

/-- Four frames are decoded exactly if each of them is. -/
theorem exists_decode_iff {body : Body Bytes} :
    (∃ message, decode body = .ok message) ↔ ∀ field, (decodingCauses body).get field = none := by
  rw [← Outcome.fault?_eq_none_iff, fault?_decode, Option.map_eq_none_iff, Body.first?_eq_none_iff]

theorem decode_eq_error_iff_first {body : Body Bytes} {field : Field} {cause : DecodingCause} :
    decode body = .error ⟨field, cause⟩ ↔
      (decodingCauses body).first? = some (field, cause) := by
  rw [← Outcome.fault?_eq_some_iff, fault?_decode]
  simp

/-- Decoding reports the first frame that is not decoded. -/
theorem decode_eq_error_iff {body : Body Bytes} {field : Field} {cause : DecodingCause} :
    decode body = .error ⟨field, cause⟩ ↔ (decodingCauses body).get field = some cause ∧
      ∀ earlier ∈ field.before, (decodingCauses body).get earlier = none :=
  decode_eq_error_iff_first.trans Body.first?_eq_some_iff

theorem exists_decode_eq_error_iff {body : Body Bytes} {field : Field} :
    (∃ cause, decode body = .error ⟨field, cause⟩) ↔ (decodingCauses body).get field ≠ none ∧
      ∀ earlier ∈ field.before, (decodingCauses body).get earlier = none := by
  simp only [decode_eq_error_iff_first, Body.exists_first?_iff]

end Message

end SignedMessaging
