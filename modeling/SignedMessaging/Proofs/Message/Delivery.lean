import SignedMessaging.Proofs.Message.Normal
import SignedMessaging.Proofs.Message.Reception

/-!
# Delivery

The parts of a message are its signed frames behind identities.  Where these are byte
strings and none of them is the delimiter, the parts are read to the same identities and
the same frames, and under the signer that signed them the frames are decoded to the
normal form within the reader's depth (`toParts_bytes`, `ofSigned_of_toSigned`).  Nothing
has to be known of the signer: what it signed, it verifies.
-/

namespace SignedMessaging.Message

variable {message : Message} {signer : Signer} {identities parts : List Value}
  {frames : SignedFrames Bytes}

/-! ### Building parts -/

/-- The parts of a message are its signed frames behind the identities. -/
theorem toParts_eq_ok_iff : message.toParts signer identities = .ok parts ↔
    ∃ frames, message.toSigned signer = .ok frames ∧
      parts = Envelope.joined (.bytes delimiter) ⟨identities, frames.map .bytes⟩ := by
  unfold toParts
  cases message.toSigned signer with
  | error _ => simp
  | ok frames => simp [eq_comm]

/-- A message that is encoded has parts under a signer whose algorithm is known. -/
theorem exists_toParts {body : Body Bytes} (h : encode message = .ok body)
    (husable : signer.Usable) (identities : List Value) :
    ∃ parts, message.toParts signer identities = .ok parts := by
  obtain ⟨signature, hsign⟩ := Signer.exists_sign husable body
  exact ⟨_, toParts_eq_ok_iff.2 ⟨⟨signature, body⟩, toSigned_eq_ok_iff.2 ⟨h, hsign⟩, rfl⟩⟩

/-- A message that cannot be encoded has no parts, under whatever signer and identities. -/
theorem toParts_of_encode {fault : EncodingFault} (h : encode message = .error fault)
    (signer : Signer) (identities : List Value) :
    message.toParts signer identities = .error (.encoding fault) := by
  simp only [toParts, toSigned, h]

/-- A message that is encoded has a type. -/
theorem exists_messageType {body : Body Bytes} (h : encode message = .ok body) :
    ∃ s, message.messageType = .ok (.text s) := by
  obtain ⟨header, parentHeader, entries, h⟩ := encode_eq_ok_iff.1 h
  obtain ⟨s, hs⟩ := h.header_textual .msgType
  rw [messageType, h.header_eq]
  exact ⟨s, congrArg Except.ok hs⟩

/-- Behind byte strings the parts of a message are those of an envelope. -/
theorem toParts_bytes {identities : List Bytes}
    (h : message.toParts signer (identities.map .bytes) = .ok parts) :
    ∃ frames, message.toSigned signer = .ok frames ∧
      parts = (Envelope.parts ⟨identities, frames⟩).map .bytes := by
  obtain ⟨frames, hframes, rfl⟩ := toParts_eq_ok_iff.1 h
  refine ⟨frames, hframes, ?_⟩
  rw [Envelope.parts, Envelope.joined, Envelope.joined, List.map_append, List.map_cons,
    SignedFrames.toList_map]

/-- Identities that were read are not the delimiter. -/
theorem not_mem_of_ofParts {identities : List Bytes}
    (h : ofParts signer parts = .ok (identities, message)) : delimiter ∉ identities := by
  unfold ofParts at h
  split at h
  · cases h
  · next envelope hframing =>
    split at h
    · cases h
    · cases h
      unfold Envelope.ofValues at hframing
      split at hframing
      · cases hframing
      · exact (Envelope.ofParts_eq_ok_iff.1 (Outcome.mapError_eq_ok_iff.1 hframing)).1

/-! ### Reading what was signed -/

/-- What was signed is decoded under the same signer. -/
theorem ofSigned_of_sign (h : signer.sign frames.body = .ok frames.signature) :
    ofSigned signer frames = (decode frames.body).mapError .decoding := by
  rw [ofSigned, Signer.verify_of_sign h]

/-- A signed message is read to its normal form exactly within the reader's depth. -/
theorem ofSigned_of_toSigned (h : message.toSigned signer = .ok frames)
    (hkeyed : message.WellKeyed) :
    ofSigned signer frames = .ok message.normal ↔ message.nesting ≤ Json.readDepth := by
  obtain ⟨hencode, hsign⟩ := toSigned_eq_ok_iff.1 h
  rw [ofSigned_of_sign hsign, Outcome.mapError_eq_ok_iff, decode_of_encode hencode hkeyed]

/-- One that is deeper is refused as undecodable. -/
theorem ofSigned_of_deep (h : message.toSigned signer = .ok frames) (hkeyed : message.WellKeyed)
    (hdeep : Json.readDepth < message.nesting) :
    ∃ fault, ofSigned signer frames = .error (.decoding fault) := by
  obtain ⟨hencode, hsign⟩ := toSigned_eq_ok_iff.1 h
  rw [ofSigned_of_sign hsign]
  cases hdecode : decode frames.body with
  | error fault => exact ⟨fault, rfl⟩
  | ok other =>
      rw [eq_normal_of_decode hencode hkeyed hdecode, decode_of_encode hencode hkeyed] at hdecode
      omega

/-- The parts of a message behind byte strings are read to these and the normal form exactly
within the reader's depth, where none of them is the delimiter. -/
theorem ofParts_of_toParts {identities : List Bytes} (hkeyed : message.WellKeyed)
    (hidentities : delimiter ∉ identities)
    (h : message.toParts signer (identities.map .bytes) = .ok parts) :
    ofParts signer parts = .ok (identities, message.normal) ↔
      message.nesting ≤ Json.readDepth := by
  obtain ⟨frames, hsigned, rfl⟩ := toParts_bytes h
  have hframed := @ofParts_framed signer _ hidentities frames []
  rw [framed, List.append_nil] at hframed
  rw [hframed, Outcome.map_eq_ok_iff, ← ofSigned_of_toSigned hsigned hkeyed]
  simp

/-- What has no tuples in it and could be written is within the reader's depth. -/
theorem nesting_le_readDepth (h : message.toSigned signer = .ok frames)
    (hkeyed : message.WellKeyed) (htuples : message.TupleFree) :
    message.nesting ≤ Json.readDepth :=
  (nesting_le_of_tupleFree (toSigned_eq_ok_iff.1 h).1 hkeyed htuples).trans (by decide)

/-! ### Faults of reading -/

theorem ofSigned_ne_session (signer : Signer) (frames : SignedFrames Bytes)
    (fault : SessionFault) : ofSigned signer frames ≠ .error (.session fault) := by
  unfold ofSigned
  split
  · next hverify =>
      rintro ⟨⟩
      exact signer.verify_ne_session _ _ _ hverify
  · cases decode frames.body <;> simp [Except.mapError]

theorem ofValues_ne_session (parts : List Value) (fault : SessionFault) :
    Envelope.ofValues parts ≠ .error (.session fault) := by
  unfold Envelope.ofValues
  cases parts.mapM Value.octets with
  | error _ => simp
  | ok bytes =>
      dsimp only
      cases Envelope.ofParts bytes <;> simp [Except.mapError]

/-- Reading parts is no matter of a session, so that its faults are others. -/
theorem ofParts_ne_session (signer : Signer) (parts : List Value) (fault : SessionFault) :
    ofParts signer parts ≠ .error (.session fault) := by
  unfold ofParts
  split
  · next hframing =>
      rintro ⟨⟩
      exact ofValues_ne_session _ _ hframing
  · split
    · next hsigned =>
        rintro ⟨⟩
        exact ofSigned_ne_session _ _ _ hsigned
    · simp

end SignedMessaging.Message
