import SignedMessaging.Proofs.Message.FrameEncoding
import SignedMessaging.Proofs.Message.Signing

/-!
# The normal form of messages

What arrives of a message is its normal form: the same two headers, the metadata and the
content with lists for tuples, and an empty dictionary for metadata that were left null.

Of a message that is encoded, the frames are decoded to the normal form exactly within
the reader's depth (`decode_of_encode`), and the normal form is encoded to the same frames
exactly within the writer's (`encode_normal`); under a signature both hold of the packed
frames (`exists_toSigned`).  A message equals its normal form if there
is no tuple in it and its metadata were not left null (`same_normal_iff`).
-/

namespace SignedMessaging.Message

open Json (Denotes Means)

/-- Metadata as they are sent: an empty dictionary where none were given. -/
def sentMetadata : Value → Value
  | .null => .dictionary []
  | v => v

/-- The message that arrives where a message is sent. -/
def normal (message : Message) : Message :=
  { message with
    metadata := (sentMetadata message.metadata).normal
    content := message.content.normal }

/-- Whether the dictionaries in a message could have been built: no two keys are equal. -/
def WellKeyed (message : Message) : Prop :=
  message.metadata.WellKeyed ∧ message.content.WellKeyed

/-- Whether no tuple is in a message. -/
def TupleFree (message : Message) : Prop :=
  message.metadata.TupleFree ∧ message.content.TupleFree

/-- How deep containers stand in one another in a message as it is sent. -/
def nesting (message : Message) : Nat :=
  max (sentMetadata message.metadata).nesting message.content.nesting

/-- The parts of a message, each with the document that it is encoded to. -/
structure EncodedAs (message : Message) (body : Body Bytes) (header parentHeader : Header)
    (entries : Entries) : Prop where
  header_eq : message.header = .header header
  header_textual : Textual header
  header_encoded : encodeValue (.dictionary (headerEntries header)) = .ok body.header
  parentHeader_eq : message.parentHeader = .header parentHeader
  parentHeader_textual : Textual parentHeader
  parentHeader_encoded :
    encodeValue (.dictionary (headerEntries parentHeader)) = .ok body.parentHeader
  metadata_eq : sentMetadata message.metadata = .dictionary entries
  metadata_encoded : encodeValue (.dictionary entries) = .ok body.metadata
  content_encoded : encodeValue message.content = .ok body.content

theorem encodeMetadata_eq_ok_iff {v : Value} {document : Bytes} :
    encodeMetadata v = .ok document ↔ ∃ entries, sentMetadata v = .dictionary entries ∧
      encodeValue (.dictionary entries) = .ok document := by
  cases v <;> simp [encodeMetadata, sentMetadata, eq_comm]

/-- A message is encoded where each of its parts is. -/
theorem encode_eq_ok_iff {message : Message} {body : Body Bytes} :
    encode message = .ok body ↔ ∃ header parentHeader entries,
      message.EncodedAs body header parentHeader entries := by
  simp only [encode, Outcome.bind_eq_ok_iff, Outcome.mapError_eq_ok_iff, encodeHeader_eq_ok_iff,
    encodeMetadata_eq_ok_iff]
  constructor
  · rintro ⟨_, ⟨header, hheader, htextual, hencoded⟩, _, ⟨parentHeader, hparent, hparentTextual,
      hparentEncoded⟩, _, ⟨entries, hmetadata, hmetadataEncoded⟩, _, hcontent, heq⟩
    cases heq
    exact ⟨header, parentHeader, entries, hheader, htextual, hencoded, hparent, hparentTextual,
      hparentEncoded, hmetadata, hmetadataEncoded, hcontent⟩
  · rintro ⟨header, parentHeader, entries, h⟩
    exact ⟨_, ⟨header, h.header_eq, h.header_textual, h.header_encoded⟩, _, ⟨parentHeader,
      h.parentHeader_eq, h.parentHeader_textual, h.parentHeader_encoded⟩, _, ⟨entries,
      h.metadata_eq, h.metadata_encoded⟩, _, h.content_encoded, rfl⟩

variable {message : Message} {body : Body Bytes} {header parentHeader : Header}
  {entries : Entries}

theorem wellKeyed_sentMetadata {v : Value} (h : v.WellKeyed) : (sentMetadata v).WellKeyed := by
  cases v with
  | null =>
      refine Value.everywhere_dictionary_iff.2 ⟨fun entries hentries => ?_, by simp⟩
      cases hentries
      exact List.Pairwise.nil
  | _ => exact h

namespace EncodedAs

theorem wellKeyed_metadata (h : message.EncodedAs body header parentHeader entries)
    (hkeyed : message.WellKeyed) : (Value.dictionary entries).WellKeyed := by
  rw [← h.metadata_eq]
  exact wellKeyed_sentMetadata hkeyed.1

theorem normal_eq (h : message.EncodedAs body header parentHeader entries) :
    message.normal = ⟨.header header, .header parentHeader,
      .dictionary (Value.normalEntries entries), message.content.normal⟩ := by
  rw [normal, h.header_eq, h.parentHeader_eq, h.metadata_eq, Value.normal]

theorem nesting_eq (h : message.EncodedAs body header parentHeader entries) :
    message.nesting = max (Value.dictionary entries).nesting message.content.nesting := by
  rw [nesting, h.metadata_eq]

end EncodedAs

/-- The document of a header is decoded to that header. -/
theorem decodeHeader_of_encode {document : Bytes} (htextual : Textual header)
    (h : encodeValue (.dictionary (headerEntries header)) = .ok document) :
    decodeHeader document = .ok header := by
  have hdenotes : Denotes document (.dictionary (headerEntries header)) := by
    rw [← normal_headerEntries htextual]
    refine (denotes_encodeValue_iff h (wellKeyed_headerEntries htextual)).2 ?_
    exact (nesting_headerEntries htextual).trans (by decide)
  exact decodeHeader_eq_ok_iff.2 ⟨_, hdenotes, decodeMember_headerEntries htextual⟩

/-- The frames of a message are decoded to its normal form exactly within the reader's
depth. -/
theorem decode_of_encode (h : encode message = .ok body) (hkeyed : message.WellKeyed) :
    decode body = .ok message.normal ↔ message.nesting ≤ Json.readDepth := by
  obtain ⟨header, parentHeader, entries, h⟩ := encode_eq_ok_iff.1 h
  have hmetadata := denotes_encodeValue_iff h.metadata_encoded (h.wellKeyed_metadata hkeyed)
  have hcontent := denotes_encodeValue_iff h.content_encoded hkeyed.2
  rw [Value.normal] at hmetadata
  rw [h.nesting_eq, Nat.max_le, ← hmetadata, ← hcontent, decode_eq_ok_iff, h.normal_eq]
  constructor
  · rintro ⟨_, _, _, _, -, -, hmetadata, hcontent, ⟨⟩⟩
    exact ⟨hmetadata, hcontent⟩
  · rintro ⟨hmetadata, hcontent⟩
    exact ⟨header, parentHeader, _, _, decodeHeader_of_encode h.header_textual h.header_encoded,
      decodeHeader_of_encode h.parentHeader_textual h.parentHeader_encoded, hmetadata, hcontent,
      rfl⟩

/-- Frames of a message that are decoded at all are decoded to its normal form. -/
theorem eq_normal_of_decode {other : Message} (h : encode message = .ok body)
    (hkeyed : message.WellKeyed) (hdecode : decode body = .ok other) : other = message.normal := by
  obtain ⟨header, parentHeader, entries, h⟩ := encode_eq_ok_iff.1 h
  obtain ⟨_, _, metadata, content, hheader, hparent, hmetadata, hcontent, rfl⟩ :=
    decode_eq_ok_iff.1 hdecode
  cases hheader.symm.trans (decodeHeader_of_encode h.header_textual h.header_encoded)
  cases hparent.symm.trans (decodeHeader_of_encode h.parentHeader_textual h.parentHeader_encoded)
  have hsent := means_of_encodeValue h.metadata_encoded (h.wellKeyed_metadata hkeyed)
  rw [h.normal_eq, hmetadata.means.unique hsent,
    hcontent.means.unique (means_of_encodeValue h.content_encoded hkeyed.2), Value.normal]

/-- The part of a message that is too deep for the writer, if one is. -/
def deepField (message : Message) : Field :=
  if (sentMetadata message.metadata).nesting ≤ Json.writeDepth then .content else .metadata

/-- The normal form is encoded to the same frames exactly within the writer's depth, and
else a part is refused as too deep. -/
theorem encode_normal (h : encode message = .ok body) (hkeyed : message.WellKeyed) :
    encode message.normal =
      if message.nesting ≤ Json.writeDepth then .ok body
      else .error ⟨message.deepField, .unwritable .tooDeep⟩ := by
  obtain ⟨header, parentHeader, entries, h⟩ := encode_eq_ok_iff.1 h
  have hmetadata := encodeValue_normal h.metadata_encoded (h.wellKeyed_metadata hkeyed)
  have hcontent := encodeValue_normal h.content_encoded hkeyed.2
  have hheader : encodeHeader (.header header) = .ok body.header :=
    encodeHeader_eq_ok_iff.2 ⟨header, rfl, h.header_textual, h.header_encoded⟩
  have hparent : encodeHeader (.header parentHeader) = .ok body.parentHeader :=
    encodeHeader_eq_ok_iff.2 ⟨parentHeader, rfl, h.parentHeader_textual, h.parentHeader_encoded⟩
  rw [Value.normal] at hmetadata
  -- Metadata are encoded before the content, so where both are too deep they are reported.
  rw [h.nesting_eq, deepField, h.metadata_eq, h.normal_eq, encode]
  simp only [hheader, hparent, encodeMetadata, hmetadata, hcontent, Nat.max_le]
  by_cases hfirst : (Value.dictionary entries).nesting ≤ Json.writeDepth
  · by_cases hsecond : message.content.nesting ≤ Json.writeDepth
    · simp only [hfirst, hsecond, if_true, and_self]
      rfl
    · simp only [hfirst, hsecond, if_true, if_false, and_false]
      rfl
  · simp only [hfirst, if_false, false_and]
    rfl

theorem tupleFree_sentMetadata {v : Value} (h : v.TupleFree) : (sentMetadata v).TupleFree := by
  cases v with
  | null => exact Value.everywhere_dictionary_iff.2 ⟨by simp [Value.kind], by simp⟩
  | _ => exact h

/-- A message that is encoded and has no tuple in it is within the writer's depth. -/
theorem nesting_le_of_tupleFree (h : encode message = .ok body) (hkeyed : message.WellKeyed)
    (htuples : message.TupleFree) : message.nesting ≤ Json.writeDepth := by
  obtain ⟨header, parentHeader, entries, h⟩ := encode_eq_ok_iff.1 h
  have hmetadata : (Value.dictionary entries).TupleFree := by
    rw [← h.metadata_eq]
    exact tupleFree_sentMetadata htuples.1
  rw [h.nesting_eq, Nat.max_le]
  exact ⟨nesting_le_of_encodeValue h.metadata_encoded (h.wellKeyed_metadata hkeyed) hmetadata,
    nesting_le_of_encodeValue h.content_encoded hkeyed.2 htuples.2⟩

/-- A message with nothing but content is encoded where its content is. -/
theorem exists_encode_of_content {content : Value} {document : Bytes}
    (h : encodeValue content = .ok document) : ∃ body, encode { content } = .ok body := by
  unfold encode
  rw [h]
  exact ⟨_, rfl⟩

theorem wellKeyed_of_content {content : Value} (h : content.WellKeyed) :
    WellKeyed { content } :=
  ⟨wellKeyed_sentMetadata (v := .null) (by simp [Value.WellKeyed, Value.Everywhere]), h⟩

/-- A message that is encoded is packed.  Its frames are unpacked to the normal form within
the reader's depth, and the normal form is packed to them again within the writer's. -/
theorem exists_toSigned {signer : Signer} (h : encode message = .ok body)
    (hkeyed : message.WellKeyed) (husable : signer.Usable) :
    ∃ frames, message.toSigned signer = .ok frames ∧
      (ofSigned signer frames = .ok message.normal ↔ message.nesting ≤ Json.readDepth) ∧
      message.normal.toSigned signer =
        if message.nesting ≤ Json.writeDepth then .ok frames
        else .error (.encoding ⟨message.deepField, .unwritable .tooDeep⟩) := by
  obtain ⟨signature, hsignature⟩ := Signer.exists_sign husable body
  refine ⟨⟨signature, body⟩, toSigned_eq_ok_iff.2 ⟨h, hsignature⟩, ?_, ?_⟩
  · rw [ofSigned_eq_ok_iff husable, and_iff_right (Signer.accepts_of_sign hsignature),
      decode_of_encode h hkeyed]
  · rw [toSigned, encode_normal h hkeyed]
    by_cases hnesting : message.nesting ≤ Json.writeDepth
    · simp only [if_pos hnesting, hsignature]
    · simp only [if_neg hnesting]

/-! ### Equality with the normal form -/

theorem same_header (h : Textual header) : header.same header = true := by
  rw [Header.same, List.all_eq_true]
  intro key _
  obtain ⟨s, hs⟩ := h key
  simp [hs, Value.same_text]

/-- Metadata that can be sent equal what arrives of them exactly if there is no tuple in
them and they were not left null. -/
theorem same_sentMetadata_iff {v : Value} (h : sentMetadata v = .dictionary entries)
    (hportable : (Value.dictionary entries).Portable) :
    (sentMetadata v).normal.same v = true ↔ v.TupleFree ∧ v.kind ≠ .null := by
  cases v with
  | null => simp [sentMetadata, Value.normal, Value.same, Value.kind]
  | dictionary _ =>
      cases h
      simp [sentMetadata, Value.same_normal_iff hportable, Value.kind]
  | _ => cases h

/-- A message that is encoded equals its normal form exactly if there is no tuple in it
and its metadata were not left null. -/
theorem same_normal_iff (h : encode message = .ok body) (hkeyed : message.WellKeyed) :
    message.normal.same message = true ↔ message.TupleFree ∧ message.metadata.kind ≠ .null := by
  obtain ⟨header, parentHeader, entries, h⟩ := encode_eq_ok_iff.1 h
  have hmetadata := same_sentMetadata_iff h.metadata_eq
    (portable_of_encodeValue h.metadata_encoded (h.wellKeyed_metadata hkeyed))
  have hcontent := Value.same_normal_iff (portable_of_encodeValue h.content_encoded hkeyed.2)
  have hheaders : message.header.same message.header = true ∧
      message.parentHeader.same message.parentHeader = true := by
    rw [h.header_eq, h.parentHeader_eq]
    exact ⟨same_header h.header_textual, same_header h.parentHeader_textual⟩
  rw [same, normal, hheaders.1, hheaders.2, Bool.true_and, Bool.true_and, Bool.and_eq_true,
    hmetadata, hcontent, TupleFree]
  exact and_right_comm

end SignedMessaging.Message
