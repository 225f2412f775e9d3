import SignedMessaging.Proofs.Json.Portability
import SignedMessaging.Proofs.Message.Encodable
import SignedMessaging.Proofs.Message.Normal

/-!
# Sending on what was received

What is decoded has the form of what can be encoded: its headers have texts in all members, its
metadata are a dictionary, and its values are portable and without tuples.  Only its depth may be
too much, since the reader goes deeper than the writer.

Within the writer's depth a decoded message is encoded, and to frames that are decoded to the
same message and not merely to an equal one.  Beyond that depth the first part that is
too deep is reported, which is never a header.
-/

namespace SignedMessaging.Message

open Json (Denotes writeDepth)

/-! ### What is decoded -/

theorem textual_of_decodeHeader {document : Bytes} {header : Header}
    (h : decodeHeader document = .ok header) : Textual header := by
  obtain ⟨entries, -, hmembers⟩ := decodeHeader_eq_ok_iff.1 h
  intro key
  have hmember := hmembers key
  unfold decodeMember at hmember
  split at hmember
  · exact ⟨"", (Except.ok.inj hmember).symm⟩
  · next s _ => exact ⟨s, (Except.ok.inj hmember).symm⟩
  · cases hmember

theorem portable_of_denotes {document : Bytes} {v : Value} (h : Denotes document v) :
    v.Portable ∧ v.TupleFree := by
  obtain ⟨_, _, -, -, hwithin⟩ := h
  exact ⟨Json.portable_of_within hwithin, Json.tupleFree_of_within hwithin⟩

/-- What is known of every message that was decoded. -/
structure Received (message : Message) : Prop where
  header : message.Encodable .header
  parentHeader : message.Encodable .parentHeader
  mapping : ∃ entries, message.metadata = .dictionary entries
  metadata : message.metadata.Portable ∧ message.metadata.TupleFree
  content : message.content.Portable ∧ message.content.TupleFree

variable {message : Message} {body : Body Bytes}

theorem received_of_decode (h : decode body = .ok message) : message.Received := by
  obtain ⟨header, parentHeader, metadata, content, hheader, hparent, hmetadata, hcontent, rfl⟩ :=
    decode_eq_ok_iff.1 h
  exact ⟨⟨header, rfl, textual_of_decodeHeader hheader⟩,
    ⟨parentHeader, rfl, textual_of_decodeHeader hparent⟩, ⟨metadata, rfl⟩,
    portable_of_denotes hmetadata, portable_of_denotes hcontent⟩

/-- In a portable value nothing can be wrong but its depth. -/
theorem tooDeep_of_refused {v : Value} {cause : EncodingCause} (h : v.Portable)
    (hrefused : Refused v cause) : cause = .unwritable .tooDeep := by
  cases hrefused with
  | notFinite hx =>
      rw [← Value.nonFinite?_eq, Value.nonFinite?_of_portable h] at hx
      cases hx
  | unwritable _ hfault =>
      obtain ⟨position, hposition, hfault⟩ := List.exists_of_findSome?_eq_some hfault
      rcases Value.sound_or_tooDeep h 0 position hposition with hsound | hdeep
      · rw [(Value.Position.sound_iff.1 hsound).2] at hfault
        cases hfault
      · rw [hdeep] at hfault
        rw [Option.some.inj hfault]

namespace Received

theorem tupleFree (h : message.Received) : message.TupleFree :=
  ⟨h.metadata.2, h.content.2⟩

theorem wellKeyed (h : message.Received) : message.WellKeyed :=
  ⟨Value.wellKeyed_of_portable h.metadata.1, Value.wellKeyed_of_portable h.content.1⟩

theorem sentMetadata_eq (h : message.Received) :
    sentMetadata message.metadata = message.metadata := by
  obtain ⟨entries, hentries⟩ := h.mapping
  rw [hentries]
  rfl

/-- A received message is its own normal form. -/
theorem normal_eq (h : message.Received) : message.normal = message := by
  rw [normal, h.sentMetadata_eq, Value.normal_of_tupleFree h.metadata.2,
    Value.normal_of_tupleFree h.content.2]

theorem encodable_metadata_iff (h : message.Received) :
    message.Encodable .metadata ↔ message.metadata.nesting ≤ writeDepth := by
  obtain ⟨entries, hentries⟩ := h.mapping
  rw [← Value.writable_iff_of_portable h.metadata.1 h.metadata.2, Encodable, hentries]
  simp

theorem encodable_content_iff (h : message.Received) :
    message.Encodable .content ↔ message.content.nesting ≤ writeDepth :=
  Value.writable_iff_of_portable h.content.1 h.content.2

/-- A received message is encoded exactly within the writer's depth. -/
theorem exists_encode_iff_nesting (h : message.Received) :
    (∃ body, encode message = .ok body) ↔
      message.metadata.nesting ≤ writeDepth ∧ message.content.nesting ≤ writeDepth := by
  rw [exists_encode_iff_encodable, ← h.encodable_metadata_iff, ← h.encodable_content_iff]
  refine ⟨fun hall => ⟨hall .metadata, hall .content⟩, fun ⟨hmetadata, hcontent⟩ field => ?_⟩
  cases field with
  | header => exact h.header
  | parentHeader => exact h.parentHeader
  | metadata => exact hmetadata
  | content => exact hcontent

/-- What a received message is refused for. -/
theorem encode_error (h : message.Received) {fault : EncodingFault}
    (hfault : encode message = .error fault) : fault.cause = .unwritable .tooDeep ∧
      (fault.field = .metadata ∧ writeDepth < message.metadata.nesting ∨
        fault.field = .content ∧ message.metadata.nesting ≤ writeDepth ∧
          writeDepth < message.content.nesting) := by
  obtain ⟨field, cause⟩ := fault
  obtain ⟨hfirst, hbefore⟩ := exists_encode_error_iff.1 ⟨cause, hfault⟩
  cases field with
  | header => exact absurd h.header hfirst
  | parentHeader => exact absurd h.parentHeader hfirst
  | metadata =>
      rw [h.encodable_metadata_iff, Nat.not_le] at hfirst
      obtain ⟨entries, hentries⟩ := h.mapping
      have hrefused := (encode_metadata_error_iff.1 hfault).1
      rw [hentries, metadataRefused_dictionary_iff, ← hentries] at hrefused
      exact ⟨tooDeep_of_refused h.metadata.1 hrefused, .inl ⟨rfl, hfirst⟩⟩
  | content =>
      rw [h.encodable_content_iff, Nat.not_le] at hfirst
      have hmetadata := h.encodable_metadata_iff.1 (hbefore .metadata (by simp [Field.before]))
      have hrefused := (encode_content_error_iff.1 hfault).1
      exact ⟨tooDeep_of_refused h.content.1 hrefused, .inr ⟨rfl, hmetadata, hfirst⟩⟩

/-- The frames of a received message are decoded to it. -/
theorem decode_of_encode_eq (h : message.Received) (hencode : encode message = .ok body) :
    decode body = .ok message := by
  have hnesting := nesting_le_of_tupleFree hencode h.wellKeyed h.tupleFree
  have hdecode := (decode_of_encode hencode h.wellKeyed).2 (hnesting.trans (by decide))
  rwa [h.normal_eq] at hdecode

end Received

/-! ### Forwarding -/

/-- What comes of encoding a message that was received: frames exactly within the writer's
depth, which are decoded to the very message and encoded again as they are, and else a report of
the first part that is too deep. -/
structure Forwards (message : Message) : Prop where
  encoded : (∃ body, encode message = .ok body) ↔
    message.metadata.nesting ≤ writeDepth ∧ message.content.nesting ≤ writeDepth
  refused : ∀ fault, encode message = .error fault → fault.cause = .unwritable .tooDeep ∧
    (fault.field = .metadata ∧ writeDepth < message.metadata.nesting ∨
      fault.field = .content ∧ message.metadata.nesting ≤ writeDepth ∧
        writeDepth < message.content.nesting)
  returned : ∀ body, encode message = .ok body → decode body = .ok message
  repeated : ∀ body later, encode message = .ok body → decode body = .ok later →
    encode later = .ok body

/-- A message that was decoded is sent on unchanged within the writer's depth. -/
theorem forwards_of_decode (h : decode body = .ok message) : message.Forwards := by
  have hreceived := received_of_decode h
  refine ⟨hreceived.exists_encode_iff_nesting, fun _ => hreceived.encode_error,
    fun _ => hreceived.decode_of_encode_eq, fun body later hencode hlater => ?_⟩
  -- Decoding has one outcome, so what comes back is the message that was encoded.
  rw [hreceived.decode_of_encode_eq hencode] at hlater
  rwa [← Except.ok.inj hlater]

/-- An object with two members of one name. -/
def repeatedMember : Bytes := Bytes.ofText "\x7b\"k\":null,\"k\":[] \x7d"

theorem denotes_repeatedMember :
    Denotes repeatedMember (.dictionary [(.text "k", .list [])]) := by
  have hkey : Json.QuotedText ['k'] ('"' :: (['k'] ++ [] ++ ['"'])) :=
    .quotes (.cons (.plain (by decide) (by decide) (by decide)) .nil)
  have hblank : Json.Blanks [' '] := by simp [Json.Blanks]
  have hmembers : Json.Listed (Json.MemberText Json.Spells) _ _ :=
    .more Json.blanks_nil (.colon hkey Json.blanks_nil Json.blanks_nil .null) Json.blanks_nil
      (.last Json.blanks_nil
        (.colon hkey Json.blanks_nil Json.blanks_nil (.list (.empty Json.blanks_nil))) hblank)
  exact ⟨_, _, rfl, .blanks Json.blanks_nil (.object hmembers) Json.blanks_nil, by decide, rfl⟩

/-- A message whose content had a member twice is sent on with the later one. -/
theorem forwards_repeatedMember :
    decode ⟨emptyObject, emptyObject, emptyObject, repeatedMember⟩ =
      .ok ⟨.header {}, .header {}, .dictionary [], .dictionary [(.text "k", .list [])]⟩ ∧
    Forwards ⟨.header {}, .header {}, .dictionary [], .dictionary [(.text "k", .list [])]⟩ := by
  have hdecode : decode ⟨emptyObject, emptyObject, emptyObject, repeatedMember⟩ =
      .ok ⟨.header {}, .header {}, .dictionary [], .dictionary [(.text "k", .list [])]⟩ :=
    decode_eq_ok_iff.2 ⟨{}, {}, [], _, decodeHeader_emptyObject, decodeHeader_emptyObject,
      denotes_emptyObject, denotes_repeatedMember, rfl⟩
  exact ⟨hdecode, forwards_of_decode hdecode⟩

end SignedMessaging.Message
