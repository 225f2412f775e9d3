import SignedMessaging.Proofs.Message.FrameEncoding
import SignedMessaging.Proofs.Message.Parts

/-!
# Which messages can be encoded

A header is encoded if it is one and its four members are texts, and any other part if nothing
is wrong at any position in it.  The first part that is not encoded is reported.

Of a value that is refused, a double that is not finite is reported before anything else that is
wrong with it, and otherwise what is wrong at the first position (`Refused`).  Metadata that are
no dictionary are reported as such, and what is in them is not looked at.
-/

namespace SignedMessaging.Message

open Value (Position)

/-! ### Values -/

/-- What is reported of a value that is not encoded: the first double that is not finite, or
if there is none what the writer finds wrong first. -/
inductive Refused (v : Value) : EncodingCause → Prop
  | notFinite {x : Double} (h : (v.positions 0).findSome? Position.notFinite? = some x) :
      Refused v (.notFinite x)
  | unwritable {fault : Json.WriteFault}
      (hfinite : (v.positions 0).findSome? Position.notFinite? = none)
      (h : (v.positions 0).findSome? Position.fault? = some fault) :
      Refused v (.unwritable fault)

theorem fault?_encodeValue (v : Value) : Outcome.fault? (encodeValue v) =
    (((v.positions 0).findSome? Position.notFinite?).map .notFinite).or
      (((v.positions 0).findSome? Position.fault?).map .unwritable) := by
  rw [encodeValue, Value.nonFinite?_eq 0, ← Json.fault?_writeValue v 0]
  cases (v.positions 0).findSome? Position.notFinite? with
  | some x => rfl
  | none =>
      rw [Outcome.fault?_mapError, Json.write, Outcome.fault?_map]
      rfl

theorem encodeValue_eq_error_iff {v : Value} {cause : EncodingCause} :
    encodeValue v = .error cause ↔ Refused v cause := by
  rw [← Outcome.fault?_eq_some_iff, fault?_encodeValue, Option.or_eq_some_iff,
    Option.map_eq_some_iff, Option.map_eq_none_iff, Option.map_eq_some_iff]
  constructor
  · rintro (⟨x, hx, rfl⟩ | ⟨hfinite, fault, hfault, rfl⟩)
    · exact .notFinite hx
    · exact .unwritable hfinite hfault
  · rintro (hx | ⟨hfinite, hfault⟩)
    · exact .inl ⟨_, hx, rfl⟩
    · exact .inr ⟨hfinite, _, hfault, rfl⟩

/-- A value is encoded exactly if nothing is wrong at any position in it. -/
theorem exists_encodeValue_iff {v : Value} :
    (∃ document, encodeValue v = .ok document) ↔ v.Writable := by
  rw [← Outcome.fault?_eq_none_iff, fault?_encodeValue, Option.or_eq_none_iff,
    Option.map_eq_none_iff, Option.map_eq_none_iff, List.findSome?_eq_none_iff,
    List.findSome?_eq_none_iff, ← forall₂_and]
  exact forall₂_congr fun position _ => Position.sound_iff.symm

/-! ### Parts -/

theorem portable_headerEntries {header : Header} (h : Textual header) :
    (Value.dictionary (headerEntries header)).Portable := by
  refine Value.portable_dictionary_iff.2 ⟨⟨forall_mem_headerEntries.2 fun key => ⟨_, rfl⟩,
    distinctKeys_headerEntries⟩, forall_mem_headerEntries.2 fun key => ?_⟩
  obtain ⟨s, hs⟩ := h key
  rw [hs]
  exact trivial

/-- A header is encoded exactly if it is one and its members are texts. -/
theorem exists_encodeHeader_iff {slot : HeaderSlot} :
    (∃ document, encodeHeader slot = .ok document) ↔
      ∃ header, slot = .header header ∧ Textual header := by
  simp only [encodeHeader_eq_ok_iff]
  constructor
  · rintro ⟨_, header, hslot, htextual, -⟩
    exact ⟨header, hslot, htextual⟩
  · rintro ⟨header, hslot, htextual⟩
    -- Four texts under distinct names are portable and of one level, so nothing is wrong with them.
    have hwritable := Value.writable_of_portable (portable_headerEntries htextual)
      ((nesting_headerEntries htextual).trans (by decide))
    obtain ⟨document, hdocument⟩ := exists_encodeValue_iff.2 hwritable
    exact ⟨document, header, hslot, htextual, hdocument⟩

/-- What is reported of metadata that are not encoded. -/
inductive MetadataRefused : Value → EncodingCause → Prop
  | notMapping {v : Value} (hnull : v.kind ≠ .null) (hkind : v.kind ≠ .dictionary) :
      MetadataRefused v (.notMapping v.kind)
  | dictionary {entries : Entries} {cause : EncodingCause}
      (h : Refused (.dictionary entries) cause) : MetadataRefused (.dictionary entries) cause

theorem metadataRefused_dictionary_iff {entries : Entries} {cause : EncodingCause} :
    MetadataRefused (.dictionary entries) cause ↔ Refused (.dictionary entries) cause := by
  refine ⟨?_, .dictionary⟩
  rintro (⟨-, hkind⟩ | h)
  · exact absurd rfl hkind
  · exact h

theorem writable_emptyDictionary : (Value.dictionary []).Writable := by
  simp [Value.Writable, Value.positions, Value.positionsUnder, Position.Sound]

theorem encodeMetadata_eq_error_iff {v : Value} {cause : EncodingCause} :
    encodeMetadata v = .error cause ↔ MetadataRefused v cause := by
  cases v with
  | null =>
      obtain ⟨document, hdocument⟩ := exists_encodeValue_iff.2 writable_emptyDictionary
      refine iff_of_false (by simp [encodeMetadata, hdocument]) ?_
      rintro ⟨hnull, -⟩
      exact hnull rfl
  | dictionary entries =>
      rw [encodeMetadata, encodeValue_eq_error_iff, metadataRefused_dictionary_iff]
  | _ =>
      refine ⟨fun h => ?_, ?_⟩
      · cases h
        exact .notMapping (by simp [Value.kind]) (by simp [Value.kind])
      · rintro ⟨-, -⟩
        rfl

/-- Metadata are encoded exactly if they were left null or are a dictionary in which nothing is
wrong. -/
theorem exists_encodeMetadata_iff {v : Value} : (∃ document, encodeMetadata v = .ok document) ↔
    v = .null ∨ ∃ entries, v = .dictionary entries ∧ v.Writable := by
  cases v with
  | null => simpa [encodeMetadata] using exists_encodeValue_iff.2 writable_emptyDictionary
  | dictionary entries => simp [encodeMetadata, exists_encodeValue_iff]
  | _ => simp [encodeMetadata]

/-! ### Messages -/

/-- Whether a part of a message can be encoded. -/
def Encodable (message : Message) : Field → Prop
  | .header => ∃ header, message.header = .header header ∧ Textual header
  | .parentHeader => ∃ header, message.parentHeader = .header header ∧ Textual header
  | .metadata => message.metadata = .null ∨
      ∃ entries, message.metadata = .dictionary entries ∧ message.metadata.Writable
  | .content => message.content.Writable

theorem encodable_iff {message : Message} {field : Field} :
    message.Encodable field ↔ message.encodingCauses.get field = none := by
  cases field with
  | header => exact exists_encodeHeader_iff.symm.trans Outcome.fault?_eq_none_iff.symm
  | parentHeader => exact exists_encodeHeader_iff.symm.trans Outcome.fault?_eq_none_iff.symm
  | metadata => exact exists_encodeMetadata_iff.symm.trans Outcome.fault?_eq_none_iff.symm
  | content => exact exists_encodeValue_iff.symm.trans Outcome.fault?_eq_none_iff.symm

/-- A message is encoded exactly if each of its parts can be. -/
theorem exists_encode_iff_encodable {message : Message} :
    (∃ body, encode message = .ok body) ↔ ∀ field, message.Encodable field := by
  rw [exists_encode_iff]
  exact forall_congr' fun _ => encodable_iff.symm

/-- The first part that cannot be encoded is the one that is reported. -/
theorem exists_encode_error_iff {message : Message} {field : Field} :
    (∃ cause, encode message = .error ⟨field, cause⟩) ↔
      ¬ message.Encodable field ∧ ∀ earlier ∈ field.before, message.Encodable earlier := by
  simp only [exists_encode_eq_error_iff, encodable_iff, ne_eq]

theorem encode_metadata_error_iff {message : Message} {cause : EncodingCause} :
    encode message = .error ⟨.metadata, cause⟩ ↔ MetadataRefused message.metadata cause ∧
      ∀ earlier ∈ Field.before .metadata, message.Encodable earlier := by
  rw [encode_eq_error_iff, ← encodeMetadata_eq_error_iff, ← Outcome.fault?_eq_some_iff]
  simp only [encodable_iff]
  rfl

theorem encode_content_error_iff {message : Message} {cause : EncodingCause} :
    encode message = .error ⟨.content, cause⟩ ↔ Refused message.content cause ∧
      ∀ earlier ∈ Field.before .content, message.Encodable earlier := by
  rw [encode_eq_error_iff, ← encodeValue_eq_error_iff, ← Outcome.fault?_eq_some_iff]
  simp only [encodable_iff]
  rfl

/-- When a message is encoded, which part is reported where it is not, and what is reported of
metadata and content. -/
structure EncodingLaw (message : Message) : Prop where
  frames : (∃ body, encode message = .ok body) ↔ ∀ field, message.Encodable field
  part : ∀ field, (∃ cause, encode message = .error ⟨field, cause⟩) ↔
    ¬ message.Encodable field ∧ ∀ earlier ∈ field.before, message.Encodable earlier
  metadata : ∀ cause, encode message = .error ⟨.metadata, cause⟩ ↔
    MetadataRefused message.metadata cause ∧
      ∀ earlier ∈ Field.before .metadata, message.Encodable earlier
  content : ∀ cause, encode message = .error ⟨.content, cause⟩ ↔
    Refused message.content cause ∧
      ∀ earlier ∈ Field.before .content, message.Encodable earlier

/-- Every message is encoded to four frames or refused for its first part that cannot be
encoded. -/
theorem encode_decides (message : Message) : message.EncodingLaw where
  frames := exists_encode_iff_encodable
  part _ := exists_encode_error_iff
  metadata _ := encode_metadata_error_iff
  content _ := encode_content_error_iff

/-- A list in the place of metadata is reported as such, also if a double in it is not finite. -/
theorem encode_list_for_metadata :
    ((Value.list [.float .notANumber]).positions 0).findSome? Position.notFinite? =
      some .notANumber ∧
    encode { metadata := .list [.float .notANumber] } = .error ⟨.metadata, .notMapping .list⟩ := by
  refine ⟨rfl, encode_eq_error_iff.2 ⟨rfl, fun earlier hearlier => encodable_iff.1 ?_⟩⟩
  -- Both headers are the empty one, whose members are texts.
  have htextual : Textual {} := fun key => by cases key <;> exact ⟨"", rfl⟩
  cases earlier with
  | header | parentHeader => exact ⟨{}, rfl, htextual⟩
  | metadata | content => simp [Field.before] at hearlier

end SignedMessaging.Message
