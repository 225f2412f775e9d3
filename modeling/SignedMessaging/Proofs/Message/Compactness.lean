import SignedMessaging.Proofs.Hex
import SignedMessaging.Proofs.Json.Compactness
import SignedMessaging.Proofs.Message.Normal

/-!
# Compact frames

The frames of a message are compact documents.  Those of the headers are laid out member by
member, that of the metadata is an object even where the metadata were left null, and neither
a frame nor a signature is the delimiter (`encode_compact`): no document starts with an angle
bracket, and a signature is made of digits and small letters.
-/

namespace SignedMessaging.Message

open Json (Compact QuotedText Spells)

/-- Whether a frame is the object of a header: its four members in their order, each with a
literal of its text. -/
def IsHeaderObject (header : Header) (frame : Bytes) : Prop :=
  ∃ literal : HeaderKey → String,
    (∀ key, ∃ s, header.get key = .text s ∧ QuotedText s.toList (literal key).toList) ∧
    frame = Bytes.ofText ("\x7b\"msg_id\":" ++ literal .msgId ++
      ",\"username\":" ++ literal .username ++ ",\"session\":" ++ literal .session ++
      ",\"msg_type\":" ++ literal .msgType ++ "\x7d")

/-- Whether a frame is an object. -/
def IsObject (frame : Bytes) : Prop :=
  ∃ (s : String) (members : List (List Char × Json.Tree)),
    frame = Bytes.ofText s ∧ Spells (.object members) s.toList

/-- The frames of a message, as they are and as they are sent behind a signature. -/
structure CompactFrames (message : Message) (body : Body Bytes) : Prop where
  compact : ∀ frame ∈ body.toList, Compact frame
  header : ∃ header, message.header = .header header ∧ IsHeaderObject header body.header
  parentHeader : ∃ parentHeader, message.parentHeader = .header parentHeader ∧
    IsHeaderObject parentHeader body.parentHeader
  metadata : IsObject body.metadata
  metadata_ne_null : body.metadata ≠ Bytes.ofText "null"
  undelimited : delimiter ∉ body.toList
  packed {signer : Signer} : signer.Usable →
    ∃ frames, message.toSigned signer = .ok frames
  signed {signer : Signer} {frames : SignedFrames Bytes} :
    message.toSigned signer = .ok frames → frames.body = body ∧ delimiter ∉ frames.toList

/-! ### Frames -/

variable {message : Message} {body : Body Bytes} {header : Header} {frame : Bytes}

theorem compact_of_encodeValue {v : Value} (h : encodeValue v = .ok frame) : Compact frame :=
  Json.compact_of_write (write_of_encodeValue h)

theorem isObject_of_encodeValue {entries : Entries}
    (h : encodeValue (.dictionary entries) = .ok frame) : IsObject frame := by
  obtain ⟨-, cs, hcs, rfl⟩ := encodeValue_eq_ok_iff.1 h
  obtain ⟨members, hmembers⟩ := Json.exists_members hcs
  exact ⟨String.ofList cs, members, rfl, by rwa [String.toList_ofList]⟩

/-- An object is not the null value. -/
theorem ne_null_of_isObject (h : IsObject frame) : frame ≠ Bytes.ofText "null" := by
  rintro rfl
  obtain ⟨s, members, hs, hspells⟩ := h
  rw [← Bytes.ofText_injective hs] at hspells
  cases hspells

theorem ne_delimiter_of_encodeValue {v : Value} (h : encodeValue v = .ok frame) :
    frame ≠ delimiter := by
  obtain ⟨-, cs, hcs, rfl⟩ := encodeValue_eq_ok_iff.1 h
  obtain ⟨tree, htree⟩ := Json.exists_spells hcs
  intro heq
  have hcs : cs = "<IDS|MSG>".toList := by
    rw [← Bytes.ofText_injective heq, String.toList_ofList]
  exact Json.head?_of_spells htree (by rw [hcs]; decide)

/-- Nothing in the name of a member is escaped. -/
theorem writeText_name (key : HeaderKey) :
    Json.writeText key.name.toList = '"' :: key.name.toList ++ ['"'] := by
  cases key <;> decide

/-- The frame of a header is laid out member by member. -/
theorem isHeaderObject_of_encodeValue (htextual : Textual header)
    (h : encodeValue (.dictionary (headerEntries header)) = .ok frame) :
    IsHeaderObject header frame := by
  obtain ⟨-, cs, hcs, rfl⟩ := encodeValue_eq_ok_iff.1 h
  choose s hs using htextual
  refine ⟨fun key => String.ofList (Json.writeText (s key).toList), fun key => ?_, ?_⟩
  · refine ⟨s key, hs key, ?_⟩
    rw [String.toList_ofList]
    exact Json.writeText_spells _
  · have hentries : headerEntries header =
        HeaderKey.all.map fun key => (.text key.name, .text (s key)) := by
      rw [headerEntries]
      exact List.map_congr_left fun key _ => by rw [hs key]
    rw [hentries] at hcs
    cases hcs
    congr 1
    apply String.toList_inj.1
    simp only [writeText_name]
    simp [Json.bracketed, HeaderKey.name, List.intercalate]

/-- A signature is no delimiter: it is empty, or digits and small letters. -/
theorem ne_delimiter_of_sign {signer : Signer} {signature : Bytes}
    (h : signer.sign body = .ok signature) : signature ≠ delimiter := by
  rw [Signer.sign] at h
  split at h
  · cases h
    decide
  · obtain ⟨mac, -, rfl⟩ := Outcome.map_eq_ok_iff.1 h
    intro heq
    have hfirst : (60 : UInt8) ∈ Hex.encode mac := by
      rw [heq]
      decide
    have := Hex.isSmallDigit_of_mem_encode hfirst
    revert this
    unfold Hex.IsSmallDigit
    decide

/-! ### Messages -/

/-- Every frame of a message is the document of a value. -/
theorem exists_encodeValue (h : encode message = .ok body) :
    ∀ frame ∈ body.toList, ∃ v, encodeValue v = .ok frame := by
  obtain ⟨header, parentHeader, entries, h⟩ := encode_eq_ok_iff.1 h
  simp only [Body.toList, List.forall_mem_cons]
  exact ⟨⟨_, h.header_encoded⟩, ⟨_, h.parentHeader_encoded⟩, ⟨_, h.metadata_encoded⟩,
    ⟨_, h.content_encoded⟩, by simp⟩

theorem delimiter_not_mem (h : encode message = .ok body) : delimiter ∉ body.toList := by
  intro hmem
  obtain ⟨v, hv⟩ := exists_encodeValue h delimiter hmem
  exact ne_delimiter_of_encodeValue hv rfl

/-- Neither is there a delimiter among the frames that are sent behind a signature. -/
theorem delimiter_not_mem_signed {signer : Signer} {frames : SignedFrames Bytes}
    (h : message.toSigned signer = .ok frames) : delimiter ∉ frames.toList := by
  obtain ⟨hencode, hsignature⟩ := toSigned_eq_ok_iff.1 h
  rw [SignedFrames.toList, List.mem_cons, not_or]
  constructor
  · exact (ne_delimiter_of_sign hsignature).symm
  · exact delimiter_not_mem hencode

/-- Every message that is encoded is encoded to compact frames. -/
theorem encode_compact (h : encode message = .ok body) : CompactFrames message body := by
  obtain ⟨header, parentHeader, entries, hparts⟩ := encode_eq_ok_iff.1 h
  have hobject := isObject_of_encodeValue hparts.metadata_encoded
  constructor
  · intro frame hframe
    obtain ⟨v, hv⟩ := exists_encodeValue h frame hframe
    exact compact_of_encodeValue hv
  · exact ⟨header, hparts.header_eq,
      isHeaderObject_of_encodeValue hparts.header_textual hparts.header_encoded⟩
  · exact ⟨parentHeader, hparts.parentHeader_eq,
      isHeaderObject_of_encodeValue hparts.parentHeader_textual hparts.parentHeader_encoded⟩
  · exact hobject
  · exact ne_null_of_isObject hobject
  · exact delimiter_not_mem h
  · intro signer husable
    obtain ⟨signature, hsignature⟩ := Signer.exists_sign husable body
    exact ⟨⟨signature, body⟩, toSigned_eq_ok_iff.2 ⟨h, hsignature⟩⟩
  · intro signer frames hsigned
    obtain ⟨hencode, -⟩ := toSigned_eq_ok_iff.1 hsigned
    exact ⟨Except.ok.inj (hencode.symm.trans h), delimiter_not_mem_signed hsigned⟩

/-- A message with the delimiter, a quote and a line break among its texts. -/
def marked : Message :=
  { metadata := .null, content := .tuple [.text "<IDS|MSG>", .text "a \"b\"\n", .int (-2)] }

/-- The frames of this message. -/
def markedBody : Body Bytes :=
  ⟨Bytes.ofText "\x7b\"msg_id\":\"\",\"username\":\"\",\"session\":\"\",\"msg_type\":\"\"\x7d",
    Bytes.ofText "\x7b\"msg_id\":\"\",\"username\":\"\",\"session\":\"\",\"msg_type\":\"\"\x7d",
    Bytes.ofText "\x7b\x7d", Bytes.ofText "[\"<IDS|MSG>\",\"a \\\"b\\\"\\n\",-2]"⟩

/-- The one space among its frames stands in a literal, and under a key none of five frames is
the delimiter. -/
theorem encode_compact_marked :
    encode marked = .ok markedBody ∧ CompactFrames marked markedBody ∧
      Json.Scan.outside.bare markedBody.content = Bytes.ofText "[\",\",-2]" ∧
      ∃ frames, marked.toSigned { key := [115, 51] } = .ok frames ∧
        frames.body = markedBody ∧ delimiter ∉ frames.toList := by
  have hencode : encode marked = .ok markedBody := rfl
  have hcompact := encode_compact hencode
  have husable : Signer.Usable { key := [115, 51] } := by decide
  obtain ⟨frames, hframes⟩ := hcompact.packed husable
  exact ⟨hencode, hcompact, by decide, frames, hframes, hcompact.signed hframes⟩

end SignedMessaging.Message
