import SignedMessaging.Message.Decoding
import SignedMessaging.Proofs.Json.DocumentReading
import SignedMessaging.Proofs.Outcome

/-!
# Decoding frame by frame

What each of the four frames has to be, in terms of what documents denote and without
the reader.  A header is an object in which each of the four members is a text or is
missing; metadata are an object; the content is any document.

With three good frames before it, the content frame alone decides the outcome: it gives
the message with the value that it denotes, and a frame that denotes nothing is
reported as the content.
-/

namespace SignedMessaging.Message

/-! ### Documents -/

open Json (Denotes)

theorem decodeValue_eq_ok_iff {document : Bytes} {v : Value} :
    decodeValue document = .ok v ↔ Denotes document v := by
  rw [← Json.read_eq_some_iff, decodeValue]
  cases Json.read document <;> simp

theorem decodeValue_eq_error_iff {document : Bytes} {cause : DecodingCause} :
    decodeValue document = .error cause ↔
      cause = .malformed ∧ ∀ v, ¬ Denotes document v := by
  rw [← Json.read_eq_none_iff, decodeValue]
  cases Json.read document <;> simp [eq_comm]

theorem decodeEntries_eq_ok_iff {document : Bytes} {entries : Entries} :
    decodeEntries document = .ok entries ↔ Denotes document (.dictionary entries) := by
  rw [← decodeValue_eq_ok_iff, decodeEntries]
  rcases decodeValue document with cause | v
  · simp
  · cases v <;> simp

/-- A header is an object, each of whose four members gives a text. -/
theorem decodeHeader_eq_ok_iff {document : Bytes} {header : Header} :
    decodeHeader document = .ok header ↔ ∃ entries, Denotes document (.dictionary entries) ∧
      ∀ key, decodeMember entries key = .ok (header.get key) := by
  simp only [decodeHeader, Outcome.bind_eq_ok_iff, decodeEntries_eq_ok_iff]
  constructor
  · rintro ⟨entries, hentries, msgId, hmsgId, username, husername, session, hsession, msgType,
      hmsgType, heq⟩
    cases heq
    refine ⟨entries, hentries, fun key => ?_⟩
    cases key <;> assumption
  · rintro ⟨entries, hentries, hmembers⟩
    exact ⟨entries, hentries, _, hmembers .msgId, _, hmembers .username, _, hmembers .session, _,
      hmembers .msgType, rfl⟩

/-- The smallest object, which serves as any header and as metadata. -/
def emptyObject : Bytes := Bytes.ofText "\x7b\x7d"

theorem denotes_emptyObject : Denotes emptyObject (.dictionary []) := by
  have hspells : Json.SpellsDocument (.object []) ([] ++ (('\x7b' :: ([] ++ ['\x7d'])) ++ [])) :=
    .blanks Json.blanks_nil (.object (.empty Json.blanks_nil)) Json.blanks_nil
  exact ⟨"\x7b\x7d", .object [], rfl, hspells, by decide, rfl⟩

theorem decodeEntries_emptyObject : decodeEntries emptyObject = .ok [] :=
  decodeEntries_eq_ok_iff.2 denotes_emptyObject

theorem decodeHeader_emptyObject : decodeHeader emptyObject = .ok {} :=
  decodeHeader_eq_ok_iff.2 ⟨[], denotes_emptyObject, fun key => by cases key <;> rfl⟩

/-! ### Bodies -/

/-- A body is decoded exactly to the message whose four parts are those of its frames. -/
theorem decode_eq_ok_iff {body : Body Bytes} {message : Message} :
    decode body = .ok message ↔ ∃ header parentHeader metadata content,
      decodeHeader body.header = .ok header ∧
      decodeHeader body.parentHeader = .ok parentHeader ∧
      Denotes body.metadata (.dictionary metadata) ∧ Denotes body.content content ∧
      message = ⟨.header header, .header parentHeader, .dictionary metadata, content⟩ := by
  simp only [decode, Outcome.bind_eq_ok_iff, Outcome.mapError_eq_ok_iff, decodeEntries_eq_ok_iff,
    decodeValue_eq_ok_iff]
  constructor
  · rintro ⟨header, hheader, parentHeader, hparent, metadata, hmetadata, content, hcontent, heq⟩
    cases heq
    exact ⟨header, parentHeader, metadata, content, hheader, hparent, hmetadata, hcontent, rfl⟩
  · rintro ⟨header, parentHeader, metadata, content, hheader, hparent, hmetadata, hcontent, rfl⟩
    exact ⟨header, hheader, parentHeader, hparent, metadata, hmetadata, content, hcontent, rfl⟩

/-- Behind three good frames the content frame alone decides.  It gives the message with a
value exactly where it denotes that value, and is reported exactly where it denotes none. -/
theorem decode_by_content {body : Body Bytes} {header parentHeader : Header} {metadata : Entries}
    (hheader : decodeHeader body.header = .ok header)
    (hparent : decodeHeader body.parentHeader = .ok parentHeader)
    (hmetadata : decodeEntries body.metadata = .ok metadata) :
    (∀ v, decode body =
        .ok ⟨.header header, .header parentHeader, .dictionary metadata, v⟩ ↔
      Denotes body.content v) ∧
    (∀ v, (∃ message, decode body = .ok message ∧ message.content = v) ↔
      Denotes body.content v) ∧
    (decode body = .error ⟨.content, .malformed⟩ ↔ ∀ v, ¬ Denotes body.content v) := by
  have hdecode : decode body = (decodeValue body.content).mapError (⟨.content, ·⟩) >>=
      fun v => .ok ⟨.header header, .header parentHeader, .dictionary metadata, v⟩ := by
    rw [decode, hheader, hparent, hmetadata]
    rfl
  rw [hdecode]
  refine ⟨fun v => ?_, fun v => ?_, ?_⟩
  · rw [← decodeValue_eq_ok_iff]
    cases decodeValue body.content <;> simp [bind, Except.bind, Except.mapError]
  · rw [← decodeValue_eq_ok_iff]
    cases decodeValue body.content <;> simp [bind, Except.bind, Except.mapError]
  · have hcause : (∀ v, ¬ Denotes body.content v) ↔
        decodeValue body.content = .error .malformed := by
      simp [decodeValue_eq_error_iff]
    rw [hcause]
    cases decodeValue body.content <;> simp [bind, Except.bind, Except.mapError]

/-- A list after a blank is a content. -/
theorem decode_by_content_list :
    (decodeHeader emptyObject = .ok {} ∧ decodeEntries emptyObject = .ok []) ∧
      decode ⟨emptyObject, emptyObject, emptyObject, Bytes.ofText " [true]"⟩ =
        .ok ⟨.header {}, .header {}, .dictionary [], .list [.bool true]⟩ := by
  refine ⟨⟨decodeHeader_emptyObject, decodeEntries_emptyObject⟩, ?_⟩
  have hlist : Json.Spells (.list [.bool true])
      ('[' :: (([] ++ (['t', 'r', 'u', 'e'] ++ [])) ++ [']'])) :=
    .list (.last Json.blanks_nil .true Json.blanks_nil)
  have hblank : Json.Blanks [' '] := by simp [Json.Blanks]
  have hcontent : Denotes (Bytes.ofText " [true]") (.list [.bool true]) :=
    ⟨" [true]", .list [.bool true], rfl, .blanks hblank hlist Json.blanks_nil, by decide, rfl⟩
  exact ((decode_by_content decodeHeader_emptyObject decodeHeader_emptyObject
    decodeEntries_emptyObject).1 _).2 hcontent

end SignedMessaging.Message
