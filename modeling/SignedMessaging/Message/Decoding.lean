import SignedMessaging.Fault.Report
import SignedMessaging.Json.Document

/-!
# Decoding messages

A header is an object whose four members are texts or missing, a missing one
being the empty text; other members do not count.  Metadata are an object and the
content is any JSON value.  Frames are decoded in order and the first that cannot
be is reported; no part of such a message is given.
-/

namespace SignedMessaging

namespace Message

/-- The value of a document. -/
def decodeValue (document : Bytes) : Except DecodingCause Value :=
  match Json.read document with
  | some v => .ok v
  | none => .error .malformed

/-- The members of an object. -/
def decodeEntries (document : Bytes) : Except DecodingCause Entries :=
  match decodeValue document with
  | .error cause => .error cause
  | .ok (.dictionary entries) => .ok entries
  | .ok v => .error (.notObject v.kind)

/-- The text of a header's member. -/
def decodeMember (entries : Entries) (key : HeaderKey) : Except DecodingCause Value :=
  match entries.find? key.name with
  | none => .ok (.text "")
  | some (.text s) => .ok (.text s)
  | some v => .error (.memberNotText key v.kind)

/-- The header of a document. -/
def decodeHeader (document : Bytes) : Except DecodingCause Header := do
  let entries ← decodeEntries document
  let msgId ← decodeMember entries .msgId
  let username ← decodeMember entries .username
  let session ← decodeMember entries .session
  let msgType ← decodeMember entries .msgType
  return ⟨msgId, username, session, msgType⟩

/-- The message of four frames. -/
def decode (body : Body Bytes) : Except DecodingFault Message := do
  let header ← (decodeHeader body.header).mapError (⟨.header, ·⟩)
  let parentHeader ← (decodeHeader body.parentHeader).mapError (⟨.parentHeader, ·⟩)
  let metadata ← (decodeEntries body.metadata).mapError (⟨.metadata, ·⟩)
  let content ← (decodeValue body.content).mapError (⟨.content, ·⟩)
  return ⟨.header header, .header parentHeader, .dictionary metadata, content⟩

/-- What a frame holds that was handed over; a text is taken in its UTF-8 form. -/
def decodeGiven {α : Type} (field : Field) (read : Bytes → Except DecodingCause α)
    (frame : Value) : Except Fault α :=
  match frame.encoded with
  | .error fault => .error (.octets fault)
  | .ok document => (read document).mapError fun cause => .decoding ⟨field, cause⟩

@[simp]
theorem decodeGiven_bytes {α : Type} (field : Field) (read : Bytes → Except DecodingCause α)
    (document : Bytes) :
    decodeGiven field read (.bytes document) =
      (read document).mapError fun cause => .decoding ⟨field, cause⟩ := rfl

/-- The message of four frames that were handed over. -/
def decodeBody (body : Body Value) : Except Fault Message := do
  let header ← decodeGiven .header decodeHeader body.header
  let parentHeader ← decodeGiven .parentHeader decodeHeader body.parentHeader
  let metadata ← decodeGiven .metadata decodeEntries body.metadata
  let content ← decodeGiven .content decodeValue body.content
  return ⟨.header header, .header parentHeader, .dictionary metadata, content⟩

/-- The message of frames that were handed over; there must be four. -/
def decodeFrames (frames : List Value) : Except Fault Message :=
  match Body.ofList? frames with
  | none => .error (.count (.toDecode frames.length))
  | some body => decodeBody body

/-- On byte strings this is the message of the frames. -/
theorem decodeBody_bytes (body : Body Bytes) :
    decodeBody (body.map .bytes) = (decode body).mapError .decoding := by
  simp only [decodeBody, decode, Body.map, decodeGiven_bytes]
  cases decodeHeader body.header with
  | error _ => rfl
  | ok _ =>
    cases decodeHeader body.parentHeader with
    | error _ => rfl
    | ok _ =>
      cases decodeEntries body.metadata with
      | error _ => rfl
      | ok _ => cases decodeValue body.content <;> rfl

end Message

end SignedMessaging
