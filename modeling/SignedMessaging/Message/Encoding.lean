import SignedMessaging.Fault.Report
import SignedMessaging.Json.Writer
import SignedMessaging.Value.Entries

/-!
# Encoding messages

Both headers become objects of four texts, the metadata an object, and the
content any JSON value; metadata left null become an empty object.  A double
that is not finite would be written as null, so that the receiver would read
another value than the sender signed; it is looked for before anything is
written, below the values of dictionaries under keys of any kind.
-/

namespace SignedMessaging

namespace Value

mutual

/-- The first double in a value that is not finite. -/
def nonFinite? : Value → Option Double
  | .float x => if x.isFinite then none else some x
  | .list items => nonFiniteIn? items
  | .tuple items => nonFiniteIn? items
  | .dictionary entries => nonFiniteUnder? entries
  | _ => none
termination_by structural v => v

/-- The first double among items that is not finite. -/
def nonFiniteIn? : List Value → Option Double
  | [] => none
  | item :: items =>
      match nonFinite? item with
      | some x => some x
      | none => nonFiniteIn? items
termination_by structural items => items

/-- The first double among the values of entries that is not finite. -/
def nonFiniteUnder? : List (Value × Value) → Option Double
  | [] => none
  | (_, value) :: entries =>
      match nonFinite? value with
      | some x => some x
      | none => nonFiniteUnder? entries
termination_by structural entries => entries

end

end Value

namespace Message

/-- The document of a value without a double that is not finite. -/
def encodeValue (v : Value) : Except EncodingCause Bytes :=
  match v.nonFinite? with
  | some x => .error (.notFinite x)
  | none => (Json.write v).mapError .unwritable

/-- The members of a header, in order. -/
def headerEntries (header : Header) : Entries :=
  HeaderKey.all.map fun key => (.text key.name, header.get key)

/-- The document of a header whose members are texts. -/
def encodeHeader : HeaderSlot → Except EncodingCause Bytes
  | .other v => .error (.notHeader v.kind)
  | .header header =>
      match HeaderKey.all.find? fun key => (header.get key).text?.isNone with
      | some key => .error (.memberNotText key (header.get key).kind)
      | none => encodeValue (.dictionary (headerEntries header))

/-- The document of metadata. -/
def encodeMetadata : Value → Except EncodingCause Bytes
  | .null => encodeValue (.dictionary [])
  | .dictionary entries => encodeValue (.dictionary entries)
  | v => .error (.notMapping v.kind)

/-- The four frames of a message; the first part that has none is reported. -/
def encode (message : Message) : Except EncodingFault (Body Bytes) := do
  let header ← (encodeHeader message.header).mapError (⟨.header, ·⟩)
  let parentHeader ← (encodeHeader message.parentHeader).mapError (⟨.parentHeader, ·⟩)
  let metadata ← (encodeMetadata message.metadata).mapError (⟨.metadata, ·⟩)
  let content ← (encodeValue message.content).mapError (⟨.content, ·⟩)
  return ⟨header, parentHeader, metadata, content⟩

end Message

end SignedMessaging
