import SignedMessaging.Value.Equality

/-!
# Messages

A message has two headers, metadata and content.  A header names the message and
the conversation that it belongs to; the parent header is that of the message
answered, and a message that answers none has one with empty texts.  The
application may leave anything in any of these places; what can be sent is
decided when the message is encoded.
-/

namespace SignedMessaging

/-- The members of a header, in the order in which they are written. -/
inductive HeaderKey where
  | msgId | username | session | msgType
deriving DecidableEq, Repr

namespace HeaderKey

/-- All members in order. -/
def all : List HeaderKey := [.msgId, .username, .session, .msgType]

/-- The name of a member on the wire. -/
def name : HeaderKey → String
  | .msgId => "msg_id"
  | .username => "username"
  | .session => "session"
  | .msgType => "msg_type"

/-- Every member stands in the list. -/
theorem mem_all (key : HeaderKey) : key ∈ all := by
  cases key <;> simp [all]

end HeaderKey

/-- The header of a message. -/
structure Header where
  msgId : Value := .text ""
  username : Value := .text ""
  session : Value := .text ""
  msgType : Value := .text ""

namespace Header

/-- A member of a header. -/
def get (header : Header) : HeaderKey → Value
  | .msgId => header.msgId
  | .username => header.username
  | .session => header.session
  | .msgType => header.msgType

/-- Equality of headers, member by member. -/
def same (x y : Header) : Bool :=
  HeaderKey.all.all fun key => (x.get key).same (y.get key)

end Header

/-- What stands in the place of a header: a header, or a value, none of which can be asked for
its form as a header. -/
inductive HeaderSlot where
  | header (h : Header)
  | other (v : Value)

namespace HeaderSlot

/-- The header in its place. -/
def header? : HeaderSlot → Option Header
  | .header h => some h
  | .other _ => none

/-- Equality of headers; another value equals no header. -/
def same : HeaderSlot → HeaderSlot → Bool
  | .header x, .header y => x.same y
  | .other v, .other w => v.same w
  | _, _ => false

end HeaderSlot

/-- A message as an application sees it. -/
structure Message where
  header : HeaderSlot := .header {}
  parentHeader : HeaderSlot := .header {}
  metadata : Value := .dictionary []
  content : Value := .null

namespace Message

/-- Equality of messages, part by part. -/
def same (x y : Message) : Bool :=
  x.header.same y.header && x.parentHeader.same y.parentHeader &&
    x.metadata.same y.metadata && x.content.same y.content

end Message

end SignedMessaging
