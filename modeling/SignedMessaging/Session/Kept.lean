import SignedMessaging.Message.Basic

/-!
# Kept messages

A session keeps the messages that it works on.  Whoever hands over a header hands
over values of its own, and an answer takes over those of its parent: its parent
header is the parent's header, and its user name and session are those of the
parent.  A value is equal to itself wherever it was taken over, also one that
equals no other value.  So each member of a kept header has a mark, and members
with one mark are one value.
-/

namespace SignedMessaging

/-- The marks of a header's members. -/
abbrev Marks := HeaderKey → Nat

namespace Marks

/-- The marks of a header that was handed over. -/
def own (mark : Nat) : Marks := fun _ => mark

/-- The marks of the header of an answer, which keeps user name and session. -/
def answering (mark : Nat) (parent : Marks) : Marks
  | .username => parent .username
  | .session => parent .session
  | .msgId | .msgType => mark

end Marks

/-- A message with the marks of its headers. -/
structure Kept where
  message : Message
  headerMarks : Marks
  parentMarks : Marks

namespace Kept

/-- A message all of whose values are its own, under two marks. -/
def ownedBy (mark : Nat) (message : Message) : Kept :=
  ⟨message, Marks.own mark, Marks.own (mark + 1)⟩

/-- A message made in answer to another. -/
def answering (mark : Nat) (parent : Kept) (message : Message) : Kept :=
  ⟨message, Marks.answering mark parent.headerMarks, parent.headerMarks⟩

/-- Equality of headers with marks: each member has an equal one or is the same value. -/
def sameHeader (x y : HeaderSlot) (xMarks yMarks : Marks) : Bool :=
  match x, y with
  | .header x, .header y =>
      HeaderKey.all.all fun key => xMarks key == yMarks key || (x.get key).same (y.get key)
  | .other v, .other w => v.same w
  | _, _ => false

/-- Equality of kept messages, part by part. -/
def same (x y : Kept) : Bool :=
  sameHeader x.message.header y.message.header x.headerMarks y.headerMarks &&
    sameHeader x.message.parentHeader y.message.parentHeader x.parentMarks y.parentMarks &&
    x.message.metadata.same y.message.metadata && x.message.content.same y.message.content

theorem sameHeader_of_same {x y : HeaderSlot} (xMarks yMarks : Marks) (equal : x.same y) :
    sameHeader x y xMarks yMarks := by
  cases x <;> cases y <;> simp_all [sameHeader, HeaderSlot.same, Header.same]

/-- Messages that are equal by their values are equal under any marks. -/
theorem same_of_same {x y : Kept} (equal : x.message.same y.message) : x.same y := by
  simp only [Message.same, Bool.and_eq_true] at equal
  simp [same, equal, sameHeader_of_same]

end Kept

end SignedMessaging
