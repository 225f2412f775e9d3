import SignedMessaging.Bytes

/-!
# The frames of a message

On the wire a message is four frames, one for each of its parts, behind a frame
with their signature.  A delimiter stands before these five.  The frames are
byte strings, except where an application hands over something in their place.
-/

namespace SignedMessaging

/-- The frame that separates routing identities from the frames of a message. -/
def delimiter : Bytes := Bytes.ofText "<IDS|MSG>"

/-- The parts of a message, in the order of their frames. -/
inductive Field where
  | header | parentHeader | metadata | content
deriving DecidableEq, Repr

namespace Field

/-- The name of a part in error messages. -/
def name : Field → String
  | .header => "header"
  | .parentHeader => "parent_header"
  | .metadata => "metadata"
  | .content => "content"

end Field

/-- The four frames that are signed. -/
structure Body (α : Type) where
  header : α
  parentHeader : α
  metadata : α
  content : α
deriving DecidableEq

namespace Body

variable {α β : Type}

/-- The frames in order. -/
def toList (body : Body α) : List α :=
  [body.header, body.parentHeader, body.metadata, body.content]

/-- The frames of a list of four. -/
def ofList? : List α → Option (Body α)
  | [header, parentHeader, metadata, content] =>
      some ⟨header, parentHeader, metadata, content⟩
  | _ => none

/-- Apply a function to every frame. -/
def map (f : α → β) (body : Body α) : Body β :=
  ⟨f body.header, f body.parentHeader, f body.metadata, f body.content⟩

@[simp]
theorem toList_length (body : Body α) : body.toList.length = 4 := rfl

@[simp]
theorem ofList?_toList (body : Body α) : ofList? body.toList = some body := rfl

/-- Four frames in order are those of one body. -/
theorem ofList?_eq_some_iff {frames : List α} {body : Body α} :
    ofList? frames = some body ↔ frames = body.toList := by
  constructor
  · intro h
    unfold ofList? at h
    split at h
    · cases h
      rfl
    · cases h
  · rintro rfl
    rfl

@[simp]
theorem toList_map (f : α → β) (body : Body α) : (body.map f).toList = body.toList.map f := rfl

end Body

/-- The four frames behind their signature. -/
structure SignedFrames (α : Type) where
  signature : α
  body : Body α
deriving DecidableEq

namespace SignedFrames

variable {α β : Type}

/-- The frames in order. -/
def toList (frames : SignedFrames α) : List α :=
  frames.signature :: frames.body.toList

/-- The first five frames of a list, if it has as many; the others do not count. -/
def ofList? : List α → Option (SignedFrames α)
  | signature :: header :: parentHeader :: metadata :: content :: _ =>
      some ⟨signature, ⟨header, parentHeader, metadata, content⟩⟩
  | _ => none

/-- Apply a function to every frame. -/
def map (f : α → β) (frames : SignedFrames α) : SignedFrames β :=
  ⟨f frames.signature, frames.body.map f⟩

@[simp]
theorem toList_length (frames : SignedFrames α) : frames.toList.length = 5 := rfl

@[simp]
theorem ofList?_toList_append (frames : SignedFrames α) (more : List α) :
    ofList? (frames.toList ++ more) = some frames := rfl

/-- The first five frames are those of one message. -/
theorem ofList?_eq_some_iff {list : List α} {frames : SignedFrames α} :
    ofList? list = some frames ↔ ∃ more, list = frames.toList ++ more := by
  constructor
  · intro h
    unfold ofList? at h
    split at h
    · next more =>
        cases h
        exact ⟨more, rfl⟩
    · cases h
  · rintro ⟨more, rfl⟩
    rfl

/-- Too few frames are exactly those below five. -/
theorem ofList?_eq_none_iff {list : List α} : ofList? list = none ↔ list.length < 5 := by
  unfold ofList?
  split
  · simp
  · next h =>
      refine iff_of_true rfl ?_
      match list, h with
      | [], _ => simp
      | [_], _ => simp
      | [_, _], _ => simp
      | [_, _, _], _ => simp
      | [_, _, _, _], _ => simp
      | a :: b :: c :: d :: e :: more, h => exact absurd rfl (h a b c d e more)

@[simp]
theorem toList_map (f : α → β) (frames : SignedFrames α) :
    (frames.map f).toList = frames.toList.map f := rfl

end SignedFrames

end SignedMessaging
