import SignedMessaging.Fault.Report

/-!
# Envelopes

A multipart message is any number of routing identities, the delimiter, and the
five frames of a message; what follows them does not count.  The first delimiter
ends the identities, so joining and splitting undo each other as long as no
identity is the delimiter.
-/

namespace SignedMessaging

/-- Routing identities and the frames of a message. -/
structure Envelope (α : Type) where
  identities : List α
  frames : SignedFrames α
deriving DecidableEq

namespace Envelope

variable {α : Type}

/-- All parts in order, with a mark between the identities and the frames. -/
def joined (mark : α) (envelope : Envelope α) : List α :=
  envelope.identities ++ mark :: envelope.frames.toList

/-- The parts of an envelope of byte strings. -/
def parts (envelope : Envelope Bytes) : List Bytes :=
  envelope.joined delimiter

/-- The envelope of a multipart message. -/
def ofParts (parts : List Bytes) : Except FramingFault (Envelope Bytes) :=
  match parts.dropWhile (· ≠ delimiter) with
  | [] => .error (.noDelimiter parts.length)
  | _ :: rest =>
      match SignedFrames.ofList? rest with
      | none => .error (.cutShort rest.length)
      | some frames => .ok ⟨parts.takeWhile (· ≠ delimiter), frames⟩

/-- The envelope of parts as they were handed over; all are converted first. -/
def ofValues (parts : List Value) : Except Fault (Envelope Bytes) :=
  match parts.mapM Value.octets with
  | .error fault => .error (.octets fault)
  | .ok bytes => (ofParts bytes).mapError .framing

theorem mapM_octets_bytes (parts : List Bytes) :
    (parts.map Value.bytes).mapM Value.octets = .ok parts := by
  induction parts with
  | nil => rfl
  | cons part rest ih =>
      rw [List.map_cons, List.mapM_cons, Value.octets_bytes, ih]
      rfl

/-- On byte strings nothing is converted. -/
theorem ofValues_bytes (parts : List Bytes) :
    ofValues (parts.map Value.bytes) = (ofParts parts).mapError .framing := by
  rw [ofValues, mapM_octets_bytes]

/-- Join identities and frames as they were handed over; there must be five frames. -/
def join (identities frames : List Value) : Except CountFault (List Value) :=
  if frames.length = 5 then .ok (identities ++ .bytes delimiter :: frames)
  else .error (.toJoin frames.length)

end Envelope

end SignedMessaging
