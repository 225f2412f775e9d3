import Mathlib.Data.List.TakeWhile
import SignedMessaging.Envelope

/-!
# Framing

Parts are those of an envelope exactly where they start with the envelope's own parts
and no identity is the delimiter.  Otherwise there is no delimiter at all, or fewer than
five frames behind the first one.  Delimiters behind the first are frames like any other,
and frames behind the fifth do not count.

So splitting and joining undo each other exactly where no identity is the delimiter, and
joining what was split gives the parts again but for the frames that do not count
(`split_and_join`).
-/

namespace SignedMessaging.Envelope

theorem takeWhile_identities {identities : List Bytes} (h : delimiter ∉ identities)
    (after : List Bytes) :
    (identities ++ delimiter :: after).takeWhile (· ≠ delimiter) = identities := by
  rw [List.takeWhile_append_of_pos, List.takeWhile_cons_of_neg (by simp), List.append_nil]
  intro part hpart
  simpa using ne_of_mem_of_not_mem hpart h

theorem dropWhile_identities {identities : List Bytes} (h : delimiter ∉ identities)
    (after : List Bytes) :
    (identities ++ delimiter :: after).dropWhile (· ≠ delimiter) = delimiter :: after := by
  rw [List.dropWhile_append_of_pos, List.dropWhile_cons_of_neg (by simp)]
  intro part hpart
  simpa using ne_of_mem_of_not_mem hpart h

/-- Parts with a delimiter are split at the first one. -/
theorem ofParts_split {identities : List Bytes} (h : delimiter ∉ identities)
    (after : List Bytes) :
    ofParts (identities ++ delimiter :: after) =
      match SignedFrames.ofList? after with
      | none => .error (.cutShort after.length)
      | some frames => .ok ⟨identities, frames⟩ := by
  cases hframes : SignedFrames.ofList? after with
  | none => simp only [ofParts, dropWhile_identities h, hframes]
  | some frames => simp only [ofParts, dropWhile_identities h, takeWhile_identities h, hframes]

theorem ofParts_of_not_mem {parts : List Bytes} (h : delimiter ∉ parts) :
    ofParts parts = .error (.noDelimiter parts.length) := by
  have hdrop : parts.dropWhile (· ≠ delimiter) = [] := by
    rw [List.dropWhile_eq_nil_iff]
    intro part hpart
    simpa using ne_of_mem_of_not_mem hpart h
  rw [ofParts, hdrop]

/-- Parts are read to an envelope exactly where they start with its parts. -/
theorem ofParts_eq_ok_iff {parts : List Bytes} {envelope : Envelope Bytes} :
    ofParts parts = .ok envelope ↔
      delimiter ∉ envelope.identities ∧ ∃ more, parts = envelope.parts ++ more := by
  constructor
  · intro h
    by_cases hmem : delimiter ∈ parts
    · obtain ⟨identities, after, rfl, hidentities⟩ := List.eq_append_cons_of_mem hmem
      rw [ofParts_split hidentities] at h
      split at h
      · cases h
      · next frames hframes =>
        cases h
        obtain ⟨more, rfl⟩ := SignedFrames.ofList?_eq_some_iff.1 hframes
        exact ⟨hidentities, more, by simp [parts, joined]⟩
    · rw [ofParts_of_not_mem hmem] at h
      cases h
  · rintro ⟨hidentities, more, rfl⟩
    rw [show envelope.parts ++ more =
        envelope.identities ++ delimiter :: (envelope.frames.toList ++ more) by
      simp [parts, joined], ofParts_split hidentities, SignedFrames.ofList?_toList_append]

/-- Parts are refused exactly where there is no delimiter or too little behind the first. -/
theorem ofParts_eq_error_iff {parts : List Bytes} {fault : FramingFault} :
    ofParts parts = .error fault ↔
      (delimiter ∉ parts ∧ fault = .noDelimiter parts.length) ∨
        ∃ identities after, parts = identities ++ delimiter :: after ∧
          delimiter ∉ identities ∧ after.length < 5 ∧ fault = .cutShort after.length := by
  constructor
  · intro h
    by_cases hmem : delimiter ∈ parts
    · obtain ⟨identities, after, rfl, hidentities⟩ := List.eq_append_cons_of_mem hmem
      rw [ofParts_split hidentities] at h
      split at h
      · next hshort =>
        cases h
        exact .inr ⟨identities, after, rfl, hidentities, SignedFrames.ofList?_eq_none_iff.1 hshort,
          rfl⟩
      · cases h
    · rw [ofParts_of_not_mem hmem] at h
      cases h
      exact .inl ⟨hmem, rfl⟩
  · rintro (⟨hmem, rfl⟩ | ⟨identities, after, rfl, hidentities, hshort, rfl⟩)
    · exact ofParts_of_not_mem hmem
    · rw [ofParts_split hidentities, SignedFrames.ofList?_eq_none_iff.2 hshort]

/-- Joining and splitting undo each other where no identity is the delimiter. -/
theorem ofParts_parts {envelope : Envelope Bytes} (h : delimiter ∉ envelope.identities) :
    ofParts envelope.parts = .ok envelope :=
  ofParts_eq_ok_iff.2 ⟨h, [], by simp⟩

/-- Identities and frames are joined to the parts of their envelope. -/
theorem join_bytes (identities : List Bytes) (frames : SignedFrames Bytes) :
    join (identities.map .bytes) (frames.toList.map .bytes) =
      .ok ((parts ⟨identities, frames⟩).map .bytes) := by
  rw [join, if_pos (by rw [List.length_map, SignedFrames.toList_length]), parts, joined,
    List.map_append, List.map_cons]

/-- What is joined is split again, where no identity is the delimiter. -/
theorem ofValues_parts {identities : List Bytes} (frames : SignedFrames Bytes)
    (h : delimiter ∉ identities) :
    ofValues ((parts ⟨identities, frames⟩).map .bytes) = .ok ⟨identities, frames⟩ := by
  rw [ofValues_bytes, ofParts_parts h]
  rfl

/-! ### The envelope that parts hold -/

/-- Whether parts hold an envelope: they start with its identities, the delimiter and its
frames, and no identity is the delimiter. -/
def Holds (parts : List Bytes) (envelope : Envelope Bytes) : Prop :=
  delimiter ∉ envelope.identities ∧
    ∃ more, parts = envelope.identities ++ delimiter :: envelope.frames.toList ++ more

theorem ofValues_eq_ok_iff {parts : List Bytes} {envelope : Envelope Bytes} :
    ofValues (parts.map .bytes) = .ok envelope ↔ Holds parts envelope := by
  have hparts : ofValues (parts.map .bytes) = .ok envelope ↔ ofParts parts = .ok envelope := by
    rw [ofValues_bytes]
    cases ofParts parts <;> simp [Except.mapError]
  rw [hparts, ofParts_eq_ok_iff]
  rfl

/-- What cannot be split is refused as frames that hold no message. -/
theorem ofValues_refused (parts : List Bytes) (h : ∀ envelope, ¬ Holds parts envelope) :
    ∃ fault, ofValues (parts.map .bytes) = .error fault ∧
      fault.report.category = .malformedFrames := by
  cases hsplit : ofValues (parts.map .bytes) with
  | ok envelope => exact absurd (ofValues_eq_ok_iff.1 hsplit) (h envelope)
  | error fault =>
      rw [ofValues_bytes] at hsplit
      cases hparts : ofParts parts with
      | ok envelope =>
          rw [hparts] at hsplit
          cases hsplit
      | error cause =>
          rw [hparts] at hsplit
          cases hsplit
          exact ⟨_, rfl, rfl⟩

/-- Parts hold one envelope at most. -/
theorem Holds.unique {parts : List Bytes} {first second : Envelope Bytes}
    (hfirst : Holds parts first) (hsecond : Holds parts second) : first = second :=
  Except.ok.inj ((ofValues_eq_ok_iff.2 hfirst).symm.trans (ofValues_eq_ok_iff.2 hsecond))

/-- The parts of an envelope are as many of those that hold it as count. -/
theorem Holds.take_eq {parts : List Bytes} {envelope : Envelope Bytes} (h : Holds parts envelope) :
    parts.take (envelope.identities.length + 6) = envelope.parts := by
  obtain ⟨-, more, rfl⟩ := h
  have hlength : envelope.parts.length = envelope.identities.length + 6 := by
    rw [Envelope.parts, joined, List.length_append, List.length_cons, SignedFrames.toList_length]
  exact List.take_left' hlength

/-- What was joined behind an identity that is the delimiter is split at the first such
identity: those behind it count as frames. -/
theorem ofValues_of_delimiter {before : List Bytes} (h : delimiter ∉ before) (after : List Bytes)
    (frames : SignedFrames Bytes) :
    ∃ shifted : SignedFrames Bytes,
      ofValues ((parts ⟨before ++ delimiter :: after, frames⟩).map .bytes) =
          .ok ⟨before, shifted⟩ ∧
        shifted.toList = (after ++ delimiter :: frames.toList).take 5 := by
  -- Behind the first delimiter stand at least a delimiter and five frames.
  cases hshifted : SignedFrames.ofList? (after ++ delimiter :: frames.toList) with
  | none =>
      have hshort := SignedFrames.ofList?_eq_none_iff.1 hshifted
      rw [List.length_append, List.length_cons, SignedFrames.toList_length] at hshort
      omega
  | some shifted =>
      obtain ⟨more, hmore⟩ := SignedFrames.ofList?_eq_some_iff.1 hshifted
      refine ⟨shifted, ofValues_eq_ok_iff.2 ⟨h, more, ?_⟩, ?_⟩
      · rw [parts, joined, List.append_assoc, List.cons_append, hmore, List.append_assoc,
          List.cons_append]
      · rw [hmore, List.take_left' shifted.toList_length]

/-! ### Splitting and joining -/

/-- How parts are split, and joined again. -/
structure SplitsExactly (parts : List Bytes) : Prop where
  /-- They are split to an envelope exactly if they hold it. -/
  split {envelope : Envelope Bytes} :
    ofValues (parts.map .bytes) = .ok envelope ↔ Holds parts envelope
  /-- They are refused as malformed exactly if they hold none. -/
  refused : (∃ fault, ofValues (parts.map .bytes) = .error fault ∧
    fault.report.category = .malformedFrames) ↔ ∀ envelope, ¬ Holds parts envelope
  /-- They hold one at most. -/
  unique {first second : Envelope Bytes} : Holds parts first → Holds parts second →
    first = second
  /-- Joining what they were split to gives them without the frames that do not count, and
  splitting that gives the same again. -/
  rejoined {envelope : Envelope Bytes} : ofValues (parts.map .bytes) = .ok envelope →
    ∃ again, join (envelope.identities.map .bytes) (envelope.frames.toList.map .bytes) =
        .ok again ∧
      again = (parts.take (envelope.identities.length + 6)).map .bytes ∧
      ofValues again = .ok envelope

/-- How what was joined is split. -/
structure JoinsExactly (identities : List Bytes) (frames : SignedFrames Bytes)
    (parts : List Value) : Prop where
  joined : join (identities.map .bytes) (frames.toList.map .bytes) = .ok parts
  /-- It comes back exactly if no identity is the delimiter. -/
  split : ofValues parts = .ok ⟨identities, frames⟩ ↔ delimiter ∉ identities
  /-- If one is, those before the first such identity come back, and what stands behind that
  is taken for the frames. -/
  shifted {before after : List Bytes} : identities = before ++ delimiter :: after →
    delimiter ∉ before → ∃ shifted : SignedFrames Bytes, ofValues parts = .ok ⟨before, shifted⟩ ∧
      shifted.toList = (after ++ delimiter :: frames.toList).take 5

/-- Splitting and joining undo each other exactly where they can. -/
theorem split_and_join : (∀ parts, SplitsExactly parts) ∧
    ∀ identities frames, ∃ parts, JoinsExactly identities frames parts := by
  refine ⟨fun parts => ?_, fun identities frames => ⟨_, join_bytes identities frames, ?_, ?_⟩⟩
  · constructor
    case split => exact ofValues_eq_ok_iff
    case refused =>
      refine ⟨fun ⟨fault, hfault, _⟩ envelope hholds => ?_, ofValues_refused parts⟩
      cases hfault.symm.trans (ofValues_eq_ok_iff.2 hholds)
    case unique => exact Holds.unique
    case rejoined =>
      intro envelope hsplit
      have hholds := ofValues_eq_ok_iff.1 hsplit
      refine ⟨_, join_bytes _ _, ?_, ofValues_parts _ hholds.1⟩
      rw [hholds.take_eq]
  · refine ⟨fun hsplit => ?_, ofValues_parts frames⟩
    exact (ofValues_eq_ok_iff.1 hsplit).1
  · rintro before after rfl hbefore
    exact ofValues_of_delimiter hbefore after frames

end SignedMessaging.Envelope
