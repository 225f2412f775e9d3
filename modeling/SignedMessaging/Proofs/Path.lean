import SignedMessaging.Path
import SignedMessaging.Proofs.Outcome

/-!
# Paths and their octets

A path has octets exactly if each of its surrogates stands for one (`exists_octets_iff`), as it
is for every text (`octets_ofText`).  Of the others the first such surrogate is told
(`octets_of_stray`).  A zero is among the octets only where the path has a zero character,
since neither a surrogate nor another character stands for any (`zero_mem_octets_iff`).
-/

namespace SignedMessaging

namespace Surrogate

/-- Whether a surrogate stands for an octet. -/
def Escapes (s : Surrogate) : Prop :=
  0xdc80 ≤ s.code ∧ s.code ≤ 0xdcff

variable {s : Surrogate} {octet : UInt8}

theorem octet?_of_escapes (h : s.Escapes) : s.octet? = some (UInt8.ofNat (s.code - 0xdc00)) :=
  if_pos h

theorem octet?_of_not_escapes (h : ¬ s.Escapes) : s.octet? = none :=
  if_neg h

theorem ne_zero_of_octet? (h : s.octet? = some octet) : octet ≠ 0 := by
  by_cases hescapes : s.Escapes
  · rw [octet?_of_escapes hescapes, Option.some.injEq] at h
    rintro rfl
    have hzero := congrArg UInt8.toNat h
    rw [UInt8.toNat_ofNat', UInt8.toNat_zero] at hzero
    have := hescapes.1
    have := hescapes.2
    omega
  · rw [octet?_of_not_escapes hescapes] at h
    cases h

end Surrogate

/-- Only the zero character has a zero among its bytes. -/
theorem Bytes.zero_mem_utf8EncodeChar_iff {c : Char} :
    0 ∈ String.utf8EncodeChar c ↔ c = '\x00' := by
  constructor
  · intro h
    rcases Bytes.toNat_of_mem_utf8EncodeChar h with hcode | hbeyond
    · exact Char.toNat_inj.1 hcode.symm
    · exact absurd hbeyond (by decide)
  · rintro rfl
    decide

namespace Path

/-- Whether every surrogate of a path stands for an octet. -/
def Encodable (path : Path) : Prop :=
  ∀ s, .surrogate s ∈ path → s.Escapes

variable {path before after : Path} {position : Nat} {bytes : Bytes}

@[simp]
theorem encodable_nil : Encodable [] := by
  simp [Encodable]

@[simp]
theorem encodable_cons_character {c : Char} :
    Encodable (.character c :: after) ↔ Encodable after := by
  simp [Encodable]

@[simp]
theorem encodable_cons_surrogate {s : Surrogate} :
    Encodable (.surrogate s :: after) ↔ s.Escapes ∧ Encodable after := by
  simp [Encodable]

theorem exists_octetsFrom (h : path.Encodable) (position : Nat) :
    ∃ bytes, octetsFrom position path = .ok bytes := by
  induction path generalizing position with
  | nil => exact ⟨[], rfl⟩
  | cons point rest ih =>
      cases point with
      | character c =>
          obtain ⟨bytes, hbytes⟩ := ih (encodable_cons_character.1 h) (position + 1)
          rw [octetsFrom, hbytes]
          exact ⟨_, rfl⟩
      | surrogate s =>
          obtain ⟨hescapes, hrest⟩ := encodable_cons_surrogate.1 h
          obtain ⟨bytes, hbytes⟩ := ih hrest (position + 1)
          rw [octetsFrom, Surrogate.octet?_of_escapes hescapes, hbytes]
          exact ⟨_, rfl⟩

/-- Where a path is not encodable, there is a first surrogate that stands for no octet. -/
theorem exists_stray (h : ¬ path.Encodable) : ∃ before s after,
    path = before ++ .surrogate s :: after ∧ Encodable before ∧ ¬ s.Escapes := by
  induction path with
  | nil => exact absurd encodable_nil h
  | cons point rest ih =>
      cases point with
      | character c =>
          rw [encodable_cons_character] at h
          obtain ⟨before, s, after, rfl, hbefore, hs⟩ := ih h
          exact ⟨.character c :: before, s, after, rfl, encodable_cons_character.2 hbefore, hs⟩
      | surrogate first =>
          by_cases hfirst : first.Escapes
          · rw [encodable_cons_surrogate, not_and] at h
            obtain ⟨before, s, after, rfl, hbefore, hs⟩ := ih (h hfirst)
            exact ⟨.surrogate first :: before, s, after, rfl,
              encodable_cons_surrogate.2 ⟨hfirst, hbefore⟩, hs⟩
          · exact ⟨[], first, rest, rfl, encodable_nil, hfirst⟩

theorem octetsFrom_of_stray {s : Surrogate} (hbefore : Encodable before) (hs : ¬ s.Escapes) :
    octetsFrom position (before ++ .surrogate s :: after) =
      .error ⟨position + before.length, s, (after.takeWhile CodePoint.isSurrogate).length⟩ := by
  induction before generalizing position with
  | nil =>
      rw [List.nil_append, octetsFrom, Surrogate.octet?_of_not_escapes hs]
      rfl
  | cons point rest ih =>
      have hposition : position + 1 + rest.length = position + (point :: rest).length := by
        rw [List.length_cons]
        omega
      cases point with
      | character c =>
          rw [List.cons_append, octetsFrom, ih (encodable_cons_character.1 hbefore), hposition]
          rfl
      | surrogate first =>
          obtain ⟨hfirst, hrest⟩ := encodable_cons_surrogate.1 hbefore
          rw [List.cons_append, octetsFrom, Surrogate.octet?_of_escapes hfirst, ih hrest,
            hposition]
          rfl

/-- The first surrogate that stands for no octet is what keeps a path from having octets. -/
theorem octets_of_stray {s : Surrogate} (hbefore : Encodable before) (hs : ¬ s.Escapes) :
    octets (before ++ .surrogate s :: after) =
      .error ⟨before.length, s, (after.takeWhile CodePoint.isSurrogate).length⟩ := by
  rw [octets, octetsFrom_of_stray hbefore hs, Nat.zero_add]

/-- A path has octets exactly if each of its surrogates stands for one. -/
theorem exists_octets_iff : (∃ bytes, path.octets = .ok bytes) ↔ path.Encodable := by
  constructor
  · rintro ⟨bytes, hbytes⟩
    by_cases h : path.Encodable
    · exact h
    · obtain ⟨before, s, after, rfl, hbefore, hs⟩ := exists_stray h
      cases hbytes.symm.trans (octets_of_stray hbefore hs)
  · exact fun h => exists_octetsFrom h 0

theorem zero_mem_octetsFrom_iff (h : octetsFrom position path = .ok bytes) :
    0 ∈ bytes ↔ .character '\x00' ∈ path := by
  induction path generalizing position bytes with
  | nil =>
      cases h
      exact iff_of_false List.not_mem_nil List.not_mem_nil
  | cons point rest ih =>
      cases point with
      | character c =>
          obtain ⟨others, hrest, rfl⟩ := Outcome.map_eq_ok_iff.1 h
          rw [List.mem_append, Bytes.zero_mem_utf8EncodeChar_iff, ih hrest, List.mem_cons,
            CodePoint.character.injEq, eq_comm]
      | surrogate s =>
          rw [octetsFrom] at h
          split at h
          · next octet hoctet =>
              obtain ⟨others, hrest, rfl⟩ := Outcome.map_eq_ok_iff.1 h
              have hne : 0 ≠ octet := (Surrogate.ne_zero_of_octet? hoctet).symm
              simp [ih hrest, hne]
          · cases h

/-- Zero is among the octets of a path exactly if the path has a zero character. -/
theorem zero_mem_octets_iff (h : path.octets = .ok bytes) :
    0 ∈ bytes ↔ .character '\x00' ∈ path :=
  zero_mem_octetsFrom_iff h

theorem octetsFrom_map_character (cs : List Char) :
    octetsFrom position (cs.map .character) = .ok (cs.flatMap String.utf8EncodeChar) := by
  induction cs generalizing position with
  | nil => rfl
  | cons c rest ih =>
      rw [List.map_cons, octetsFrom, ih]
      rfl

/-- The octets of a text are its UTF-8 form. -/
theorem octets_ofText (text : String) : (ofText text).octets = .ok (Bytes.ofText text) := by
  rw [octets, ofText, octetsFrom_map_character, ← Bytes.ofText_ofList, String.ofList_toList]

end Path

end SignedMessaging
