import SignedMessaging.Proofs.Json.Positions
import SignedMessaging.Proofs.Json.PrefixFree
import SignedMessaging.Proofs.Message.FrameDecoding

/-!
# Encoding frame by frame

What is encoded is portable, provided that no two keys of a dictionary in it are equal
(`WellKeyed`), which is what makes a list of entries a dictionary.  The document is one of
the normal form.  The reader takes it back exactly within its own depth
(`denotes_encodeValue_iff`), and the normal form is encoded alike exactly within the
writer's (`encodeValue_normal`).  A header is encoded as the entries of its four members,
which are found again under their names.
-/

namespace SignedMessaging

namespace Value

/-! ### What is encoded is portable -/

theorem nonFiniteIn?_eq_none_iff {items : List Value} :
    nonFiniteIn? items = none ↔ ∀ item ∈ items, nonFinite? item = none := by
  rw [nonFiniteIn?_eq, List.findSome?_eq_none_iff]

theorem nonFiniteUnder?_eq_none_iff {entries : List (Value × Value)} :
    nonFiniteUnder? entries = none ↔ ∀ entry ∈ entries, nonFinite? entry.2 = none := by
  rw [nonFiniteUnder?_eq, List.findSome?_eq_none_iff]

theorem hasForm_of_write {v : Value} {level : Nat} {cs : List Char}
    (h : Json.writeValue level v = .ok cs) (hfinite : v.nonFinite? = none)
    (hscalar : v.IsScalar) : v.HasForm := by
  cases v with
  | null | bool _ | text _ | list _ | tuple _ => trivial
  | int n =>
      rw [Json.writeValue] at h
      split at h
      · assumption
      · cases h
  | float x =>
      rw [nonFinite?] at hfinite
      split at hfinite
      · assumption
      · cases hfinite
  | dictionary _ => exact hscalar.elim
  | bytes _ | emptySet | object | complexZero => cases h

/-- A value that is written is portable, if its doubles are finite and its keys distinct. -/
theorem portable_of_write {v : Value} (hkeyed : v.WellKeyed) (hfinite : v.nonFinite? = none)
    {level : Nat} {cs : List Char} (h : Json.writeValue level v = .ok cs) : v.Portable := by
  -- A part is written at a level of its own, so the level must be free in the induction.
  induction v using parts_induction generalizing level cs with
  | list items ih =>
      obtain ⟨-, hkeyed⟩ := everywhere_list_iff.1 hkeyed
      obtain ⟨parts, hparts, -⟩ := Json.writeValue_list_eq_ok h
      rw [nonFinite?, nonFiniteIn?_eq_none_iff] at hfinite
      refine portable_list_iff.2 fun item hitem => ?_
      obtain ⟨part, hpart⟩ := Json.exists_write_of_mem hparts hitem
      exact ih item hitem (hkeyed item hitem) (hfinite item hitem) hpart
  | tuple items ih =>
      obtain ⟨-, hkeyed⟩ := everywhere_tuple_iff.1 hkeyed
      obtain ⟨parts, hparts, -⟩ := Json.writeValue_tuple_eq_ok h
      rw [nonFinite?, nonFiniteIn?_eq_none_iff] at hfinite
      refine portable_tuple_iff.2 fun item hitem => ?_
      obtain ⟨part, hpart⟩ := Json.exists_write_of_mem hparts hitem
      exact ih item hitem (hkeyed item hitem) (hfinite item hitem) hpart
  | dictionary entries ih =>
      obtain ⟨hdistinct, hkeyed⟩ := everywhere_dictionary_iff.1 hkeyed
      obtain ⟨parts, hparts, -⟩ := Json.writeValue_dictionary_eq_ok h
      rw [nonFinite?, nonFiniteUnder?_eq_none_iff] at hfinite
      refine portable_dictionary_iff.2 ⟨⟨fun entry hentry => ?_, hdistinct entries rfl⟩,
        fun entry hentry => ?_⟩
      · exact (Json.exists_write_of_mem_members hparts hentry).1
      · obtain ⟨-, part, hpart⟩ := Json.exists_write_of_mem_members hparts hentry
        exact ih entry hentry (hkeyed entry hentry) (hfinite entry hentry) hpart
  | scalar v hscalar =>
      exact (everywhere_scalar_iff hscalar).2 (hasForm_of_write h hfinite hscalar)

/-- No double in a portable value is infinite or no number. -/
theorem nonFinite?_of_portable {v : Value} (h : v.Portable) : v.nonFinite? = none := by
  induction v using parts_induction with
  | list items ih =>
      rw [portable_list_iff] at h
      exact nonFiniteIn?_eq_none_iff.2 fun item hitem => ih item hitem (h item hitem)
  | tuple items ih =>
      rw [portable_tuple_iff] at h
      exact nonFiniteIn?_eq_none_iff.2 fun item hitem => ih item hitem (h item hitem)
  | dictionary entries ih =>
      obtain ⟨-, hvalues⟩ := portable_dictionary_iff.1 h
      exact nonFiniteUnder?_eq_none_iff.2 fun entry hentry =>
        ih entry hentry (hvalues entry hentry)
  | scalar v hscalar =>
      rw [Portable, everywhere_scalar_iff hscalar] at h
      cases v with
      | float x => exact if_pos h
      | list _ | tuple _ | dictionary _ => exact hscalar.elim
      | _ => rfl

end Value

namespace Message

open Json (Denotes Means)

/-! ### Values -/

theorem encodeValue_eq_ok_iff {v : Value} {document : Bytes} :
    encodeValue v = .ok document ↔ v.nonFinite? = none ∧
      ∃ cs, Json.writeValue 0 v = .ok cs ∧ document = Bytes.ofText (String.ofList cs) := by
  unfold encodeValue Json.write
  cases v.nonFinite? with
  | some x => simp
  | none =>
      rw [and_iff_right rfl, Outcome.mapError_eq_ok_iff, Outcome.map_eq_ok_iff]
      exact exists_congr fun cs => and_congr_right' eq_comm

theorem portable_of_encodeValue {v : Value} {document : Bytes}
    (h : encodeValue v = .ok document) (hkeyed : v.WellKeyed) : v.Portable := by
  obtain ⟨hfinite, cs, hcs, -⟩ := encodeValue_eq_ok_iff.1 h
  exact Value.portable_of_write hkeyed hfinite hcs

theorem write_of_encodeValue {v : Value} {document : Bytes} (h : encodeValue v = .ok document) :
    Json.write v = .ok document := by
  obtain ⟨-, cs, hcs, rfl⟩ := encodeValue_eq_ok_iff.1 h
  rw [Json.write, hcs]
  rfl

theorem means_of_encodeValue {v : Value} {document : Bytes} (h : encodeValue v = .ok document)
    (hkeyed : v.WellKeyed) : Means document v.normal :=
  Json.means_of_write (portable_of_encodeValue h hkeyed) (write_of_encodeValue h)

/-- The reader takes an encoded value exactly if it is not too deep for it. -/
theorem denotes_encodeValue_iff {v : Value} {document : Bytes}
    (h : encodeValue v = .ok document) (hkeyed : v.WellKeyed) :
    Denotes document v.normal ↔ v.nesting ≤ Json.readDepth :=
  Json.denotes_write_iff (portable_of_encodeValue h hkeyed) (write_of_encodeValue h)

/-- The normal form is encoded alike exactly if it is not too deep for the writer, and else
it is refused as too deep. -/
theorem encodeValue_normal {v : Value} {document : Bytes} (h : encodeValue v = .ok document)
    (hkeyed : v.WellKeyed) : encodeValue v.normal =
      if v.nesting ≤ Json.writeDepth then .ok document
      else .error (.unwritable .tooDeep) := by
  have hportable := portable_of_encodeValue h hkeyed
  obtain ⟨-, cs, hcs, rfl⟩ := encodeValue_eq_ok_iff.1 h
  have hwrite := Json.rewritten_of_portable hportable hcs (Nat.zero_le Json.writeDepth)
  rw [encodeValue, Value.nonFinite?_of_portable (Value.portable_normal hportable), Json.write,
    hwrite, Nat.zero_add]
  by_cases hnesting : v.nesting ≤ Json.writeDepth
  · rw [if_pos hnesting, if_pos hnesting]
    rfl
  · rw [if_neg hnesting, if_neg hnesting]
    rfl

/-- A value that is encoded and has no tuple in it is within the writer's depth. -/
theorem nesting_le_of_encodeValue {v : Value} {document : Bytes}
    (h : encodeValue v = .ok document) (hkeyed : v.WellKeyed) (htuples : v.TupleFree) :
    v.nesting ≤ Json.writeDepth := by
  have hnormal := encodeValue_normal h hkeyed
  -- The value is its own normal form, and that it is encoded is known.
  rw [Value.normal_of_tupleFree htuples, h] at hnormal
  by_contra hdeep
  rw [if_neg hdeep] at hnormal
  cases hnormal

/-! ### Headers -/

/-- A header whose members are texts, which is one that can be sent. -/
def Textual (header : Header) : Prop :=
  ∀ key, ∃ s, header.get key = .text s

theorem encodeHeader_eq_ok_iff {slot : HeaderSlot} {document : Bytes} :
    encodeHeader slot = .ok document ↔ ∃ header, slot = .header header ∧ Textual header ∧
      encodeValue (.dictionary (headerEntries header)) = .ok document := by
  cases slot with
  | other v => simp [encodeHeader]
  | header header =>
      have htextual : (HeaderKey.all.find? fun key => (header.get key).text?.isNone) = none ↔
          Textual header := by
        rw [List.find?_eq_none]
        refine ⟨fun h key => ?_, fun h key _ => ?_⟩
        · have hsome : (header.get key).text? ≠ none := by
            simpa using h key (HeaderKey.mem_all key)
          obtain ⟨s, hs⟩ := Option.ne_none_iff_exists'.1 hsome
          exact ⟨s, Value.text?_eq_some_iff.1 hs⟩
        · obtain ⟨s, hs⟩ := h key
          simp [hs, Value.text?]
      rw [encodeHeader]
      cases hfind : HeaderKey.all.find? fun key => (header.get key).text?.isNone with
      | some key =>
          refine iff_of_false (by simp) ?_
          rintro ⟨_, ⟨⟩, hheader, -⟩
          rw [htextual.2 hheader] at hfind
          cases hfind
      | none => simp [htextual.1 hfind]

variable {header : Header}

theorem forall_mem_headerEntries {P : Value × Value → Prop} :
    (∀ entry ∈ headerEntries header, P entry) ↔ ∀ key, P (.text key.name, header.get key) := by
  rw [headerEntries, List.forall_mem_map]
  exact ⟨fun h key => h key (HeaderKey.mem_all key), fun h key _ => h key⟩

theorem distinctKeys_headerEntries : Value.DistinctKeys (headerEntries header) := by
  rw [Value.DistinctKeys, headerEntries, List.pairwise_map]
  simp only [Value.same_text]
  decide

theorem wellKeyed_headerEntries (h : Textual header) :
    (Value.dictionary (headerEntries header)).WellKeyed := by
  rw [Value.WellKeyed, Value.everywhere_dictionary_iff]
  refine ⟨fun entries hentries => ?_, forall_mem_headerEntries.2 fun key => ?_⟩
  · cases hentries
    exact distinctKeys_headerEntries
  · obtain ⟨s, hs⟩ := h key
    rw [hs]
    exact fun entries hentries => by cases hentries

theorem normal_headerEntries (h : Textual header) :
    (Value.dictionary (headerEntries header)).normal = .dictionary (headerEntries header) := by
  have heach : ∀ entry ∈ headerEntries header, (entry.1, entry.2.normal) = entry := by
    refine forall_mem_headerEntries.2 fun key => ?_
    obtain ⟨s, hs⟩ := h key
    rw [hs]
    rfl
  rw [Value.normal, Value.normalEntries_eq_map, List.map_congr_left heach, List.map_id']

theorem nesting_headerEntries (h : Textual header) :
    (Value.dictionary (headerEntries header)).nesting ≤ 1 := by
  rw [Value.nesting]
  refine Nat.succ_le_succ (Value.nestingUnder_le_iff.2 (forall_mem_headerEntries.2 fun key => ?_))
  obtain ⟨s, hs⟩ := h key
  rw [hs]
  exact Nat.le_refl _

/-- The members of a header are found in its entries. -/
theorem decodeMember_headerEntries (h : Textual header) (key : HeaderKey) :
    decodeMember (headerEntries header) key = .ok (header.get key) := by
  obtain ⟨s, hs⟩ := h key
  have hfind : (headerEntries header).find? key.name = some (header.get key) := by
    cases key <;>
      simp [headerEntries, HeaderKey.all, Entries.find?, Value.same_text, HeaderKey.name]
  rw [decodeMember, hfind, hs]

end Message

end SignedMessaging
