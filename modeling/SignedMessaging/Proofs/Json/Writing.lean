import SignedMessaging.Json.Writer
import SignedMessaging.Proofs.Json.DocumentReading
import SignedMessaging.Proofs.Json.NumberWriting
import SignedMessaging.Proofs.Outcome
import SignedMessaging.Proofs.Value.Normal

/-!
# Writing documents

What is written of a portable value spells its normal form, to the depth of the value
(`writtenNormal_of_portable`): texts and numbers have their own spellings, and the commas
and brackets of the writer are those of the grammar.

The level at which a value is written decides whether it is refused, never what is
written.  The normal form has no tuples, at which the count of levels could start again,
so it is refused exactly where it nests deeper than the levels that are left, and else
written like the value itself (`rewritten_of_portable`).
-/

namespace SignedMessaging.Json

/-! ### Texts -/

theorem hexDigit_hexChar {n : Nat} (hn : n < 16) : HexDigit n (hexChar n) :=
  ⟨hn, .inl rfl⟩

/-- A control is written by its code in four digits, of which two are zeros. -/
theorem control_spells {c : Char} (hcontrol : c.toNat < 0x20) :
    CharacterText c
      ['\\', 'u', '0', '0', hexChar (c.toNat / 16), hexChar (c.toNat % 16)] := by
  have hzero : HexDigit 0 '0' := hexDigit_hexChar (by decide)
  have hunit := CodeUnit.digits hzero hzero (hexDigit_hexChar (show c.toNat / 16 < 16 by omega))
    (hexDigit_hexChar (show c.toNat % 16 < 16 by omega))
  rw [show 0 * 4096 + 0 * 256 + c.toNat / 16 * 16 + c.toNat % 16 = c.toNat by omega] at hunit
  have hspells := CharacterText.unit hunit (fun hhigh => by unfold IsHighSurrogate at hhigh; omega)
    (fun hlow => by unfold IsLowSurrogate at hlow; omega)
  rwa [Char.ofNat_toNat] at hspells

/-- Every character is written as one of its spellings. -/
theorem escape_spells (c : Char) : CharacterText c (escape c) := by
  by_cases hletter : c ∈ ['"', '\\', '\x08', '\t', '\n', '\x0c', '\r']
  · simp only [List.mem_cons, List.not_mem_nil, or_false] at hletter
    rcases hletter with rfl | rfl | rfl | rfl | rfl | rfl | rfl <;>
      exact .letter (by decide)
  · simp only [List.mem_cons, List.not_mem_nil, or_false, not_or] at hletter
    obtain ⟨hquote, hbackslash, hbackspace, htab, hnewline, hfeed, hreturn⟩ := hletter
    simp only [escape, hquote, hbackslash, hbackspace, htab, hnewline, hfeed, hreturn, if_false]
    split
    · next hcontrol => exact control_spells hcontrol
    · next hcontrol => exact .plain hquote hbackslash (Nat.le_of_not_lt hcontrol)

theorem flatMap_escape_spells (cs : List Char) : CharactersText cs (cs.flatMap escape) := by
  induction cs with
  | nil => exact .nil
  | cons c cs ih => exact .cons (escape_spells c) ih

/-- A text is written as a spelling of it. -/
theorem writeText_spells (cs : List Char) : QuotedText cs (writeText cs) :=
  .quotes (flatMap_escape_spells cs)

/-! ### Items and members -/

/-- An entry as it is written. -/
def writeMember (level : Nat) (entry : Value × Value) : Except WriteFault (List Char) :=
  match entry.1.text? with
  | none => .error .keyNotText
  | some s => (writeValue level entry.2).map fun written => writeText s.toList ++ ':' :: written

theorem writeItems_eq_mapM (level : Nat) (items : List Value) :
    writeItems level items = items.mapM (writeValue level) := by
  induction items with
  | nil => rfl
  | cons item items ih =>
      rw [writeItems, List.mapM_cons, ← ih]
      cases writeValue level item with
      | error _ => rfl
      | ok _ => cases writeItems level items <;> rfl

theorem writeMembers_eq_mapM (level : Nat) (entries : Entries) :
    writeMembers level entries = entries.mapM (writeMember level) := by
  induction entries with
  | nil => rfl
  | cons entry entries ih =>
      obtain ⟨key, value⟩ := entry
      rw [writeMembers, List.mapM_cons, ← ih, writeMember]
      cases key.text? with
      | none => rfl
      | some s =>
          cases writeValue level value with
          | error _ => rfl
          | ok _ => cases writeMembers level entries <;> rfl

theorem writeMember_eq_ok_iff {level : Nat} {entry : Value × Value} {cs : List Char} :
    writeMember level entry = .ok cs ↔ ∃ s written, entry.1 = .text s ∧
      writeValue level entry.2 = .ok written ∧ cs = writeText s.toList ++ ':' :: written := by
  unfold writeMember
  cases hkey : entry.1.text? with
  | none =>
      refine iff_of_false (by simp) ?_
      rintro ⟨s, written, htext, -, -⟩
      rw [Value.text?_eq_some_iff.2 htext] at hkey
      cases hkey
  | some s =>
      rw [Value.text?_eq_some_iff] at hkey
      rw [Outcome.map_eq_ok_iff]
      constructor
      · rintro ⟨written, hwritten, rfl⟩
        exact ⟨s, written, hkey, hwritten, rfl⟩
      · rintro ⟨t, written, htext, hwritten, rfl⟩
        cases hkey.symm.trans htext
        exact ⟨written, hwritten, rfl⟩

theorem writeItems_eq_ok_iff {level : Nat} {items : List Value} {parts : List (List Char)} :
    writeItems level items = .ok parts ↔
      List.Forall₂ (fun item part => writeValue level item = .ok part) items parts := by
  rw [writeItems_eq_mapM, Outcome.mapM_eq_ok_iff]

theorem writeMembers_eq_ok_iff {level : Nat} {entries : Entries} {parts : List (List Char)} :
    writeMembers level entries = .ok parts ↔
      List.Forall₂ (fun entry part => writeMember level entry = .ok part) entries parts := by
  rw [writeMembers_eq_mapM, Outcome.mapM_eq_ok_iff]

/-- Where items are written, each of them is. -/
theorem exists_write_of_mem {level : Nat} {items : List Value} {parts : List (List Char)}
    (h : writeItems level items = .ok parts) {item : Value} (hitem : item ∈ items) :
    ∃ part, writeValue level item = .ok part := by
  obtain ⟨part, -, hpart⟩ := Outcome.exists_of_mem_right (writeItems_eq_ok_iff.1 h).flip hitem
  exact ⟨part, hpart⟩

/-- Where entries are written, each has a text for its key and a value that is written. -/
theorem exists_write_of_mem_members {level : Nat} {entries : Entries} {parts : List (List Char)}
    (h : writeMembers level entries = .ok parts) {entry : Value × Value}
    (hentry : entry ∈ entries) :
    (∃ s, entry.1 = .text s) ∧ ∃ part, writeValue level entry.2 = .ok part := by
  obtain ⟨part, -, hpart⟩ := Outcome.exists_of_mem_right (writeMembers_eq_ok_iff.1 h).flip hentry
  obtain ⟨s, written, hkey, hwritten, -⟩ := writeMember_eq_ok_iff.1 hpart
  exact ⟨⟨s, hkey⟩, written, hwritten⟩

/-- The parts of a list that is written. -/
theorem writeValue_list_eq_ok {level : Nat} {items : List Value} {cs : List Char}
    (h : writeValue level (.list items) = .ok cs) : ∃ parts,
      writeItems (deeper level) items = .ok parts ∧ bracketed '[' ']' parts = cs := by
  rw [writeValue] at h
  split at h
  · cases h
  · exact Outcome.map_eq_ok_iff.1 h

theorem writeValue_tuple_eq_ok {level : Nat} {items : List Value} {cs : List Char}
    (h : writeValue level (.tuple items) = .ok cs) : ∃ parts,
      writeItems (deeper level) items = .ok parts ∧ bracketed '[' ']' parts = cs := by
  rw [writeValue] at h
  exact Outcome.map_eq_ok_iff.1 h

theorem writeValue_dictionary_eq_ok {level : Nat} {entries : Entries} {cs : List Char}
    (h : writeValue level (.dictionary entries) = .ok cs) : ∃ parts,
      writeMembers (deeper level) entries = .ok parts ∧ bracketed '\x7b' '\x7d' parts = cs := by
  rw [writeValue] at h
  split at h
  · cases h
  · exact Outcome.map_eq_ok_iff.1 h

/-! ### What is written spells the normal form -/

/-- Parts with commas between them are listed. -/
theorem listed_intercalate {α : Type} {P : α → List Char → Prop} {as : List α}
    {parts : List (List Char)} (h : List.Forall₂ P as parts) :
    Listed P as ([','].intercalate parts) := by
  induction h with
  | nil => exact .empty blanks_nil
  | @cons a part as parts hpart hothers ih =>
      cases hothers with
      | nil =>
          have hlast := Listed.last blanks_nil hpart blanks_nil
          simpa [List.intercalate] using hlast
      | cons hnext hothers =>
          rw [List.intercalate_cons_cons, List.append_assoc]
          exact Listed.more blanks_nil hpart blanks_nil ih

theorem SpellsWithin.mono {depth depth' : Nat} (hle : depth ≤ depth') {v : Value}
    {core : List Char} (h : SpellsWithin depth v core) : SpellsWithin depth' v core := by
  obtain ⟨tree, htree, hnesting, hv⟩ := h
  exact ⟨tree, htree, hnesting.trans hle, hv⟩

theorem spellsWithin_list {depth : Nat} {vs : List Value} {inner : List Char}
    (h : Listed (SpellsWithin depth) vs inner) :
    SpellsWithin (depth + 1) (.list vs) ('[' :: (inner ++ [']'])) := by
  obtain ⟨items, hitems, hnesting, hvalues⟩ := listed_spellsWithin_iff.1 h
  refine ⟨.list items, .list hitems, Nat.succ_le_succ hnesting, ?_⟩
  rw [Tree.value?, hvalues]
  rfl

theorem spellsWithin_dictionary {depth : Nat} {entries : Entries} {inner : List Char}
    (h : Listed (SpellsEntry (SpellsWithin depth)) entries inner) :
    SpellsWithin (depth + 1) (.dictionary (Entries.ofList entries))
      ('\x7b' :: (inner ++ ['\x7d'])) := by
  obtain ⟨members, found, hmembers, hnesting, hvalues, rfl⟩ := listed_spellsEntry_iff.1 h
  refine ⟨.object members, .object hmembers, Nat.succ_le_succ hnesting, ?_⟩
  rw [Tree.value?, hvalues, ofList_map_entryOf]
  rfl

/-- A fresh key is put at the end. -/
theorem put_of_fresh {entries : Entries} {key : Value} (v : Value)
    (h : ∀ entry ∈ entries, entry.1.same key = false) :
    entries.put key v = entries ++ [(key, v)] := by
  induction entries with
  | nil => rfl
  | cons entry entries ih =>
      obtain ⟨hfirst, hothers⟩ := List.forall_mem_cons.1 h
      rw [Entries.put, hfirst, ih hothers]
      rfl

theorem putAll_of_distinct {entries more : Entries}
    (h : Value.DistinctKeys (entries ++ more)) : entries.putAll more = entries ++ more := by
  induction more generalizing entries with
  | nil => rw [List.append_nil]; rfl
  | cons entry more ih =>
      have hput : entries.put entry.1 entry.2 = entries ++ [entry] :=
        put_of_fresh entry.2 fun earlier hearlier =>
          (List.pairwise_append.1 h).2.2 earlier hearlier entry List.mem_cons_self
      have hmore : entries.putAll (entry :: more) = (entries ++ [entry]).putAll more := by
        rw [← hput]
        rfl
      rw [List.append_cons] at h ⊢
      rw [hmore, ih h]

/-- Entries with distinct keys are put into a dictionary as they stand. -/
theorem ofList_of_distinct {entries : Entries} (h : Value.DistinctKeys entries) :
    Entries.ofList entries = entries := by
  rw [Entries.ofList, putAll_of_distinct (by rwa [List.nil_append]), List.nil_append]

/-- Whether a value is written as a spelling of its normal form, at any level. -/
def WrittenNormal (v : Value) : Prop :=
  ∀ {level : Nat} {cs : List Char}, writeValue level v = .ok cs →
    SpellsWithin v.nesting v.normal cs

theorem spellsWithin_items {items : List Value} (hitems : ∀ item ∈ items, WrittenNormal item)
    {level : Nat} {parts : List (List Char)} (h : writeItems level items = .ok parts) :
    SpellsWithin (Value.nestingOf items + 1) (.list (Value.normalItems items))
      (bracketed '[' ']' parts) := by
  refine spellsWithin_list (listed_intercalate ?_)
  rw [Value.normalItems_eq_map, List.forall₂_map_left_iff]
  have hnesting : ∀ item ∈ items, item.nesting ≤ Value.nestingOf items :=
    Value.nestingOf_le_iff.1 (Nat.le_refl _)
  exact Outcome.forall₂_imp_of_mem (writeItems_eq_ok_iff.1 h) fun item hitem part hpart =>
    (hitems item hitem hpart).mono (hnesting item hitem)

/-- A member is written as a spelling of its entry in the normal form. -/
theorem spellsEntry_of_writeMember {depth level : Nat} {entry : Value × Value} {cs : List Char}
    (hvalue : WrittenNormal entry.2) (hle : entry.2.nesting ≤ depth)
    (h : writeMember level entry = .ok cs) :
    SpellsEntry (SpellsWithin depth) (entry.1, entry.2.normal) cs := by
  obtain ⟨s, written, hkey, hwritten, rfl⟩ := writeMember_eq_ok_iff.1 h
  refine ⟨(s.toList, entry.2.normal), ?_, ?_⟩
  · rw [entryOf, hkey, String.ofList_toList]
  · exact .colon (writeText_spells _) blanks_nil blanks_nil ((hvalue hwritten).mono hle)

theorem spellsWithin_members {entries : Entries}
    (hentries : ∀ entry ∈ entries, WrittenNormal entry.2) (hdistinct : Value.DistinctKeys entries)
    {level : Nat} {parts : List (List Char)} (h : writeMembers level entries = .ok parts) :
    SpellsWithin (Value.nestingUnder entries + 1) (.dictionary (Value.normalEntries entries))
      (bracketed '\x7b' '\x7d' parts) := by
  have hdistinct' : Value.DistinctKeys (Value.normalEntries entries) := by
    rw [Value.normalEntries_eq_map]
    exact List.pairwise_map.2 hdistinct
  rw [← ofList_of_distinct hdistinct']
  refine spellsWithin_dictionary (listed_intercalate ?_)
  rw [Value.normalEntries_eq_map, List.forall₂_map_left_iff]
  have hnesting : ∀ entry ∈ entries, entry.2.nesting ≤ Value.nestingUnder entries :=
    Value.nestingUnder_le_iff.1 (Nat.le_refl _)
  exact Outcome.forall₂_imp_of_mem (writeMembers_eq_ok_iff.1 h) fun entry hentry part hpart =>
    spellsEntry_of_writeMember (hentries entry hentry) (hnesting entry hentry) hpart

theorem writtenNormal_scalar {v : Value} (hform : v.HasForm) (hscalar : v.IsScalar) :
    WrittenNormal v := by
  intro level cs h
  cases v with
  | null =>
      cases h
      exact ⟨.null, .null, Nat.le_refl _, rfl⟩
  | bool b =>
      cases b with
      | true =>
          cases h
          exact ⟨.bool true, .true, Nat.le_refl _, rfl⟩
      | false =>
          cases h
          exact ⟨.bool false, .false, Nat.le_refl _, rfl⟩
  | int n =>
      have hfits : NumberLiteral.fitsInteger n = true := hform
      rw [writeValue, if_pos hfits] at h
      cases h
      exact ⟨_, .number (whole_spells n), Nat.le_refl _, whole_value hfits⟩
  | float x =>
      have hfinite : x.isFinite = true := hform
      rw [writeValue, writeDouble, if_pos hfinite] at h
      cases h
      obtain ⟨literal, hliteral, hvalue⟩ := double_spells layout hfinite
      exact ⟨_, .number hliteral, Nat.le_refl _, hvalue⟩
  | text s =>
      cases h
      refine ⟨.text s.toList, .text (writeText_spells _), Nat.le_refl _, ?_⟩
      rw [Tree.value?, String.ofList_toList]
      rfl
  | list _ | tuple _ | dictionary _ => exact hscalar.elim
  | bytes _ | emptySet | object | complexZero => exact hform.elim

/-- A portable value is written as a spelling of its normal form, to its own depth. -/
theorem writtenNormal_of_portable {v : Value} (h : v.Portable) : WrittenNormal v := by
  induction v using Value.parts_induction with
  | list items ih =>
      rw [Value.portable_list_iff] at h
      intro level cs hwritten
      obtain ⟨parts, hparts, rfl⟩ := writeValue_list_eq_ok hwritten
      exact spellsWithin_items (fun item hitem => ih item hitem (h item hitem)) hparts
  | tuple items ih =>
      rw [Value.portable_tuple_iff] at h
      intro level cs hwritten
      obtain ⟨parts, hparts, rfl⟩ := writeValue_tuple_eq_ok hwritten
      exact spellsWithin_items (fun item hitem => ih item hitem (h item hitem)) hparts
  | dictionary entries ih =>
      obtain ⟨⟨-, hdistinct⟩, hvalues⟩ := Value.portable_dictionary_iff.1 h
      intro level cs hwritten
      obtain ⟨parts, hparts, rfl⟩ := writeValue_dictionary_eq_ok hwritten
      exact spellsWithin_members (fun entry hentry => ih entry hentry (hvalues entry hentry))
        hdistinct hparts
  | scalar v hscalar =>
      exact writtenNormal_scalar ((Value.everywhere_scalar_iff hscalar).1 h) hscalar

/-- By itself it is a document, with no blanks around it. -/
theorem spellsDocument_of_written {v : Value} (h : v.Portable) {level : Nat} {cs : List Char}
    (hcs : writeValue level v = .ok cs) :
    ∃ tree, SpellsDocument tree cs ∧ Tree.Within v.nesting tree v.normal := by
  obtain ⟨tree, htree, hwithin⟩ := writtenNormal_of_portable h hcs
  have hdocument := SpellsDocument.blanks blanks_nil htree blanks_nil
  rw [List.nil_append, List.append_nil] at hdocument
  exact ⟨tree, hdocument, hwithin⟩

/-! ### The normal form is written alike, unless it is too deep -/

/-- How deep lists and objects may nest to be written. -/
def writeDepth : Nat := 254

theorem deeper_of_le {level : Nat} (h : level ≤ writeDepth) : deeper level = level + 1 := by
  unfold writeDepth at h
  unfold deeper
  omega

theorem deeper_ne_lastLevel {level : Nat} (h : level + 1 ≤ writeDepth) :
    deeper level ≠ lastLevel := by
  unfold writeDepth at h
  unfold deeper lastLevel
  omega

/-- Whether the normal form of a value is written like the value, as far as levels are left. -/
def Rewritten (v : Value) : Prop :=
  ∀ {level : Nat} {cs : List Char}, writeValue level v = .ok cs →
    ∀ {start : Nat}, start ≤ writeDepth → writeValue start v.normal =
      if start + v.nesting ≤ writeDepth then .ok cs else .error .tooDeep

theorem writeItems_normal {items : List Value} (hitems : ∀ item ∈ items, Rewritten item)
    {level start : Nat} {parts : List (List Char)} (h : writeItems level items = .ok parts)
    (hstart : start ≤ writeDepth) : writeItems start (Value.normalItems items) =
      if start + Value.nestingOf items ≤ writeDepth then .ok parts else .error .tooDeep := by
  have hfits : (∀ item ∈ items.map Value.normal, start + item.nesting ≤ writeDepth) ↔
      start + Value.nestingOf items ≤ writeDepth := by
    rw [List.forall_mem_map, ← Nat.le_sub_iff_add_le' hstart, Value.nestingOf_le_iff]
    refine forall₂_congr fun item _ => ?_
    rw [Value.nesting_normal, Nat.le_sub_iff_add_le' hstart]
  have hparts : List.Forall₂ (fun item part => writeValue start item =
      if start + item.nesting ≤ writeDepth then .ok part else .error .tooDeep)
      (items.map Value.normal) parts := by
    rw [List.forall₂_map_left_iff]
    refine Outcome.forall₂_imp_of_mem (writeItems_eq_ok_iff.1 h) fun item hitem part hpart => ?_
    rw [Value.nesting_normal]
    exact hitems item hitem hpart hstart
  rw [writeItems_eq_mapM, Value.normalItems_eq_map, Outcome.mapM_of_fits hparts]
  simp only [hfits]

theorem writeMembers_normal {entries : Entries}
    (hentries : ∀ entry ∈ entries, Rewritten entry.2) {level start : Nat}
    {parts : List (List Char)} (h : writeMembers level entries = .ok parts)
    (hstart : start ≤ writeDepth) : writeMembers start (Value.normalEntries entries) =
      if start + Value.nestingUnder entries ≤ writeDepth then .ok parts
      else .error .tooDeep := by
  have hfits : (∀ entry ∈ Value.normalEntries entries, start + entry.2.nesting ≤ writeDepth) ↔
      start + Value.nestingUnder entries ≤ writeDepth := by
    rw [Value.normalEntries_eq_map, List.forall_mem_map, ← Nat.le_sub_iff_add_le' hstart,
      Value.nestingUnder_le_iff]
    refine forall₂_congr fun entry _ => ?_
    rw [Value.nesting_normal, Nat.le_sub_iff_add_le' hstart]
  have hparts : List.Forall₂ (fun entry part => writeMember start entry =
      if start + entry.2.nesting ≤ writeDepth then .ok part else .error .tooDeep)
      (Value.normalEntries entries) parts := by
    rw [Value.normalEntries_eq_map, List.forall₂_map_left_iff]
    refine Outcome.forall₂_imp_of_mem (writeMembers_eq_ok_iff.1 h) fun entry hentry part hpart => ?_
    obtain ⟨s, written, hkey, hwritten, rfl⟩ := writeMember_eq_ok_iff.1 hpart
    have hnormal := hentries entry hentry hwritten hstart
    rw [Value.nesting_normal, writeMember]
    simp only [hkey, Value.text?, hnormal]
    split <;> rfl
  rw [writeMembers_eq_mapM, Outcome.mapM_of_fits hparts]
  simp only [hfits]

/-- The container about parts is refused where its own level is the last, and else where
a part is. -/
theorem container_normal {start nesting : Nat} (hstart : start ≤ writeDepth)
    {opening closing : Char} {parts : List (List Char)}
    {written : Except WriteFault (List (List Char))}
    (h : start + 1 ≤ writeDepth → written =
      if start + 1 + nesting ≤ writeDepth then .ok parts else .error .tooDeep) :
    (if deeper start = lastLevel then .error .tooDeep
      else written.map (bracketed opening closing)) =
      if start + (nesting + 1) ≤ writeDepth then .ok (bracketed opening closing parts)
      else .error .tooDeep := by
  -- Either there is a level left for the container, or this would be the last one.
  by_cases hlast : start + 1 ≤ writeDepth
  · rw [if_neg (deeper_ne_lastLevel hlast), h hlast, Nat.add_right_comm, ← Nat.add_assoc,
      Nat.add_right_comm]
    split <;> rfl
  · have hlevel : deeper start = lastLevel := by
      unfold writeDepth at hstart hlast
      unfold deeper lastLevel
      omega
    rw [if_pos hlevel, if_neg (by omega)]

/-- A scalar is written alike at every level. -/
theorem writeValue_scalar {v : Value} (hscalar : v.IsScalar) (level start : Nat) :
    writeValue start v = writeValue level v := by
  cases v with
  | list _ | tuple _ | dictionary _ => exact hscalar.elim
  | bool b => cases b <;> rfl
  | _ => rfl

theorem nesting_scalar {v : Value} (hscalar : v.IsScalar) : v.nesting = 0 := by
  cases v with
  | list _ | tuple _ | dictionary _ => exact hscalar.elim
  | _ => rfl

/-- The normal form of a portable value is written like the value, unless it is too deep. -/
theorem rewritten_of_portable {v : Value} (h : v.Portable) : Rewritten v := by
  induction v using Value.parts_induction with
  | list items ih =>
      rw [Value.portable_list_iff] at h
      intro level cs hwritten start hstart
      obtain ⟨parts, hparts, rfl⟩ := writeValue_list_eq_ok hwritten
      rw [Value.normal, writeValue, Value.nesting]
      refine container_normal hstart fun hlevel => ?_
      rw [deeper_of_le hstart]
      exact writeItems_normal (fun item hitem => ih item hitem (h item hitem)) hparts hlevel
  | tuple items ih =>
      rw [Value.portable_tuple_iff] at h
      intro level cs hwritten start hstart
      obtain ⟨parts, hparts, rfl⟩ := writeValue_tuple_eq_ok hwritten
      rw [Value.normal, writeValue, Value.nesting]
      refine container_normal hstart fun hlevel => ?_
      rw [deeper_of_le hstart]
      exact writeItems_normal (fun item hitem => ih item hitem (h item hitem)) hparts hlevel
  | dictionary entries ih =>
      obtain ⟨-, hvalues⟩ := Value.portable_dictionary_iff.1 h
      intro level cs hwritten start hstart
      obtain ⟨parts, hparts, rfl⟩ := writeValue_dictionary_eq_ok hwritten
      rw [Value.normal, writeValue, Value.nesting]
      refine container_normal hstart fun hlevel => ?_
      rw [deeper_of_le hstart]
      exact writeMembers_normal (fun entry hentry => ih entry hentry (hvalues entry hentry))
        hparts hlevel
  | scalar v hscalar =>
      intro level cs hwritten start hstart
      rw [Value.normal_of_scalar hscalar, nesting_scalar hscalar, writeValue_scalar hscalar level,
        hwritten, if_pos (by omega)]

/-! ### No value is deeper than its tree -/

theorem exists_mem_of_mem_merged {found : List (List Char × Value)} {entry : Value × Value}
    (h : entry ∈ Tree.merged found) : ∃ member ∈ found, member.2 = entry.2 := by
  obtain ⟨key, -, hkey⟩ := List.mem_filterMap.1 h
  obtain ⟨v, hlookup, rfl⟩ := Option.map_eq_some_iff.1 hkey
  obtain ⟨later, earlier, hfound, -⟩ := List.lookup_eq_some_iff.1 hlookup
  refine ⟨(key, v), List.mem_reverse.1 ?_, rfl⟩
  rw [hfound]
  exact List.mem_append_right _ List.mem_cons_self

theorem nesting_of_scalar_tree {tree : Tree} {v : Value} (hscalar : ¬ tree.IsContainer)
    (h : tree.value? = some v) : v.nesting = 0 := by
  cases tree with
  | null | bool _ | text _ =>
      cases h
      rfl
  | number literal =>
      simp only [Tree.value?, NumberLiteral.value?, NumberLiteral.finite?] at h
      repeat' split at h
      all_goals cases h
      all_goals rfl
  | list _ => exact absurd trivial hscalar
  | object _ => exact absurd trivial hscalar

/-- A tree within a depth has a value within that depth. -/
theorem nesting_le_of_within {depth : Nat} {tree : Tree} {v : Value}
    (h : Tree.Within depth tree v) : v.nesting ≤ depth := by
  induction depth generalizing tree v with
  | zero =>
      rw [nesting_of_scalar_tree (not_isContainer_of_nesting h.1) h.2]
  | succ depth ih =>
      obtain ⟨hnesting, hv⟩ := h
      cases tree with
      | list items =>
          obtain ⟨vs, hvs, rfl⟩ := Option.map_eq_some_iff.1 hv
          have hwithin := Tree.forall₂_within_iff.2 ⟨Nat.le_of_succ_le_succ hnesting, hvs⟩
          refine Nat.succ_le_succ (Value.nestingOf_le_iff.2 fun item hitem => ?_)
          obtain ⟨tree, -, htree⟩ := Outcome.exists_of_mem_right hwithin hitem
          exact ih htree
      | object members =>
          obtain ⟨found, hfound, rfl⟩ := Option.map_eq_some_iff.1 hv
          have hwithin :=
            Tree.forall₂_member_within_iff.2 ⟨Nat.le_of_succ_le_succ hnesting, hfound⟩
          refine Nat.succ_le_succ (Value.nestingUnder_le_iff.2 fun entry hentry => ?_)
          obtain ⟨member, hmember, heq⟩ := exists_mem_of_mem_merged hentry
          obtain ⟨_, -, -, htree⟩ := Outcome.exists_of_mem_right hwithin hmember
          rw [← heq]
          exact ih htree
      | null | bool _ | text _ | number _ =>
          rw [nesting_of_scalar_tree (by simp [Tree.IsContainer]) hv]
          exact Nat.zero_le _

/-! ### Documents of values -/

variable {v : Value} {document : Bytes}

/-- A portable value is written as a document of its normal form, within its own depth. -/
theorem spells_of_write (h : v.Portable) (hdocument : write v = .ok document) :
    ∃ (s : String) (tree : Tree), document = Bytes.ofText s ∧ SpellsDocument tree s.toList ∧
      Tree.Within v.nesting tree v.normal := by
  obtain ⟨cs, hcs, rfl⟩ := Outcome.map_eq_ok_iff.1 hdocument
  obtain ⟨tree, hspells, hwithin⟩ := spellsDocument_of_written h hcs
  exact ⟨String.ofList cs, tree, rfl, by rwa [String.toList_ofList], hwithin⟩

theorem means_of_write (h : v.Portable) (hdocument : write v = .ok document) :
    Means document v.normal := by
  obtain ⟨s, tree, rfl, hspells, -, hv⟩ := spells_of_write h hdocument
  exact ⟨s, tree, rfl, hspells, hv⟩

/-- The reader takes what is written exactly if it is not too deep for it. -/
theorem denotes_write_iff (h : v.Portable) (hdocument : write v = .ok document) :
    Denotes document v.normal ↔ v.nesting ≤ readDepth := by
  constructor
  · rintro ⟨s, tree, -, -, hnesting, hv⟩
    rw [← Value.nesting_normal]
    exact nesting_le_of_within ⟨hnesting, hv⟩
  · intro hnesting
    obtain ⟨s, tree, rfl, hspells, hwithin, hv⟩ := spells_of_write h hdocument
    exact ⟨s, tree, rfl, hspells, hwithin.trans hnesting, hv⟩

end SignedMessaging.Json
