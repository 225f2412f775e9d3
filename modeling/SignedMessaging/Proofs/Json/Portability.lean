import SignedMessaging.Proofs.Json.Positions
import SignedMessaging.Proofs.Json.PrefixFree

/-!
# Portable values and documents

Whatever is read from a document is portable (`portable_of_read`): the reader makes no double
that is not finite and no integer beyond 64 bits, and merges the members of an object.  It makes
no tuple either (`tupleFree_of_within`).  And whatever is portable can be written, unless it is
too deep (`exists_document`).
-/

namespace SignedMessaging.Json

/-! ### What is read is portable -/

theorem hasForm_of_literal {literal : NumberLiteral} {v : Value} (h : literal.value? = some v) :
    v.HasForm ∧ v.IsScalar := by
  obtain ⟨n, hfits, rfl⟩ | ⟨x, hfinite, rfl⟩ := number_of_literal h
  · exact ⟨hfits, trivial⟩
  · exact ⟨hfinite, trivial⟩

/-- No two members of an object are left under one key. -/
theorem distinctKeys_merged (found : List (List Char × Value)) :
    Value.DistinctKeys (Tree.merged found) := by
  refine List.Pairwise.filterMap _ ?_ (nodup_eraseDups _)
  rintro key later hne entry hentry other hother
  obtain ⟨v, -, rfl⟩ := Option.map_eq_some_iff.1 hentry
  obtain ⟨w, -, rfl⟩ := Option.map_eq_some_iff.1 hother
  rw [same_text_ofList, decide_eq_false_iff_not]
  exact hne

theorem text_of_mem_merged {found : List (List Char × Value)} {entry : Value × Value}
    (h : entry ∈ Tree.merged found) : ∃ s, entry.1 = .text s := by
  obtain ⟨key, -, hkey⟩ := List.mem_filterMap.1 h
  obtain ⟨v, -, rfl⟩ := Option.map_eq_some_iff.1 hkey
  exact ⟨_, rfl⟩

theorem hasForm_of_scalar_tree {tree : Tree} {v : Value} (hscalar : ¬ tree.IsContainer)
    (h : tree.value? = some v) : v.HasForm ∧ v.IsScalar := by
  cases tree with
  | null | bool _ | text _ =>
      cases h
      exact ⟨trivial, trivial⟩
  | number literal => exact hasForm_of_literal h
  | list _ | object _ => exact absurd trivial hscalar

/-- What holds of scalars with a form, of lists and of merged members holds everywhere in the
value that a tree denotes. -/
theorem everywhere_of_within {P : Value → Prop}
    (scalar : ∀ v : Value, v.HasForm → v.IsScalar → P v) (list : ∀ items, P (.list items))
    (object : ∀ found, P (.dictionary (Tree.merged found))) {depth : Nat} {tree : Tree} {v : Value}
    (h : Tree.Within depth tree v) : v.Everywhere P := by
  have hscalar : ∀ {tree : Tree} {v : Value}, ¬ tree.IsContainer → tree.value? = some v →
      v.Everywhere P := fun hcontainer hv =>
    have hform := hasForm_of_scalar_tree hcontainer hv
    (Value.everywhere_scalar_iff hform.2).2 (scalar _ hform.1 hform.2)
  induction depth generalizing tree v with
  | zero => exact hscalar (not_isContainer_of_nesting h.1) h.2
  | succ depth ih =>
      obtain ⟨hnesting, hv⟩ := h
      cases tree with
      | list items =>
          obtain ⟨vs, hvs, rfl⟩ := Option.map_eq_some_iff.1 hv
          have hwithin := Tree.forall₂_within_iff.2 ⟨Nat.le_of_succ_le_succ hnesting, hvs⟩
          refine Value.everywhere_list_iff.2 ⟨list vs, fun item hitem => ?_⟩
          obtain ⟨tree, -, htree⟩ := Outcome.exists_of_mem_right hwithin hitem
          exact ih htree
      | object members =>
          obtain ⟨found, hfound, rfl⟩ := Option.map_eq_some_iff.1 hv
          have hwithin :=
            Tree.forall₂_member_within_iff.2 ⟨Nat.le_of_succ_le_succ hnesting, hfound⟩
          refine Value.everywhere_dictionary_iff.2 ⟨object found, fun entry hentry => ?_⟩
          obtain ⟨member, hmember, heq⟩ := exists_mem_of_mem_merged hentry
          obtain ⟨_, -, -, htree⟩ := Outcome.exists_of_mem_right hwithin hmember
          rw [← heq]
          exact ih htree
      | null | bool _ | text _ | number _ => exact hscalar (by simp [Tree.IsContainer]) hv

/-- A tree denotes a portable value. -/
theorem portable_of_within {depth : Nat} {tree : Tree} {v : Value}
    (h : Tree.Within depth tree v) : v.Portable :=
  everywhere_of_within (fun _ hform _ => hform) (fun _ => trivial)
    (fun found => ⟨fun _ hentry => text_of_mem_merged hentry, distinctKeys_merged found⟩) h

/-- No tree denotes a value with a tuple in it. -/
theorem tupleFree_of_within {depth : Nat} {tree : Tree} {v : Value}
    (h : Tree.Within depth tree v) : v.TupleFree :=
  everywhere_of_within (fun _ _ hscalar => Value.kind_ne_tuple_of_scalar hscalar)
    (by simp [Value.kind]) (by simp [Value.kind]) h

/-- Whatever is read is portable. -/
theorem portable_of_read {document : Bytes} {v : Value} (h : read document = some v) :
    v.Portable := by
  obtain ⟨_, tree, -, -, hwithin⟩ := read_eq_some_iff.1 h
  exact portable_of_within hwithin

/-! ### What is portable can be written -/

theorem exists_write {v : Value} (h : v.Portable) (hnesting : v.nesting ≤ writeDepth) :
    ∃ cs, writeValue 0 v = .ok cs := by
  have hwritable := Value.writable_of_portable h hnesting
  have hfault : Outcome.fault? (writeValue (0 % 256) v) = none := by
    rw [fault?_writeValue, List.findSome?_eq_none_iff]
    exact fun position hposition => (Value.Position.sound_iff.1 (hwritable position hposition)).2
  exact Outcome.fault?_eq_none_iff.1 hfault

/-- A portable value within the writer's depth has a document, which denotes its normal
form. -/
theorem exists_document {v : Value} (h : v.Portable) (hnesting : v.nesting ≤ writeDepth) :
    ∃ document, write v = .ok document ∧ Denotes document v.normal := by
  obtain ⟨cs, hcs⟩ := exists_write h hnesting
  have hdocument : write v = .ok (Bytes.ofText (String.ofList cs)) := by
    rw [write, hcs]
    rfl
  exact ⟨_, hdocument, (denotes_write_iff h hdocument).2 (Nat.le_trans hnesting (by decide))⟩

/-- A document of a value that nests too deep is not read. -/
theorem read_of_too_deep {document : Bytes} {v : Value} (h : Means document v)
    (hdeep : readDepth < v.nesting) : read document = none := by
  rw [read_eq_none_iff]
  intro w hdenotes
  obtain rfl := h.unique hdenotes.means
  obtain ⟨_, _, -, -, hwithin⟩ := hdenotes
  exact Nat.not_le_of_lt hdeep (nesting_le_of_within hwithin)

end SignedMessaging.Json
