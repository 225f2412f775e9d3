import SignedMessaging.Proofs.Message.Inside

/-!
# The guard of doubles

The writer puts null for a double that is not finite, wherever in a value it stands.  What it
makes of a value is therefore what it makes of the value with null in these places (`nulled`),
and this is what its document means.  The guard of the encoder looks for such a double before
anything is written.  It and the writer each go through values by themselves; what one meets,
the other does, so the guard refuses exactly the values that would not arrive as they were
(`guarded_of_write`).  Depth is no matter of the guard: what it passes may be too deep for the
reader (`not_read_again`).
-/

namespace SignedMessaging

namespace Value

/-! ### Nulls in place of doubles -/

mutual

/-- A value with null for every double in it that is not finite. -/
def nulled : Value → Value
  | .float x => if x.isFinite then .float x else .null
  | .list items => .list (nulledItems items)
  | .tuple items => .tuple (nulledItems items)
  | .dictionary entries => .dictionary (nulledEntries entries)
  | v => v
termination_by structural v => v

/-- Items with null for the doubles in them that are not finite. -/
def nulledItems : List Value → List Value
  | [] => []
  | item :: items => nulled item :: nulledItems items
termination_by structural items => items

/-- Entries with null for the doubles in their values that are not finite. -/
def nulledEntries : List (Value × Value) → List (Value × Value)
  | [] => []
  | (key, value) :: entries => (key, nulled value) :: nulledEntries entries
termination_by structural entries => entries

end

theorem nulledItems_eq_map (items : List Value) : nulledItems items = items.map nulled := by
  induction items with
  | nil => rfl
  | cons item items ih => rw [nulledItems, ih, List.map_cons]

theorem nulledEntries_eq_map (entries : List (Value × Value)) :
    nulledEntries entries = entries.map fun entry => (entry.1, nulled entry.2) := by
  induction entries with
  | nil => rfl
  | cons entry entries ih => rw [nulledEntries, ih, List.map_cons]

/-- Of the values without parts only a double is ever changed. -/
theorem nulled_of_scalar {v : Value} (hscalar : v.IsScalar) :
    v.nulled = match v.nonFinite? with
      | none => v
      | some _ => .null := by
  cases v with
  | float x =>
      rw [nulled, nonFinite?]
      split <;> rfl
  | list _ | tuple _ | dictionary _ => exact hscalar.elim
  | _ => rfl

theorem ne_null_of_nonFinite? {v : Value} {x : Double} (h : v.nonFinite? = some x) :
    v ≠ .null := by
  rintro rfl
  cases h

theorem map_eq_self_iff {α : Type} {f : α → α} {as : List α} :
    as.map f = as ↔ ∀ a ∈ as, f a = a := by
  simpa using List.map_eq_map_iff (f := f) (g := id) (l := as)

/-- The guard finds nothing in a value exactly if there is nothing to put null for. -/
theorem nonFinite?_eq_none_iff {v : Value} : v.nonFinite? = none ↔ v.nulled = v := by
  induction v using parts_induction with
  | list items ih =>
      rw [nonFinite?, nonFiniteIn?_eq_none_iff, nulled, nulledItems_eq_map, list.injEq,
        map_eq_self_iff]
      exact forall₂_congr ih
  | tuple items ih =>
      rw [nonFinite?, nonFiniteIn?_eq_none_iff, nulled, nulledItems_eq_map, tuple.injEq,
        map_eq_self_iff]
      exact forall₂_congr ih
  | dictionary entries ih =>
      rw [nonFinite?, nonFiniteUnder?_eq_none_iff, nulled, nulledEntries_eq_map,
        dictionary.injEq, map_eq_self_iff]
      refine forall₂_congr fun entry hentry => ?_
      rw [ih entry hentry, Prod.ext_iff, and_iff_right rfl]
  | scalar v hscalar =>
      rw [nulled_of_scalar hscalar]
      cases hfound : v.nonFinite? with
      | none => simp
      | some x => simpa using (ne_null_of_nonFinite? hfound).symm

/-- Once null is put for them, no doubles are left that are not finite. -/
theorem nonFinite?_nulled (v : Value) : v.nulled.nonFinite? = none := by
  induction v using parts_induction with
  | list items ih | tuple items ih =>
      rw [nulled, nonFinite?, nonFiniteIn?_eq_none_iff, nulledItems_eq_map, List.forall_mem_map]
      exact ih
  | dictionary entries ih =>
      rw [nulled, nonFinite?, nonFiniteUnder?_eq_none_iff, nulledEntries_eq_map,
        List.forall_mem_map]
      exact ih
  | scalar v hscalar =>
      rw [nulled_of_scalar hscalar]
      cases hfound : v.nonFinite? with
      | none => exact hfound
      | some x => rfl

/-- The guard does not tell lists from tuples. -/
theorem nonFinite?_normal (v : Value) : v.normal.nonFinite? = none ↔ v.nonFinite? = none := by
  induction v using parts_induction with
  | list items ih | tuple items ih =>
      rw [normal, nonFinite?, nonFinite?, nonFiniteIn?_eq_none_iff, nonFiniteIn?_eq_none_iff,
        normalItems_eq_map, List.forall_mem_map]
      exact forall₂_congr ih
  | dictionary entries ih =>
      rw [normal, nonFinite?, nonFinite?, nonFiniteUnder?_eq_none_iff,
        nonFiniteUnder?_eq_none_iff, normalEntries_eq_map, List.forall_mem_map]
      exact forall₂_congr ih
  | scalar v hscalar => rw [normal_of_scalar hscalar]

/-- What null in place of doubles leaves true of each value by itself, it leaves true of all
values in one. -/
theorem everywhere_nulled {P : Value → Prop} (hP : ∀ v, P v → P v.nulled) {v : Value}
    (h : v.Everywhere P) : v.nulled.Everywhere P := by
  induction v using parts_induction with
  | list items ih =>
      obtain ⟨hself, hitems⟩ := everywhere_list_iff.1 h
      have hnulled := hP _ hself
      rw [nulled, nulledItems_eq_map] at hnulled ⊢
      rw [everywhere_list_iff, List.forall_mem_map]
      exact ⟨hnulled, fun item hitem => ih item hitem (hitems item hitem)⟩
  | tuple items ih =>
      obtain ⟨hself, hitems⟩ := everywhere_tuple_iff.1 h
      have hnulled := hP _ hself
      rw [nulled, nulledItems_eq_map] at hnulled ⊢
      rw [everywhere_tuple_iff, List.forall_mem_map]
      exact ⟨hnulled, fun item hitem => ih item hitem (hitems item hitem)⟩
  | dictionary entries ih =>
      obtain ⟨hself, hvalues⟩ := everywhere_dictionary_iff.1 h
      have hnulled := hP _ hself
      rw [nulled, nulledEntries_eq_map] at hnulled ⊢
      rw [everywhere_dictionary_iff, List.forall_mem_map]
      exact ⟨hnulled, fun entry hentry => ih entry hentry (hvalues entry hentry)⟩
  | scalar v hscalar =>
      have hnulled := hP v ((everywhere_scalar_iff hscalar).1 h)
      have hscalar' : v.nulled.IsScalar := by
        rw [nulled_of_scalar hscalar]
        cases v.nonFinite? with
        | none => exact hscalar
        | some x => trivial
      exact (everywhere_scalar_iff hscalar').2 hnulled

theorem wellKeyed_nulled {v : Value} (h : v.WellKeyed) : v.nulled.WellKeyed := by
  apply everywhere_nulled ?_ h
  intro w hw entries hentries
  cases w with
  | dictionary own =>
      cases hentries
      rw [nulledEntries_eq_map]
      exact List.pairwise_map.2 (hw own rfl)
  | float x =>
      rw [nulled] at hentries
      split at hentries <;> cases hentries
  | _ => cases hentries

theorem tupleFree_nulled {v : Value} (h : v.TupleFree) : v.nulled.TupleFree := by
  apply everywhere_nulled ?_ h
  intro w hw
  cases w with
  | float x =>
      rw [nulled]
      split <;> simp [kind]
  | tuple items => exact absurd rfl hw
  | _ => simp [nulled, kind]

theorem nestingOf_map {f : Value → Value} {items : List Value}
    (h : ∀ item ∈ items, (f item).nesting = item.nesting) :
    nestingOf (items.map f) = nestingOf items := by
  induction items with
  | nil => rfl
  | cons item items ih =>
      obtain ⟨hfirst, hothers⟩ := List.forall_mem_cons.1 h
      rw [List.map_cons, nestingOf, nestingOf, hfirst, ih hothers]

theorem nestingUnder_map {f : Value → Value} {entries : List (Value × Value)}
    (h : ∀ entry ∈ entries, (f entry.2).nesting = entry.2.nesting) :
    nestingUnder (entries.map fun entry => (entry.1, f entry.2)) = nestingUnder entries := by
  induction entries with
  | nil => rfl
  | cons entry entries ih =>
      obtain ⟨hfirst, hothers⟩ := List.forall_mem_cons.1 h
      rw [List.map_cons, nestingUnder, nestingUnder, hfirst, ih hothers]

/-- Null in place of a double changes no depth. -/
theorem nesting_nulled (v : Value) : v.nulled.nesting = v.nesting := by
  induction v using parts_induction with
  | list items ih | tuple items ih =>
      rw [nulled, nesting, nesting, nulledItems_eq_map, nestingOf_map ih]
  | dictionary entries ih =>
      rw [nulled, nesting, nesting, nulledEntries_eq_map, nestingUnder_map ih]
  | scalar v hscalar =>
      cases v with
      | float x =>
          rw [nulled]
          split <;> rfl
      | list _ | tuple _ | dictionary _ => exact hscalar.elim
      | _ => rfl

end Value

namespace Json

/-! ### What the writer makes of doubles -/

theorem writeItems_map {f : Value → Value} {level : Nat} {items : List Value}
    (h : ∀ item ∈ items, writeValue level (f item) = writeValue level item) :
    writeItems level (items.map f) = writeItems level items := by
  induction items with
  | nil => rfl
  | cons item items ih =>
      obtain ⟨hfirst, hothers⟩ := List.forall_mem_cons.1 h
      rw [List.map_cons, writeItems, writeItems, hfirst, ih hothers]

theorem writeMembers_map {f : Value → Value} {level : Nat} {entries : Entries}
    (h : ∀ entry ∈ entries, writeValue level (f entry.2) = writeValue level entry.2) :
    writeMembers level (entries.map fun entry => (entry.1, f entry.2)) =
      writeMembers level entries := by
  induction entries with
  | nil => rfl
  | cons entry entries ih =>
      obtain ⟨hfirst, hothers⟩ := List.forall_mem_cons.1 h
      rw [List.map_cons, writeMembers, writeMembers, hfirst, ih hothers]

/-- The writer puts null for the doubles that are not finite, and does nothing else to them. -/
theorem writeValue_nulled (level : Nat) (v : Value) :
    writeValue level v.nulled = writeValue level v := by
  induction v using Value.parts_induction generalizing level with
  | list items ih | tuple items ih =>
      rw [Value.nulled, writeValue, writeValue, Value.nulledItems_eq_map,
        writeItems_map fun item hitem => ih item hitem _]
  | dictionary entries ih =>
      rw [Value.nulled, writeValue, writeValue, Value.nulledEntries_eq_map,
        writeMembers_map fun entry hentry => ih entry hentry _]
  | scalar v hscalar =>
      cases v with
      | float x =>
          rw [Value.nulled]
          by_cases hfinite : x.isFinite = true
          · rw [if_pos hfinite]
          · rw [if_neg hfinite, writeValue, writeValue, writeDouble, if_neg hfinite]
      | list _ | tuple _ | dictionary _ => exact hscalar.elim
      | _ => rfl

theorem write_nulled (v : Value) : write v.nulled = write v := by
  rw [write, writeValue_nulled, write]

end Json

namespace Message

open Json (Means)

/-! ### What the guard refuses -/

/-- What guard, writer and reader make of a value that the writer takes. -/
structure Guarded (v : Value) (document : Bytes) : Prop where
  /-- The guard passes a value exactly if its document means that value, with lists for
  tuples. -/
  survives : v.nonFinite? = none ↔ Means document v.normal
  /-- As deep as the reader goes, it passes exactly what is read back as it was. -/
  read_iff : v.nesting ≤ Json.readDepth →
    (v.nonFinite? = none ↔ Json.read document = some v.normal)
  /-- What is read in general has null for the doubles that are not finite. -/
  read_eq : Json.read document =
    if v.nesting ≤ Json.readDepth then some v.nulled.normal else none
  /-- Only with tuples in it a value is deeper than the reader goes. -/
  shallow : v.TupleFree → v.nesting ≤ Json.readDepth
  /-- The guard and the writer go to the same doubles. -/
  changed : v.nonFinite? = none ↔ v.nulled = v
  /-- What passes is encoded as it is written. -/
  passed : v.nonFinite? = none → encodeValue v = .ok document
  /-- What does not is refused for a double. -/
  refused : v.nonFinite? ≠ none →
    ∃ x, x.isFinite = false ∧ encodeValue v = .error (.notFinite x)

variable {v : Value} {document : Bytes}

theorem isFinite_of_nonFinite? {x : Double} (h : v.nonFinite? = some x) : x.isFinite = false := by
  rw [Value.nonFinite?_eq 0] at h
  obtain ⟨position, -, hx⟩ := List.exists_of_findSome?_eq_some h
  unfold Value.Position.notFinite? at hx
  split at hx
  · next y =>
      split at hx
      · cases hx
      · next hfinite =>
          cases hx
          exact Bool.eq_false_of_not_eq_true hfinite
  · cases hx

theorem encodeValue_of_write (h : Json.write v = .ok document) : encodeValue v =
    match v.nonFinite? with
      | some x => .error (.notFinite x)
      | none => .ok document := by
  rw [encodeValue, h]
  rfl

/-- With null for its doubles that are not finite, what is written is portable. -/
theorem portable_nulled (hkeyed : v.WellKeyed) (h : Json.write v = .ok document) :
    v.nulled.Portable := by
  obtain ⟨cs, hcs, -⟩ := Outcome.map_eq_ok_iff.1 ((Json.write_nulled v).trans h)
  exact Value.portable_of_write (Value.wellKeyed_nulled hkeyed) (Value.nonFinite?_nulled v) hcs

/-- The document of a value means what the value is with null for such doubles. -/
theorem means_nulled (hkeyed : v.WellKeyed) (h : Json.write v = .ok document) :
    Means document v.nulled.normal :=
  Json.means_of_write (portable_nulled hkeyed h) ((Json.write_nulled v).trans h)

/-- Within its depth this is also what the reader takes. -/
theorem read_of_write (hkeyed : v.WellKeyed) (h : Json.write v = .ok document) :
    Json.read document =
      if v.nesting ≤ Json.readDepth then some v.nulled.normal else none := by
  have hwritten : Json.write v.nulled = .ok document := (Json.write_nulled v).trans h
  split
  · next hnesting =>
      rw [← Value.nesting_nulled] at hnesting
      apply Json.read_eq_some_iff.2
      exact (Json.denotes_write_iff (portable_nulled hkeyed h) hwritten).2 hnesting
  · next hnesting =>
      apply Json.read_of_too_deep (means_nulled hkeyed h)
      rw [Value.nesting_normal, Value.nesting_nulled]
      omega

/-- A document means the value that it was written of exactly if the guard finds nothing. -/
theorem nonFinite?_eq_none_iff_means (hkeyed : v.WellKeyed) (h : Json.write v = .ok document) :
    v.nonFinite? = none ↔ Means document v.normal := by
  have hmeans := means_nulled hkeyed h
  constructor
  · intro hfinite
    rwa [Value.nonFinite?_eq_none_iff.1 hfinite] at hmeans
  · -- What the document means has no such double, so neither has a value that is the same.
    intro hnormal
    rw [← Value.nonFinite?_normal, hnormal.unique hmeans, Value.nonFinite?_normal]
    exact Value.nonFinite?_nulled v

/-- A value without tuples that is written is not too deep for the reader. -/
theorem nesting_le_of_write (hkeyed : v.WellKeyed) (h : Json.write v = .ok document)
    (htuples : v.TupleFree) : v.nesting ≤ Json.readDepth := by
  have hencoded : encodeValue v.nulled = .ok document := by
    rw [encodeValue_of_write ((Json.write_nulled v).trans h), Value.nonFinite?_nulled]
  calc v.nesting = v.nulled.nesting := (Value.nesting_nulled v).symm
    _ ≤ Json.writeDepth := nesting_le_of_encodeValue hencoded (Value.wellKeyed_nulled hkeyed)
        (Value.tupleFree_nulled htuples)
    _ ≤ Json.readDepth := by decide

/-- The guard refuses exactly what would arrive as another value. -/
theorem guarded_of_write (hkeyed : v.WellKeyed) (h : Json.write v = .ok document) :
    Guarded v document := by
  have hsurvives := nonFinite?_eq_none_iff_means hkeyed h
  have hread := read_of_write hkeyed h
  constructor
  · exact hsurvives
  · intro hnesting
    rw [hsurvives, hread, if_pos hnesting, Option.some.injEq]
    constructor
    · exact (means_nulled hkeyed h).unique
    · intro hnormal
      rw [← hnormal]
      exact means_nulled hkeyed h
  · exact hread
  · exact nesting_le_of_write hkeyed h
  · exact Value.nonFinite?_eq_none_iff
  · intro hfinite
    rw [encodeValue_of_write h, hfinite]
  · intro hfound
    obtain ⟨x, hx⟩ := Option.ne_none_iff_exists'.1 hfound
    refine ⟨x, isFinite_of_nonFinite? hx, ?_⟩
    rw [encodeValue_of_write h, hx]

/-- A tuple with a double in a dictionary in it. -/
def enclosed (x : Double) : Value := .tuple [.dictionary [(.text "a", .float x)]]

/-- In a dictionary in a tuple a zero arrives, with its sign; what is no number would arrive as
null and is refused. -/
theorem guarded_of_write_enclosed :
    ((enclosed (.zero true)).WellKeyed ∧
        Json.write (enclosed (.zero true)) = .ok (Bytes.ofText "[\x7b\"a\":-0.0\x7d]")) ∧
      encodeValue (enclosed (.zero true)) = .ok (Bytes.ofText "[\x7b\"a\":-0.0\x7d]") ∧
      Json.read (Bytes.ofText "[\x7b\"a\":-0.0\x7d]") =
        some (.list [.dictionary [(.text "a", .float (.zero true))]]) ∧
      ((enclosed .notANumber).WellKeyed ∧
        Json.write (enclosed .notANumber) = .ok (Bytes.ofText "[\x7b\"a\":null\x7d]")) ∧
      encodeValue (enclosed .notANumber) = .error (.notFinite .notANumber) ∧
      Json.read (Bytes.ofText "[\x7b\"a\":null\x7d]") =
        some (.list [.dictionary [(.text "a", .null)]]) := by
  have hkeyed : ∀ x, (enclosed x).WellKeyed := fun x => by
    simp [enclosed, Value.WellKeyed, Value.Everywhere, Value.EverywhereIn, Value.EverywhereUnder,
      Value.DistinctKeys]
  have hzero : Json.write (enclosed (.zero true)) =
      .ok (Bytes.ofText "[\x7b\"a\":-0.0\x7d]") := rfl
  have hnull : Json.write (enclosed .notANumber) = .ok (Bytes.ofText "[\x7b\"a\":null\x7d]") := rfl
  have hkept := guarded_of_write (hkeyed (.zero true)) hzero
  have hlost := guarded_of_write (hkeyed .notANumber) hnull
  refine ⟨⟨hkeyed _, hzero⟩, hkept.passed rfl, (hkept.read_iff (by decide)).1 rfl,
    ⟨hkeyed _, hnull⟩, rfl, ?_⟩
  rw [hlost.read_eq, if_pos (by decide)]
  rfl

/-- Nothing is wrong with null inside tuples, and yet they are not read again where there are
too many of them. -/
theorem not_read_again :
    ∃ document, Json.write (inside .tuple 1025 .null) = .ok document ∧
      (inside .tuple 1025 .null).nonFinite? = none ∧
      encodeValue (inside .tuple 1025 .null) = .ok document ∧ Json.read document = none := by
  obtain ⟨document, hdocument, -, hread⟩ := read_inside_tuple (n := 1025) (by decide)
  have hfinite : (inside .tuple 1025 .null).nonFinite? = none :=
    nonFinite?_inside (.inr rfl) 1025 rfl
  refine ⟨document, hdocument, hfinite, ?_, hread⟩
  rw [encodeValue_of_write hdocument, hfinite]

end Message

end SignedMessaging
