import SignedMessaging.Message.Encoding
import SignedMessaging.Proofs.Json.Writing

/-!
# What is wrong with a value, and where

The positions of a value are its keys and the values in it, in the order in which they are
written: a container before its parts, and a key before the value under it.  What is wrong at
a position is told from the position alone, and the writer refuses a value for the first position at
which something is wrong (`fault?_writeValue`).

A list or a dictionary is wrong where 254 containers stand around it, or 256 more than that or
twice as many more and so on; a tuple never is.  So in a value of no more than 254 levels
nothing is too deep (`shallow_of_nesting_le`), and in one without tuples something is exactly if it
has more (`writable_iff_of_portable`).
-/

namespace SignedMessaging

namespace Value

/-- A position in a value: a key, or a value with the number of containers around it. -/
inductive Position where
  | key (k : Value)
  | value (around : Nat) (v : Value)

mutual

/-- The positions of a value inside so many containers, in the order of writing. -/
def positions (around : Nat) : Value → List Position
  | .list items => .value around (.list items) :: positionsIn (around + 1) items
  | .tuple items => .value around (.tuple items) :: positionsIn (around + 1) items
  | .dictionary entries =>
      .value around (.dictionary entries) :: positionsUnder (around + 1) entries
  | v => [.value around v]
termination_by structural v => v

/-- The positions of items, one item after another. -/
def positionsIn (around : Nat) : List Value → List Position
  | [] => []
  | item :: items => positions around item ++ positionsIn around items
termination_by structural items => items

/-- The positions of entries, each key before its value. -/
def positionsUnder (around : Nat) : List (Value × Value) → List Position
  | [] => []
  | (key, value) :: entries => .key key :: positions around value ++ positionsUnder around entries
termination_by structural entries => entries

end

namespace Position

/-- What the writer finds wrong at a position. -/
def fault? : Position → Option Json.WriteFault
  | .key (.text _) => none
  | .key _ => some .keyNotText
  | .value _ (.int n) =>
      if Json.NumberLiteral.fitsInteger n then none else some .integerRange
  | .value around (.list _) | .value around (.dictionary _) =>
      if around % 256 = 254 then some .tooDeep else none
  | .value _ (.bytes _) => some (.unsupported .bytes)
  | .value _ .emptySet => some (.unsupported .set)
  | .value _ .object => some (.unsupported .object)
  | .value _ .complexZero => some (.unsupported .complex)
  | .value _ _ => none

/-- The double at a position that is not finite. -/
def notFinite? : Position → Option Double
  | .value _ (.float x) => if x.isFinite then none else some x
  | _ => none

/-- Whether nothing is wrong at a position: a key is a text; a value is null, a boolean, an
integer of 64 bits, a finite double, a text or a tuple, or a list or a dictionary that does
not stand too deep. -/
def Sound : Position → Prop
  | .key k => ∃ s, k = .text s
  | .value _ .null | .value _ (.bool _) | .value _ (.text _) | .value _ (.tuple _) => True
  | .value _ (.int n) => -2 ^ 63 ≤ n ∧ n < 2 ^ 64
  | .value _ (.float x) => x.isFinite = true
  | .value around (.list _) | .value around (.dictionary _) => around % 256 ≠ 254
  | .value _ _ => False

theorem fits_iff {n : Int} :
    Json.NumberLiteral.fitsInteger n = true ↔ -2 ^ 63 ≤ n ∧ n < 2 ^ 64 := by
  rw [Json.NumberLiteral.fitsInteger, decide_eq_true_iff]
  omega

theorem sound_iff {position : Position} :
    position.Sound ↔ position.notFinite? = none ∧ position.fault? = none := by
  cases position with
  | key k => cases k <;> simp [Sound, notFinite?, fault?]
  | value around v =>
      cases v with
      | int n => simp only [Sound, notFinite?, fault?, ← fits_iff, true_and, ite_eq_left_iff,
          reduceCtorEq, imp_false, not_not]
      | _ => simp [Sound, notFinite?, fault?]

end Position

/-! ### The first position -/

section Places

variable {β : Type} (f : Position → Option β) (around : Nat) {P : Position → Prop}
  {items : List Value} {entries : List (Value × Value)}

theorem findSome?_positionsIn (items : List Value) : (positionsIn around items).findSome? f =
    items.findSome? fun item => (positions around item).findSome? f := by
  induction items with
  | nil => rfl
  | cons item items ih =>
      rw [positionsIn, List.findSome?_append, ih, List.findSome?_cons]
      cases (positions around item).findSome? f <;> rfl

theorem findSome?_positionsUnder (entries : List (Value × Value)) :
    (positionsUnder around entries).findSome? f = entries.findSome? fun entry =>
      (f (.key entry.1)).or ((positions around entry.2).findSome? f) := by
  induction entries with
  | nil => rfl
  | cons entry entries ih =>
      rw [positionsUnder, List.cons_append, List.findSome?_cons, List.findSome?_append, ih,
        List.findSome?_cons]
      cases f (.key entry.1) with
      | some b => rfl
      | none => cases (positions around entry.2).findSome? f <;> rfl

theorem forall_mem_positionsIn : (∀ position ∈ positionsIn around items, P position) ↔
    ∀ item ∈ items, ∀ position ∈ positions around item, P position := by
  induction items with
  | nil => simp [positionsIn]
  | cons item items ih => rw [positionsIn, List.forall_mem_append, ih, List.forall_mem_cons]

theorem forall_mem_positionsUnder : (∀ position ∈ positionsUnder around entries, P position) ↔
    ∀ entry ∈ entries, P (.key entry.1) ∧ ∀ position ∈ positions around entry.2, P position := by
  induction entries with
  | nil => simp [positionsUnder]
  | cons entry entries ih =>
      rw [positionsUnder, List.cons_append, List.forall_mem_cons, List.forall_mem_append, ih,
        List.forall_mem_cons, and_assoc]

theorem positions_scalar {v : Value} (hscalar : v.IsScalar) :
    positions around v = [.value around v] := by
  cases v with
  | list _ | tuple _ | dictionary _ => exact hscalar.elim
  | _ => rfl

/-- Where each thing of a list comes to the same, so does the first. -/
theorem findSome?_congr {α : Type} {xs : List α} {f g : α → Option β}
    (h : ∀ x ∈ xs, f x = g x) : xs.findSome? f = xs.findSome? g := by
  rw [← List.head?_filterMap, List.filterMap_congr h, List.head?_filterMap]

theorem nonFiniteIn?_eq (items : List Value) :
    nonFiniteIn? items = items.findSome? nonFinite? := by
  induction items with
  | nil => rfl
  | cons item items ih =>
      rw [nonFiniteIn?, ih, List.findSome?_cons]
      cases nonFinite? item <;> rfl

theorem nonFiniteUnder?_eq (entries : List (Value × Value)) :
    nonFiniteUnder? entries = entries.findSome? fun entry => nonFinite? entry.2 := by
  induction entries with
  | nil => rfl
  | cons entry entries ih =>
      rw [nonFiniteUnder?, ih, List.findSome?_cons]
      cases nonFinite? entry.2 <;> rfl

/-- The double that is looked for before anything is written is that at the first position
with one. -/
theorem nonFinite?_eq (v : Value) :
    v.nonFinite? = (v.positions around).findSome? Position.notFinite? := by
  induction v using parts_induction generalizing around with
  | list items ih | tuple items ih =>
      rw [nonFinite?, nonFiniteIn?_eq, findSome?_congr fun item hitem => ih item hitem (around + 1),
        ← findSome?_positionsIn]
      rfl
  | dictionary entries ih =>
      rw [nonFinite?, nonFiniteUnder?_eq,
        findSome?_congr fun entry hentry => ih entry hentry (around + 1)]
      exact (findSome?_positionsUnder Position.notFinite? (around + 1) entries).symm
  | scalar v hscalar =>
      rw [positions_scalar around hscalar]
      cases v with
      | list _ | tuple _ | dictionary _ => exact hscalar.elim
      | float x => by_cases h : x.isFinite = true <;> simp [nonFinite?, Position.notFinite?, h]
      | _ => rfl

end Places

end Value

namespace Json

open Value (Position)

theorem deeper_mod (around : Nat) : deeper (around % 256) = (around + 1) % 256 := by
  rw [deeper, Nat.mod_add_mod]

theorem last_iff (around : Nat) : deeper (around % 256) = lastLevel ↔ around % 256 = 254 := by
  unfold deeper lastLevel
  omega

theorem fault?_writeMember (level : Nat) (entry : Value × Value) :
    Outcome.fault? (writeMember level entry) =
      (Position.fault? (.key entry.1)).or (Outcome.fault? (writeValue level entry.2)) := by
  unfold writeMember
  cases entry.1 with
  | text s => exact Outcome.fault?_map _ _
  | _ => rfl

theorem fault?_writeItems {items : List Value} {around : Nat}
    (h : ∀ item ∈ items, Outcome.fault? (writeValue (around % 256) item) =
      (item.positions around).findSome? Position.fault?) :
    Outcome.fault? (writeItems (around % 256) items) =
      (Value.positionsIn around items).findSome? Position.fault? := by
  rw [writeItems_eq_mapM, Outcome.fault?_mapM, Value.findSome?_congr h, Value.findSome?_positionsIn]

theorem fault?_writeMembers {entries : Entries} {around : Nat}
    (h : ∀ entry ∈ entries, Outcome.fault? (writeValue (around % 256) entry.2) =
      (entry.2.positions around).findSome? Position.fault?) :
    Outcome.fault? (writeMembers (around % 256) entries) =
      (Value.positionsUnder around entries).findSome? Position.fault? := by
  rw [writeMembers_eq_mapM, Outcome.fault?_mapM, Value.findSome?_positionsUnder]
  refine Value.findSome?_congr fun entry hentry => ?_
  rw [fault?_writeMember, h entry hentry]

/-- A container that may be refused at its position has the faults of its parts after that. -/
theorem fault?_container {around : Nat} {written : Except WriteFault (List (List Char))}
    {positions : List Position} (opening closing : Char)
    (h : Outcome.fault? written = positions.findSome? Position.fault?) :
    Outcome.fault? (if deeper (around % 256) = lastLevel then .error .tooDeep
      else written.map (bracketed opening closing)) =
    (if around % 256 = 254 then some .tooDeep else none).or
      (positions.findSome? Position.fault?) := by
  simp only [last_iff]
  split
  · rfl
  · rw [Outcome.fault?_map, h, Option.none_or]

/-- The writer refuses a value for what is wrong at the first position where something is. -/
theorem fault?_writeValue (v : Value) (around : Nat) :
    Outcome.fault? (writeValue (around % 256) v) =
      (v.positions around).findSome? Position.fault? := by
  -- Parts have one container more around them, and the writer counts these only modulo 256.
  induction v using Value.parts_induction generalizing around with
  | list items ih =>
      have hitems := fault?_writeItems fun item hitem => ih item hitem (around + 1)
      rw [← deeper_mod] at hitems
      rw [writeValue, fault?_container '[' ']' hitems, Value.positions, List.findSome?_cons,
        Position.fault?]
      split <;> rfl
  | tuple items ih =>
      have hitems := fault?_writeItems fun item hitem => ih item hitem (around + 1)
      rw [writeValue, deeper_mod, Outcome.fault?_map, hitems]
      rfl
  | dictionary entries ih =>
      have hentries := fault?_writeMembers fun entry hentry => ih entry hentry (around + 1)
      rw [← deeper_mod] at hentries
      rw [writeValue, fault?_container '\x7b' '\x7d' hentries, Value.positions, List.findSome?_cons,
        Position.fault?]
      split <;> rfl
  | scalar v hscalar =>
      rw [Value.positions_scalar around hscalar]
      cases v with
      | list _ | tuple _ | dictionary _ => exact hscalar.elim
      | bool b => cases b <;> rfl
      | int n =>
          rw [writeValue, List.findSome?_singleton, Position.fault?]
          split <;> rfl
      | _ => rfl

end Json

namespace Value

/-! ### What is too deep -/

open Json (writeDepth)

variable {v : Value} {around : Nat}

/-- Whether nothing in a value inside so many containers stands too deep. -/
def Shallow (around : Nat) (v : Value) : Prop :=
  ∀ position ∈ v.positions around, position.fault? ≠ some .tooDeep

theorem shallow_container_iff {positions : List Position} (haround : around ≤ writeDepth)
    (hv : v.kind = .list ∨ v.kind = .dictionary) :
    (∀ position ∈ .value around v :: positions, position.fault? ≠ some .tooDeep) ↔
      around + 1 ≤ writeDepth ∧ ∀ position ∈ positions, position.fault? ≠ some .tooDeep := by
  rw [List.forall_mem_cons]
  refine and_congr_left' ?_
  unfold writeDepth at haround ⊢
  cases v with
  | list _ | dictionary _ =>
      simp only [Position.fault?, ne_eq, ite_eq_left_iff, reduceCtorEq, imp_false, not_not]
      omega
  | _ => simp [kind] at hv

theorem shallow_list_iff {items : List Value} (haround : around ≤ writeDepth) :
    Shallow around (.list items) ↔
      around + 1 ≤ writeDepth ∧ ∀ item ∈ items, Shallow (around + 1) item := by
  rw [Shallow, positions, shallow_container_iff haround (.inl rfl), forall_mem_positionsIn]
  rfl

theorem shallow_tuple_iff {items : List Value} :
    Shallow around (.tuple items) ↔ ∀ item ∈ items, Shallow (around + 1) item := by
  rw [Shallow, positions, List.forall_mem_cons, forall_mem_positionsIn]
  exact and_iff_right (by simp [Position.fault?])

theorem shallow_dictionary_iff {entries : List (Value × Value)} (haround : around ≤ writeDepth) :
    Shallow around (.dictionary entries) ↔
      around + 1 ≤ writeDepth ∧ ∀ entry ∈ entries, Shallow (around + 1) entry.2 := by
  have hkey : ∀ k : Value, Position.fault? (.key k) ≠ some .tooDeep := by
    intro k
    cases k <;> simp [Position.fault?]
  rw [Shallow, positions, shallow_container_iff haround (.inr rfl), forall_mem_positionsUnder]
  refine and_congr_right' (forall₂_congr fun entry _ => ?_)
  exact and_iff_right (hkey entry.1)

theorem shallow_scalar (hscalar : v.IsScalar) : Shallow around v := by
  rw [Shallow, positions_scalar around hscalar, List.forall_mem_singleton]
  cases v with
  | list _ | tuple _ | dictionary _ => exact hscalar.elim
  | int n =>
      rw [Position.fault?]
      split <;> simp
  | _ => simp [Position.fault?]

/-- A value of no more levels than are left is not too deep. -/
theorem shallow_of_nesting_le (h : around + v.nesting ≤ writeDepth) : Shallow around v := by
  induction v using parts_induction generalizing around with
  | list items ih =>
      rw [nesting] at h
      have hitems : ∀ item ∈ items, item.nesting ≤ nestingOf items := nestingOf_le_iff.1 le_rfl
      refine (shallow_list_iff (by omega)).2 ⟨by omega, fun item hitem => ih item hitem ?_⟩
      have := hitems item hitem
      omega
  | tuple items ih =>
      rw [nesting] at h
      have hitems : ∀ item ∈ items, item.nesting ≤ nestingOf items := nestingOf_le_iff.1 le_rfl
      refine shallow_tuple_iff.2 fun item hitem => ih item hitem ?_
      have := hitems item hitem
      omega
  | dictionary entries ih =>
      rw [nesting] at h
      have hentries : ∀ entry ∈ entries, entry.2.nesting ≤ nestingUnder entries :=
        nestingUnder_le_iff.1 le_rfl
      refine (shallow_dictionary_iff (by omega)).2
        ⟨by omega, fun entry hentry => ih entry hentry ?_⟩
      have := hentries entry hentry
      omega
  | scalar v hscalar => exact shallow_scalar hscalar

/-- Without tuples every level counts. -/
theorem nesting_le_of_shallow (htuples : v.TupleFree) (haround : around ≤ writeDepth)
    (h : Shallow around v) : around + v.nesting ≤ writeDepth := by
  induction v using parts_induction generalizing around with
  | list items ih =>
      obtain ⟨-, htuples⟩ := everywhere_list_iff.1 htuples
      obtain ⟨haround, hitems⟩ := (shallow_list_iff haround).1 h
      have hnesting : nestingOf items ≤ writeDepth - (around + 1) := by
        refine nestingOf_le_iff.2 fun item hitem => ?_
        have := ih item hitem (htuples item hitem) haround (hitems item hitem)
        omega
      rw [nesting]
      omega
  | tuple items ih => exact absurd rfl (everywhere_tuple_iff.1 htuples).1
  | dictionary entries ih =>
      obtain ⟨-, htuples⟩ := everywhere_dictionary_iff.1 htuples
      obtain ⟨haround, hentries⟩ := (shallow_dictionary_iff haround).1 h
      have hnesting : nestingUnder entries ≤ writeDepth - (around + 1) := by
        refine nestingUnder_le_iff.2 fun entry hentry => ?_
        have := ih entry hentry (htuples entry hentry) haround (hentries entry hentry)
        omega
      rw [nesting]
      omega
  | scalar v hscalar => rwa [Json.nesting_scalar hscalar]

/-! ### Values that can be written -/

/-- Whether nothing is wrong with a value anywhere. -/
def Writable (v : Value) : Prop :=
  ∀ position ∈ v.positions 0, position.Sound

theorem sound_of_hasForm {v : Value} (hscalar : v.IsScalar) (h : v.HasForm) (around : Nat) :
    (Position.value around v).Sound := by
  cases v with
  | list _ | tuple _ | dictionary _ => exact hscalar.elim
  | int n => exact Position.fits_iff.1 h
  | float x => exact h
  | bytes _ | emptySet | object | complexZero => exact h.elim
  | _ => trivial

theorem sound_or_tooDeep_container (hv : v.kind = .list ∨ v.kind = .dictionary) (around : Nat) :
    (Position.value around v).Sound ∨
      (Position.value around v).fault? = some .tooDeep := by
  cases v with
  | list _ | dictionary _ =>
      by_cases hdepth : around % 256 = 254
      · exact .inr (if_pos hdepth)
      · exact .inl hdepth
  | _ => simp [kind] at hv

/-- In a portable value nothing is wrong but that something stands too deep. -/
theorem sound_or_tooDeep (h : v.Portable) (around : Nat) : ∀ position ∈ v.positions around,
    position.Sound ∨ position.fault? = some .tooDeep := by
  induction v using parts_induction generalizing around with
  | list items ih =>
      rw [positions, List.forall_mem_cons, forall_mem_positionsIn]
      exact ⟨sound_or_tooDeep_container (.inl rfl) around, fun item hitem =>
        ih item hitem (portable_list_iff.1 h item hitem) _⟩
  | tuple items ih =>
      rw [positions, List.forall_mem_cons, forall_mem_positionsIn]
      exact ⟨.inl trivial, fun item hitem =>
        ih item hitem (portable_tuple_iff.1 h item hitem) _⟩
  | dictionary entries ih =>
      obtain ⟨⟨hkeys, -⟩, hvalues⟩ := portable_dictionary_iff.1 h
      rw [positions, List.forall_mem_cons, forall_mem_positionsUnder]
      exact ⟨sound_or_tooDeep_container (.inr rfl) around, fun entry hentry =>
        ⟨.inl (hkeys entry hentry), ih entry hentry (hvalues entry hentry) _⟩⟩
  | scalar v hscalar =>
      rw [positions_scalar around hscalar, List.forall_mem_singleton]
      exact .inl (sound_of_hasForm hscalar ((everywhere_scalar_iff hscalar).1 h) around)

/-- A portable value can be written exactly if nothing in it stands too deep. -/
theorem writable_iff_shallow (h : v.Portable) : v.Writable ↔ Shallow 0 v := by
  refine forall₂_congr fun position hposition => ?_
  have hcases := sound_or_tooDeep h 0 position hposition
  rw [Position.sound_iff] at hcases ⊢
  constructor
  · rintro ⟨-, hfault⟩
    simp [hfault]
  · exact hcases.resolve_right

theorem writable_of_portable (h : v.Portable) (hnesting : v.nesting ≤ writeDepth) : v.Writable :=
  (writable_iff_shallow h).2 (shallow_of_nesting_le (by simpa using hnesting))

/-- A portable value without tuples can be written exactly within the writer's depth. -/
theorem writable_iff_of_portable (h : v.Portable) (htuples : v.TupleFree) :
    v.Writable ↔ v.nesting ≤ writeDepth := by
  refine ⟨fun hwritable => ?_, writable_of_portable h⟩
  have hshallow := (writable_iff_shallow h).1 hwritable
  simpa using nesting_le_of_shallow htuples (Nat.zero_le _) hshallow

end Value

end SignedMessaging
