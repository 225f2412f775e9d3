import Mathlib.Data.List.Forall2
import SignedMessaging.Json.Number
import SignedMessaging.Value.Entries

/-!
# Values that pass over the wire

A value is portable if it has a JSON form: its keys are texts and no two of one
dictionary are equal, its integers keep their kind, its doubles are finite, and nothing
in it is without a form.  What arrives of a portable value is its normal form, in which
every tuple is a list; nothing else is changed, not the order of entries and not the kind
of a number.

* `Portable`: the values with a JSON form, part by part.
* `normal`, `nesting`, `TupleFree`: the normal form, how deep containers stand in one
  another, and whether no tuple is in a value.
* `same_normal_iff`: a portable value equals its normal form exactly if it has no tuple.
-/

namespace SignedMessaging.Value

/-! ### Parts of values -/

mutual

/-- A value with its tuples made lists. -/
def normal : Value → Value
  | .list items => .list (normalItems items)
  | .tuple items => .list (normalItems items)
  | .dictionary entries => .dictionary (normalEntries entries)
  | v => v
termination_by structural v => v

/-- Items with their tuples made lists. -/
def normalItems : List Value → List Value
  | [] => []
  | item :: items => normal item :: normalItems items
termination_by structural items => items

/-- Entries with the tuples in their values made lists. -/
def normalEntries : List (Value × Value) → List (Value × Value)
  | [] => []
  | (key, value) :: entries => (key, normal value) :: normalEntries entries
termination_by structural entries => entries

end

mutual

/-- How many lists, tuples and dictionaries stand inside one another. -/
def nesting : Value → Nat
  | .list items => nestingOf items + 1
  | .tuple items => nestingOf items + 1
  | .dictionary entries => nestingUnder entries + 1
  | _ => 0
termination_by structural v => v

/-- The deepest nesting among items. -/
def nestingOf : List Value → Nat
  | [] => 0
  | item :: items => max (nesting item) (nestingOf items)
termination_by structural items => items

/-- The deepest nesting among the values of entries. -/
def nestingUnder : List (Value × Value) → Nat
  | [] => 0
  | (_, value) :: entries => max (nesting value) (nestingUnder entries)
termination_by structural entries => entries

end

mutual

/-- Whether something is said of a value and of all values in it. -/
def Everywhere (P : Value → Prop) : Value → Prop
  | .list items => P (.list items) ∧ EverywhereIn P items
  | .tuple items => P (.tuple items) ∧ EverywhereIn P items
  | .dictionary entries => P (.dictionary entries) ∧ EverywhereUnder P entries
  | v => P v
termination_by structural v => v

/-- Whether something is said of all items and all values in them. -/
def EverywhereIn (P : Value → Prop) : List Value → Prop
  | [] => True
  | item :: items => Everywhere P item ∧ EverywhereIn P items
termination_by structural items => items

/-- Whether something is said of all values of entries and all values in them. -/
def EverywhereUnder (P : Value → Prop) : List (Value × Value) → Prop
  | [] => True
  | (_, value) :: entries => Everywhere P value ∧ EverywhereUnder P entries
termination_by structural entries => entries

end

/-- Whether no tuple is in a value. -/
def TupleFree : Value → Prop :=
  Everywhere fun v => v.kind ≠ .tuple

/-- Whether no two keys of one dictionary are equal. -/
def DistinctKeys (entries : List (Value × Value)) : Prop :=
  entries.Pairwise fun entry later => entry.1.same later.1 = false

/-- Whether the dictionaries in a value could have been built: no two keys are equal. -/
def WellKeyed : Value → Prop :=
  Everywhere fun v => ∀ entries, v = .dictionary entries → DistinctKeys entries

/-- Whether a value by itself, its parts aside, has a JSON form. -/
def HasForm : Value → Prop
  | .int n => Json.NumberLiteral.fitsInteger n = true
  | .float x => x.isFinite = true
  | .dictionary entries => (∀ entry ∈ entries, ∃ s, entry.1 = .text s) ∧ DistinctKeys entries
  | .bytes _ | .emptySet | .object | .complexZero => False
  | _ => True

/-- Whether a value has a JSON form. -/
def Portable : Value → Prop :=
  Everywhere HasForm

/-- Whether a value has no parts. -/
def IsScalar : Value → Prop
  | .list _ | .tuple _ | .dictionary _ => False
  | _ => True

/-- Induction on the parts of values, keys aside. -/
@[elab_as_elim]
theorem parts_induction {motive : Value → Prop}
    (list : ∀ items, (∀ item ∈ items, motive item) → motive (.list items))
    (tuple : ∀ items, (∀ item ∈ items, motive item) → motive (.tuple items))
    (dictionary : ∀ entries : List (Value × Value), (∀ entry ∈ entries, motive entry.2) →
      motive (.dictionary entries))
    (scalar : ∀ v : Value, v.IsScalar → motive v)
    (v : Value) : motive v := by
  match v with
  | .list items =>
      exact list items fun item hitem => parts_induction list tuple dictionary scalar item
  | .tuple items =>
      exact tuple items fun item hitem => parts_induction list tuple dictionary scalar item
  | .dictionary entries =>
      exact dictionary entries fun entry hentry =>
        parts_induction list tuple dictionary scalar entry.2
  | .null | .bool _ | .int _ | .float _ | .text _ | .bytes _ | .emptySet | .object |
    .complexZero => exact scalar _ trivial
termination_by sizeOf v
decreasing_by
  · have hsize := List.sizeOf_lt_of_mem hitem
    simp only [Value.list.sizeOf_spec]
    omega
  · have hsize := List.sizeOf_lt_of_mem hitem
    simp only [Value.tuple.sizeOf_spec]
    omega
  · obtain ⟨key, value⟩ := entry
    have hsize := List.sizeOf_lt_of_mem hentry
    simp only [Value.dictionary.sizeOf_spec, Prod.mk.sizeOf_spec] at hsize ⊢
    omega

variable {P : Value → Prop} {v : Value} {items : List Value} {entries : List (Value × Value)}

theorem normalItems_eq_map (items : List Value) : normalItems items = items.map normal := by
  induction items with
  | nil => rfl
  | cons item items ih => rw [normalItems, ih, List.map_cons]

theorem normalEntries_eq_map (entries : List (Value × Value)) :
    normalEntries entries = entries.map fun entry => (entry.1, normal entry.2) := by
  induction entries with
  | nil => rfl
  | cons entry entries ih => rw [normalEntries, ih, List.map_cons]

theorem nestingOf_le_iff {depth : Nat} :
    nestingOf items ≤ depth ↔ ∀ item ∈ items, nesting item ≤ depth := by
  induction items with
  | nil => simp [nestingOf]
  | cons item items ih => rw [nestingOf, Nat.max_le, ih, List.forall_mem_cons]

theorem nestingUnder_le_iff {depth : Nat} :
    nestingUnder entries ≤ depth ↔ ∀ entry ∈ entries, nesting entry.2 ≤ depth := by
  induction entries with
  | nil => simp [nestingUnder]
  | cons entry entries ih => rw [nestingUnder, Nat.max_le, ih, List.forall_mem_cons]

theorem everywhereIn_iff : EverywhereIn P items ↔ ∀ item ∈ items, Everywhere P item := by
  induction items with
  | nil => simp [EverywhereIn]
  | cons item items ih => rw [EverywhereIn, ih, List.forall_mem_cons]

theorem everywhereUnder_iff :
    EverywhereUnder P entries ↔ ∀ entry ∈ entries, Everywhere P entry.2 := by
  induction entries with
  | nil => simp [EverywhereUnder]
  | cons entry entries ih => rw [EverywhereUnder, ih, List.forall_mem_cons]

theorem everywhere_list_iff :
    Everywhere P (.list items) ↔ P (.list items) ∧ ∀ item ∈ items, Everywhere P item := by
  rw [Everywhere, everywhereIn_iff]

theorem everywhere_tuple_iff :
    Everywhere P (.tuple items) ↔ P (.tuple items) ∧ ∀ item ∈ items, Everywhere P item := by
  rw [Everywhere, everywhereIn_iff]

theorem everywhere_dictionary_iff : Everywhere P (.dictionary entries) ↔
    P (.dictionary entries) ∧ ∀ entry ∈ entries, Everywhere P entry.2 := by
  rw [Everywhere, everywhereUnder_iff]

theorem kind_ne_tuple_of_scalar (hscalar : v.IsScalar) : v.kind ≠ .tuple := by
  cases v with
  | list _ | tuple _ | dictionary _ => exact hscalar.elim
  | _ => simp [kind]

theorem everywhere_scalar_iff (hscalar : v.IsScalar) : Everywhere P v ↔ P v := by
  cases v with
  | list _ | tuple _ | dictionary _ => exact hscalar.elim
  | _ => rfl

theorem everywhere_mono {Q : Value → Prop} (himp : ∀ v, P v → Q v) (h : Everywhere P v) :
    Everywhere Q v := by
  induction v using parts_induction with
  | list items ih =>
      obtain ⟨hself, hitems⟩ := everywhere_list_iff.1 h
      exact everywhere_list_iff.2
        ⟨himp _ hself, fun item hitem => ih item hitem (hitems item hitem)⟩
  | tuple items ih =>
      obtain ⟨hself, hitems⟩ := everywhere_tuple_iff.1 h
      exact everywhere_tuple_iff.2
        ⟨himp _ hself, fun item hitem => ih item hitem (hitems item hitem)⟩
  | dictionary entries ih =>
      obtain ⟨hself, hvalues⟩ := everywhere_dictionary_iff.1 h
      exact everywhere_dictionary_iff.2
        ⟨himp _ hself, fun entry hentry => ih entry hentry (hvalues entry hentry)⟩
  | scalar v hscalar =>
      exact (everywhere_scalar_iff hscalar).2 (himp v ((everywhere_scalar_iff hscalar).1 h))

theorem normal_of_scalar (hscalar : v.IsScalar) : v.normal = v := by
  cases v with
  | list _ | tuple _ | dictionary _ => exact hscalar.elim
  | _ => rfl

/-- A value without tuples is its own normal form. -/
theorem normal_of_tupleFree (h : v.TupleFree) : v.normal = v := by
  induction v using parts_induction with
  | list items ih =>
      obtain ⟨-, hitems⟩ := everywhere_list_iff.1 h
      rw [normal, normalItems_eq_map, List.map_congr_left fun item hitem =>
        ih item hitem (hitems item hitem), List.map_id']
  | tuple items ih => exact absurd rfl (everywhere_tuple_iff.1 h).1
  | dictionary entries ih =>
      obtain ⟨-, hvalues⟩ := everywhere_dictionary_iff.1 h
      have heach : ∀ entry ∈ entries, (entry.1, normal entry.2) = entry := fun entry hentry => by
        rw [ih entry hentry (hvalues entry hentry)]
      rw [normal, normalEntries_eq_map, List.map_congr_left heach, List.map_id']
  | scalar v hscalar => exact normal_of_scalar hscalar

/-- The normal form nests as deep as the value. -/
theorem nesting_normal (v : Value) : v.normal.nesting = v.nesting := by
  -- Nestings are compared by the depths that bound them, since a bound is one for each part.
  have hle : ∀ {first second : Nat}, (∀ depth, first ≤ depth ↔ second ≤ depth) →
      first = second := fun h => Nat.le_antisymm ((h _).2 (Nat.le_refl _)) ((h _).1 (Nat.le_refl _))
  induction v using parts_induction with
  | list items ih | tuple items ih =>
      rw [normal, nesting, nesting, normalItems_eq_map]
      refine congrArg (· + 1) (hle fun depth => ?_)
      rw [nestingOf_le_iff, nestingOf_le_iff, List.forall_mem_map]
      exact forall₂_congr fun item hitem => by rw [ih item hitem]
  | dictionary entries ih =>
      rw [normal, nesting, nesting, normalEntries_eq_map]
      refine congrArg (· + 1) (hle fun depth => ?_)
      rw [nestingUnder_le_iff, nestingUnder_le_iff, List.forall_mem_map]
      exact forall₂_congr fun entry hentry => by rw [ih entry hentry]
  | scalar v hscalar => rw [normal_of_scalar hscalar]

/-! ### Portable values -/

theorem portable_list_iff : Portable (.list items) ↔ ∀ item ∈ items, Portable item :=
  everywhere_list_iff.trans (and_iff_right trivial)

theorem portable_tuple_iff : Portable (.tuple items) ↔ ∀ item ∈ items, Portable item :=
  everywhere_tuple_iff.trans (and_iff_right trivial)

theorem portable_dictionary_iff : Portable (.dictionary entries) ↔
    ((∀ entry ∈ entries, ∃ s, entry.1 = .text s) ∧ DistinctKeys entries) ∧
      ∀ entry ∈ entries, Portable entry.2 :=
  everywhere_dictionary_iff

theorem hasForm_of_portable (h : Portable v) : HasForm v := by
  cases v with
  | list _ => exact (everywhere_list_iff.1 h).1
  | tuple _ => exact (everywhere_tuple_iff.1 h).1
  | dictionary _ => exact (everywhere_dictionary_iff.1 h).1
  | _ => exact h

/-- A portable value is one whose dictionaries could have been built. -/
theorem wellKeyed_of_portable (h : Portable v) : WellKeyed v := by
  refine everywhere_mono (fun w hform entries hw => ?_) h
  subst hw
  exact hform.2

/-- The normal form of a portable value is portable. -/
theorem portable_normal {v : Value} (h : Portable v) : Portable v.normal := by
  induction v using parts_induction with
  | list items ih =>
      rw [normal, portable_list_iff, normalItems_eq_map, List.forall_mem_map]
      exact fun item hitem => ih item hitem (portable_list_iff.1 h item hitem)
  | tuple items ih =>
      rw [normal, portable_list_iff, normalItems_eq_map, List.forall_mem_map]
      exact fun item hitem => ih item hitem (portable_tuple_iff.1 h item hitem)
  | dictionary entries ih =>
      obtain ⟨⟨hkeys, hdistinct⟩, hvalues⟩ := portable_dictionary_iff.1 h
      rw [normal, portable_dictionary_iff, normalEntries_eq_map]
      refine ⟨⟨?_, ?_⟩, ?_⟩
      · rw [List.forall_mem_map]
        exact hkeys
      · exact List.pairwise_map.2 hdistinct
      · rw [List.forall_mem_map]
        exact fun entry hentry => ih entry hentry (hvalues entry hentry)
  | scalar v hscalar => rwa [normal_of_scalar hscalar]

/-! ### Equality with the normal form -/

theorem same_text (s t : String) : (Value.text s).same (.text t) = decide (s = t) := by
  rw [same, Bool.eq_iff_iff]
  simp

/-- Nothing but a text equals a text. -/
theorem same_text_iff {s : String} : v.same (.text s) = true ↔ v = .text s := by
  cases v with
  | text t => simp [same_text]
  | _ => simp [same, sameNumber, integer?]

theorem sameItems_iff {others : List Value} :
    sameItems items others = true ↔ List.Forall₂ (fun item other => item.same other = true)
      items others := by
  induction items generalizing others with
  | nil => cases others <;> simp [sameItems]
  | cons item items ih => cases others <;> simp [sameItems, ih]

theorem sameEntries_iff {others : List (Value × Value)} :
    sameEntries entries others = true ↔ ∀ entry ∈ entries, ∃ other,
      others.find? (fun other => entry.1.same other.1) = some other ∧
        entry.2.same other.2 = true := by
  induction entries with
  | nil => simp [sameEntries]
  | cons entry entries ih =>
      rw [sameEntries, Bool.and_eq_true, ih, List.forall_mem_cons]
      refine and_congr_left fun _ => ?_
      cases others.find? fun other => entry.1.same other.1 <;> simp

/-- Under distinct text keys an entry is found by its own key. -/
theorem find?_own (hkeys : ∀ entry ∈ entries, ∃ s, entry.1 = .text s)
    (hdistinct : DistinctKeys entries) {entry : Value × Value} (hentry : entry ∈ entries) :
    entries.find? (fun other => entry.1.same other.1) = some entry := by
  obtain ⟨earlier, later, rfl⟩ := List.append_of_mem hentry
  obtain ⟨s, hs⟩ := hkeys entry hentry
  -- No earlier key is equal, or the keys would not be distinct.
  have hnone : earlier.find? (fun other => entry.1.same other.1) = none := by
    rw [List.find?_eq_none]
    intro other hother
    obtain ⟨t, ht⟩ := hkeys other (List.mem_append_left _ hother)
    have hne := (List.pairwise_append.1 hdistinct).2.2 other hother entry List.mem_cons_self
    rw [hs, ht, same_text, decide_eq_false_iff_not] at hne
    rw [hs, ht, same_text, decide_eq_true_eq]
    exact Ne.symm hne
  have hself : entry.1.same entry.1 = true := by simp [hs, same_text]
  rw [List.find?_append, hnone, List.find?_cons, hself]
  rfl

theorem same_self_of_scalar (h : HasForm v) (hscalar : v.IsScalar) : v.same v = true := by
  cases v with
  | null => rfl
  | bool b => simp [same, sameNumber, integer?]
  | int n => simp [same, sameNumber, integer?]
  | float x =>
      have hfinite : x.rank < infinityRank := of_decide_eq_true h
      simp [same, sameNumber, Double.same, Double.isNotANumber, Nat.le_of_lt hfinite]
  | text s => simp [same]
  | list _ | tuple _ | dictionary _ => exact hscalar.elim
  | bytes _ | emptySet | object | complexZero => exact h.elim

/-- A portable value equals its normal form exactly if there is no tuple in it. -/
theorem same_normal_iff (h : Portable v) : v.normal.same v = true ↔ v.TupleFree := by
  induction v using parts_induction with
  | list items ih =>
      rw [portable_list_iff] at h
      rw [normal, same, sameItems_iff, normalItems_eq_map, List.forall₂_map_left_iff,
        List.forall₂_same, TupleFree, everywhere_list_iff, and_iff_right (by simp [kind])]
      exact forall₂_congr fun item hitem => ih item hitem (h item hitem)
  | tuple items ih =>
      rw [normal, TupleFree, everywhere_tuple_iff]
      simp [same, kind]
  | dictionary entries ih =>
      obtain ⟨⟨hkeys, hdistinct⟩, hvalues⟩ := portable_dictionary_iff.1 h
      rw [normal, same, Bool.and_eq_true, sameEntries_iff, normalEntries_eq_map, List.length_map,
        and_iff_right (beq_self_eq_true _), List.forall_mem_map, TupleFree,
        everywhere_dictionary_iff, and_iff_right (by simp [kind])]
      refine forall₂_congr fun entry hentry => ?_
      simp only [find?_own hkeys hdistinct hentry, Option.some.injEq, exists_eq_left']
      exact ih entry hentry (hvalues entry hentry)
  | scalar v hscalar =>
      rw [normal_of_scalar hscalar, TupleFree, everywhere_scalar_iff hscalar]
      refine iff_of_true (same_self_of_scalar ?_ hscalar) (kind_ne_tuple_of_scalar hscalar)
      exact (everywhere_scalar_iff hscalar).1 h

end SignedMessaging.Value
