import SignedMessaging.Proofs.Json.Portability
import SignedMessaging.Proofs.Message.FrameEncoding

/-!
# Values deep inside

A value that stands inside so many lists, or so many tuples, nests that much deeper and is else
as it was.  Tuples are written however many there are (`exists_write_inside_tuple`), and lists
as deep as the writer goes (`exists_write_inside_list`); what has been written of tuples means
the value inside as many lists, which can be too many for the reader (`read_inside_tuple`).
-/

namespace SignedMessaging

namespace Message

/-- A value inside so many lists, or so many tuples, one in another. -/
def inside (container : List Value → Value) : Nat → Value → Value
  | 0, v => v
  | n + 1, v => container [inside container n v]

variable {container : List Value → Value}

theorem nesting_inside (hcontainer : container = .list ∨ container = .tuple) (n : Nat)
    (v : Value) : (inside container n v).nesting = v.nesting + n := by
  induction n with
  | zero => rfl
  | succ n ih =>
      rcases hcontainer with rfl | rfl <;>
        rw [inside, Value.nesting, Value.nestingOf, Value.nestingOf, ih, Nat.max_zero] <;> rfl

theorem wellKeyed_inside (hcontainer : container = .list ∨ container = .tuple) (n : Nat)
    {v : Value} (h : v.WellKeyed) : (inside container n v).WellKeyed := by
  induction n with
  | zero => exact h
  | succ n ih =>
      rcases hcontainer with rfl | rfl
      · exact Value.everywhere_list_iff.2 ⟨by simp, by simpa [Value.WellKeyed] using ih⟩
      · exact Value.everywhere_tuple_iff.2 ⟨by simp, by simpa [Value.WellKeyed] using ih⟩

theorem nonFinite?_inside (hcontainer : container = .list ∨ container = .tuple) (n : Nat)
    {v : Value} (h : v.nonFinite? = none) : (inside container n v).nonFinite? = none := by
  induction n with
  | zero => exact h
  | succ n ih =>
      rcases hcontainer with rfl | rfl <;>
        rw [inside, Value.nonFinite?, Value.nonFiniteIn?, ih] <;> rfl

theorem normal_inside_list (n : Nat) (v : Value) :
    (inside .list n v).normal = inside .list n v.normal := by
  induction n with
  | zero => rfl
  | succ n ih => rw [inside, Value.normal, Value.normalItems, Value.normalItems, ih, inside]

theorem normal_inside_tuple (n : Nat) (v : Value) :
    (inside .tuple n v).normal = inside .list n v.normal := by
  induction n with
  | zero => rfl
  | succ n ih => rw [inside, Value.normal, Value.normalItems, Value.normalItems, ih, inside]

theorem portable_inside_tuple (n : Nat) {v : Value} (h : v.Portable) :
    (inside .tuple n v).Portable := by
  induction n with
  | zero => exact h
  | succ n ih => exact Value.portable_tuple_iff.2 (List.forall_mem_singleton.2 ih)

/-- Lists down to the writer's depth are written, and what stands in them with them. -/
theorem exists_write_inside_list {n level : Nat} {v : Value} (hlevel : level + n ≤ Json.writeDepth)
    (h : ∃ cs, Json.writeValue (level + n) v = .ok cs) :
    ∃ cs, Json.writeValue level (inside .list n v) = .ok cs := by
  induction n generalizing level with
  | zero => exact h
  | succ n ih =>
      rw [Nat.add_succ, ← Nat.succ_add] at h hlevel
      obtain ⟨cs, hcs⟩ := ih hlevel h
      rw [inside, Json.writeValue, if_neg (Json.deeper_ne_lastLevel (by omega)),
        Json.deeper_of_le (by omega), Json.writeItems, hcs]
      exact ⟨_, rfl⟩

/-- Tuples are written at every depth. -/
theorem exists_write_inside_tuple (n level : Nat) :
    ∃ cs, Json.writeValue level (inside .tuple n .null) = .ok cs := by
  induction n generalizing level with
  | zero => exact ⟨_, rfl⟩
  | succ n ih =>
      obtain ⟨cs, hcs⟩ := ih (Json.deeper level)
      rw [inside, Json.writeValue, Json.writeItems, hcs]
      exact ⟨_, rfl⟩

/-- More tuples than the reader has levels are written and not read again. -/
theorem read_inside_tuple {n : Nat} (hdeep : Json.readDepth < n) :
    ∃ document, Json.write (inside .tuple n .null) = .ok document ∧
      Json.Means document (inside .list n .null) ∧ Json.read document = none := by
  obtain ⟨cs, hcs⟩ := exists_write_inside_tuple n 0
  have hwritten : Json.write (inside .tuple n .null) = .ok (Bytes.ofText (String.ofList cs)) := by
    rw [Json.write, hcs]
    rfl
  have hmeans := Json.means_of_write (portable_inside_tuple n (v := .null) trivial) hwritten
  rw [normal_inside_tuple] at hmeans
  refine ⟨_, hwritten, hmeans, Json.read_of_too_deep hmeans ?_⟩
  rw [nesting_inside (.inl rfl)]
  exact Nat.lt_of_lt_of_le hdeep (Nat.le_add_left _ _)

end Message

end SignedMessaging
