import Mathlib.Data.List.Forall2

/-!
# Outcomes of operations that may fail

Operations are joined one after another or along a list, and faults are carried from one
layer to the next.  Each lemma says of a joined operation when it succeeds or which fault
it ends with, in terms of its parts.  The fault of what is joined is the first that a part has
(`fault?_bind`, `fault?_mapM`).
-/

namespace SignedMessaging.Outcome

variable {ε ζ α β : Type}

/-- What is done one after another succeeds where every part does. -/
theorem bind_eq_ok_iff {x : Except ε α} {f : α → Except ε β} {b : β} :
    x >>= f = .ok b ↔ ∃ a, x = .ok a ∧ f a = .ok b := by
  cases x <;> simp [bind, Except.bind]

/-- It has a fault where a part has it, and all parts before that succeed. -/
theorem bind_eq_error_iff {x : Except ε α} {f : α → Except ε β} {fault : ε} :
    x >>= f = .error fault ↔ x = .error fault ∨ ∃ a, x = .ok a ∧ f a = .error fault := by
  cases x <;> simp [bind, Except.bind]

theorem map_eq_ok_iff {f : α → β} {x : Except ε α} {b : β} :
    x.map f = .ok b ↔ ∃ a, x = .ok a ∧ f a = b := by
  cases x <;> simp [Except.map]

theorem mapError_eq_ok_iff {f : ε → ζ} {x : Except ε α} {a : α} :
    x.mapError f = .ok a ↔ x = .ok a := by
  cases x <;> simp [Except.mapError]

theorem mapError_eq_error_iff {f : ε → ζ} {x : Except ε α} {fault : ζ} :
    x.mapError f = .error fault ↔ ∃ cause, x = .error cause ∧ f cause = fault := by
  cases x <;> simp [Except.mapError]

/-- What relates two lists item by item may be weakened item by item. -/
theorem forall₂_imp_of_mem {R S : α → β → Prop} {xs : List α} {ys : List β}
    (h : List.Forall₂ R xs ys) (himp : ∀ x ∈ xs, ∀ y, R x y → S x y) :
    List.Forall₂ S xs ys :=
  ((List.forall₂_and_left xs ys).2 ⟨himp, h⟩).imp fun _ y hxy => hxy.1 y hxy.2

/-- In lists that are related item by item every item on the right has one on the left. -/
theorem exists_of_mem_right {R : α → β → Prop} {xs : List α} {ys : List β}
    (h : List.Forall₂ R xs ys) {y : β} (hy : y ∈ ys) : ∃ x ∈ xs, R x y := by
  induction h with
  | nil => cases hy
  | cons hfirst _ ih =>
      rcases List.mem_cons.1 hy with rfl | hy
      · exact ⟨_, List.mem_cons_self, hfirst⟩
      · obtain ⟨x, hx, hrelated⟩ := ih hy
        exact ⟨x, List.mem_cons_of_mem _ hx, hrelated⟩

/-- What is done along a list succeeds where it does for every item. -/
theorem mapM_eq_ok_iff {f : α → Except ε β} {xs : List α} {ys : List β} :
    xs.mapM f = .ok ys ↔ List.Forall₂ (fun x y => f x = .ok y) xs ys := by
  induction xs generalizing ys with
  | nil => simp [pure, Except.pure, eq_comm]
  | cons x xs ih =>
      rw [List.mapM_cons, bind_eq_ok_iff, List.forall₂_cons_left_iff]
      refine exists_congr fun y => ?_
      rw [bind_eq_ok_iff]
      constructor
      · rintro ⟨hx, others, hothers, heq⟩
        cases heq
        exact ⟨others, hx, ih.1 hothers, rfl⟩
      · rintro ⟨others, hx, hothers, rfl⟩
        exact ⟨hx, others, ih.2 hothers, rfl⟩

/-- Where all items have their result or one and the same fault, so has the list. -/
theorem mapM_of_fits {f : α → Except ε β} {fits : α → Prop} [DecidablePred fits] {fault : ε}
    {xs : List α} {ys : List β}
    (h : List.Forall₂ (fun x y => f x = if fits x then .ok y else .error fault) xs ys) :
    xs.mapM f = if ∀ x ∈ xs, fits x then .ok ys else .error fault := by
  induction h with
  | nil => simp [pure, Except.pure]
  | @cons x y xs ys hx _ ih =>
      rw [List.mapM_cons, hx, ih]
      by_cases hfirst : fits x
      · by_cases hothers : ∀ x ∈ xs, fits x
        · rw [if_pos hfirst, if_pos hothers, if_pos (List.forall_mem_cons.2 ⟨hfirst, hothers⟩)]
          rfl
        · rw [if_pos hfirst, if_neg hothers, if_neg fun h => hothers (List.forall_mem_cons.1 h).2]
          rfl
      · rw [if_neg hfirst, if_neg fun h => hfirst (List.forall_mem_cons.1 h).1]
        rfl

/-! ### The first fault -/

/-- The fault that an operation ends with, if it ends with one. -/
def fault? : Except ε α → Option ε
  | .ok _ => none
  | .error fault => some fault

theorem fault?_eq_some_iff {x : Except ε α} {fault : ε} :
    fault? x = some fault ↔ x = .error fault := by
  cases x <;> simp [fault?]

theorem fault?_eq_none_iff {x : Except ε α} : fault? x = none ↔ ∃ a, x = .ok a := by
  cases x <;> simp [fault?]

theorem fault?_map (f : α → β) (x : Except ε α) : fault? (x.map f) = fault? x := by
  cases x <;> rfl

theorem fault?_mapError (f : ε → ζ) (x : Except ε α) :
    fault? (x.mapError f) = (fault? x).map f := by
  cases x <;> rfl

/-- What is done first has its fault reported first. -/
theorem fault?_bind {x : Except ε α} {f : α → Except ε β} {next : Option ε}
    (h : ∀ a, x = .ok a → fault? (f a) = next) : fault? (x >>= f) = (fault? x).or next := by
  cases x with
  | error fault => rfl
  | ok a => exact h a rfl

/-- Along a list the first fault of an item is reported. -/
theorem fault?_mapM (f : α → Except ε β) (xs : List α) :
    fault? (xs.mapM f) = xs.findSome? fun x => fault? (f x) := by
  induction xs with
  | nil => rfl
  | cons x xs ih =>
      have hmore : ∀ y, f x = .ok y → fault? (do return y :: (← xs.mapM f)) =
          xs.findSome? fun x => fault? (f x) := by
        intro y _
        rw [← ih]
        cases xs.mapM f <;> rfl
      rw [List.mapM_cons, fault?_bind hmore, List.findSome?_cons]
      cases fault? (f x) <;> rfl

end SignedMessaging.Outcome
