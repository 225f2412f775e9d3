import Mathlib.Data.List.Forall2
import Mathlib.Data.List.TakeWhile
import SignedMessaging.Proofs.Json.NumberReading

/-!
# Reading things between brackets

A reader of one thing gives a reader of several, with commas between them and a
bracket at the end.  What the one takes is described by a relation between things and
their spellings; the several are then taken from the spellings of a list of such
things.  The relation has to say how a thing starts, since a bracket or a blank in its
place would be taken for something else.
-/

namespace SignedMessaging.Json

/-! ### Blanks -/

theorem isBlank_iff {c : Char} : isBlank c ↔ c ∈ [' ', '\t', '\n', '\r'] := by
  simp [isBlank]

theorem blanks_nil : Blanks [] := by
  simp [Blanks]

theorem Blanks.append {before after : List Char} (hbefore : Blanks before) (hafter : Blanks after) :
    Blanks (before ++ after) := by
  intro c hc
  rcases List.mem_append.1 hc with hc | hc
  · exact hbefore c hc
  · exact hafter c hc

theorem blanks_iff_skipBlanks {cs : List Char} : Blanks cs ↔ skipBlanks cs = [] := by
  simp [Blanks, skipBlanks, List.dropWhile_eq_nil_iff, isBlank]

/-- A text that does not go on with a blank. -/
def Solid (cs : List Char) : Prop :=
  ∀ c ∈ cs.head?, isBlank c = false

theorem skipBlanks_of_solid {cs : List Char} (hcs : Solid cs) : skipBlanks cs = cs := by
  cases cs with
  | nil => rfl
  | cons c tail => simp [skipBlanks, hcs c rfl]

theorem skipBlanks_append {before rest : List Char} (hbefore : Blanks before) :
    skipBlanks (before ++ rest) = skipBlanks rest :=
  List.dropWhile_append_of_pos fun c hc => isBlank_iff.2 (hbefore c hc)

/-- Blanks are taken off the front of a text, and none is left there. -/
theorem exists_blanks_append_skipBlanks (cs : List Char) :
    ∃ gap, Blanks gap ∧ cs = gap ++ skipBlanks cs := by
  refine ⟨cs.takeWhile isBlank, fun c hc => ?_, List.takeWhile_append_dropWhile.symm⟩
  exact isBlank_iff.1 (List.all_eq_true.1 List.all_takeWhile c hc)

/-- A blank, and then a comma or a bracket, is no more of a number. -/
theorem numberEnds_of_blanks {gap : List Char} (hgap : Blanks gap) {c : Char}
    (hc : c = ',' ∨ c = ']' ∨ c = '\x7d') (rest : List Char) : NumberEnds (gap ++ c :: rest) := by
  cases gap with
  | nil =>
      intro d hd
      cases hd
      rcases hc with rfl | rfl | rfl <;> decide
  | cons b tail =>
      intro d hd
      cases hd
      have hb := hgap b List.mem_cons_self
      simp only [List.mem_cons, List.not_mem_nil, or_false] at hb
      rcases hb with rfl | rfl | rfl | rfl <;> decide

/-! ### Lists of things -/

section Listed

variable {α β : Type} {P : α → List Char → Prop} {Q : β → List Char → Prop}

theorem Listed.blanks_append {as : List α} {inner gap : List Char} (hgap : Blanks gap)
    (h : Listed P as inner) : Listed P as (gap ++ inner) := by
  cases h with
  | empty hinner => exact .empty (hgap.append hinner)
  | last hbefore hcore hafter =>
      rw [← List.append_assoc]
      exact .last (hgap.append hbefore) hcore hafter
  | more hbefore hcore hafter hrest =>
      rw [← List.append_assoc]
      exact .more (hgap.append hbefore) hcore hafter hrest

/-- What holds of every thing and its spelling holds of a list of them. -/
theorem Listed.exists_forall₂ {R : α → β → Prop}
    (h : ∀ a core, P a core → ∃ b, Q b core ∧ R a b) {as : List α} {inner : List Char}
    (hlisted : Listed P as inner) : ∃ bs, Listed Q bs inner ∧ List.Forall₂ R as bs := by
  induction hlisted with
  | empty hgap => exact ⟨[], .empty hgap, .nil⟩
  | last hbefore hcore hafter =>
      obtain ⟨b, hb, hrelated⟩ := h _ _ hcore
      exact ⟨[b], .last hbefore hb hafter, .cons hrelated .nil⟩
  | more hbefore hcore hafter hrest ih =>
      obtain ⟨b, hb, hrelated⟩ := h _ _ hcore
      obtain ⟨bs, hbs, hothers⟩ := ih
      cases hothers with
      | cons hnext hothers =>
          exact ⟨_, .more hbefore hb hafter hbs, .cons hrelated (.cons hnext hothers)⟩

/-- Related things are spelled alike where the relation says so of each of them. -/
theorem Listed.of_forall₂ {R : α → β → Prop} (h : ∀ a b core, P a core → R a b → Q b core)
    {as : List α} {bs : List β} {inner : List Char} (hlisted : Listed P as inner)
    (hrelated : List.Forall₂ R as bs) : Listed Q bs inner := by
  induction hlisted generalizing bs with
  | empty hgap =>
      cases hrelated
      exact .empty hgap
  | last hbefore hcore hafter =>
      cases hrelated with
      | cons hfirst hnone =>
          cases hnone
          exact .last hbefore (h _ _ _ hcore hfirst) hafter
  | more hbefore hcore hafter hrest ih =>
      cases hrelated with
      | cons hfirst hothers =>
          have hlist := ih hothers
          cases hothers
          exact .more hbefore (h _ _ _ hcore hfirst) hafter hlist

end Listed

/-! ### Readers and what they read -/

namespace Reader

variable {α : Type}

/-- A reader takes exactly what a relation spells, as far as what follows lets it see
the end, and nothing spelled starts like a blank or a closing bracket. -/
structure Reads (reader : Reader α) (P : α → List Char → Prop) : Prop where
  sound : ∀ {cs a rest}, reader.run cs = some (a, rest) → ∃ core, P a core ∧ cs = core ++ rest
  complete : ∀ {a core rest}, P a core → NumberEnds rest →
    reader.run (core ++ rest) = some (a, rest)
  starts : ∀ {a core}, P a core →
    ∃ c tail, core = c :: tail ∧ isBlank c = false ∧ c ≠ ']' ∧ c ≠ '\x7d'

theorem items_of_comma {item : Reader α} {close : Char} {cs rest after : List Char} {a : α}
    (hitem : item.run cs = some (a, rest)) (hcomma : skipBlanks rest = ',' :: after) :
    item.items close cs =
      (item.items close (skipBlanks after)).map fun (more, final) => (a :: more, final) := by
  rw [items]
  split
  · next hnone =>
    rw [hitem] at hnone
    cases hnone
  · next hsome =>
    rw [hitem] at hsome
    cases hsome
    split
    · next hnil =>
      rw [hcomma] at hnil
      cases hnil
    · next hcons =>
      rw [hcomma] at hcons
      cases hcons
      rfl

theorem items_of_close {item : Reader α} {close : Char} {cs rest after : List Char} {a : α}
    (hitem : item.run cs = some (a, rest)) (hclose : skipBlanks rest = close :: after)
    (hne : close ≠ ',') : item.items close cs = some ([a], after) := by
  rw [items]
  split
  · next hnone =>
    rw [hitem] at hnone
    cases hnone
  · next hsome =>
    rw [hitem] at hsome
    cases hsome
    split
    · next hnil =>
      rw [hclose] at hnil
      cases hnil
    · next hcons =>
      rw [hclose] at hcons
      cases hcons
      rw [if_neg hne, if_pos rfl]

variable {P : α → List Char → Prop} {reader : Reader α} {close : Char}

theorem items_sound (hreads : reader.Reads P) {cs rest : List Char} {as : List α}
    (h : reader.items close cs = some (as, rest)) :
    ∃ inner, Listed P as inner ∧ as ≠ [] ∧ cs = inner ++ close :: rest := by
  fun_induction items reader close cs generalizing as with
  | case1 => cases h
  | case2 => cases h
  | case3 cs a middle htaken hfirst after hthird hbetween hsecond ih =>
      obtain ⟨⟨more, final⟩, hmore, heq⟩ := Option.map_eq_some_iff.1 h
      cases heq
      obtain ⟨core, hcore, rfl⟩ := hreads.sound htaken
      obtain ⟨inner, hlisted, hmany, hafter⟩ := ih hmore
      obtain ⟨gap, hgap, hmiddle⟩ := exists_blanks_append_skipBlanks middle
      obtain ⟨next, hnext, hskipped⟩ := exists_blanks_append_skipBlanks after
      refine ⟨[] ++ (core ++ (gap ++ ',' :: (next ++ inner))), ?_, List.cons_ne_nil _ _, ?_⟩
      -- Something is read behind a comma, so the list cannot be the empty one here.
      · cases more with
        | nil => exact absurd rfl hmany
        | cons b others => exact .more blanks_nil hcore hgap (hlisted.blanks_append hnext)
      · rw [hmiddle, hbetween, hskipped, hafter]
        simp
  | case4 cs a middle htaken hfirst after hthird hbetween hsecond hcomma =>
      cases h
      obtain ⟨core, hcore, rfl⟩ := hreads.sound htaken
      obtain ⟨gap, hgap, hmiddle⟩ := exists_blanks_append_skipBlanks middle
      refine ⟨[] ++ (core ++ gap), .last blanks_nil hcore hgap, List.cons_ne_nil _ _, ?_⟩
      rw [hmiddle, hbetween]
      simp
  | case5 => cases h

/-- In front of a thing, blanks are skipped and nothing else. -/
theorem Reads.skipBlanks_core (hreads : reader.Reads P) {a : α} {before core : List Char}
    (hbefore : Blanks before) (hcore : P a core) (rest : List Char) :
    skipBlanks (before ++ (core ++ rest)) = core ++ rest := by
  rw [skipBlanks_append hbefore]
  obtain ⟨c, tail, rfl, hblank, -⟩ := hreads.starts hcore
  exact skipBlanks_of_solid fun d hd => by
    cases hd
    exact hblank

theorem skipBlanks_close (hclose : close = ']' ∨ close = '\x7d') {gap : List Char}
    (hgap : Blanks gap) (rest : List Char) :
    skipBlanks (gap ++ close :: rest) = close :: rest := by
  rw [skipBlanks_append hgap]
  exact skipBlanks_of_solid fun c hc => by
    cases hc
    rcases hclose with rfl | rfl <;> decide

theorem items_complete (hreads : reader.Reads P) (hclose : close = ']' ∨ close = '\x7d')
    {as : List α} {inner : List Char} (h : Listed P as inner) (hmany : as ≠ [])
    (rest : List Char) :
    reader.items close (skipBlanks (inner ++ close :: rest)) = some (as, rest) := by
  -- Blanks before a thing are skipped by whoever calls, so each step starts behind them.
  induction h with
  | empty _ => exact absurd rfl hmany
  | @last a before core after hbefore hcore hafter =>
      have hends := numberEnds_of_blanks hafter (.inr hclose) rest
      have hne : close ≠ ',' := by
        rcases hclose with rfl | rfl <;> decide
      rw [List.append_assoc, List.append_assoc, hreads.skipBlanks_core hbefore hcore]
      exact items_of_close (hreads.complete hcore hends) (skipBlanks_close hclose hafter rest) hne
  | @more a next others before core after tail hbefore hcore hafter hrest ih =>
      have hends := numberEnds_of_blanks hafter (.inl rfl) (tail ++ close :: rest)
      have hcomma : skipBlanks (after ++ ',' :: (tail ++ close :: rest)) =
          ',' :: (tail ++ close :: rest) := by
        rw [skipBlanks_append hafter]
        rfl
      simp only [List.append_assoc, List.cons_append]
      rw [hreads.skipBlanks_core hbefore hcore, items_of_comma (hreads.complete hcore hends) hcomma,
        ih (List.cons_ne_nil _ _)]
      rfl

/-- Between brackets a list of things is read, whatever follows the closing one. -/
theorem enclosed_eq_some_iff (hreads : reader.Reads P) (hclose : close = ']' ∨ close = '\x7d')
    {cs rest : List Char} {as : List α} :
    reader.enclosed close cs = some (as, rest) ↔
      ∃ inner, Listed P as inner ∧ cs = inner ++ close :: rest := by
  obtain ⟨gap, hgap, hcs⟩ := exists_blanks_append_skipBlanks cs
  constructor
  · intro h
    unfold enclosed at h
    split at h
    · cases h
    · next c after hskipped =>
      rw [hskipped] at hcs
      split at h
      · next heq =>
        cases h
        exact ⟨gap, .empty hgap, heq ▸ hcs⟩
      · obtain ⟨inner, hlisted, -, heq⟩ := items_sound hreads h
        refine ⟨gap ++ inner, hlisted.blanks_append hgap, ?_⟩
        rw [hcs, heq, List.append_assoc]
  · rintro ⟨inner, hlisted, rfl⟩
    cases has : as with
    | nil =>
        rw [has] at hlisted
        cases hlisted with
        | empty hgap => simp [enclosed, skipBlanks_close hclose hgap]
    | cons a others =>
        have hmany : as ≠ [] := by simp [has]
        have hitems := items_complete hreads hclose hlisted hmany rest
        -- The first thing does not start with the bracket, so it is not an empty list.
        have hsolid : ∃ c tail, skipBlanks (inner ++ close :: rest) = c :: tail ∧ c ≠ close := by
          rw [has] at hlisted
          cases hlisted with
          | last hbefore hcore _ | more hbefore hcore _ _ =>
              rw [List.append_assoc, List.append_assoc, hreads.skipBlanks_core hbefore hcore]
              obtain ⟨c, tail, rfl, -, hlist, hobject⟩ := hreads.starts hcore
              refine ⟨c, _, rfl, ?_⟩
              rcases hclose with rfl | rfl
              · exact hlist
              · exact hobject
        obtain ⟨c, tail, hskipped, hne⟩ := hsolid
        rw [enclosed, hskipped]
        simp only [if_neg hne]
        rw [← hskipped, hitems, has]

end Reader

end SignedMessaging.Json
