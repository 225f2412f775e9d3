import SignedMessaging.Proofs.Json.PrefixFree
import SignedMessaging.Proofs.Json.Writing
import SignedMessaging.Proofs.Number.FewestDigits

/-!
# The text of a double

A finite double is written as a text that is read as the same double, of the same sign also
where it is zero.  The digits of the text are those of a shortest decimal that rounds to the
double, and its form tells the decimal exponent: positional from -5 to 15, and scientific
otherwise (`float_text_faithful`).

The form is a property of the text and not of the way in which it was written, because no
text spells two numbers (`numberText_unique`).
-/

namespace SignedMessaging.Json

variable {literal literal' : NumberLiteral} {cs : List Char}

/-! ### The forms exclude each other -/

theorem numberText_unique (h : NumberText literal cs) (h' : NumberText literal' cs) :
    literal = literal' := by
  have hends : NumberEnds [] := fun c hc => by cases hc
  have hliteral := numberLiteral_complete h hends
  rw [numberLiteral_complete h' hends] at hliteral
  cases hliteral
  rfl

theorem not_scientific_of_positional (h : PositionalText literal cs) :
    ¬ ScientificText literal' cs := by
  intro h'
  obtain rfl := numberText_unique h.spellsDouble.1 h'.spellsDouble.1
  -- Only one of the two has an exponent.
  cases h
  cases h'

/-- A text that has the form for a decimal exponent shows whether it is positional. -/
theorem forms_of_formOf {layout : Layout} {exponent : Int}
    (h : formOf layout exponent literal cs) :
    ((∃ found, PositionalText found cs) ↔
      layout.leastPositional ≤ exponent ∧ exponent ≤ layout.greatestPositional) ∧
    ((∃ found, ScientificText found cs) ↔
      ¬ (layout.leastPositional ≤ exponent ∧ exponent ≤ layout.greatestPositional)) := by
  unfold formOf at h
  split at h
  · next hwithin =>
    exact ⟨iff_of_true ⟨literal, h⟩ hwithin,
      iff_of_false (fun ⟨_, hfound⟩ => not_scientific_of_positional h hfound)
        (not_not_intro hwithin)⟩
  · next hbeyond =>
    exact ⟨iff_of_false (fun ⟨_, hfound⟩ => not_scientific_of_positional hfound h) hbeyond,
      iff_of_true ⟨literal, h⟩ hbeyond⟩

/-! ### The digits of the text -/

theorem isShortest_zero : Decimal.IsShortest ⟨0, 0⟩ 0 where
  rounds := Decimal.readsAs_iff.1 rfl
  fewest _ _ := Nat.length_toDigits_pos
  nearest other _ _ := by
    have hvalue : Decimal.value ⟨0, 0⟩ = 0 := by simp [Decimal.value]
    rw [hvalue, Double.size_zero, sub_self, abs_zero]
    exact abs_nonneg _

/-- The text of a finite double writes a shortest decimal, in the form that the layout has
for its leading exponent. -/
theorem text_writes (layout : Layout)
    (hzero : layout.leastPositional ≤ 0 ∧ 0 ≤ layout.greatestPositional) {x : Double}
    (hfinite : x.isFinite = true) : ∃ decimal : Decimal, decimal.IsShortest x.rank ∧
      WritesDigits (formOf layout decimal.leadingExponent) x.negative
        (Nat.toDigits 10 decimal.digits) decimal.exponent (layout.text x) := by
  by_cases hrank : x.rank = 0
  · refine ⟨⟨0, 0⟩, hrank ▸ isShortest_zero, ?_⟩
    rw [Layout.text, if_pos hrank, Decimal.leadingExponent_zero, formOf, if_pos hzero]
    exact zero_writes x.negative
  · have hpositive := Nat.pos_of_ne_zero hrank
    have hrange : x.rank < infinityRank := of_decide_eq_true hfinite
    obtain ⟨digits, zeros, hdigits, hlast, hwrites⟩ :=
      magnitude_writes layout x.negative hpositive hrange
    have hdigits' : 0 < digits := Nat.pos_of_ne_zero fun h => hlast (h ▸ Nat.zero_mod 10)
    refine ⟨_, Decimal.isShortest_of_trimmed hpositive hrange hdigits hlast, ?_⟩
    rw [Layout.text, if_neg hrank, Decimal.leadingExponent_eq hdigits']
    exact hwrites

/-! ### Faithful texts -/

/-- A text writes a shortest decimal of a double, in positional form or with an exponent. -/
structure FaithfulText (x : Double) (decimal : Decimal) (cs : List Char) : Prop where
  shortest : decimal.IsShortest x.rank
  digits : WritesDigits NumberText x.negative (Nat.toDigits 10 decimal.digits) decimal.exponent cs
  positional : (∃ literal, PositionalText literal cs) ↔
    -5 ≤ decimal.leadingExponent ∧ decimal.leadingExponent ≤ 15
  scientific : (∃ literal, ScientificText literal cs) ↔
    ¬ (-5 ≤ decimal.leadingExponent ∧ decimal.leadingExponent ≤ 15)

theorem exists_faithfulText {x : Double} (hfinite : x.isFinite = true) :
    ∃ decimal, FaithfulText x decimal (layout.text x) := by
  obtain ⟨decimal, hshortest, literal, hform, hnegative, hfills⟩ :=
    text_writes layout (by decide) hfinite
  obtain ⟨hpositional, hscientific⟩ := forms_of_formOf hform
  exact ⟨decimal, hshortest, ⟨literal, (spellsDouble_of_formOf hform).1, hnegative, hfills⟩,
    hpositional, hscientific⟩

/-- A finite double is written as a faithful text of it, and what is written is read as the
double itself. -/
theorem float_text_faithful {x : Double} (hfinite : x.isFinite = true) :
    ∃ (cs : List Char) (decimal : Decimal),
      write (.float x) = .ok (Bytes.ofText (String.ofList cs)) ∧
        read (Bytes.ofText (String.ofList cs)) = some (.float x) ∧
        FaithfulText x decimal cs := by
  obtain ⟨decimal, hfaithful⟩ := exists_faithfulText hfinite
  have hwritten : write (.float x) = .ok (Bytes.ofText (String.ofList (layout.text x))) := by
    rw [write, writeValue, writeDouble, if_pos hfinite]
    rfl
  have hportable : (Value.float x).Portable := hfinite
  have hread := read_eq_some_iff.2 ((denotes_write_iff hportable hwritten).2 (Nat.zero_le _))
  exact ⟨layout.text x, decimal, hwritten, hread, hfaithful⟩

/-- The double next to `-10 ^ 23`, which is as far from the double on its other side. -/
def halfwayFrom : Double := ⟨true, 4950912855330343670, by decide⟩

/-- Of the two doubles this is the even one, to which `-10 ^ 23` rounds: a single digit tells
it from all others. -/
theorem float_text_faithful_halfway :
    halfwayFrom.isFinite = true ∧
      write (.float halfwayFrom) = .ok (Bytes.ofText "-1e+23") ∧
      read (Bytes.ofText "-1e+23") = some (.float halfwayFrom) ∧
      ∃ decimal, FaithfulText halfwayFrom decimal "-1e+23".toList := by
  have hfinite : halfwayFrom.isFinite = true := by decide
  have hwritten : write (.float halfwayFrom) = .ok (Bytes.ofText "-1e+23") := by decide +kernel
  obtain ⟨cs, decimal, hwrite, hread, hfaithful⟩ := float_text_faithful hfinite
  have htext : "-1e+23" = String.ofList cs :=
    Bytes.ofText_injective (Except.ok.inj (hwritten.symm.trans hwrite))
  refine ⟨hfinite, hwritten, htext ▸ hread, decimal, ?_⟩
  rwa [htext, String.toList_ofList]

end SignedMessaging.Json
