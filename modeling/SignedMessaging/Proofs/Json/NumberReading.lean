import SignedMessaging.Proofs.Json.Grammar

/-!
# Reading numbers

A number has no end of its own, so its reader takes the longest spelling at the front
of a text.  What it takes spells the number that it gives, and a spelling is taken
whole wherever the text after it cannot be more of a number.
-/

namespace SignedMessaging.Json

/-- A text that does not go on with a digit. -/
def DigitsEnd (rest : List Char) : Prop :=
  ∀ c ∈ rest.head?, c.isDigit = false

/-- A text that cannot be more of a number. -/
def NumberEnds (rest : List Char) : Prop :=
  ∀ c ∈ rest.head?, c.isDigit = false ∧ c ≠ '.' ∧ c ≠ 'e' ∧ c ≠ 'E'

theorem NumberEnds.digitsEnd {rest : List Char} (h : NumberEnds rest) : DigitsEnd rest :=
  fun c hc => (h c hc).1

theorem DigitsEnd.cons {c : Char} (hc : c.isDigit = false) (rest : List Char) :
    DigitsEnd (c :: rest) := by
  simpa [DigitsEnd] using hc

/-! ### Runs of digits -/

theorem takeWhile_digits_append {digits rest : List Char} (hdigits : ∀ c ∈ digits, c.isDigit)
    (hrest : DigitsEnd rest) : (digits ++ rest).takeWhile Char.isDigit = digits := by
  rw [List.takeWhile_append_of_pos hdigits]
  cases rest with
  | nil => simp
  | cons c tail => simp [hrest c rfl]

theorem dropWhile_digits_append {digits rest : List Char} (hdigits : ∀ c ∈ digits, c.isDigit)
    (hrest : DigitsEnd rest) : (digits ++ rest).dropWhile Char.isDigit = rest := by
  rw [List.dropWhile_append_of_pos hdigits]
  cases rest with
  | nil => rfl
  | cons c tail => simp [hrest c rfl]

theorem digits_of_takeWhile {cs : List Char} {first : Char} {more : List Char}
    (h : cs.takeWhile Char.isDigit = first :: more) : Digits (first :: more) := by
  refine ⟨List.cons_ne_nil _ _, fun c hc => ?_⟩
  rw [← h] at hc
  exact List.all_eq_true.1 List.all_takeWhile c hc

theorem someDigits_sound {cs digits rest : List Char} (h : someDigits cs = some (digits, rest)) :
    Digits digits ∧ cs = digits ++ rest := by
  unfold someDigits at h
  split at h
  · cases h
  · next hdigits =>
    cases h
    refine ⟨digits_of_takeWhile hdigits, ?_⟩
    rw [← hdigits, List.takeWhile_append_dropWhile]

theorem someDigits_complete {digits rest : List Char} (hdigits : Digits digits)
    (hrest : DigitsEnd rest) : someDigits (digits ++ rest) = some (digits, rest) := by
  rw [someDigits, takeWhile_digits_append hdigits.2 hrest, dropWhile_digits_append hdigits.2 hrest]
  cases digits with
  | nil => exact absurd rfl hdigits.1
  | cons first more => rfl

theorem wholeDigits_sound {cs digits rest : List Char}
    (h : wholeDigits cs = some (digits, rest)) :
    Digits digits ∧ (digits.head? = some '0' → digits = ['0']) ∧ cs = digits ++ rest := by
  unfold wholeDigits at h
  split at h
  · cases h
  · next first more hdigits =>
    split at h
    · cases h
    · next hzero =>
      cases h
      refine ⟨digits_of_takeWhile hdigits, fun hfirst => ?_, ?_⟩
      · obtain rfl : first = '0' := by simpa using hfirst
        cases more with
        | nil => rfl
        | cons _ _ => exact absurd ⟨rfl, List.cons_ne_nil _ _⟩ hzero
      · rw [← hdigits, List.takeWhile_append_dropWhile]

theorem wholeDigits_complete {digits rest : List Char} (hdigits : Digits digits)
    (hzero : digits.head? = some '0' → digits = ['0']) (hrest : DigitsEnd rest) :
    wholeDigits (digits ++ rest) = some (digits, rest) := by
  rw [wholeDigits, takeWhile_digits_append hdigits.2 hrest, dropWhile_digits_append hdigits.2 hrest]
  cases digits with
  | nil => exact absurd rfl hdigits.1
  | cons first more =>
      have hsingle : ¬ (first = '0' ∧ more ≠ []) := by
        rintro ⟨rfl, hmore⟩
        exact hmore (List.cons.inj (hzero rfl)).2
      exact if_neg hsingle

/-- A run of digits goes on with one. -/
theorem isDigit_of_mem_head? {digits : List Char} (hdigits : Digits digits) (rest : List Char) :
    ∀ c ∈ (digits ++ rest).head?, c.isDigit := by
  cases digits with
  | nil => exact absurd rfl hdigits.1
  | cons first more =>
      intro c hc
      cases hc
      exact hdigits.2 _ List.mem_cons_self

/-! ### The parts of a number -/

theorem minusSign_sound (cs : List Char) :
    ∃ sign, SignText (minusSign cs).1 sign ∧ cs = sign ++ (minusSign cs).2 := by
  unfold minusSign
  split
  · exact ⟨['-'], .minus, rfl⟩
  · exact ⟨[], .none, rfl⟩

theorem minusSign_complete {negative : Bool} {sign rest : List Char}
    (hsign : SignText negative sign) (hrest : rest.head? ≠ some '-') :
    minusSign (sign ++ rest) = (negative, rest) := by
  cases hsign with
  | minus => rfl
  | none =>
      rw [List.nil_append]
      unfold minusSign
      split
      · exact absurd rfl hrest
      · rfl

theorem fractionPart_sound {cs rest : List Char} {fraction : Option (List Char)}
    (h : fractionPart cs = some (fraction, rest)) :
    ∃ core, FractionText fraction core ∧ cs = core ++ rest := by
  unfold fractionPart at h
  split at h
  · obtain ⟨⟨digits, final⟩, htaken, heq⟩ := Option.map_eq_some_iff.1 h
    cases heq
    obtain ⟨hdigits, rfl⟩ := someDigits_sound htaken
    exact ⟨'.' :: digits, .point hdigits, rfl⟩
  · cases h
    exact ⟨[], .none, rfl⟩

theorem fractionPart_complete {fraction : Option (List Char)} {core rest : List Char}
    (h : FractionText fraction core) (hdigits : DigitsEnd rest) (hpoint : rest.head? ≠ some '.') :
    fractionPart (core ++ rest) = some (fraction, rest) := by
  cases h with
  | none =>
      rw [List.nil_append]
      unfold fractionPart
      split
      · exact absurd rfl hpoint
      · rfl
  | point h =>
      rw [List.cons_append, fractionPart, someDigits_complete h hdigits]
      rfl

theorem exponentPart_sound {cs rest : List Char} {exponent : Option Int}
    (h : exponentPart cs = some (exponent, rest)) :
    ∃ core, ExponentText exponent core ∧ cs = core ++ rest := by
  unfold exponentPart at h
  split at h
  · cases h
    exact ⟨[], .none, rfl⟩
  · next letter after =>
    split at h
    · next hletter =>
      obtain ⟨⟨digits, final⟩, htaken, heq⟩ := Option.map_eq_some_iff.1 h
      obtain ⟨hdigits, hafter⟩ := someDigits_sound htaken
      obtain ⟨rfl, rfl⟩ := Prod.mk.inj heq
      -- What the digits were taken from depends on the sign, so the equation waits for it.
      revert hafter
      unfold exponentSign
      split <;> intro hafter
      · obtain rfl : _ = digits ++ final := hafter
        exact ⟨letter :: '-' :: digits, .negative hletter hdigits, rfl⟩
      · obtain rfl : _ = digits ++ final := hafter
        exact ⟨letter :: (['+'] ++ digits), .positive hletter (.inr rfl) hdigits, rfl⟩
      · obtain rfl : _ = digits ++ final := hafter
        exact ⟨letter :: ([] ++ digits), .positive hletter (.inl rfl) hdigits, rfl⟩
    · cases h
      exact ⟨[], .none, rfl⟩

/-- A sign may be missing before digits, which are no signs themselves. -/
theorem exponentSign_digits {digits : List Char} (hdigits : Digits digits) (rest : List Char) :
    exponentSign (digits ++ rest) = (false, digits ++ rest) := by
  have hhead := isDigit_of_mem_head? hdigits rest
  unfold exponentSign
  split
  · next heq =>
    rw [heq] at hhead
    exact absurd (hhead '-' rfl) (by decide)
  · next heq =>
    rw [heq] at hhead
    exact absurd (hhead '+' rfl) (by decide)
  · rfl

theorem exponentPart_complete {exponent : Option Int} {core rest : List Char}
    (h : ExponentText exponent core) (hrest : NumberEnds rest) :
    exponentPart (core ++ rest) = some (exponent, rest) := by
  cases h with
  | none =>
      cases rest with
      | nil => rfl
      | cons c tail =>
          obtain ⟨-, -, hlower, hupper⟩ := hrest c rfl
          simp [exponentPart, hlower, hupper]
  | @positive letter sign digits hletter hsign hdigits =>
      have hsigned : exponentSign (sign ++ (digits ++ rest)) = (false, digits ++ rest) := by
        rcases hsign with rfl | rfl
        · exact exponentSign_digits hdigits rest
        · rfl
      simp [exponentPart, hletter, hsigned, someDigits_complete hdigits hrest.digitsEnd]
  | negative hletter hdigits =>
      simp [exponentPart, hletter, exponentSign, someDigits_complete hdigits hrest.digitsEnd]

/-! ### Whole numbers -/

theorem numberLiteral_sound {cs rest : List Char} {literal : NumberLiteral}
    (h : numberLiteral cs = some (literal, rest)) :
    ∃ core, NumberText literal core ∧ cs = core ++ rest := by
  obtain ⟨sign, hsign, hcs⟩ := minusSign_sound cs
  unfold numberLiteral at h
  split at h
  · cases h
  · next whole afterWhole htakenWhole =>
    obtain ⟨hwhole, hzero, hafterSign⟩ := wholeDigits_sound htakenWhole
    split at h
    · cases h
    · next fraction afterFraction htakenFraction =>
      obtain ⟨fractionText, hfraction, rfl⟩ := fractionPart_sound htakenFraction
      split at h
      · cases h
      · next exponent final htakenExponent =>
        obtain ⟨exponentText, hexponent, rfl⟩ := exponentPart_sound htakenExponent
        cases h
        refine ⟨_, .parts hsign hwhole hzero hfraction hexponent, ?_⟩
        rw [hafterSign] at hcs
        simpa using hcs

/-- Where a fraction and an exponent stand, no digit follows the whole digits. -/
theorem digitsEnd_of_fractionText {fraction : Option (List Char)} {exponent : Option Int}
    {fractionText exponentText rest : List Char} (hfraction : FractionText fraction fractionText)
    (hexponent : ExponentText exponent exponentText) (hrest : DigitsEnd rest) :
    DigitsEnd (fractionText ++ (exponentText ++ rest)) ∧
      DigitsEnd (exponentText ++ rest) := by
  have hafter : DigitsEnd (exponentText ++ rest) := by
    cases hexponent with
    | none => exact hrest
    | positive hletter _ _ | negative hletter _ =>
        rcases hletter with rfl | rfl <;> exact .cons (by decide) _
  refine ⟨?_, hafter⟩
  cases hfraction with
  | none => exact hafter
  | point _ => exact .cons (by decide) _

theorem head?_ne_point {exponent : Option Int} {exponentText rest : List Char}
    (hexponent : ExponentText exponent exponentText) (hrest : NumberEnds rest) :
    (exponentText ++ rest).head? ≠ some '.' := by
  cases hexponent with
  | none =>
      intro hpoint
      exact (hrest '.' hpoint).2.1 rfl
  | positive hletter _ _ | negative hletter _ =>
      rcases hletter with rfl | rfl <;> simp

theorem numberLiteral_complete {literal : NumberLiteral} {core rest : List Char}
    (h : NumberText literal core) (hrest : NumberEnds rest) :
    numberLiteral (core ++ rest) = some (literal, rest) := by
  cases h with
  | @parts negative whole fraction exponent sign fractionText exponentText hsign hwhole hzero
      hfraction hexponent =>
      obtain ⟨hafterWhole, hafterFraction⟩ :=
        digitsEnd_of_fractionText hfraction hexponent hrest.digitsEnd
      -- Each part ends where the next begins, which its first character tells.
      have hminus : (whole ++ (fractionText ++ (exponentText ++ rest))).head? ≠ some '-' := by
        intro hhead
        exact absurd (isDigit_of_mem_head? hwhole _ '-' hhead) (by decide)
      simp only [List.append_assoc]
      rw [numberLiteral, minusSign_complete hsign hminus,
        wholeDigits_complete hwhole hzero hafterWhole]
      simp only
      rw [fractionPart_complete hfraction hafterFraction (head?_ne_point hexponent hrest)]
      simp only
      rw [exponentPart_complete hexponent hrest]

/-- What the reader of numbers takes is a number with a value, and it gives that value. -/
theorem number_run_sound {cs rest : List Char} {v : Value} (h : number.run cs = some (v, rest)) :
    ∃ literal core, NumberText literal core ∧ literal.value? = some v ∧ cs = core ++ rest := by
  simp only [number] at h
  split at h
  · cases h
  · next literal final hliteral =>
    obtain ⟨core, hcore, rfl⟩ := numberLiteral_sound hliteral
    obtain ⟨found, hfound, heq⟩ := Option.map_eq_some_iff.1 h
    cases heq
    exact ⟨literal, core, hcore, hfound, rfl⟩

theorem number_run_complete {literal : NumberLiteral} {core rest : List Char} {v : Value}
    (h : NumberText literal core) (hv : literal.value? = some v) (hrest : NumberEnds rest) :
    number.run (core ++ rest) = some (v, rest) := by
  simp [number, numberLiteral_complete h hrest, hv]

end SignedMessaging.Json
