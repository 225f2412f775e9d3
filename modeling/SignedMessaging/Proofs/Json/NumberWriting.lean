import Mathlib.Data.List.TakeWhile
import Mathlib.Tactic.IntervalCases
import SignedMessaging.Json.Writer
import SignedMessaging.Proofs.Json.Grammar
import SignedMessaging.Proofs.Number.Shortest

/-!
# Writing numbers

The text of an integer spells that integer, and the text of a finite double spells the
double.  For a double this is two facts.  Whatever the layout, the text writes the
significant digits under an exponent, in positional form or in scientific form
(`positional_writes`, `scientific_writes`); and the significant digits are those of the
shortest decimal, which is rounded to the double that it was made for.

A text of either form has no needless zero: in scientific form none at an end of the
digits, and in positional form only those between the digits and the point, and one on a
side of the point that has no digit else.
-/

namespace SignedMessaging.Json

/-! ### Digits -/

theorem digits_toDigits (n : Nat) : Digits (Nat.toDigits 10 n) :=
  ⟨Nat.toDigits_ne_nil, fun _ hc => Nat.isDigit_of_mem_toDigits (by decide) (by decide) hc⟩

theorem digits_zero : Digits ['0'] := by
  simp [Digits]

/-- A positive number does not start with a zero. -/
theorem head?_toDigits {n : Nat} (hn : 0 < n) : (Nat.toDigits 10 n).head? ≠ some '0' := by
  induction n using Nat.strongRecOn with
  | ind n ih =>
      by_cases hsmall : n < 10
      · rw [Nat.toDigits_of_lt_base hsmall]
        interval_cases n <;> decide
      · rw [Nat.toDigits_of_base_le (by decide) (Nat.le_of_not_lt hsmall),
          List.head?_append_of_ne_nil _ Nat.toDigits_ne_nil]
        exact ih (n / 10) (by omega) (by omega)

theorem toDigits_of_head? {n : Nat} (h : (Nat.toDigits 10 n).head? = some '0') :
    Nat.toDigits 10 n = ['0'] := by
  rcases Nat.eq_zero_or_pos n with rfl | hn
  · exact Nat.toDigits_zero 10
  · exact absurd h (head?_toDigits hn)

theorem signText (negative : Bool) : SignText negative (if negative then ['-'] else []) := by
  cases negative
  · exact .none
  · exact .minus

theorem Digits.append {cs ds : List Char} (hcs : Digits cs) (hds : ∀ d ∈ ds, d.isDigit) :
    Digits (cs ++ ds) := by
  refine ⟨List.append_ne_nil_of_left_ne_nil hcs.1 ds, fun c hc => ?_⟩
  rcases List.mem_append.1 hc with hc | hc
  · exact hcs.2 c hc
  · exact hds c hc

theorem isDigit_of_mem_replicate {count : Nat} {c : Char} (hc : c ∈ List.replicate count '0') :
    c.isDigit := by
  rw [List.eq_of_mem_replicate hc]
  decide

/-! ### Integers -/

/-- An integer is written as a number without fraction and exponent. -/
theorem whole_spells (n : Int) :
    NumberText ⟨decide (n < 0), Nat.toDigits 10 n.natAbs, none, none⟩ (Whole.text n) := by
  have h := NumberText.parts (signText (decide (n < 0))) (digits_toDigits n.natAbs)
    toDigits_of_head? .none .none
  simpa [Whole.text] using h

theorem whole_value {n : Int} (hfits : NumberLiteral.fitsInteger n = true) :
    NumberLiteral.value? ⟨decide (n < 0), Nat.toDigits 10 n.natAbs, none, none⟩ =
      some (.int n) := by
  have hinteger : NumberLiteral.integer ⟨decide (n < 0), Nat.toDigits 10 n.natAbs, none, none⟩ =
      n := by
    simp only [NumberLiteral.integer, Nat.ofDigitChars_ten_toDigits, decide_eq_true_eq]
    split <;> omega
  simp [NumberLiteral.value?, hinteger, hfits]

/-! ### Significant digits -/

theorem toDigits_mul_ten {n : Nat} (hn : 0 < n) :
    Nat.toDigits 10 (n * 10) = Nat.toDigits 10 n ++ ['0'] := by
  have happend := Nat.toDigits_append_toDigits (b := 10) (d := 0) (by decide) hn (by decide)
  rw [Nat.toDigits_zero, Nat.add_zero, Nat.mul_comm] at happend
  exact happend.symm

theorem getLast?_toDigits (n : Nat) :
    (Nat.toDigits 10 n).getLast? = some (Nat.digitChar (n % 10)) := by
  rcases Nat.lt_or_ge n 10 with hsmall | hlarge
  · rw [Nat.toDigits_of_lt_base hsmall, Nat.mod_eq_of_lt hsmall]
    rfl
  · rw [Nat.toDigits_of_base_le (by decide) hlarge, List.getLast?_concat]

/-- Digits of which neither the first nor the last is zero. -/
structure Significant (cs : List Char) : Prop where
  digits : Digits cs
  head : cs.head? ≠ some '0'
  last : cs.getLast? ≠ some '0'

theorem significant_toDigits {n : Nat} (hlast : n % 10 ≠ 0) : Significant (Nat.toDigits 10 n) where
  digits := digits_toDigits n
  head := head?_toDigits (Nat.pos_of_ne_zero fun hzero => hlast (hzero ▸ Nat.zero_mod 10))
  last := by
    rw [getLast?_toDigits, ne_eq, Option.some_inj, Nat.digitChar_eq_zero]
    exact hlast

theorem significant_of_mod {n : Nat} (hlast : n % 10 ≠ 0) :
    Layout.significant n = Nat.toDigits 10 n := by
  have hnot : Nat.digitChar (n % 10) ≠ '0' := mt Nat.digitChar_eq_zero.1 hlast
  obtain ⟨others, hothers⟩ := List.getLast?_eq_some_iff.1 (getLast?_toDigits n)
  rw [Layout.significant, hothers, List.reverse_concat, List.dropWhile_cons_of_neg (by simpa),
    ← List.reverse_concat, List.reverse_reverse]

theorem significant_mul_ten {n : Nat} (hn : 0 < n) :
    Layout.significant (n * 10) = Layout.significant n := by
  rw [Layout.significant, toDigits_mul_ten hn, List.reverse_concat,
    List.dropWhile_cons_of_pos (by decide), Layout.significant]

/-- The digits of a positive number are those of a number that ends with no zero, which are
its significant digits, and then zeros. -/
theorem exists_significant {n : Nat} (hn : 0 < n) : ∃ digits zeros : Nat,
    n = digits * 10 ^ zeros ∧ digits % 10 ≠ 0 ∧
      Nat.toDigits 10 n = Nat.toDigits 10 digits ++ List.replicate zeros '0' ∧
      Layout.significant n = Nat.toDigits 10 digits := by
  induction n using Nat.strongRecOn with
  | ind n ih =>
      by_cases hlast : n % 10 = 0
      · obtain ⟨shorter, rfl⟩ : ∃ shorter, n = shorter * 10 :=
          ⟨n / 10, (Nat.div_mul_cancel (Nat.dvd_of_mod_eq_zero hlast)).symm⟩
        obtain ⟨digits, zeros, hvalue, hdigits, htext, hsignificant⟩ :=
          ih shorter (by omega) (by omega)
        refine ⟨digits, zeros + 1, ?_, hdigits, ?_, ?_⟩
        · rw [pow_succ, ← Nat.mul_assoc, ← hvalue]
        · rw [toDigits_mul_ten (by omega), htext, List.append_assoc, List.replicate_succ']
        · rw [significant_mul_ten (by omega), hsignificant]
      · exact ⟨n, 0, by simp, hlast, by simp, significant_of_mod hlast⟩

/-- The number that some digits write. -/
def size (digits : List Char) : Nat := Nat.ofDigitChars 10 digits 0

theorem size_zeros (digits : List Char) (zeros : Nat) :
    size (digits ++ List.replicate zeros '0') = size digits * 10 ^ zeros := by
  rw [size, Nat.ofDigitChars_append, Nat.ofDigitChars_replicate_zero, Nat.mul_comm]
  rfl

theorem zeros_size (zeros : Nat) (digits : List Char) :
    size (List.replicate zeros '0' ++ digits) = size digits := by
  rw [size, Nat.ofDigitChars_append, Nat.ofDigitChars_replicate_zero, Nat.mul_zero]
  rfl

/-! ### Forms -/

/-- The positional form of a number: digits on both sides of a point, and no zero at either
end of them that is not the only digit there. -/
inductive PositionalText : NumberLiteral → List Char → Prop
  | point {negative : Bool} {sign whole fraction : List Char} (hsign : SignText negative sign)
      (hwhole : Digits whole) (hzero : whole.head? = some '0' → whole = ['0'])
      (hfraction : Digits fraction) (hend : fraction.getLast? = some '0' → fraction = ['0']) :
      PositionalText ⟨negative, whole, some fraction, none⟩ (sign ++ (whole ++ '.' :: fraction))

/-- An exponent with its sign. -/
inductive SignedExponentText : Int → List Char → Prop
  | plus {digits : List Char} (hdigits : Digits digits) :
      SignedExponentText (Nat.ofDigitChars 10 digits 0) ('e' :: '+' :: digits)
  | minus {digits : List Char} (hdigits : Digits digits) :
      SignedExponentText (-(Nat.ofDigitChars 10 digits 0 : Int)) ('e' :: '-' :: digits)

/-- The scientific form of a number: one digit that is not zero, the others, which do not end
with a zero, behind a point, and an exponent with its sign. -/
inductive ScientificText : NumberLiteral → List Char → Prop
  | parts {negative : Bool} {first : Char} {fraction : Option (List Char)} {exponent : Int}
      {sign fractionText exponentText : List Char} (hsign : SignText negative sign)
      (hfirst : first.isDigit) (hzero : first ≠ '0')
      (hfraction : FractionText fraction fractionText)
      (hend : (fraction.getD []).getLast? ≠ some '0')
      (hexponent : SignedExponentText exponent exponentText) :
      ScientificText ⟨negative, [first], fraction, some exponent⟩
        (sign ++ (first :: (fractionText ++ exponentText)))

variable {literal : NumberLiteral} {cs digits : List Char}

theorem SignedExponentText.exponentText {exponent : Int} (h : SignedExponentText exponent cs) :
    ExponentText (some exponent) cs := by
  cases h with
  | plus hdigits => exact .positive (.inl rfl) (.inr rfl) hdigits
  | minus hdigits => exact .negative (.inl rfl) hdigits

/-- A text spells a number that is read as a double, for its fraction or its exponent. -/
def SpellsDouble (literal : NumberLiteral) (cs : List Char) : Prop :=
  NumberText literal cs ∧ ¬ (literal.fraction = none ∧ literal.exponent = none)

theorem PositionalText.spellsDouble (h : PositionalText literal cs) : SpellsDouble literal cs := by
  cases h with
  | point hsign hwhole hzero hfraction _ =>
      have htext := NumberText.parts hsign hwhole hzero (.point hfraction) .none
      exact ⟨by simpa using htext, by simp⟩

theorem ScientificText.spellsDouble (h : ScientificText literal cs) : SpellsDouble literal cs := by
  cases h with
  | @parts _ first _ _ _ _ _ hsign hfirst hzero hfraction _ hexponent =>
      have hwhole : Digits [first] := ⟨by simp, by simpa using hfirst⟩
      exact ⟨.parts hsign hwhole (fun hhead => absurd (Option.some.inj hhead) hzero) hfraction
        hexponent.exponentText, by simp⟩

/-- A number is written with some digits, the last of which counts a power of ten: what else
stands among its digits are zeros before and behind them. -/
def NumberLiteral.Fills (literal : NumberLiteral) (digits : List Char) (exponent : Int) : Prop :=
  ∃ before after : Nat,
    literal.whole ++ literal.fraction.getD [] =
      List.replicate before '0' ++ (digits ++ List.replicate after '0') ∧
    literal.exponent.getD 0 - (literal.fraction.getD []).length = exponent - after

/-- What fills up digits is the double of these digits. -/
theorem NumberLiteral.Fills.double {exponent : Int} (h : literal.Fills digits exponent) :
    literal.double = Double.ofDecimal literal.negative (size digits) exponent := by
  obtain ⟨before, after, hdigits, hexponent⟩ := h
  have hsize : Nat.ofDigitChars 10 (literal.whole ++ literal.fraction.getD []) 0 =
      size digits * 10 ^ after := by
    rw [hdigits, ← size_zeros]
    exact zeros_size before _
  rw [NumberLiteral.double]
  simp only [hsize, hexponent]
  rw [Double.ofDecimal_mul_pow, sub_add_cancel]

/-- A text of a form writes some digits under an exponent. -/
def WritesDigits (form : NumberLiteral → List Char → Prop) (negative : Bool)
    (digits : List Char) (exponent : Int) (cs : List Char) : Prop :=
  ∃ literal : NumberLiteral, form literal cs ∧ literal.negative = negative ∧
    literal.Fills digits exponent

/-- The form that the texts of a layout have for a decimal exponent. -/
def formOf (layout : Layout) (exponent : Int) : NumberLiteral → List Char → Prop :=
  if layout.leastPositional ≤ exponent ∧ exponent ≤ layout.greatestPositional then
    PositionalText
  else ScientificText

theorem spellsDouble_of_formOf {layout : Layout} {exponent : Int}
    (h : formOf layout exponent literal cs) : SpellsDouble literal cs := by
  unfold formOf at h
  split at h
  · exact h.spellsDouble
  · exact h.spellsDouble

/-- A text with some digits spells the double that they have under their exponent. -/
theorem WritesDigits.spells {form : NumberLiteral → List Char → Prop} {negative : Bool}
    {exponent : Int} (hform : ∀ {literal cs}, form literal cs → SpellsDouble literal cs)
    (h : WritesDigits form negative digits exponent cs) :
    ∃ literal : NumberLiteral, NumberText literal cs ∧ literal.value? =
      NumberLiteral.finite? (Double.ofDecimal negative (size digits) exponent) := by
  obtain ⟨literal, hliteral, rfl, hfills⟩ := h
  obtain ⟨htext, hkind⟩ := hform hliteral
  exact ⟨literal, htext, by rw [NumberLiteral.value?, if_neg hkind, hfills.double]⟩

/-! ### Layouts -/

/-- Below one the digits stand behind zeros. -/
theorem positional_small_writes (negative : Bool) (h : Significant digits) {exponent : Int}
    (hexponent : exponent < 0) :
    WritesDigits PositionalText negative digits (exponent + 1 - digits.length)
      ((if negative then ['-'] else []) ++ Layout.positional digits exponent) := by
  let zeros := (-exponent - 1).toNat
  have hfraction : Digits (List.replicate zeros '0' ++ digits) :=
    ⟨List.append_ne_nil_of_right_ne_nil _ h.digits.1, fun c hc =>
      (List.mem_append.1 hc).elim isDigit_of_mem_replicate (h.digits.2 c)⟩
  have hlast : (List.replicate zeros '0' ++ digits).getLast? ≠ some '0' := by
    rw [List.getLast?_append_of_ne_nil _ h.digits.1]
    exact h.last
  refine ⟨⟨negative, ['0'], some (List.replicate zeros '0' ++ digits), none⟩, ?_, rfl,
    zeros + 1, 0, by simp [List.replicate_succ], ?_⟩
  · have hform := PositionalText.point (signText negative) digits_zero (fun _ => rfl) hfraction
      (fun hend => absurd hend hlast)
    simpa [Layout.positional, hexponent, zeros] using hform
  · simp only [Option.getD_some, Option.getD_none, List.length_append, List.length_replicate]
    omega

/-- A whole number has zeros for the digits that it lacks, and a zero behind the point. -/
theorem positional_whole_writes (negative : Bool) (h : Significant digits) {exponent : Int}
    (hexponent : 0 ≤ exponent) (hlength : digits.length ≤ exponent.toNat + 1) :
    WritesDigits PositionalText negative digits (exponent + 1 - digits.length)
      ((if negative then ['-'] else []) ++ Layout.positional digits exponent) := by
  let zeros := exponent.toNat + 1 - digits.length
  have hwhole : Digits (digits ++ List.replicate zeros '0') :=
    h.digits.append fun _ => isDigit_of_mem_replicate
  have hhead : (digits ++ List.replicate zeros '0').head? ≠ some '0' := by
    rw [List.head?_append_of_ne_nil _ h.digits.1]
    exact h.head
  -- The zero behind the point is one more, which the exponent of the text takes back.
  refine ⟨⟨negative, digits ++ List.replicate zeros '0', some ['0'], none⟩, ?_, rfl,
    0, zeros + 1, by simp [List.replicate_succ'], ?_⟩
  · have hform := PositionalText.point (signText negative) hwhole
      (fun hzero => absurd hzero hhead) digits_zero (fun _ => rfl)
    simpa [Layout.positional, Int.not_lt.2 hexponent, hlength, zeros] using hform
  · simp only [Option.getD_some, Option.getD_none, List.length_singleton]
    omega

/-- Otherwise the point stands among the digits. -/
theorem positional_mixed_writes (negative : Bool) (h : Significant digits) {exponent : Int}
    (hexponent : 0 ≤ exponent) (hlength : exponent.toNat + 1 < digits.length) :
    WritesDigits PositionalText negative digits (exponent + 1 - digits.length)
      ((if negative then ['-'] else []) ++ Layout.positional digits exponent) := by
  let whole := exponent.toNat + 1
  have hwhole : Digits (digits.take whole) :=
    ⟨by simp [whole, h.digits.1], fun c hc => h.digits.2 c (List.mem_of_mem_take hc)⟩
  have hhead : (digits.take whole).head? ≠ some '0' := by
    rw [List.head?_take, if_neg (by omega)]
    exact h.head
  have hfraction : Digits (digits.drop whole) :=
    ⟨by simpa [whole] using hlength, fun c hc => h.digits.2 c (List.mem_of_mem_drop hc)⟩
  have hlast : (digits.drop whole).getLast? ≠ some '0' := by
    rw [List.getLast?_drop, if_neg (by omega)]
    exact h.last
  refine ⟨⟨negative, digits.take whole, some (digits.drop whole), none⟩, ?_, rfl,
    0, 0, by simp, ?_⟩
  · have hform := PositionalText.point (signText negative) hwhole
      (fun hzero => absurd hzero hhead) hfraction (fun hend => absurd hend hlast)
    simpa [Layout.positional, Int.not_lt.2 hexponent, Nat.not_le.2 hlength, whole] using hform
  · simp only [Option.getD_some, Option.getD_none, List.length_drop]
    omega

theorem positional_writes (negative : Bool) (h : Significant digits) (exponent : Int) :
    WritesDigits PositionalText negative digits (exponent + 1 - digits.length)
      ((if negative then ['-'] else []) ++ Layout.positional digits exponent) := by
  rcases lt_or_ge exponent 0 with hnegative | hnonnegative
  · exact positional_small_writes negative h hnegative
  · rcases lt_or_ge (exponent.toNat + 1) digits.length with hmixed | hwhole
    · exact positional_mixed_writes negative h hnonnegative hmixed
    · exact positional_whole_writes negative h hnonnegative hwhole

/-- The exponent of a scientific text, with its sign. -/
theorem exponentText_signed (width : Nat) (exponent : Int) :
    SignedExponentText exponent ('e' :: Layout.exponentText width exponent) := by
  let written := List.replicate (width - (Nat.toDigits 10 exponent.natAbs).length) '0' ++
    Nat.toDigits 10 exponent.natAbs
  have hdigits : Digits written :=
    ⟨List.append_ne_nil_of_right_ne_nil _ Nat.toDigits_ne_nil, fun c hc =>
      (List.mem_append.1 hc).elim isDigit_of_mem_replicate ((digits_toDigits _).2 c)⟩
  have hsize : Nat.ofDigitChars 10 written 0 = exponent.natAbs :=
    (zeros_size _ _).trans Nat.ofDigitChars_ten_toDigits
  by_cases hexponent : exponent < 0
  · have hminus := SignedExponentText.minus hdigits
    rw [hsize, show -(exponent.natAbs : Int) = exponent by omega] at hminus
    simpa [Layout.exponentText, hexponent, written] using hminus
  · have hplus := SignedExponentText.plus hdigits
    rw [hsize, show (exponent.natAbs : Int) = exponent by omega] at hplus
    simpa [Layout.exponentText, hexponent, written] using hplus

/-- Any number can be written with an exponent. -/
theorem scientific_writes (negative : Bool) (h : Significant digits) (width : Nat)
    (exponent : Int) :
    WritesDigits ScientificText negative digits (exponent + 1 - digits.length)
      ((if negative then ['-'] else []) ++ Layout.scientific width digits exponent) := by
  obtain ⟨first, others, rfl⟩ := List.exists_cons_of_ne_nil h.digits.1
  have hfirst : first.isDigit := h.digits.2 first List.mem_cons_self
  have hzero : first ≠ '0' := fun hzero => h.head (congrArg some hzero)
  -- A single digit has no point behind it; the exponent keeps the text from being an integer.
  cases others with
  | nil =>
      refine ⟨⟨negative, [first], none, some exponent⟩, ?_, rfl, 0, 0, by simp, by simp⟩
      have hform := ScientificText.parts (signText negative) hfirst hzero .none
        (by simp) (exponentText_signed width exponent)
      simpa [Layout.scientific] using hform
  | cons second others =>
      have hfraction : Digits (second :: others) :=
        ⟨List.cons_ne_nil _ _, fun c hc => h.digits.2 c (List.mem_cons_of_mem _ hc)⟩
      have hlast : (second :: others).getLast? ≠ some '0' := by
        rw [← List.getLast?_append_of_ne_nil [first] (List.cons_ne_nil _ _)]
        exact h.last
      refine ⟨⟨negative, [first], some (second :: others), some exponent⟩, ?_, rfl,
        0, 0, by simp, ?_⟩
      · have hform := ScientificText.parts (signText negative) hfirst hzero (.point hfraction)
          hlast (exponentText_signed width exponent)
        simpa [Layout.scientific] using hform
      · simp only [Option.getD_some, List.length_cons]
        omega

/-- The text of a positive magnitude writes the digits of its shortest decimal without the
zeros that end them, which count in the exponent. -/
theorem magnitude_writes (layout : Layout) (negative : Bool) {rank : Nat} (hrank : 0 < rank)
    (hfinite : rank < infinityRank) : ∃ digits zeros : Nat,
      (Decimal.shortest rank).digits = digits * 10 ^ zeros ∧ digits % 10 ≠ 0 ∧
        WritesDigits
          (formOf layout
            ((Decimal.shortest rank).exponent + zeros + (Nat.toDigits 10 digits).length - 1))
          negative (Nat.toDigits 10 digits) ((Decimal.shortest rank).exponent + zeros)
          ((if negative then ['-'] else []) ++ layout.magnitude rank) := by
  have hpositive := Decimal.digits_pos_of_readsAs hrank (Decimal.readsAs_shortest hrank hfinite)
  obtain ⟨digits, zeros, hvalue, hlast, htext, hdigits⟩ := exists_significant hpositive
  refine ⟨digits, zeros, hvalue, hlast, ?_⟩
  let order : Int := (Decimal.shortest rank).exponent + zeros + (Nat.toDigits 10 digits).length - 1
  have horder : (Decimal.shortest rank).exponent +
      (Nat.toDigits 10 (Decimal.shortest rank).digits).length - 1 = order := by
    rw [htext, List.length_append, List.length_replicate]
    simp only [order]
    omega
  have hexponent : (Decimal.shortest rank).exponent + zeros =
      order + 1 - (Nat.toDigits 10 digits).length := by
    simp only [order]
    omega
  have hsignificant := significant_toDigits hlast
  change WritesDigits (formOf layout order) _ _ _ _
  rw [hexponent]
  simp only [Layout.magnitude, horder, hdigits, formOf]
  split
  · exact positional_writes negative hsignificant order
  · exact scientific_writes negative hsignificant _ order

/-- Zero is written in positional form. -/
theorem zero_writes (negative : Bool) : WritesDigits PositionalText negative ['0'] 0
    ((if negative then ['-'] else []) ++ ['0', '.', '0']) :=
  ⟨⟨negative, ['0'], some ['0'], none⟩,
    .point (signText negative) digits_zero (fun _ => rfl) digits_zero (fun _ => rfl), rfl,
    0, 1, rfl, rfl⟩

/-- The text of a finite double spells that double, in any layout. -/
theorem double_spells (layout : Layout) {x : Double} (hfinite : x.isFinite = true) :
    ∃ literal : NumberLiteral, NumberText literal (layout.text x) ∧
      literal.value? = some (.float x) := by
  have hvalue : NumberLiteral.finite? x = some (.float x) := if_pos hfinite
  by_cases hrank : x.rank = 0
  · have hzero : Double.ofDecimal x.negative (size ['0']) 0 = x := by
      obtain ⟨negative, rank, hlt⟩ := x
      obtain rfl : rank = 0 := hrank
      rfl
    obtain ⟨literal, htext, hliteral⟩ := (zero_writes x.negative).spells
      PositionalText.spellsDouble
    refine ⟨literal, ?_, ?_⟩
    · rwa [Layout.text, if_pos hrank]
    · rw [hliteral, hzero, hvalue]
  · have hpositive := Nat.pos_of_ne_zero hrank
    have hrange : x.rank < infinityRank := of_decide_eq_true hfinite
    have hshortest := Decimal.ofDecimal_of_readsAs (Decimal.readsAs_shortest hpositive hrange)
    obtain ⟨digits, zeros, hdigits, -, hwrites⟩ :=
      magnitude_writes layout x.negative hpositive hrange
    obtain ⟨literal, htext, hliteral⟩ := hwrites.spells spellsDouble_of_formOf
    refine ⟨literal, ?_, ?_⟩
    · rwa [Layout.text, if_neg hrank]
    · rw [hliteral, size, Nat.ofDigitChars_ten_toDigits, ← Double.ofDecimal_mul_pow, ← hdigits,
        hshortest, hvalue]

end SignedMessaging.Json
