import Mathlib.Data.List.TakeWhile
import Mathlib.Data.Nat.Digits.Defs
import SignedMessaging.Proofs.Connection.Ports
import SignedMessaging.Proofs.Outcome

/-!
# Numerals

A text is read as a port exactly if it is a numeral: digits of any script with at most one
underscore between every two, with a sign before them or none, and blanks around
(`ofText?_eq_some_iff`).  The grammar is stated in the layers in which such texts are read:
`Magnitude` for the digits, `SignedText` for the sign and `Numeral` for the blanks, each with
the number that is meant.  An integer in decimal that is decorated with blanks, a plus sign,
zeros and underscores is a numeral for that integer (`numeral_of_decorated`).
-/

namespace SignedMessaging

namespace Text

/-- Whether a character is a decimal digit: it stands its value behind the zero of a script. -/
def IsDigit (value : Nat) (c : Char) : Prop :=
  value < 10 ∧ ∃ start ∈ digitZeros, c.toNat = start + value

/-- No two scripts share a digit. -/
theorem digitZeros_apart : ∀ start ∈ digitZeros, ∀ other ∈ digitZeros,
    start = other ∨ start + 10 ≤ other ∨ other + 10 ≤ start := by
  decide +kernel

theorem digitValue?_eq_some_iff {c : Char} {value : Nat} :
    digitValue? c = some value ↔ IsDigit value c := by
  have hrange : ∀ {start : Nat}, (start ≤ c.toNat && c.toNat < start + 10) = true ↔
      start ≤ c.toNat ∧ c.toNat < start + 10 := by simp
  constructor
  · intro h
    refine ⟨digitValue?_lt h, ?_⟩
    obtain ⟨start, hstart, rfl⟩ := Option.map_eq_some_iff.1 h
    have hfound := List.find?_some hstart
    rw [hrange] at hfound
    exact ⟨start, List.mem_of_find?_eq_some hstart, by omega⟩
  · rintro ⟨hlt, start, hstart, hc⟩
    have hsome : (digitZeros.find? fun first =>
        first ≤ c.toNat && c.toNat < first + 10).isSome = true := by
      rw [List.find?_isSome]
      exact ⟨start, hstart, hrange.2 (by omega)⟩
    obtain ⟨found, hfound⟩ := Option.isSome_iff_exists.1 hsome
    have hfoundRange := List.find?_some hfound
    rw [hrange] at hfoundRange
    -- The script that is found is the one of the digit.
    have happart := digitZeros_apart start hstart found (List.mem_of_find?_eq_some hfound)
    rw [digitValue?, hfound, Option.map_some, Option.some.injEq]
    omega

/-- The characters that play another part in a numeral are no digits. -/
theorem not_isDigit_of_mark {value : Nat} {c : Char} (hc : c ∈ ['_', '-', '+']) :
    ¬ IsDigit value c := by
  rw [← digitValue?_eq_some_iff]
  simp only [List.mem_cons, List.not_mem_nil, or_false] at hc
  rcases hc with rfl | rfl | rfl
  · rw [show digitValue? '_' = none by decide]
    simp
  · rw [show digitValue? '-' = none by decide]
    simp
  · rw [show digitValue? '+' = none by decide]
    simp

/-- No digit of any script is a blank. -/
theorem isBlank_of_isDigit {value : Nat} {c : Char} (h : IsDigit value c) : isBlank c = false := by
  have hall : ∀ start ∈ digitZeros, ∀ value < 10,
      isBlank (Char.ofNat (start + value)) = false := by decide
  obtain ⟨hlt, start, hstart, hc⟩ := h
  have hblank := hall start hstart value hlt
  rwa [← hc, Char.ofNat_toNat] at hblank

/-- The digits of ASCII are those of a script. -/
theorem isDigit_of_ascii {c : Char} (h : c.isDigit) : IsDigit (c.toNat - '0'.toNat) c := by
  have hrange : 48 ≤ c.toNat ∧ c.toNat ≤ 57 := by
    simp only [Char.isDigit, Bool.and_eq_true, decide_eq_true_eq] at h
    exact h
  have hzero : '0'.toNat = 48 := rfl
  refine ⟨by omega, 48, by decide, by omega⟩

end Text

namespace Port

/-! ### Numerals -/

/-- Digits as they stand in a text, with an underscore between some of them. -/
inductive Spread : List Char → List Char → Prop
  | last (c : Char) : Spread [c] [c]
  | next (c : Char) {digits cs : List Char} (h : Spread digits cs) : Spread (c :: digits) (c :: cs)
  | apart (c : Char) {digits cs : List Char} (h : Spread digits cs) :
      Spread (c :: digits) (c :: '_' :: cs)

/-- Not too many digits of any script, with the number that they denote. -/
inductive Magnitude : Nat → List Char → Prop
  | digits {values : List Nat} {digits cs : List Char} (hspread : Spread digits cs)
      (hvalues : List.Forall₂ Text.IsDigit values digits)
      (hlimit : digits.length ≤ Whole.digitLimit) :
      Magnitude (Nat.ofDigits 10 values.reverse) cs

/-- Digits with at most one sign before them. -/
inductive SignedText : Int → List Char → Prop
  | plain {n : Nat} {cs : List Char} (h : Magnitude n cs) : SignedText n cs
  | plus {n : Nat} {cs : List Char} (h : Magnitude n cs) : SignedText n ('+' :: cs)
  | minus {n : Nat} {cs : List Char} (h : Magnitude n cs) : SignedText (-(n : Int)) ('-' :: cs)

/-- A number with blanks around it or none. -/
inductive Numeral : Int → List Char → Prop
  | blanks {n : Int} {before core after : List Char} (hbefore : ∀ c ∈ before, Text.isBlank c)
      (hcore : SignedText n core) (hafter : ∀ c ∈ after, Text.isBlank c) :
      Numeral n (before ++ (core ++ after))

theorem spread_starts {digits cs : List Char} (h : Spread digits cs) :
    ∃ c digits' cs', digits = c :: digits' ∧ cs = c :: cs' := by
  cases h with
  | last c => exact ⟨c, _, _, rfl, rfl⟩
  | next c _ => exact ⟨c, _, _, rfl, rfl⟩
  | apart c _ => exact ⟨c, _, _, rfl, rfl⟩

theorem spread_ends {digits cs : List Char} (h : Spread digits cs) :
    ∃ c ∈ digits, cs.getLast? = some c := by
  induction h with
  | last c => exact ⟨c, List.mem_cons_self, rfl⟩
  | next c _ ih =>
      obtain ⟨last, hmem, hlast⟩ := ih
      refine ⟨last, List.mem_cons_of_mem _ hmem, ?_⟩
      rw [List.getLast?_cons, hlast]
      rfl
  | apart c _ ih =>
      obtain ⟨last, hmem, hlast⟩ := ih
      refine ⟨last, List.mem_cons_of_mem _ hmem, ?_⟩
      rw [List.getLast?_cons, List.getLast?_cons, hlast]
      rfl

/-- Digits as they are read are those of the grammar. -/
theorem digits?_eq_some_iff {cs : List Char} {values : List Nat} :
    digits? Text.digitValue? (· == '_') cs = some values ↔
      ∃ digits, Spread digits cs ∧ List.Forall₂ Text.IsDigit values digits := by
  constructor
  · intro h
    fun_induction digits? Text.digitValue? (· == '_') cs generalizing values with
    | case1 => cases h
    | case2 c =>
        obtain ⟨value, hvalue, rfl⟩ := Option.map_eq_some_iff.1 h
        exact ⟨[c], .last c, .cons (Text.digitValue?_eq_some_iff.1 hvalue) .nil⟩
    | case3 => cases h
    | case4 c next rest value hvalue hseparator ih =>
        obtain ⟨others, hothers, rfl⟩ := Option.map_eq_some_iff.1 h
        obtain ⟨digits, hspread, hdigits⟩ := ih hothers
        obtain rfl : next = '_' := by simpa using hseparator
        exact ⟨c :: digits, .apart c hspread,
          .cons (Text.digitValue?_eq_some_iff.1 hvalue) hdigits⟩
    | case5 c next rest value hvalue _ ih =>
        obtain ⟨others, hothers, rfl⟩ := Option.map_eq_some_iff.1 h
        obtain ⟨digits, hspread, hdigits⟩ := ih hothers
        exact ⟨c :: digits, .next c hspread,
          .cons (Text.digitValue?_eq_some_iff.1 hvalue) hdigits⟩
  · rintro ⟨digits, hspread, hdigits⟩
    induction hspread generalizing values with
    | last c =>
        obtain ⟨value, _, hvalue, hnil, rfl⟩ := List.forall₂_cons_right_iff.1 hdigits
        cases hnil
        rw [digits?, Text.digitValue?_eq_some_iff.2 hvalue]
        rfl
    | next c hmore ih =>
        obtain ⟨value, others, hvalue, hothers, rfl⟩ := List.forall₂_cons_right_iff.1 hdigits
        obtain ⟨following, digits', cs', rfl, rfl⟩ := spread_starts hmore
        -- The character that follows is a digit, so it does not separate.
        obtain ⟨_, _, hfollowing, -, -⟩ := List.forall₂_cons_right_iff.1 hothers
        have hseparator : (following == '_') = false := by
          rw [beq_eq_false_iff_ne]
          rintro rfl
          exact Text.not_isDigit_of_mark (by simp) hfollowing
        rw [digits?, Text.digitValue?_eq_some_iff.2 hvalue]
        simp [hseparator, ih hothers]
    | apart c hmore ih =>
        obtain ⟨value, others, hvalue, hothers, rfl⟩ := List.forall₂_cons_right_iff.1 hdigits
        rw [digits?, Text.digitValue?_eq_some_iff.2 hvalue]
        simp [ih hothers]

/-- Digits denote what they denote from the last one on. -/
theorem ofDigits_eq (values : List Nat) : ofDigits values = Nat.ofDigits 10 values.reverse := by
  rw [ofDigits, ← List.foldr_reverse]
  induction values.reverse with
  | nil => rfl
  | cons value values ih =>
      rw [List.foldr_cons, ih, Nat.ofDigits_cons]
      omega

theorem natural?_eq_some_iff {cs : List Char} {n : Nat} :
    natural? Text.digitValue? cs = some n ↔ Magnitude n cs := by
  constructor
  · intro h
    unfold natural? at h
    split at h
    · cases h
    · next values hvalues =>
        obtain ⟨digits, hspread, hdigits⟩ := digits?_eq_some_iff.1 hvalues
        split at h
        · next hlimit =>
            cases h
            rw [ofDigits_eq]
            rw [hdigits.length_eq] at hlimit
            exact .digits hspread hdigits hlimit
        · cases h
  · rintro ⟨hspread, hdigits, hlimit⟩
    rw [natural?, digits?_eq_some_iff.2 ⟨_, hspread, hdigits⟩]
    rw [← hdigits.length_eq] at hlimit
    simp [hlimit, ofDigits_eq]

/-- Digits start with a digit, and no sign is one. -/
theorem magnitude_starts {n : Nat} {cs : List Char} (h : Magnitude n cs) :
    ∃ value c cs', cs = c :: cs' ∧ Text.IsDigit value c := by
  obtain ⟨hspread, hdigits, -⟩ := h
  obtain ⟨c, digits', cs', rfl, rfl⟩ := spread_starts hspread
  obtain ⟨value, _, hvalue, -, -⟩ := List.forall₂_cons_right_iff.1 hdigits
  exact ⟨value, c, cs', rfl, hvalue⟩

theorem magnitude_ends {n : Nat} {cs : List Char} (h : Magnitude n cs) :
    ∃ value c, cs.getLast? = some c ∧ Text.IsDigit value c := by
  obtain ⟨hspread, hdigits, -⟩ := h
  obtain ⟨c, hc, hlast⟩ := spread_ends hspread
  obtain ⟨value, -, hvalue⟩ := Outcome.exists_of_mem_right hdigits hc
  exact ⟨value, c, hlast, hvalue⟩

theorem signed?_eq_some_iff {cs : List Char} {n : Int} :
    signed? Text.digitValue? cs = some n ↔ SignedText n cs := by
  constructor
  · intro h
    unfold signed? at h
    split at h <;> obtain ⟨_, hwhole, rfl⟩ := Option.map_eq_some_iff.1 h <;>
      obtain ⟨m, hm, ⟨⟩⟩ := Option.bind_eq_some_iff.1 hwhole
    · exact .minus (natural?_eq_some_iff.1 hm)
    · exact .plus (natural?_eq_some_iff.1 hm)
    · exact .plain (natural?_eq_some_iff.1 hm)
  · intro h
    cases h with
    | minus h => simp [signed?, natural?_eq_some_iff.2 h]
    | plus h => simp [signed?, natural?_eq_some_iff.2 h]
    | plain h =>
        obtain ⟨value, c, cs', rfl, hc⟩ := magnitude_starts h
        unfold signed?
        split
        · exact absurd hc (Text.not_isDigit_of_mark (by simp_all))
        · exact absurd hc (Text.not_isDigit_of_mark (by simp_all))
        · rw [natural?_eq_some_iff.2 h]
          rfl

/-! ### Blanks -/

section Trim

variable {blank : Char → Bool} {before core after : List Char}

theorem dropWhile_of_head? {cs : List Char} (h : ∀ c, cs.head? = some c → blank c = false) :
    cs.dropWhile blank = cs := by
  cases cs with
  | nil => rfl
  | cons c cs => simp [h c rfl]

/-- Between blanks there is what neither starts nor ends with one. -/
theorem trim_between (hbefore : ∀ c ∈ before, blank c) (hafter : ∀ c ∈ after, blank c)
    (hne : core ≠ []) (hhead : ∀ c, core.head? = some c → blank c = false)
    (hlast : ∀ c, core.getLast? = some c → blank c = false) :
    trim blank (before ++ (core ++ after)) = core := by
  have hstart : (before ++ (core ++ after)).dropWhile blank = core ++ after := by
    rw [List.dropWhile_append_of_pos hbefore, dropWhile_of_head?]
    rw [List.head?_append_of_ne_nil _ hne]
    exact hhead
  have hend : (core ++ after).reverse.dropWhile blank = core.reverse := by
    rw [List.reverse_append, List.dropWhile_append_of_pos (by simpa using hafter),
      dropWhile_of_head?]
    rw [List.head?_reverse]
    exact hlast
  rw [trim, hstart, hend, List.reverse_reverse]

/-- Every text is what is left of it between blanks. -/
theorem exists_blanks_trim (blank : Char → Bool) (cs : List Char) : ∃ before after,
    (∀ c ∈ before, blank c) ∧ (∀ c ∈ after, blank c) ∧
      cs = before ++ (trim blank cs ++ after) := by
  let rest := cs.dropWhile blank
  refine ⟨cs.takeWhile blank, (rest.reverse.takeWhile blank).reverse,
    fun c hc => List.mem_takeWhile_imp hc,
    fun c hc => List.mem_takeWhile_imp (List.mem_reverse.1 hc), ?_⟩
  have hrest : trim blank cs ++ (rest.reverse.takeWhile blank).reverse = rest := by
    rw [trim, ← List.reverse_append, List.takeWhile_append_dropWhile, List.reverse_reverse]
  rw [hrest, List.takeWhile_append_dropWhile]

end Trim

theorem signedText_bounds {n : Int} {core : List Char} (h : SignedText n core) : core ≠ [] ∧
    (∀ c, core.head? = some c → Text.isBlank c = false) ∧
      ∀ c, core.getLast? = some c → Text.isBlank c = false := by
  have hends : ∀ {n : Nat} {cs : List Char}, Magnitude n cs → ∀ c, cs.getLast? = some c →
      Text.isBlank c = false := by
    intro n cs hcs c hc
    obtain ⟨value, last, hlast, hdigit⟩ := magnitude_ends hcs
    obtain rfl : last = c := Option.some.inj (hlast.symm.trans hc)
    exact Text.isBlank_of_isDigit hdigit
  have hsigned : ∀ {sign : Char} {n : Nat} {cs : List Char}, Magnitude n cs →
      (sign :: cs).getLast? = cs.getLast? := by
    intro sign n cs hcs
    obtain ⟨_, c, cs', rfl, -⟩ := magnitude_starts hcs
    rw [List.getLast?_cons_cons]
  cases h with
  | plain h =>
      obtain ⟨value, c, cs', hcs, hdigit⟩ := magnitude_starts h
      refine ⟨by simp [hcs], fun d hd => ?_, hends h⟩
      rw [hcs] at hd
      obtain rfl : c = d := Option.some.inj hd
      exact Text.isBlank_of_isDigit hdigit
  | plus h =>
      refine ⟨List.cons_ne_nil _ _, fun c hc => ?_, fun c hc => hends h c ?_⟩
      · obtain rfl : '+' = c := Option.some.inj hc
        decide
      · rwa [hsigned h] at hc
  | minus h =>
      refine ⟨List.cons_ne_nil _ _, fun c hc => ?_, fun c hc => hends h c ?_⟩
      · obtain rfl : '-' = c := Option.some.inj hc
        decide
      · rwa [hsigned h] at hc

/-- A text is read as a port exactly if it is the numeral of that port. -/
theorem ofText?_eq_some_iff {text : String} {n : Int} :
    ofText? text = some n ↔ Numeral n text.toList := by
  rw [ofText?, signed?_eq_some_iff]
  constructor
  · intro h
    obtain ⟨before, after, hbefore, hafter, htext⟩ :=
      exists_blanks_trim Text.isBlank text.toList
    rw [htext]
    exact .blanks hbefore h hafter
  · intro h
    generalize text.toList = cs at h
    obtain ⟨hbefore, hcore, hafter⟩ := h
    obtain ⟨hne, hhead, hlast⟩ := signedText_bounds hcore
    rwa [trim_between hbefore hafter hne hhead hlast]

/-- A text that is no numeral is no port. -/
theorem ofValue_text_eq_notInteger_iff {text : String} :
    ofValue (.text text) = .error .notInteger ↔ ∀ n, ¬ Numeral n text.toList := by
  rw [ofValue]
  cases htext : ofText? text with
  | none => simp [← ofText?_eq_some_iff, htext]
  | some n => simpa using ⟨n, ofText?_eq_some_iff.1 htext⟩

/-! ### Decorated integers -/

/-- An integer in decimal as it may be decorated: with blanks around it, a plus sign before a
number that is not negative, zeros before its digits and underscores between them. -/
inductive Decorated (n : Int) : List Char → Prop
  | blanks {before sign cs after : List Char} {zeros : Nat}
      (hbefore : ∀ c ∈ before, Text.isBlank c)
      (hsign : sign = (if n < 0 then ['-'] else []) ∨ 0 ≤ n ∧ sign = ['+'])
      (hspread : Spread (List.replicate zeros '0' ++ Nat.toDigits 10 n.natAbs) cs)
      (hlimit : zeros + (Nat.toDigits 10 n.natAbs).length ≤ Whole.digitLimit)
      (hafter : ∀ c ∈ after, Text.isBlank c) :
      Decorated n (before ++ (sign ++ (cs ++ after)))

theorem forall₂_isDigit {digits : List Char} (h : ∀ c ∈ digits, c.isDigit) :
    List.Forall₂ Text.IsDigit (digits.map fun c => c.toNat - '0'.toNat) digits := by
  rw [List.forall₂_map_left_iff, List.forall₂_same]
  exact fun c hc => Text.isDigit_of_ascii (h c hc)

/-- Digits of ASCII are the magnitude that they write. -/
theorem magnitude_of_ascii {digits cs : List Char} (hspread : Spread digits cs)
    (hdigits : ∀ c ∈ digits, c.isDigit) (hlimit : digits.length ≤ Whole.digitLimit) :
    Magnitude (Nat.ofDigitChars 10 digits 0) cs := by
  have hvalue : Nat.ofDigitChars 10 digits 0 =
      Nat.ofDigits 10 (digits.map fun c => c.toNat - '0'.toNat).reverse := by
    rw [← ofDigits_eq, ofDigits, List.foldl_map]
    rfl
  rw [hvalue]
  exact .digits hspread (forall₂_isDigit hdigits) hlimit

theorem magnitude_of_decorated {n : Int} {cs : List Char} {zeros : Nat}
    (hspread : Spread (List.replicate zeros '0' ++ Nat.toDigits 10 n.natAbs) cs)
    (hlimit : zeros + (Nat.toDigits 10 n.natAbs).length ≤ Whole.digitLimit) :
    Magnitude n.natAbs cs := by
  have hdigits : ∀ c ∈ List.replicate zeros '0' ++ Nat.toDigits 10 n.natAbs, c.isDigit := by
    intro c hc
    rcases List.mem_append.1 hc with hc | hc
    · rw [List.eq_of_mem_replicate hc]
      decide
    · exact Nat.isDigit_of_mem_toDigits (by decide) (by decide) hc
  have hmagnitude := magnitude_of_ascii hspread hdigits (by simpa using hlimit)
  rwa [Nat.ofDigitChars_append, Nat.ofDigitChars_replicate_zero, Nat.mul_zero,
    Nat.ofDigitChars_ten_toDigits] at hmagnitude

/-- A decorated integer is a numeral for it. -/
theorem numeral_of_decorated {n : Int} {cs : List Char} (h : Decorated n cs) : Numeral n cs := by
  cases h with
  | @blanks before sign cs after zeros hbefore hsign hspread hlimit hafter =>
      have hmagnitude := magnitude_of_decorated hspread hlimit
      have hcore : SignedText n (sign ++ cs) := by
        by_cases hnegative : n < 0
        · have hsigned := SignedText.minus hmagnitude
          rw [show -(n.natAbs : Int) = n by omega] at hsigned
          rcases hsign with rfl | ⟨hnonnegative, -⟩
          · simpa [hnegative] using hsigned
          · omega
        · have hn : (n.natAbs : Int) = n := by omega
          rcases hsign with rfl | ⟨-, rfl⟩
          · have hsigned := SignedText.plain hmagnitude
            rw [hn] at hsigned
            simpa [hnegative] using hsigned
          · have hsigned := SignedText.plus hmagnitude
            rw [hn] at hsigned
            exact hsigned
      have hnumeral := Numeral.blanks hbefore hcore hafter
      rwa [List.append_assoc] at hnumeral

theorem spread_self {digits : List Char} (h : digits ≠ []) : Spread digits digits := by
  induction digits with
  | nil => exact absurd rfl h
  | cons c digits ih =>
      cases digits with
      | nil => exact .last c
      | cons next digits => exact .next c (ih (List.cons_ne_nil _ _))

/-- The text of an integer is decorated with nothing. -/
theorem decorated_text {n : Int} (h : Whole.tooLong n = false) : Decorated n (Whole.text n) := by
  rw [Whole.tooLong, decide_eq_false_iff_not, Nat.not_lt] at h
  have hspread : Spread (List.replicate 0 '0' ++ Nat.toDigits 10 n.natAbs)
      (Nat.toDigits 10 n.natAbs) := spread_self Nat.toDigits_ne_nil
  have hnone : ∀ c ∈ ([] : List Char), Text.isBlank c := by simp
  have hdecorated := Decorated.blanks hnone (.inl rfl) hspread (by omega) hnone
  simpa [Whole.text] using hdecorated

end Port

end SignedMessaging
