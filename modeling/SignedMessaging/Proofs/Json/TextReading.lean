import SignedMessaging.Proofs.Json.Grammar

/-!
# Reading texts

The reader of a text takes exactly the spellings of a text, and knows where they end
without a look at what follows.  Each reader has one statement: it gives a thing and
a rest exactly when the front of the text spells that thing and the rest is left.
-/

namespace SignedMessaging.Json

/-! ### Digits and code units -/

instance (n : Nat) (c : Char) : Decidable (HexDigit n c) :=
  inferInstanceAs (Decidable (_ ∧ _))

/-- Both digits of a number below sixteen are read as that number. -/
theorem hexValue?_digitChar {n : Nat} (hn : n < 16) :
    hexValue? (Nat.digitChar n) = some n ∧ hexValue? (Nat.digitChar n).toUpper = some n := by
  revert n
  decide

/-- Only ASCII characters are digits, so that all of them can be looked at. -/
theorem toNat_lt_of_hexValue? {n : Nat} {c : Char} (h : hexValue? c = some n) : c.toNat < 103 := by
  have hnine : ('9' : Char).val.toNat = 57 := rfl
  have hlower : ('f' : Char).val.toNat = 102 := rfl
  have hupper : ('F' : Char).val.toNat = 70 := rfl
  have hc : c.val.toNat = c.toNat := rfl
  unfold hexValue? at h
  simp only [Char.le_def, UInt32.le_iff_toNat_le] at h
  grind

theorem hexDigit_of_toNat_lt : ∀ k < 103, ∀ n ∈ hexValue? (Char.ofNat k),
    HexDigit n (Char.ofNat k) := by
  decide +kernel

theorem hexValue?_eq_some_iff {n : Nat} {c : Char} : hexValue? c = some n ↔ HexDigit n c := by
  constructor
  · intro h
    have hascii := toNat_lt_of_hexValue? h
    rw [← Char.ofNat_toNat c] at h ⊢
    exact hexDigit_of_toNat_lt _ hascii n h
  · rintro ⟨hn, rfl | rfl⟩
    · exact (hexValue?_digitChar hn).1
    · exact (hexValue?_digitChar hn).2

theorem codeUnit_eq_some_iff {cs rest : List Char} {n : Nat} :
    codeUnit cs = some (n, rest) ↔ ∃ core, CodeUnit n core ∧ cs = core ++ rest := by
  constructor
  · intro h
    unfold codeUnit at h
    split at h
    · next a b c d final =>
      split at h
      · next i j k l ha hb hc hd =>
        obtain ⟨rfl, rfl⟩ := Prod.mk.inj (Option.some.inj h)
        refine ⟨[a, b, c, d], ?_, rfl⟩
        rw [show ((i * 16 + j) * 16 + k) * 16 + l = i * 4096 + j * 256 + k * 16 + l by omega]
        exact .digits (hexValue?_eq_some_iff.1 ha) (hexValue?_eq_some_iff.1 hb)
          (hexValue?_eq_some_iff.1 hc) (hexValue?_eq_some_iff.1 hd)
      · cases h
    · cases h
  · rintro ⟨core, ⟨ha, hb, hc, hd⟩, rfl⟩
    simp only [List.cons_append, List.nil_append, codeUnit, hexValue?_eq_some_iff.2 ha,
      hexValue?_eq_some_iff.2 hb, hexValue?_eq_some_iff.2 hc, hexValue?_eq_some_iff.2 hd,
      Option.some.injEq, Prod.mk.injEq, and_true]
    omega

/-! ### Characters -/

theorem shortEscape?_eq_some_iff {letter c : Char} :
    shortEscape? letter = some c ↔ (letter, c) ∈ letterEscapes := by
  constructor
  · intro h
    unfold shortEscape? at h
    split at h <;> cases h <;> decide
  · intro h
    simp only [letterEscapes, List.mem_cons, Prod.mk.injEq, List.not_mem_nil, or_false] at h
    rcases h with ⟨rfl, rfl⟩ | ⟨rfl, rfl⟩ | ⟨rfl, rfl⟩ | ⟨rfl, rfl⟩ | ⟨rfl, rfl⟩ | ⟨rfl, rfl⟩ |
      ⟨rfl, rfl⟩ | ⟨rfl, rfl⟩ <;> rfl

/-- What follows the letter u of an escape is one code unit that is no surrogate, or
a pair of surrogates with another escape's beginning between them. -/
theorem codePoint_sound {cs rest : List Char} {c : Char} (h : codePoint cs = some (c, rest)) :
    ∃ core, CharacterText c ('\\' :: 'u' :: core) ∧ cs = core ++ rest := by
  unfold codePoint at h
  split at h
  · cases h
  · next high middle hunit =>
    obtain ⟨core, hcore, rfl⟩ := codeUnit_eq_some_iff.1 hunit
    -- A high surrogate needs a low one behind it, and a low one may not come first.
    split at h
    · next hhigh =>
      split at h
      · next more =>
        split at h
        · next low final hlow =>
          obtain ⟨lowCore, hlowCore, rfl⟩ := codeUnit_eq_some_iff.1 hlow
          split at h
          · next hrange =>
            obtain ⟨rfl, rfl⟩ := Prod.mk.inj (Option.some.inj h)
            exact ⟨core ++ '\\' :: 'u' :: lowCore, .pair hcore hlowCore hhigh hrange, by simp⟩
          · cases h
        · cases h
      · cases h
    · next hhigh =>
      split at h
      · cases h
      · next hlow =>
        obtain ⟨rfl, rfl⟩ := Prod.mk.inj (Option.some.inj h)
        exact ⟨core, .unit hcore hhigh hlow, rfl⟩

theorem codePoint_unit {n : Nat} {core : List Char} (hcore : CodeUnit n core)
    (hhigh : ¬ IsHighSurrogate n) (hlow : ¬ IsLowSurrogate n) (rest : List Char) :
    codePoint (core ++ rest) = some (Char.ofNat n, rest) := by
  rw [codePoint, codeUnit_eq_some_iff.2 ⟨core, hcore, rfl⟩]
  exact (if_neg hhigh).trans (if_neg hlow)

theorem codePoint_pair {high low : Nat} {core lowCore : List Char} (hcore : CodeUnit high core)
    (hlowCore : CodeUnit low lowCore) (hhigh : IsHighSurrogate high) (hlow : IsLowSurrogate low)
    (rest : List Char) :
    codePoint (core ++ '\\' :: 'u' :: (lowCore ++ rest)) =
      some (Char.ofNat (0x10000 + (high - 0xd800) * 0x400 + (low - 0xdc00)), rest) := by
  rw [codePoint, codeUnit_eq_some_iff.2 ⟨core, hcore, rfl⟩]
  simp only [codeUnit_eq_some_iff.2 ⟨lowCore, hlowCore, rfl⟩]
  exact (if_pos hhigh).trans (if_pos hlow)

theorem character_sound {cs rest : List Char} {c : Char} (h : character cs = some (c, rest)) :
    ∃ core, CharacterText c core ∧ cs = core ++ rest := by
  unfold character at h
  split at h
  · cases h
  · obtain ⟨core, hcore, rfl⟩ := codePoint_sound h
    exact ⟨_, hcore, rfl⟩
  · next letter final _ =>
    obtain ⟨found, hfound, heq⟩ := Option.map_eq_some_iff.1 h
    cases heq
    exact ⟨['\\', letter], .letter (shortEscape?_eq_some_iff.1 hfound), rfl⟩
  · split at h
    · cases h
    · next hplain =>
      cases h
      simp only [not_or, Nat.not_lt] at hplain
      exact ⟨[c], .plain hplain.1 hplain.2.1 hplain.2.2, rfl⟩

theorem character_complete {core : List Char} {c : Char} (h : CharacterText c core)
    (rest : List Char) : character (core ++ rest) = some (c, rest) := by
  cases h with
  | plain hquote hbackslash hcontrol =>
      have hplain : ¬ (c = '"' ∨ c = '\\' ∨ c.toNat < 0x20) := by
        rintro (h | h | h)
        · exact hquote h
        · exact hbackslash h
        · omega
      unfold character
      split <;> simp_all
  | @letter letter _ hescape =>
      -- The letter u stands for a code unit, so it must not be among the short escapes.
      have hu : letter ≠ 'u' := by
        rintro rfl
        simp [letterEscapes] at hescape
      simp [character, shortEscape?_eq_some_iff.2 hescape]
  | unit hunit hhigh hlow =>
      exact codePoint_unit hunit hhigh hlow rest
  | @pair high low cs ds hcs hds hhigh hlow =>
      rw [show '\\' :: 'u' :: (cs ++ '\\' :: 'u' :: ds) ++ rest =
        '\\' :: 'u' :: (cs ++ '\\' :: 'u' :: (ds ++ rest)) by simp]
      exact codePoint_pair hcs hds hhigh hlow rest

/-- No spelling of a character starts with a quote, which is what ends a text. -/
theorem head?_ne_quote_of_characterText {c : Char} {core : List Char} (h : CharacterText c core)
    (rest : List Char) : (core ++ rest).head? ≠ some '"' := by
  cases h <;> simp_all

/-! ### Texts in quotes -/

theorem textBody_sound {cs found rest : List Char} (h : textBody cs = some (found, rest)) :
    ∃ core, CharactersText found core ∧ cs = core ++ '"' :: rest := by
  fun_induction textBody cs generalizing found with
  | case1 cs hquote =>
      obtain ⟨rfl, rfl⟩ := Prod.mk.inj (Option.some.inj h)
      cases cs with
      | nil => cases hquote
      | cons c tail =>
          cases hquote
          exact ⟨[], .nil, rfl⟩
  | case2 => cases h
  | case3 cs hquote c middle htaken hshorter ih =>
      obtain ⟨⟨more, final⟩, hmore, heq⟩ := Option.map_eq_some_iff.1 h
      cases heq
      obtain ⟨first, hfirst, rfl⟩ := character_sound htaken
      obtain ⟨core, hcore, rfl⟩ := ih hmore
      exact ⟨first ++ core, .cons hfirst hcore, by simp⟩

theorem textBody_complete {found core : List Char} (h : CharactersText found core)
    (rest : List Char) : textBody (core ++ '"' :: rest) = some (found, rest) := by
  induction h with
  | nil =>
      rw [textBody]
      rfl
  | cons hc hmore ih =>
      rw [textBody, List.append_assoc, if_neg (head?_ne_quote_of_characterText hc _)]
      split
      · next hnone => simp [character_complete hc] at hnone
      · next hsome =>
        rw [character_complete hc] at hsome
        cases hsome
        rw [ih]
        rfl

/-- A text is read exactly from its spellings, whatever follows them. -/
theorem text_run_eq_some_iff {cs found rest : List Char} :
    text.run cs = some (found, rest) ↔ ∃ core, QuotedText found core ∧ cs = core ++ rest := by
  constructor
  · intro h
    simp only [text] at h
    split at h
    · obtain ⟨core, hcore, rfl⟩ := textBody_sound h
      exact ⟨_, .quotes hcore, by simp⟩
    · cases h
  · rintro ⟨core, ⟨hcore⟩, rfl⟩
    simpa [text] using textBody_complete hcore rest

end SignedMessaging.Json
