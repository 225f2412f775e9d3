import SignedMessaging.Proofs.Json.PrefixFree
import SignedMessaging.Proofs.Json.Writing

/-!
# Compact documents

No byte of a document that is written lies below U+0020, and no space stands outside its
string literals (`compact_of_write`).  Where the literals stand is found in the bytes alone:
a scan from left to right knows nothing but quotes and backslashes (`Scan.step`).  It works
on bytes because a character beyond ASCII has none of their codes among its bytes.

A value is written in pieces, each of which a scan enters and leaves outside the literals;
only within a text is it taken through one.  That is what every piece is shown to keep
(`Passes`), and pieces are put together by `Passes.append`.
-/

namespace SignedMessaging

namespace Json

/-! ### Scanning for literals -/

/-- Where a scan of a document stands between two bytes. -/
inductive Scan where
  | outside | literal | escaped
deriving DecidableEq, Repr

namespace Scan

/-- A quote opens a literal and closes it, unless a backslash in the literal stands before
the quote. -/
def step : Scan → UInt8 → Scan
  | outside, b => if b = 0x22 then literal else outside
  | literal, b => if b = 0x22 then outside else if b = 0x5c then escaped else literal
  | escaped, _ => literal

/-- Where a scan stands behind some bytes. -/
def run (start : Scan) (bytes : Bytes) : Scan :=
  bytes.foldl step start

/-- The bytes that a scan meets outside of literals. -/
def bare (start : Scan) : Bytes → Bytes
  | [] => []
  | b :: bytes =>
      if start = outside then b :: bare (step start b) bytes else bare (step start b) bytes

example : bare outside (Bytes.ofText "[\"a \\\" b\" ,1]") = Bytes.ofText "[\" ,1]" := by decide

theorem run_append (start : Scan) (first second : Bytes) :
    start.run (first ++ second) = (start.run first).run second :=
  List.foldl_append

theorem bare_append (start : Scan) (first second : Bytes) :
    start.bare (first ++ second) = start.bare first ++ (start.run first).bare second := by
  induction first generalizing start with
  | nil => rfl
  | cons b first ih =>
      simp only [List.cons_append, bare, ih]
      split <;> rfl

end Scan

/-- Whether a document is compact: a text in UTF-8 with no control in it and with every
literal closed, outside of which no space stands. -/
structure Compact (document : Bytes) : Prop where
  isText : ∃ s, document = Bytes.ofText s
  noControl : ∀ b ∈ document, 0x20 ≤ b.toNat
  closed : Scan.outside.run document = .outside
  noSpace : 0x20 ∉ Scan.outside.bare document

/-- Whether a scan that comes from one place to some characters leaves them for another,
and meets neither a control nor, outside of literals, a space. -/
structure Passes (start : Scan) (cs : List Char) (final : Scan) : Prop where
  noControl : ∀ b ∈ Bytes.ofText (String.ofList cs), 0x20 ≤ b.toNat
  run : start.run (Bytes.ofText (String.ofList cs)) = final
  noSpace : 0x20 ∉ start.bare (Bytes.ofText (String.ofList cs))

namespace Passes

variable {start middle final : Scan} {cs ds : List Char}

theorem nil (start : Scan) : Passes start [] start := by
  have hbytes : Bytes.ofText (String.ofList []) = [] := rfl
  constructor <;> rw [hbytes]
  · simp
  · rfl
  · simp [Scan.bare]

theorem append (hcs : Passes start cs middle) (hds : Passes middle ds final) :
    Passes start (cs ++ ds) final := by
  have hbytes : Bytes.ofText (String.ofList (cs ++ ds)) =
      Bytes.ofText (String.ofList cs) ++ Bytes.ofText (String.ofList ds) := by
    rw [String.ofList_append, Bytes.ofText_append]
  constructor
  · intro b hb
    rw [hbytes, List.mem_append] at hb
    exact hb.elim (hcs.noControl b) (hds.noControl b)
  · rw [hbytes, Scan.run_append, hcs.run, hds.run]
  · rw [hbytes, Scan.bare_append, hcs.run, List.mem_append, not_or]
    exact ⟨hcs.noSpace, hds.noSpace⟩

/-- A scan passes characters one by one. -/
theorem of_forall (h : ∀ c ∈ cs, Passes start [c] start) : Passes start cs start := by
  induction cs with
  | nil => exact nil start
  | cons c cs ih =>
      obtain ⟨hfirst, hothers⟩ := List.forall_mem_cons.1 h
      exact hfirst.append (ih hothers)

/-- A character of ASCII takes a scan one step on. -/
theorem ascii (start : Scan) {c : Char} (hcontrol : 0x20 ≤ c.toNat) (hascii : c.toNat < 0x80)
    (hspace : start = .outside → c ≠ ' ') :
    Passes start [c] (start.step (UInt8.ofNat c.toNat)) := by
  have hcode : (UInt8.ofNat c.toNat).toNat = c.toNat := by
    rw [UInt8.toNat_ofNat']
    omega
  have hbytes : Bytes.ofText (String.ofList [c]) = [UInt8.ofNat c.toNat] := by
    rw [Bytes.ofText_ofList, List.flatMap_singleton, String.utf8EncodeChar]
    exact if_pos (Nat.le_of_lt_succ hascii)
  constructor <;> rw [hbytes]
  · simpa [hcode] using hcontrol
  · rfl
  · rw [Scan.bare]
    split
    · next hstart =>
        have hne : c.toNat ≠ 0x20 := fun heq => hspace hstart (Char.toNat_inj.1 heq)
        rw [Scan.bare, List.mem_singleton]
        intro heq
        rw [← heq] at hcode
        exact hne hcode.symm
    · simp [Scan.bare]

/-- Parts with commas between them are passed where each part is. -/
theorem intercalate {parts : List (List Char)}
    (h : ∀ part ∈ parts, Passes .outside part .outside) :
    Passes .outside ([','].intercalate parts) .outside := by
  have hcomma : Passes .outside [','] .outside :=
    ascii .outside (by decide) (by decide) (by decide)
  induction parts with
  | nil => exact nil _
  | cons part parts ih =>
      obtain ⟨hpart, hothers⟩ := List.forall_mem_cons.1 h
      cases parts with
      | nil => simpa [List.intercalate] using hpart
      | cons next parts =>
          rw [List.intercalate_cons_cons]
          exact (hpart.append hcomma).append (ih hothers)

theorem bracketed {opening closing : Char} (hopening : Passes .outside [opening] .outside)
    (hclosing : Passes .outside [closing] .outside) {parts : List (List Char)}
    (h : ∀ part ∈ parts, Passes .outside part .outside) :
    Passes .outside (Json.bracketed opening closing parts) .outside :=
  hopening.append ((intercalate h).append hclosing)

/-- A document is compact if a scan passes it outside of literals. -/
theorem compact (h : Passes .outside cs .outside) : Compact (Bytes.ofText (String.ofList cs)) :=
  ⟨⟨_, rfl⟩, h.noControl, h.run, h.noSpace⟩

end Passes

/-! ### Single characters -/

/-- The place of a scan that no byte of some bytes changes, and the bytes it meets there. -/
theorem run_of_fixed {place : Scan} {bytes : Bytes} (h : ∀ b ∈ bytes, place.step b = place) :
    place.run bytes = place ∧ place.bare bytes = if place = .outside then bytes else [] := by
  induction bytes with
  | nil => cases place <;> decide
  | cons b bytes ih =>
      obtain ⟨hfirst, hothers⟩ := List.forall_mem_cons.1 h
      obtain ⟨hrun, hbare⟩ := ih hothers
      rw [Scan.run, List.foldl_cons, hfirst, Scan.bare, hfirst, hbare]
      exact ⟨hrun, by split <;> rfl⟩

theorem ne_of_mem_utf8EncodeChar {c d : Char} (hd : d.toNat < 0x80) (hne : c ≠ d) {b : UInt8}
    (hb : b ∈ String.utf8EncodeChar c) : b.toNat ≠ d.toNat := by
  have hcode : c.toNat ≠ d.toNat := fun hcode => hne (Char.toNat_inj.1 hcode)
  have := Bytes.toNat_of_mem_utf8EncodeChar hb
  omega

theorem noControl_singleton {c : Char} (hcontrol : 0x20 ≤ c.toNat) :
    ∀ b ∈ Bytes.ofText (String.ofList [c]), 0x20 ≤ b.toNat := by
  intro b hb
  rw [Bytes.ofText_ofList, List.flatMap_singleton] at hb
  have := Bytes.toNat_of_mem_utf8EncodeChar hb
  omega

/-- Outside of literals all passes but controls, spaces and quotes. -/
theorem passes_outside {c : Char} (hspace : 0x20 < c.toNat) (hquote : c ≠ '"') :
    Passes .outside [c] .outside := by
  have hfixed : ∀ b ∈ Bytes.ofText (String.ofList [c]), Scan.outside.step b = .outside := by
    intro b hb
    rw [Bytes.ofText_ofList, List.flatMap_singleton] at hb
    refine if_neg fun heq => ne_of_mem_utf8EncodeChar (by decide) hquote hb ?_
    rw [heq]
    rfl
  refine ⟨noControl_singleton (Nat.le_of_lt hspace), (run_of_fixed hfixed).1, ?_⟩
  rw [(run_of_fixed hfixed).2, if_pos rfl, Bytes.ofText_ofList, List.flatMap_singleton]
  intro hb
  have := Bytes.toNat_of_mem_utf8EncodeChar hb
  rw [show (0x20 : UInt8).toNat = 0x20 from rfl] at this
  omega

/-- Within a literal all passes but controls, quotes and backslashes. -/
theorem passes_literal {c : Char} (hcontrol : 0x20 ≤ c.toNat) (hquote : c ≠ '"')
    (hbackslash : c ≠ '\\') : Passes .literal [c] .literal := by
  have hfixed : ∀ b ∈ Bytes.ofText (String.ofList [c]), Scan.literal.step b = .literal := by
    intro b hb
    rw [Bytes.ofText_ofList, List.flatMap_singleton] at hb
    have hfirst : b ≠ 0x22 := by
      rintro rfl
      exact ne_of_mem_utf8EncodeChar (by decide) hquote hb rfl
    have hsecond : b ≠ 0x5c := by
      rintro rfl
      exact ne_of_mem_utf8EncodeChar (by decide) hbackslash hb rfl
    rw [Scan.step, if_neg hfirst, if_neg hsecond]
  refine ⟨noControl_singleton hcontrol, (run_of_fixed hfixed).1, ?_⟩
  rw [(run_of_fixed hfixed).2]
  simp

/-- A word without spaces and quotes is passed outside of literals. -/
theorem passes_word {cs : List Char} (h : cs.all fun c => 0x20 < c.toNat && c != '"') :
    Passes .outside cs .outside := by
  refine Passes.of_forall fun c hc => ?_
  have hchar := List.all_eq_true.1 h c hc
  simp only [Bool.and_eq_true, decide_eq_true_eq, bne_iff_ne] at hchar
  exact passes_outside hchar.1 hchar.2

/-! ### Texts -/

/-- Behind a backslash any character of ASCII is within the literal. -/
theorem passes_letter {letter : Char} (hcontrol : 0x20 ≤ letter.toNat)
    (hascii : letter.toNat < 0x80) : Passes .literal ['\\', letter] .literal := by
  have hbackslash : Passes .literal ['\\'] .escaped :=
    .ascii .literal (by decide) (by decide) (by decide)
  have hletter : Passes .escaped [letter] .literal :=
    .ascii .escaped hcontrol hascii fun houtside => by cases houtside
  exact hbackslash.append hletter

/-- An escape is within the literal from its beginning to its end. -/
theorem passes_escape (c : Char) : Passes .literal (escape c) .literal := by
  by_cases hletter : c ∈ ['"', '\\', '\x08', '\t', '\n', '\x0c', '\r']
  · simp only [List.mem_cons, List.not_mem_nil, or_false] at hletter
    rcases hletter with rfl | rfl | rfl | rfl | rfl | rfl | rfl <;>
      exact passes_letter (by decide) (by decide)
  · simp only [List.mem_cons, List.not_mem_nil, or_false, not_or] at hletter
    obtain ⟨hquote, hbackslash, hbackspace, htab, hnewline, hfeed, hreturn⟩ := hletter
    simp only [escape, hquote, hbackslash, hbackspace, htab, hnewline, hfeed, hreturn, if_false]
    split
    · -- Behind the backslash and its letter stand digits, which open and close nothing.
      have hstart : Passes .literal ['\\', 'u'] .literal := passes_letter (by decide) (by decide)
      have hdigits : ∀ n < 16,
          0x20 ≤ (hexChar n).toNat ∧ hexChar n ≠ '"' ∧ hexChar n ≠ '\\' := by
        decide
      have hdigit : ∀ n < 16, Passes .literal [hexChar n] .literal := fun n hn =>
        passes_literal (hdigits n hn).1 (hdigits n hn).2.1 (hdigits n hn).2.2
      refine hstart.append (Passes.of_forall fun digit hdigit' => ?_)
      simp only [List.mem_cons, List.not_mem_nil, or_false] at hdigit'
      rcases hdigit' with rfl | rfl | rfl | rfl
      · exact hdigit 0 (by decide)
      · exact hdigit 0 (by decide)
      · exact hdigit _ (by omega)
      · exact hdigit _ (by omega)
    · next hcontrol => exact passes_literal (Nat.le_of_not_lt hcontrol) hquote hbackslash

/-- A text is one literal. -/
theorem passes_writeText (cs : List Char) : Passes .outside (writeText cs) .outside := by
  have hopening : Passes .outside ['"'] .literal :=
    .ascii .outside (by decide) (by decide) (by decide)
  have hclosing : Passes .literal ['"'] .outside :=
    .ascii .literal (by decide) (by decide) (by decide)
  have hinner : Passes .literal (cs.flatMap escape) .literal := by
    induction cs with
    | nil => exact .nil _
    | cons c cs ih => exact (passes_escape c).append ih
  exact hopening.append (hinner.append hclosing)

/-! ### Numbers -/

/-- The characters of numbers. -/
def NumberCharacter (c : Char) : Prop :=
  c.isDigit ∨ c ∈ ['.', '-', '+', 'e', 'E']

theorem numberCharacter_of_isDigit {digits : List Char} (h : Digits digits) :
    ∀ c ∈ digits, NumberCharacter c :=
  fun c hc => .inl (h.2 c hc)

/-- Numbers are spelled by digits, points, signs and the letter of the exponent. -/
theorem numberCharacter_of_spells {literal : NumberLiteral} {cs : List Char}
    (h : NumberText literal cs) : ∀ c ∈ cs, NumberCharacter c := by
  obtain ⟨hsign, hwhole, -, hfraction, hexponent⟩ := h
  simp only [List.forall_mem_append]
  refine ⟨?_, numberCharacter_of_isDigit hwhole, ?_, ?_⟩
  · cases hsign <;> simp [NumberCharacter]
  · cases hfraction with
    | none => simp
    | point hdigits =>
        exact List.forall_mem_cons.2 ⟨by simp [NumberCharacter],
          numberCharacter_of_isDigit hdigits⟩
  · cases hexponent with
    | none => simp
    | positive hletter hsign hdigits =>
        refine List.forall_mem_cons.2 ⟨?_, List.forall_mem_append.2
          ⟨?_, numberCharacter_of_isDigit hdigits⟩⟩
        · rcases hletter with rfl | rfl <;> simp [NumberCharacter]
        · rcases hsign with rfl | rfl <;> simp [NumberCharacter]
    | negative hletter hdigits =>
        refine List.forall_mem_cons.2 ⟨?_, List.forall_mem_cons.2
          ⟨by simp [NumberCharacter], numberCharacter_of_isDigit hdigits⟩⟩
        rcases hletter with rfl | rfl <;> simp [NumberCharacter]

theorem passes_number {literal : NumberLiteral} {cs : List Char} (h : NumberText literal cs) :
    Passes .outside cs .outside := by
  refine Passes.of_forall fun c hc => ?_
  rcases numberCharacter_of_spells h c hc with hdigit | hother
  · have hcode : 48 ≤ c.toNat := by
      simp only [Char.isDigit, Bool.and_eq_true, decide_eq_true_eq] at hdigit
      exact hdigit.1
    refine passes_outside (by omega) ?_
    rintro rfl
    exact absurd hdigit (by decide)
  · simp only [List.mem_cons, List.not_mem_nil, or_false] at hother
    rcases hother with rfl | rfl | rfl | rfl | rfl <;> exact passes_outside (by decide) (by decide)

/-! ### Values -/

/-- Where an entry is written, its member is a text and a colon before what is written of its
value. -/
theorem exists_of_writeMember {level : Nat} {entries : Entries} {parts : List (List Char)}
    (h : writeMembers level entries = .ok parts) {part : List Char} (hpart : part ∈ parts) :
    ∃ entry ∈ entries, ∃ key written, writeValue level entry.2 = .ok written ∧
      part = writeText key ++ ':' :: written := by
  obtain ⟨entry, hentry, hmember⟩ :=
    Outcome.exists_of_mem_right (writeMembers_eq_ok_iff.1 h) hpart
  obtain ⟨s, written, -, hwritten, rfl⟩ := writeMember_eq_ok_iff.1 hmember
  exact ⟨entry, hentry, s.toList, written, hwritten, rfl⟩

theorem written_scalar {P : List Char → Prop}
    (name : ∀ cs ∈ ["null".toList, "true".toList, "false".toList], P cs)
    (number : ∀ {literal cs}, NumberText literal cs → P cs) (text : ∀ cs, P (writeText cs))
    {v : Value} (hscalar : v.IsScalar) {level : Nat} {cs : List Char}
    (h : writeValue level v = .ok cs) : P cs := by
  cases v with
  | null =>
      cases h
      exact name _ (by simp)
  | bool b =>
      cases b <;> cases h <;> exact name _ (by simp)
  | int n =>
      rw [writeValue] at h
      split at h
      · cases h
        exact number (whole_spells n)
      · cases h
  | float x =>
      cases h
      rw [writeDouble]
      split
      · next hfinite =>
          obtain ⟨literal, hliteral, -⟩ := double_spells layout hfinite
          exact number hliteral
      · exact name _ (by simp)
  | text s =>
      cases h
      exact text _
  | list _ | tuple _ | dictionary _ => exact hscalar.elim
  | bytes _ | emptySet | object | complexZero => cases h

/-- What holds of names, numbers and texts, and of lists and objects of what it holds of, holds
of all that is written, whatever doubles and keys are in the value. -/
theorem written_induction {P : List Char → Prop}
    (name : ∀ cs ∈ ["null".toList, "true".toList, "false".toList], P cs)
    (number : ∀ {literal cs}, NumberText literal cs → P cs) (text : ∀ cs, P (writeText cs))
    (list : ∀ {parts}, (∀ part ∈ parts, P part) → P (bracketed '[' ']' parts))
    (object : ∀ {parts}, (∀ part ∈ parts, ∃ key written,
      P written ∧ part = writeText key ++ ':' :: written) → P (bracketed '\x7b' '\x7d' parts))
    {v : Value} {level : Nat} {cs : List Char} (h : writeValue level v = .ok cs) : P cs := by
  have hitems : ∀ {items : List Value} {level : Nat} {parts : List (List Char)},
      (∀ item ∈ items, ∀ {level cs}, writeValue level item = .ok cs → P cs) →
      writeItems level items = .ok parts → P (bracketed '[' ']' parts) := by
    intro items level parts ih hparts
    refine list fun part hpart => ?_
    obtain ⟨item, hitem, hwritten⟩ :=
      Outcome.exists_of_mem_right (writeItems_eq_ok_iff.1 hparts) hpart
    exact ih item hitem hwritten
  -- A part is written at a level of its own, so the level must be free in the induction.
  induction v using Value.parts_induction generalizing level cs with
  | list items ih =>
      obtain ⟨parts, hparts, rfl⟩ := writeValue_list_eq_ok h
      exact hitems ih hparts
  | tuple items ih =>
      obtain ⟨parts, hparts, rfl⟩ := writeValue_tuple_eq_ok h
      exact hitems ih hparts
  | dictionary entries ih =>
      obtain ⟨parts, hparts, rfl⟩ := writeValue_dictionary_eq_ok h
      refine object fun part hpart => ?_
      obtain ⟨entry, hentry, key, written, hwritten, rfl⟩ := exists_of_writeMember hparts hpart
      exact ⟨key, written, ih entry hentry hwritten, rfl⟩
  | scalar v hscalar => exact written_scalar name number text hscalar h

/-- What is written of a value is passed outside of literals, at any level. -/
theorem passes_writeValue {v : Value} {level : Nat} {cs : List Char}
    (h : writeValue level v = .ok cs) : Passes .outside cs .outside := by
  refine written_induction ?_ passes_number passes_writeText ?_ ?_ h
  · intro cs hcs
    simp only [List.mem_cons, List.not_mem_nil, or_false] at hcs
    rcases hcs with rfl | rfl | rfl <;> exact passes_word (by decide)
  · exact Passes.bracketed (passes_outside (by decide) (by decide))
      (passes_outside (by decide) (by decide))
  · intro parts hparts
    refine Passes.bracketed (passes_outside (by decide) (by decide))
      (passes_outside (by decide) (by decide)) fun part hpart => ?_
    obtain ⟨key, written, hwritten, rfl⟩ := hparts part hpart
    have hcolon : Passes .outside [':'] .outside := passes_word (by decide)
    exact (passes_writeText key).append (hcolon.append hwritten)

/-- Every document that is written is compact. -/
theorem compact_of_write {v : Value} {document : Bytes} (h : write v = .ok document) :
    Compact document := by
  obtain ⟨cs, hcs, rfl⟩ := Outcome.map_eq_ok_iff.1 h
  exact (passes_writeValue hcs).compact

/-! ### Trees -/

theorem exists_forall₂ {α β : Type} {R : α → β → Prop} {ys : List β}
    (h : ∀ y ∈ ys, ∃ x, R x y) : ∃ xs, List.Forall₂ R xs ys := by
  induction ys with
  | nil => exact ⟨[], .nil⟩
  | cons y ys ih =>
      obtain ⟨⟨x, hx⟩, hothers⟩ := List.forall_mem_cons.1 h
      obtain ⟨xs, hxs⟩ := ih hothers
      exact ⟨x :: xs, .cons hx hxs⟩

/-- Members whose values spell trees spell an object. -/
theorem exists_spells_object {parts : List (List Char)} (h : ∀ part ∈ parts, ∃ key written,
      (∃ tree, Spells tree written) ∧ part = writeText key ++ ':' :: written) :
    ∃ members, Spells (.object members) (bracketed '\x7b' '\x7d' parts) := by
  have hmembers : ∀ part ∈ parts, ∃ member, MemberText Spells member part := by
    intro part hpart
    obtain ⟨key, written, ⟨tree, htree⟩, rfl⟩ := h part hpart
    exact ⟨(key, tree), .colon (writeText_spells key) blanks_nil blanks_nil htree⟩
  obtain ⟨members, hmembers⟩ := exists_forall₂ hmembers
  exact ⟨members, .object (listed_intercalate hmembers)⟩

/-- What is written of a value spells a tree. -/
theorem exists_spells {v : Value} {level : Nat} {cs : List Char}
    (h : writeValue level v = .ok cs) : ∃ tree, Spells tree cs := by
  apply written_induction (P := fun cs => ∃ tree, Spells tree cs) ?_ ?_ ?_ ?_ ?_ h
  · intro cs hcs
    simp only [List.mem_cons, List.not_mem_nil, or_false] at hcs
    rcases hcs with rfl | rfl | rfl
    · exact ⟨_, .null⟩
    · exact ⟨_, .true⟩
    · exact ⟨_, .false⟩
  · intro literal cs hnumber
    exact ⟨_, .number hnumber⟩
  · intro cs
    exact ⟨_, .text (writeText_spells cs)⟩
  · intro parts hparts
    obtain ⟨items, hitems⟩ := exists_forall₂ hparts
    exact ⟨_, .list (listed_intercalate hitems)⟩
  · intro parts hparts
    obtain ⟨members, hmembers⟩ := exists_spells_object hparts
    exact ⟨_, hmembers⟩

/-- What is written of a dictionary spells an object. -/
theorem exists_members {entries : Entries} {level : Nat} {cs : List Char}
    (h : writeValue level (.dictionary entries) = .ok cs) :
    ∃ members, Spells (.object members) cs := by
  obtain ⟨parts, hparts, rfl⟩ := writeValue_dictionary_eq_ok h
  refine exists_spells_object fun part hpart => ?_
  obtain ⟨entry, -, key, written, hwritten, rfl⟩ := exists_of_writeMember hparts hpart
  exact ⟨key, written, exists_spells hwritten, rfl⟩

/-- No tree is spelled with an angle bracket first. -/
theorem head?_of_spells {tree : Tree} {cs : List Char} (h : Spells tree cs) :
    cs.head? ≠ some '<' := by
  cases h with
  | text h => cases h; simp
  | number h =>
      obtain ⟨c, tail, rfl, hc⟩ := numberText_starts h
      simpa using ne_of_isDigit hc (by decide)
  | _ => simp

end Json

end SignedMessaging
