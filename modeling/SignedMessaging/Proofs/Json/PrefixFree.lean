import SignedMessaging.Proofs.Json.DocumentReading

/-!
# Objects end where they end

No object in JSON can be continued to another one: blanks aside, the closing bracket
that ends an object is found from the text alone, whatever follows it.  Therefore
several documents of which all but the last are objects can be written one after
another without any mark between them, and the values are still determined; only
blanks may pass from one document to the next.

Depth plays no part in this, so the reader is used within the greater of the two
depths.
-/

namespace SignedMessaging

namespace Bytes

theorem ofText_append (s t : String) : ofText (s ++ t) = ofText s ++ ofText t := by
  simp [ofText]

theorem ofText_injective {s t : String} (h : ofText s = ofText t) : s = t := by
  have htext := congrArg text? h
  rw [text?_ofText, text?_ofText] at htext
  exact Option.some.inj htext

end Bytes

namespace Json

theorem Denotes.means {document : Bytes} {v : Value} (h : Denotes document v) :
    Means document v := by
  obtain ⟨s, tree, hdocument, hspells, -, hv⟩ := h
  exact ⟨s, tree, hdocument, hspells, hv⟩

/-- A number denotes an integer of 64 bits or a finite double. -/
theorem number_of_literal {literal : NumberLiteral} {v : Value} (h : literal.value? = some v) :
    (∃ n, NumberLiteral.fitsInteger n = true ∧ v = .int n) ∨
      ∃ x : Double, x.isFinite = true ∧ v = .float x := by
  have hfinite : ∀ {x : Double}, NumberLiteral.finite? x = some v →
      ∃ x : Double, x.isFinite = true ∧ v = .float x := by
    intro x hx
    unfold NumberLiteral.finite? at hx
    split at hx
    · next hfinite =>
        cases hx
        exact ⟨x, hfinite, rfl⟩
    · cases hx
  unfold NumberLiteral.value? at h
  split at h
  · split at h
    · next hfits =>
        cases h
        exact .inl ⟨_, hfits, rfl⟩
    · exact .inr (hfinite h)
  · exact .inr (hfinite h)

/-- Only an object denotes a dictionary. -/
theorem isContainer_of_dictionary {tree : Tree} {entries : Entries}
    (h : tree.value? = some (.dictionary entries)) : tree.IsContainer := by
  cases tree with
  | list _ | object _ => trivial
  | null | bool _ | text _ => cases h
  | number literal => simpa using number_of_literal h

/-- Two texts that start with blanks and then a container start with the same value, and
go on alike. -/
theorem container_prefix {tree tree' : Tree} {before core rest before' core' rest' : List Char}
    {v v' : Value} (hbefore : Blanks before) (hbefore' : Blanks before')
    (hcore : Spells tree core) (hcore' : Spells tree' core')
    (hcontainer : tree.IsContainer) (hcontainer' : tree'.IsContainer)
    (hv : tree.value? = some v) (hv' : tree'.value? = some v')
    (heq : before ++ (core ++ rest) = before' ++ (core' ++ rest')) :
    v = v' ∧ rest = rest' := by
  let depth := max tree.nesting tree'.nesting
  have hwithin : tree.Within (depth + 1) v :=
    ⟨Nat.le_succ_of_le (Nat.le_max_left ..), hv⟩
  have hwithin' : tree'.Within (depth + 1) v' :=
    ⟨Nat.le_succ_of_le (Nat.le_max_right ..), hv'⟩
  -- Both texts are read with one depth; a container is read whatever follows it.
  have hskip := congrArg skipBlanks heq
  rw [(value_reads (depth + 1)).skipBlanks_core hbefore ⟨tree, hcore, hwithin⟩,
    (value_reads (depth + 1)).skipBlanks_core hbefore' ⟨tree', hcore', hwithin'⟩] at hskip
  have hrun := container_run_complete (value_reads depth) hcore hcontainer hwithin rest
  have hrun' := container_run_complete (value_reads depth) hcore' hcontainer' hwithin' rest'
  rw [hskip, hrun'] at hrun
  cases hrun
  exact ⟨rfl, rfl⟩

/-- A text is a document of one value at most. -/
theorem document_unique {tree tree' : Tree} {before core after before' core' after' : List Char}
    {v v' : Value} (hbefore : Blanks before) (hbefore' : Blanks before')
    (hcore : Spells tree core) (hcore' : Spells tree' core')
    (hafter : Blanks after) (hafter' : Blanks after')
    (hv : tree.value? = some v) (hv' : tree'.value? = some v')
    (heq : before ++ (core ++ after) = before' ++ (core' ++ after')) : v = v' := by
  let depth := max tree.nesting tree'.nesting
  have hwithin : SpellsWithin depth v core := ⟨tree, hcore, Nat.le_max_left .., hv⟩
  have hwithin' : SpellsWithin depth v' core' := ⟨tree', hcore', Nat.le_max_right .., hv'⟩
  have hskip := congrArg skipBlanks heq
  rw [(value_reads depth).skipBlanks_core hbefore hwithin,
    (value_reads depth).skipBlanks_core hbefore' hwithin'] at hskip
  have hrun := (value_reads depth).complete hwithin (numberEnds_of_blanks_only hafter)
  have hrun' := (value_reads depth).complete hwithin' (numberEnds_of_blanks_only hafter')
  rw [hskip, hrun'] at hrun
  cases hrun
  rfl

/-- A text is a document of a value. -/
def TextMeans (v : Value) (cs : List Char) : Prop :=
  ∃ tree, SpellsDocument tree cs ∧ tree.value? = some v

theorem means_iff {document : Bytes} {v : Value} :
    Means document v ↔ ∃ s : String, document = Bytes.ofText s ∧ TextMeans v s.toList := by
  constructor
  · rintro ⟨s, tree, hdocument, hspells, hv⟩
    exact ⟨s, hdocument, tree, hspells, hv⟩
  · rintro ⟨s, hdocument, tree, hspells, hv⟩
    exact ⟨s, tree, hdocument, hspells, hv⟩

/-- Objects and a last document, written one after another, are determined by the whole
text.  The gaps are the blanks that the documents before have left over. -/
theorem texts_unique {objects objects' : List Entries} {texts texts' : List (List Char)}
    {last last' gap gap' : List Char} {v v' : Value}
    (hobjects : List.Forall₂ (fun entries => TextMeans (.dictionary entries)) objects texts)
    (hobjects' : List.Forall₂ (fun entries => TextMeans (.dictionary entries)) objects' texts')
    (hlength : objects.length = objects'.length)
    (hlast : TextMeans v last) (hlast' : TextMeans v' last')
    (hgap : Blanks gap) (hgap' : Blanks gap')
    (heq : gap ++ (texts.flatten ++ last) = gap' ++ (texts'.flatten ++ last')) :
    objects = objects' ∧ v = v' := by
  induction hobjects generalizing objects' texts' gap gap' with
  | nil =>
      cases hobjects' with
      | cons _ _ => cases hlength
      | nil =>
          obtain ⟨tree, ⟨hbefore, hcore, hafter⟩, hv⟩ := hlast
          obtain ⟨tree', ⟨hbefore', hcore', hafter'⟩, hv'⟩ := hlast'
          refine ⟨rfl, document_unique (hgap.append hbefore) (hgap'.append hbefore') hcore hcore'
            hafter hafter' hv hv' ?_⟩
          simpa using heq
  | cons hfirst _ ih =>
      cases hobjects' with
      | nil => cases hlength
      | cons hfirst' hothers' =>
          obtain ⟨tree, ⟨hbefore, hcore, hafter⟩, hv⟩ := hfirst
          obtain ⟨tree', ⟨hbefore', hcore', hafter'⟩, hv'⟩ := hfirst'
          -- The first objects agree, and what they leave over starts the rest of the texts.
          simp only [List.flatten_cons, List.append_assoc] at heq
          rw [← List.append_assoc gap, ← List.append_assoc gap'] at heq
          obtain ⟨hsame, hrest⟩ := container_prefix (hgap.append hbefore) (hgap'.append hbefore')
            hcore hcore' (isContainer_of_dictionary hv) (isContainer_of_dictionary hv') hv hv' heq
          obtain ⟨rfl, rfl⟩ := ih hothers' (Nat.succ.inj hlength) hafter hafter' hrest
          cases hsame
          exact ⟨rfl, rfl⟩

/-- A document means one value at most. -/
theorem Means.unique {document : Bytes} {v v' : Value} (h : Means document v)
    (h' : Means document v') : v = v' := by
  obtain ⟨s, rfl, htext⟩ := means_iff.1 h
  obtain ⟨s', hdocument, htext'⟩ := means_iff.1 h'
  obtain rfl := Bytes.ofText_injective hdocument
  exact (texts_unique .nil .nil rfl htext htext' blanks_nil blanks_nil rfl).2

end Json

end SignedMessaging
