import SignedMessaging.Proofs.Json.ListReading
import SignedMessaging.Proofs.Json.MemberMerging
import SignedMessaging.Proofs.Json.TextReading

/-!
# Reading documents

The reader of values within `depth` containers takes exactly the spellings of trees
that nest no deeper and whose numbers all have values, and gives the value that the
tree denotes.  This is an induction on the depth: a list or an object is read between
its brackets by the reader for one container less.  A document is read exactly to the
value that it denotes, so a document denotes one value at most.
-/

namespace SignedMessaging.Json

/-! ### Trees part by part -/

namespace Tree

/-- A tree within a depth, with the value that it denotes. -/
def Within (depth : Nat) (tree : Tree) (v : Value) : Prop :=
  tree.nesting ≤ depth ∧ tree.value? = some v

theorem values?_eq_some_iff {items : List Tree} {vs : List Value} :
    values? items = some vs ↔ List.Forall₂ (fun tree v => value? tree = some v) items vs := by
  induction items generalizing vs with
  | nil => simp [values?, eq_comm]
  | cons item items ih =>
      rw [values?, List.forall₂_cons_left_iff]
      constructor
      · intro h
        split at h
        · next v found hv hfound =>
          cases h
          exact ⟨v, found, hv, ih.1 hfound, rfl⟩
        · cases h
      · rintro ⟨v, found, hv, hfound, rfl⟩
        rw [hv, ih.2 hfound]

theorem memberValues?_eq_some_iff {members : List (List Char × Tree)}
    {found : List (List Char × Value)} :
    memberValues? members = some found ↔
      List.Forall₂ (fun member entry => member.1 = entry.1 ∧ value? member.2 = some entry.2)
        members found := by
  induction members generalizing found with
  | nil => simp [memberValues?, eq_comm]
  | cons member members ih =>
      obtain ⟨key, tree⟩ := member
      rw [memberValues?, List.forall₂_cons_left_iff]
      constructor
      · intro h
        split at h
        · next v others hv hothers =>
          cases h
          exact ⟨(key, v), others, ⟨rfl, hv⟩, ih.1 hothers, rfl⟩
        · cases h
      · rintro ⟨⟨key', v⟩, others, ⟨hkey, hv⟩, hothers, rfl⟩
        obtain rfl : key = key' := hkey
        rw [hv, ih.2 hothers]

theorem nestingOf_le_iff {items : List Tree} {depth : Nat} :
    nestingOf items ≤ depth ↔ ∀ item ∈ items, nesting item ≤ depth := by
  induction items with
  | nil => simp [nestingOf]
  | cons item items ih => rw [nestingOf, Nat.max_le, ih, List.forall_mem_cons]

theorem nestingUnder_le_iff {members : List (List Char × Tree)} {depth : Nat} :
    nestingUnder members ≤ depth ↔ ∀ member ∈ members, nesting member.2 ≤ depth := by
  induction members with
  | nil => simp [nestingUnder]
  | cons member members ih =>
      rw [nestingUnder, Nat.max_le, ih, List.forall_mem_cons]

/-- Items within a depth are items each within it. -/
theorem forall₂_within_iff {depth : Nat} {items : List Tree} {vs : List Value} :
    List.Forall₂ (Within depth) items vs ↔
      nestingOf items ≤ depth ∧ values? items = some vs := by
  rw [nestingOf_le_iff, values?_eq_some_iff]
  exact List.forall₂_and_left items vs

theorem forall₂_member_within_iff {depth : Nat} {members : List (List Char × Tree)}
    {found : List (List Char × Value)} :
    List.Forall₂ (fun member entry => member.1 = entry.1 ∧ Within depth member.2 entry.2)
        members found ↔
      nestingUnder members ≤ depth ∧ memberValues? members = some found := by
  rw [nestingUnder_le_iff, memberValues?_eq_some_iff]
  refine Iff.trans ?_ (List.forall₂_and_left members found)
  constructor <;> refine List.Forall₂.imp fun member entry h => ?_
  · exact ⟨h.2.1, h.1, h.2.2⟩
  · exact ⟨h.2.1, h.1, h.2.2⟩

/-- Whether a tree is a list or an object, which ends with its bracket. -/
def IsContainer : Tree → Prop
  | .list _ | .object _ => True
  | _ => False

end Tree

/-- A text spells a tree of a value that nests no deeper than `depth`. -/
def SpellsWithin (depth : Nat) (v : Value) (core : List Char) : Prop :=
  ∃ tree : Tree, Spells tree core ∧ Tree.Within depth tree v

theorem listed_spellsWithin_iff {depth : Nat} {vs : List Value} {inner : List Char} :
    Listed (SpellsWithin depth) vs inner ↔ ∃ items, Listed Spells items inner ∧
      Tree.nestingOf items ≤ depth ∧ Tree.values? items = some vs := by
  constructor
  · intro h
    obtain ⟨items, hitems, hrelated⟩ :=
      h.exists_forall₂ (R := fun v tree => Tree.Within depth tree v) fun _ _ hv => hv
    exact ⟨items, hitems, Tree.forall₂_within_iff.1 hrelated.flip⟩
  · rintro ⟨items, hitems, hwithin⟩
    exact hitems.of_forall₂ (fun tree v core hcore hv => ⟨tree, hcore, hv⟩)
      (Tree.forall₂_within_iff.2 hwithin)

/-- An entry is spelled as a member with its key, a colon and its value. -/
def SpellsEntry (P : Value → List Char → Prop) (entry : Value × Value) (core : List Char) : Prop :=
  ∃ member, entry = entryOf member ∧ MemberText P member core

theorem listed_spellsEntry_iff {depth : Nat} {entries : Entries} {inner : List Char} :
    Listed (SpellsEntry (SpellsWithin depth)) entries inner ↔
      ∃ members found, Listed (MemberText Spells) members inner ∧
        Tree.nestingUnder members ≤ depth ∧ Tree.memberValues? members = some found ∧
        entries = found.map entryOf := by
  constructor
  · intro h
    -- Entries become members with values, and these become members with trees.
    obtain ⟨found, hfound, hentries⟩ := h.exists_forall₂
      (Q := MemberText (SpellsWithin depth)) (R := fun entry member => entry = entryOf member)
      fun _ _ ⟨member, hentry, hmember⟩ => ⟨member, hmember, hentry⟩
    obtain ⟨members, hmembers, hrelated⟩ := hfound.exists_forall₂ (Q := MemberText Spells)
      (R := fun entry member => member.1 = entry.1 ∧ Tree.Within depth member.2 entry.2) <| by
        rintro _ _ ⟨hkey, hbefore, hafter, tree, htree, hwithin⟩
        exact ⟨(_, tree), .colon hkey hbefore hafter htree, rfl, hwithin⟩
    obtain ⟨hnesting, hvalues⟩ := Tree.forall₂_member_within_iff.1 hrelated.flip
    refine ⟨members, found, hmembers, hnesting, hvalues, ?_⟩
    rwa [← List.forall₂_map_right_iff, List.forall₂_eq_eq_eq] at hentries
  · rintro ⟨members, found, hmembers, hnesting, hvalues, rfl⟩
    have hfound : Listed (MemberText (SpellsWithin depth)) found inner := by
      refine hmembers.of_forall₂ ?_ (Tree.forall₂_member_within_iff.2 ⟨hnesting, hvalues⟩)
      rintro ⟨key, tree⟩ ⟨key', v⟩ core ⟨hkey, hbefore, hafter, htree⟩ ⟨hsame, hwithin⟩
      obtain rfl : key = key' := hsame
      exact .colon hkey hbefore hafter ⟨tree, htree, hwithin⟩
    refine hfound.of_forall₂ (R := fun member entry => entry = entryOf member)
      (fun member entry core hcore hentry => ⟨member, hentry, hcore⟩) ?_
    rw [List.forall₂_map_right_iff]
    exact List.forall₂_same.2 fun _ _ => rfl

/-! ### Scalars -/

/-- A number starts with its sign or a digit. -/
theorem numberText_starts {literal : NumberLiteral} {core : List Char}
    (h : NumberText literal core) : ∃ c tail, core = c :: tail ∧ (c = '-' ∨ c.isDigit) := by
  cases h with
  | @parts _ whole _ _ _ _ _ hsign hwhole _ _ _ =>
      cases hsign with
      | minus => exact ⟨'-', _, rfl, .inl rfl⟩
      | none =>
          cases whole with
          | nil => exact absurd rfl hwhole.1
          | cons first more => exact ⟨first, _, rfl, .inr (hwhole.2 _ List.mem_cons_self)⟩

theorem ne_of_isDigit {c d : Char} (hc : c = '-' ∨ c.isDigit)
    (hd : d ≠ '-' ∧ d.isDigit = false) : c ≠ d := by
  rintro rfl
  rcases hc with rfl | hc
  · exact hd.1 rfl
  · rw [hd.2] at hc
    cases hc

/-- No tree is spelled with a blank or a closing bracket first. -/
theorem spells_starts {tree : Tree} {core : List Char} (h : Spells tree core) :
    ∃ c tail, core = c :: tail ∧ isBlank c = false ∧ c ≠ ']' ∧ c ≠ '\x7d' := by
  cases h with
  | null => exact ⟨'n', _, rfl, by decide⟩
  | true => exact ⟨'t', _, rfl, by decide⟩
  | false => exact ⟨'f', _, rfl, by decide⟩
  | text h =>
      cases h
      exact ⟨'"', _, rfl, by decide⟩
  | list _ => exact ⟨'[', _, rfl, by decide⟩
  | object _ => exact ⟨'\x7b', _, rfl, by decide⟩
  | number h =>
      obtain ⟨c, tail, rfl, hc⟩ := numberText_starts h
      refine ⟨c, tail, rfl, ?_, ne_of_isDigit hc (by decide), ne_of_isDigit hc (by decide)⟩
      simp only [isBlank, decide_eq_false_iff_not, not_or]
      exact ⟨ne_of_isDigit hc (by decide), ne_of_isDigit hc (by decide),
        ne_of_isDigit hc (by decide), ne_of_isDigit hc (by decide)⟩

theorem name_sound {cs rest : List Char} {v : Value} (h : name cs = some (v, rest)) :
    ∃ core, SpellsWithin 0 v core ∧ cs = core ++ rest := by
  unfold name at h
  split at h
  · cases h
    exact ⟨_, ⟨.bool true, .true, Nat.le_refl _, rfl⟩, rfl⟩
  · cases h
    exact ⟨_, ⟨.bool false, .false, Nat.le_refl _, rfl⟩, rfl⟩
  · cases h
    exact ⟨_, ⟨.null, .null, Nat.le_refl _, rfl⟩, rfl⟩
  · cases h

theorem scalar_run_sound {cs rest : List Char} {v : Value} (h : scalar.run cs = some (v, rest)) :
    ∃ core, SpellsWithin 0 v core ∧ cs = core ++ rest := by
  simp only [scalar] at h
  split at h
  · next hname =>
    cases h
    exact name_sound hname
  · split at h
    · next found final htext =>
      cases h
      obtain ⟨core, hcore, rfl⟩ := text_run_eq_some_iff.1 htext
      exact ⟨core, ⟨.text found, .text hcore, Nat.le_refl _, rfl⟩, rfl⟩
    · obtain ⟨literal, core, hcore, hv, rfl⟩ := number_run_sound h
      exact ⟨core, ⟨.number literal, .number hcore, Nat.le_refl _, hv⟩, rfl⟩

theorem scalar_run_complete {tree : Tree} {core rest : List Char} {v : Value}
    (h : Spells tree core) (hscalar : ¬ tree.IsContainer) (hv : tree.value? = some v)
    (hrest : NumberEnds rest) : scalar.run (core ++ rest) = some (v, rest) := by
  cases h with
  | null | true | false =>
      cases hv
      rfl
  | text h =>
      cases hv
      have htext : text.run (core ++ rest) = some (_, rest) := text_run_eq_some_iff.2 ⟨_, h, rfl⟩
      cases h
      have hname : ∀ tail, name ('"' :: tail) = none := fun _ => rfl
      simp only [List.cons_append, List.append_assoc] at htext ⊢
      simp only [scalar, hname, htext]
  | number h =>
      have hnumber := number_run_complete h hv hrest
      obtain ⟨c, tail, rfl, hc⟩ := numberText_starts h
      -- A number starts neither like a name nor like a text, which are tried before it.
      have hname : name (c :: (tail ++ rest)) = none := by
        unfold name
        split
        · next heq => exact absurd (List.cons.inj heq).1 (ne_of_isDigit hc (by decide))
        · next heq => exact absurd (List.cons.inj heq).1 (ne_of_isDigit hc (by decide))
        · next heq => exact absurd (List.cons.inj heq).1 (ne_of_isDigit hc (by decide))
        · rfl
      have htext : text.run (c :: (tail ++ rest)) = none := by
        simp only [text]
        split
        · next heq => exact absurd (List.cons.inj heq).1 (ne_of_isDigit hc (by decide))
        · rfl
      simp only [List.cons_append] at hnumber ⊢
      simp [scalar, hname, htext, hnumber]
  | list _ => exact absurd trivial hscalar
  | object _ => exact absurd trivial hscalar

/-! ### Containers -/

theorem member_reads {P : Value → List Char → Prop} {reader : Reader Value}
    (hreads : reader.Reads P) : (member reader).Reads (SpellsEntry P) where
  sound := by
    intro cs entry rest h
    simp only [member] at h
    split at h
    · cases h
    · next key afterKey hkey =>
      obtain ⟨quoted, hquoted, rfl⟩ := text_run_eq_some_iff.1 hkey
      obtain ⟨before, hbefore, hafterKey⟩ := exists_blanks_append_skipBlanks afterKey
      split at h
      · next after hcolon =>
        obtain ⟨gap, hgap, hafter⟩ := exists_blanks_append_skipBlanks after
        obtain ⟨⟨v, final⟩, hvalue, heq⟩ := Option.map_eq_some_iff.1 h
        cases heq
        obtain ⟨core, hcore, hskipped⟩ := hreads.sound hvalue
        refine ⟨_, ⟨(key, v), rfl, .colon hquoted hbefore hgap hcore⟩, ?_⟩
        rw [hafterKey, hcolon, hafter, hskipped]
        simp
      · cases h
  complete := by
    rintro entry core rest ⟨_, rfl, hkey, hbefore, hafter, hcore⟩ hrest
    have hcolon : ∀ tail, Solid (':' :: tail) := fun tail c hc => by
      cases hc
      decide
    have hvalue := hreads.complete hcore hrest
    simp only [member, List.append_assoc, List.cons_append,
      text_run_eq_some_iff.2 ⟨_, hkey, rfl⟩, skipBlanks_append hbefore,
      skipBlanks_of_solid (hcolon _), hreads.skipBlanks_core hafter hcore, hvalue]
    rfl
  starts := by
    rintro entry core ⟨_, -, ⟨⟨_⟩, -, -, -⟩⟩
    exact ⟨'"', _, rfl, by decide⟩

theorem container_list {reader : Reader Value} (cs : List Char) :
    (container reader).run ('[' :: cs) =
      (reader.enclosed ']' cs).map fun (items, final) => (.list items, final) := rfl

theorem container_object {reader : Reader Value} (cs : List Char) :
    (container reader).run ('\x7b' :: cs) =
      ((member reader).enclosed '\x7d' cs).map fun (members, final) =>
        (.dictionary (Entries.ofList members), final) := rfl

theorem container_scalar {reader : Reader Value} {cs : List Char} (hlist : cs.head? ≠ some '[')
    (hobject : cs.head? ≠ some '\x7b') : (container reader).run cs = scalar.run cs := by
  simp only [container]
  split
  · exact absurd rfl hlist
  · exact absurd rfl hobject
  · rfl

/-- The spelling of a scalar does not start like a container. -/
theorem head?_of_scalar {tree : Tree} {core : List Char} (h : Spells tree core)
    (hscalar : ¬ tree.IsContainer) (rest : List Char) :
    (core ++ rest).head? ≠ some '[' ∧ (core ++ rest).head? ≠ some '\x7b' := by
  cases h with
  | null | true | false => exact ⟨by simp, by simp⟩
  | text h =>
      cases h
      exact ⟨by simp, by simp⟩
  | number h =>
      obtain ⟨c, tail, rfl, hc⟩ := numberText_starts h
      exact ⟨by simpa using ne_of_isDigit hc (by decide),
        by simpa using ne_of_isDigit hc (by decide)⟩
  | list _ => exact absurd trivial hscalar
  | object _ => exact absurd trivial hscalar

theorem value_run_of_scalar {tree : Tree} {core rest : List Char} {v : Value}
    (h : Spells tree core) (hscalar : ¬ tree.IsContainer) (hv : tree.value? = some v)
    (hrest : NumberEnds rest) (depth : Nat) :
    (value depth).run (core ++ rest) = some (v, rest) := by
  have hrun := scalar_run_complete h hscalar hv hrest
  cases depth with
  | zero => exact hrun
  | succ depth =>
      obtain ⟨hlist, hobject⟩ := head?_of_scalar h hscalar rest
      exact (container_scalar hlist hobject).trans hrun

/-- A list or an object is read whatever follows it. -/
theorem container_run_complete {depth : Nat} (hreads : (value depth).Reads (SpellsWithin depth))
    {tree : Tree} {core : List Char} {v : Value} (h : Spells tree core)
    (hcontainer : tree.IsContainer) (hwithin : tree.Within (depth + 1) v) (rest : List Char) :
    (value (depth + 1)).run (core ++ rest) = some (v, rest) := by
  obtain ⟨hnesting, hv⟩ := hwithin
  cases h with
  | @list items inner h =>
      obtain ⟨vs, hvs, rfl⟩ := Option.map_eq_some_iff.1 hv
      have hitems := listed_spellsWithin_iff.2 ⟨items, h, Nat.le_of_succ_le_succ hnesting, hvs⟩
      have hrun : (value depth).enclosed ']' (inner ++ ']' :: rest) = some (vs, rest) :=
        (Reader.enclosed_eq_some_iff hreads (.inl rfl)).2 ⟨inner, hitems, rfl⟩
      rw [List.cons_append, List.append_assoc, value, container_list]
      simp [hrun]
  | @object members inner h =>
      obtain ⟨found, hfound, rfl⟩ := Option.map_eq_some_iff.1 hv
      have hentries := listed_spellsEntry_iff.2
        ⟨members, found, h, Nat.le_of_succ_le_succ hnesting, hfound, rfl⟩
      have hrun : (member (value depth)).enclosed '\x7d' (inner ++ '\x7d' :: rest) =
          some (found.map entryOf, rest) :=
        (Reader.enclosed_eq_some_iff (member_reads hreads) (.inr rfl)).2 ⟨inner, hentries, rfl⟩
      rw [List.cons_append, List.append_assoc, value, container_object]
      simp [hrun, ofList_map_entryOf]
  | null | true | false | text _ | number _ => exact hcontainer.elim

theorem container_run_sound {depth : Nat} (hreads : (value depth).Reads (SpellsWithin depth))
    {cs rest : List Char} {v : Value} (h : (value (depth + 1)).run cs = some (v, rest)) :
    ∃ core, SpellsWithin (depth + 1) v core ∧ cs = core ++ rest := by
  rw [value] at h
  simp only [container] at h
  split at h
  · obtain ⟨⟨vs, final⟩, hvs, heq⟩ := Option.map_eq_some_iff.1 h
    cases heq
    obtain ⟨inner, hinner, rfl⟩ := (Reader.enclosed_eq_some_iff hreads (.inl rfl)).1 hvs
    obtain ⟨items, hitems, hnesting, hvalues⟩ := listed_spellsWithin_iff.1 hinner
    refine ⟨_, ⟨.list items, .list hitems, Nat.succ_le_succ hnesting, ?_⟩, by simp⟩
    simp [Tree.value?, hvalues]
  · obtain ⟨⟨entries, final⟩, hentries, heq⟩ := Option.map_eq_some_iff.1 h
    cases heq
    obtain ⟨inner, hinner, rfl⟩ :=
      (Reader.enclosed_eq_some_iff (member_reads hreads) (.inr rfl)).1 hentries
    obtain ⟨members, found, hmembers, hnesting, hfound, rfl⟩ := listed_spellsEntry_iff.1 hinner
    refine ⟨_, ⟨.object members, .object hmembers, Nat.succ_le_succ hnesting, ?_⟩, by simp⟩
    simp [Tree.value?, hfound, ofList_map_entryOf]
  · obtain ⟨core, ⟨tree, htree, hnesting, hv⟩, hcs⟩ := scalar_run_sound h
    exact ⟨core, ⟨tree, htree, Nat.le_succ_of_le (Nat.le_trans hnesting (Nat.zero_le _)), hv⟩, hcs⟩

theorem not_isContainer_of_nesting {tree : Tree} (h : tree.nesting ≤ 0) : ¬ tree.IsContainer := by
  cases tree <;> simp_all [Tree.nesting, Tree.IsContainer]

/-- The reader of values within a depth takes the spellings of trees within that depth. -/
theorem value_reads (depth : Nat) : (value depth).Reads (SpellsWithin depth) := by
  have hstarts : ∀ {depth : Nat} {v : Value} {core : List Char}, SpellsWithin depth v core →
      ∃ c tail, core = c :: tail ∧ isBlank c = false ∧ c ≠ ']' ∧ c ≠ '\x7d' :=
    fun ⟨_, htree, _⟩ => spells_starts htree
  -- Induction on the depth: a container of one level more reads its parts a level below.
  induction depth with
  | zero =>
      refine ⟨scalar_run_sound, ?_, hstarts⟩
      rintro v core rest ⟨tree, htree, hnesting, hv⟩ hrest
      exact scalar_run_complete htree (not_isContainer_of_nesting hnesting) hv hrest
  | succ depth ih =>
      refine ⟨container_run_sound ih, ?_, hstarts⟩
      rintro v core rest ⟨tree, htree, hwithin⟩ hrest
      by_cases hcontainer : tree.IsContainer
      · exact container_run_complete ih htree hcontainer hwithin rest
      · exact value_run_of_scalar htree hcontainer hwithin.2 hrest (depth + 1)

/-! ### Documents -/

theorem numberEnds_of_blanks_only {gap : List Char} (hgap : Blanks gap) : NumberEnds gap := by
  intro c hc
  have hblank := hgap c (List.mem_of_mem_head? hc)
  simp only [List.mem_cons, List.not_mem_nil, or_false] at hblank
  rcases hblank with rfl | rfl | rfl | rfl <;> decide

theorem readText_eq_some_iff {cs : List Char} {v : Value} :
    readText cs = some v ↔ ∃ tree, SpellsDocument tree cs ∧ Tree.Within readDepth tree v := by
  constructor
  · intro h
    unfold readText at h
    split at h
    · next found rest hfound =>
      split at h
      · next hrest =>
        cases h
        obtain ⟨before, hbefore, hcs⟩ := exists_blanks_append_skipBlanks cs
        obtain ⟨core, ⟨tree, htree, hwithin⟩, hskipped⟩ := (value_reads readDepth).sound hfound
        refine ⟨tree, ?_, hwithin⟩
        rw [hcs, hskipped]
        exact .blanks hbefore htree (blanks_iff_skipBlanks.2 hrest)
      · cases h
    · cases h
  · rintro ⟨tree, ⟨hbefore, htree, hafter⟩, hwithin⟩
    have hspells : SpellsWithin readDepth v _ := ⟨tree, htree, hwithin⟩
    rw [readText, (value_reads readDepth).skipBlanks_core hbefore hspells,
      (value_reads readDepth).complete hspells (numberEnds_of_blanks_only hafter)]
    exact if_pos (blanks_iff_skipBlanks.1 hafter)

/-- A document is read to a value exactly where it denotes that value. -/
theorem read_eq_some_iff {document : Bytes} {v : Value} :
    read document = some v ↔ Denotes document v := by
  constructor
  · intro h
    unfold read at h
    split at h
    · next s hs =>
      obtain ⟨tree, htree, hwithin⟩ := readText_eq_some_iff.1 h
      exact ⟨s, tree, Bytes.text?_eq_some_iff.1 hs, htree, hwithin⟩
    · cases h
  · rintro ⟨s, tree, rfl, htree, hwithin⟩
    rw [read, Bytes.text?_ofText]
    exact readText_eq_some_iff.2 ⟨tree, htree, hwithin⟩

theorem read_eq_none_iff {document : Bytes} :
    read document = none ↔ ∀ v, ¬ Denotes document v := by
  rw [Option.eq_none_iff_forall_ne_some]
  exact forall_congr' fun v => not_congr read_eq_some_iff

end SignedMessaging.Json
