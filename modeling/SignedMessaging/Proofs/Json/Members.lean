import Mathlib.Data.Option.Basic
import Mathlib.Logic.Relation
import SignedMessaging.Proofs.Json.PrefixFree
import SignedMessaging.Proofs.Value.Normal

/-!
# The members that count

Of several members of an object with one name the last counts.  So what is found under a name
in the dictionary of an object is the value of the last member of that name (`find?_merged`).

Members may be changed in many ways that leave the last one of each name that matters: members of
other names may be put in or taken out, repeated members may stand before the last, and
members of different names may change places (`Edit`).  No number of such changes makes a
difference to what counts (`lastUnder?_of_edits`).
-/

namespace SignedMessaging.Json

section Last

variable {α β : Type} {members more : List (List Char × α)} {name : List Char}

/-- What stands under a name for the last time. -/
def lastUnder? (members : List (List Char × α)) (name : List Char) : Option α :=
  members.reverse.lookup name

theorem lastUnder?_append :
    lastUnder? (members ++ more) name = (lastUnder? more name).or (lastUnder? members name) := by
  rw [lastUnder?, List.reverse_append, List.lookup_append]
  rfl

theorem lastUnder?_cons {member : List Char × α} : lastUnder? (member :: members) name =
    (lastUnder? members name).or (if name = member.1 then some member.2 else none) := by
  obtain ⟨key, a⟩ := member
  have hsingle : lastUnder? [(key, a)] name = if name = key then some a else none := by
    by_cases h : name = key <;> simp [lastUnder?, List.lookup_cons, h, beq_eq_false_iff_ne.2]
  rw [← List.singleton_append, lastUnder?_append, hsingle]

/-- Where lists are related member by member, so is what counts under a name. -/
theorem lastUnder?_rel {R : α → β → Prop} {others : List (List Char × β)}
    (h : List.Forall₂ (fun member other => member.1 = other.1 ∧ R member.2 other.2) members others)
    (name : List Char) : Option.Rel R (lastUnder? members name) (lastUnder? others name) := by
  induction h with
  | nil => exact .none
  | @cons member other members others hfirst _ ih =>
      -- The first member counts only where no later one has the name.
      rw [lastUnder?_cons, lastUnder?_cons, hfirst.1]
      generalize lastUnder? members name = last, lastUnder? others name = last' at ih
      cases ih with
      | some hvalue => exact .some hvalue
      | none =>
          by_cases hname : name = other.1
          · rw [if_pos hname, if_pos hname]
            exact .some hfirst.2
          · rw [if_neg hname, if_neg hname]
            exact .none

end Last

/-! ### Changes that make no difference -/

section Edits

variable {α : Type} {counts : List Char → Prop}

/-- A change to members that keeps the last one of every name that counts. -/
inductive Edit (counts : List Char → Prop) :
    List (List Char × α) → List (List Char × α) → Prop
  | other {before after : List (List Char × α)} {member : List Char × α}
      (h : ¬ counts member.1) : Edit counts (before ++ after) (before ++ member :: after)
  | earlier {before between after : List (List Char × α)} {name : List Char} {first last : α} :
      Edit counts (before ++ (between ++ (name, last) :: after))
        (before ++ (name, first) :: (between ++ (name, last) :: after))
  | swapped {before after : List (List Char × α)} {first second : List Char × α}
      (h : first.1 ≠ second.1) :
      Edit counts (before ++ first :: second :: after) (before ++ second :: first :: after)

theorem lastUnder?_of_edit {members others : List (List Char × α)}
    (h : Edit counts members others) {name : List Char} (hname : counts name) :
    lastUnder? members name = lastUnder? others name := by
  cases h with
  | @other before after member hother =>
      have hne : name ≠ member.1 := by
        rintro rfl
        exact hother hname
      simp only [lastUnder?_append, lastUnder?_cons, if_neg hne, Option.or_none]
  | @earlier before between after key first last =>
      simp only [lastUnder?_append, lastUnder?_cons]
      by_cases hkey : name = key <;> simp [hkey, Option.or_assoc]
  | @swapped before after first second hne =>
      simp only [lastUnder?_append, lastUnder?_cons]
      by_cases hfirst : name = first.1
      · simp [hfirst, hne]
      · simp [hfirst]

/-- No number of such changes, made or taken back, makes a difference. -/
theorem lastUnder?_of_edits {members others : List (List Char × α)}
    (h : Relation.EqvGen (Edit counts) members others) {name : List Char} (hname : counts name) :
    lastUnder? members name = lastUnder? others name := by
  induction h with
  | rel _ _ hedit => exact lastUnder?_of_edit hedit hname
  | refl _ => rfl
  | symm _ _ _ ih => exact ih.symm
  | trans _ _ _ _ _ ih ih' => exact ih.trans ih'

end Edits

/-! ### Objects -/

theorem find?_entriesUnder {find : List Char → Option Value} {keys : List (List Char)}
    (hfound : ∀ key ∈ keys, (find key).isSome) (name : String) :
    (entriesUnder keys find).find? name =
      if name.toList ∈ keys then find name.toList else none := by
  induction keys with
  | nil => rfl
  | cons key keys ih =>
      obtain ⟨v, hv⟩ := Option.isSome_iff_exists.1 (hfound key List.mem_cons_self)
      have hothers := ih fun k hk => hfound k (List.mem_cons_of_mem _ hk)
      rw [entriesUnder_cons hv, Entries.find?, List.find?_cons, entryOf, Value.same_text]
      by_cases hkey : String.ofList key = name
      · subst hkey
        simp [hv]
      · have hne : name.toList ≠ key := by
          rintro rfl
          simp at hkey
        rw [decide_eq_false hkey]
        simp only [List.mem_cons, hne, false_or]
        exact hothers

/-- Under a name the dictionary of an object has the value of the last member of that name. -/
theorem find?_merged (found : List (List Char × Value)) (name : String) :
    (Tree.merged found).find? name = lastUnder? found name.toList := by
  rw [merged_eq, find?_entriesUnder fun key hkey =>
    isSome_lookup_reverse (List.mem_eraseDups.1 hkey)]
  simp only [List.mem_eraseDups]
  split
  · rfl
  · next hmissing =>
      refine (List.lookup_eq_none_iff.2 ?_).symm
      intro member hmember
      rw [bne_iff_ne]
      rintro heq
      rw [heq] at hmissing
      exact hmissing (List.mem_map_of_mem (List.mem_reverse.1 hmember))

/-! ### Documents that are read -/

/-- A document in UTF-8 that the reader takes, with its tree: containers nest no deeper than the
reader goes, and no number is beyond the doubles. -/
def Accepted (document : Bytes) (tree : Tree) : Prop :=
  ∃ s : String, document = Bytes.ofText s ∧ SpellsDocument tree s.toList ∧
    tree.nesting ≤ readDepth ∧ ∃ v, tree.value? = some v

theorem denotes_iff {document : Bytes} {v : Value} :
    Denotes document v ↔ ∃ tree, Accepted document tree ∧ tree.value? = some v := by
  constructor
  · rintro ⟨s, tree, hdocument, hspells, hnesting, hv⟩
    exact ⟨tree, ⟨s, hdocument, hspells, hnesting, v, hv⟩, hv⟩
  · rintro ⟨tree, ⟨s, hdocument, hspells, hnesting, -⟩, hv⟩
    exact ⟨s, tree, hdocument, hspells, hnesting, hv⟩

theorem exists_denotes_iff {document : Bytes} :
    (∃ v, Denotes document v) ↔ ∃ tree, Accepted document tree := by
  simp only [denotes_iff]
  constructor
  · rintro ⟨_, tree, htree, -⟩
    exact ⟨tree, htree⟩
  · rintro ⟨tree, htree⟩
    have ⟨_, _, _, _, v, hv⟩ := htree
    exact ⟨v, tree, htree, hv⟩

/-- The dictionary of an accepted object. -/
theorem exists_merged {document : Bytes} {members : List (List Char × Tree)}
    (h : Accepted document (.object members)) :
    ∃ found, Tree.memberValues? members = some found ∧
      Denotes document (.dictionary (Tree.merged found)) := by
  have ⟨_, _, _, _, _, hv⟩ := h
  obtain ⟨found, hfound, rfl⟩ := Option.map_eq_some_iff.1 hv
  exact ⟨found, hfound, denotes_iff.2 ⟨_, h, hv⟩⟩

/-- Only objects denote dictionaries. -/
theorem exists_object {document : Bytes} {entries : Entries}
    (h : Denotes document (.dictionary entries)) :
    ∃ members, Accepted document (.object members) := by
  obtain ⟨tree, htree, hv⟩ := denotes_iff.1 h
  have hcontainer := isContainer_of_dictionary hv
  cases tree with
  | object members => exact ⟨members, htree⟩
  | list items =>
      obtain ⟨_, -, heq⟩ := Option.map_eq_some_iff.1 hv
      cases heq
  | null | bool _ | text _ | number _ => exact hcontainer.elim

/-- Under each name the dictionary of an object has the value of the last member. -/
theorem find?_of_object {document : Bytes} {members : List (List Char × Tree)} {entries : Entries}
    (h : Accepted document (.object members)) (hentries : Denotes document (.dictionary entries))
    (name : String) : Option.Rel (fun tree v => Tree.value? tree = some v)
      (lastUnder? members name.toList) (entries.find? name) := by
  obtain ⟨found, hfound, hdenotes⟩ := exists_merged h
  cases hentries.means.unique hdenotes.means
  rw [find?_merged]
  exact lastUnder?_rel (Tree.memberValues?_eq_some_iff.1 hfound) _

end SignedMessaging.Json
