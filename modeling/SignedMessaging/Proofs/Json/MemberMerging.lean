import Mathlib.Data.List.Basic
import Mathlib.Data.List.Induction
import SignedMessaging.Proofs.Json.Grammar

/-!
# Merging the members of an object

The reader puts the members of an object into a dictionary one after another.  What
comes out are the keys in the order of their first occurrence, each with the value of
its last, which is what an object denotes.
-/

namespace SignedMessaging.Json

/-- A member of an object as an entry. -/
def entryOf (member : List Char × Value) : Value × Value :=
  (.text (String.ofList member.1), member.2)

/-- The entries that some keys have under a function. -/
def entriesUnder (keys : List (List Char)) (find : List Char → Option Value) : Entries :=
  keys.filterMap fun key => (find key).map fun v => entryOf (key, v)

theorem entriesUnder_cons {find : List Char → Option Value} {key : List Char} {v : Value}
    (hkey : find key = some v) (keys : List (List Char)) :
    entriesUnder (key :: keys) find = entryOf (key, v) :: entriesUnder keys find := by
  simp [entriesUnder, hkey]

theorem entriesUnder_append (keys more : List (List Char)) (find : List Char → Option Value) :
    entriesUnder (keys ++ more) find = entriesUnder keys find ++ entriesUnder more find :=
  List.filterMap_append

theorem entriesUnder_congr {keys : List (List Char)} {find other : List Char → Option Value}
    (h : ∀ key ∈ keys, find key = other key) : entriesUnder keys find = entriesUnder keys other :=
  List.filterMap_congr fun key hkey => congrArg _ (h key hkey)

theorem same_text_ofList (cs ds : List Char) :
    (Value.text (String.ofList cs)).same (.text (String.ofList ds)) = decide (cs = ds) := by
  rw [Value.same, Bool.eq_iff_iff]
  simp [String.ofList_inj]

/-- Putting an entry replaces the value of a key that is there, and else adds it at the end. -/
theorem put_entriesUnder {find : List Char → Option Value} {keys : List (List Char)}
    (hfound : ∀ key ∈ keys, (find key).isSome) (hnodup : keys.Nodup) (key : List Char) (v : Value) :
    Entries.put (entriesUnder keys find) (.text (String.ofList key)) v =
      if key ∈ keys then entriesUnder keys (fun k => if k = key then some v else find k)
      else entriesUnder keys find ++ [entryOf (key, v)] := by
  induction keys with
  | nil => rfl
  | cons first others ih =>
      obtain ⟨found, hfirst⟩ := Option.isSome_iff_exists.1 (hfound first List.mem_cons_self)
      obtain ⟨hfresh, hnodup⟩ := List.nodup_cons.1 hnodup
      have hothers := ih (fun k hk => hfound k (List.mem_cons_of_mem _ hk)) hnodup
      rw [entriesUnder_cons hfirst, entryOf, Entries.put, same_text_ofList]
      by_cases heq : first = key
      · subst heq
        -- No later key is this one, so nothing but the first entry changes.
        have hrest : entriesUnder others (fun k => if k = first then some v else find k) =
            entriesUnder others find := by
          refine entriesUnder_congr fun k hk => if_neg ?_
          rintro rfl
          exact hfresh hk
        rw [if_pos List.mem_cons_self, entriesUnder_cons (if_pos rfl), hrest]
        simp [entryOf]
      · have hfind : (if first = key then some v else find first) = some found := by
          rw [if_neg heq, hfirst]
        simp only [decide_eq_false heq, Bool.false_eq_true, if_false, hothers, List.mem_cons,
          Ne.symm heq, false_or]
        split
        · rw [entriesUnder_cons hfind, entryOf]
        · rfl

theorem eraseDups_concat (keys : List (List Char)) (key : List Char) :
    (keys ++ [key]).eraseDups =
      if key ∈ keys then keys.eraseDups else keys.eraseDups ++ [key] := by
  rw [List.eraseDups_append]
  by_cases h : key ∈ keys <;> simp [List.removeAll, h, List.eraseDups_cons]

theorem nodup_eraseDups (keys : List (List Char)) : keys.eraseDups.Nodup := by
  induction keys using List.reverseRecOn with
  | nil => exact List.nodup_nil
  | append_singleton keys key ih =>
      rw [eraseDups_concat]
      split
      · exact ih
      · next hfresh =>
        rw [List.nodup_append]
        refine ⟨ih, by simp, fun k hk d hd heq => hfresh ?_⟩
        rw [List.mem_singleton] at hd
        rw [← hd, ← heq]
        exact List.mem_eraseDups.1 hk

theorem isSome_lookup_reverse {members : List (List Char × Value)} {key : List Char}
    (h : key ∈ members.map (·.1)) : (members.reverse.lookup key).isSome := by
  rw [List.lookup_isSome_iff]
  obtain ⟨member, hmember, rfl⟩ := List.mem_map.1 h
  exact ⟨member, List.mem_reverse.2 hmember, beq_self_eq_true _⟩

theorem merged_eq (members : List (List Char × Value)) :
    Tree.merged members =
      entriesUnder (members.map (·.1)).eraseDups fun key => members.reverse.lookup key := rfl

/-- Entries put one after another are the members with their keys merged. -/
theorem ofList_map_entryOf (members : List (List Char × Value)) :
    Entries.ofList (members.map entryOf) = Tree.merged members := by
  -- The induction is from the end, where the reader puts its next member.
  induction members using List.reverseRecOn with
  | nil => rfl
  | append_singleton members member ih =>
      obtain ⟨key, v⟩ := member
      have hput : Entries.ofList ((members ++ [(key, v)]).map entryOf) =
          Entries.put (Entries.ofList (members.map entryOf)) (.text (String.ofList key)) v := by
        simp [Entries.ofList, Entries.putAll, entryOf]
      have hlookup : ∀ k, (members ++ [(key, v)]).reverse.lookup k =
          if k = key then some v else members.reverse.lookup k := by
        intro k
        by_cases hk : k = key <;> simp [List.lookup_cons, hk, beq_eq_false_iff_ne.2]
      have hfound : ∀ k ∈ (members.map (·.1)).eraseDups, (members.reverse.lookup k).isSome :=
        fun k hk => isSome_lookup_reverse (List.mem_eraseDups.1 hk)
      rw [hput, ih, merged_eq, put_entriesUnder hfound (nodup_eraseDups _), merged_eq,
        List.map_append, List.map_singleton, eraseDups_concat, funext hlookup]
      simp only [List.mem_eraseDups]
      split
      · rfl
      · next hfresh =>
        rw [entriesUnder_append, entriesUnder_cons (if_pos rfl)]
        congr 1
        refine entriesUnder_congr fun k hk => (if_neg ?_).symm
        rintro rfl
        exact hfresh (List.mem_eraseDups.1 hk)

end SignedMessaging.Json
