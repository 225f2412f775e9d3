import SignedMessaging.Bytes

/-!
# Readers

A reader takes one thing from the front of a text and returns it with the rest,
which is always shorter.  That is what lets a list of things be read until its
closing bracket.
-/

namespace SignedMessaging.Json

/-- What takes a thing from the front of a text, or refuses the text. -/
structure Reader (α : Type) where
  run : List Char → Option (α × List Char)
  shortens : ∀ {cs a rest}, run cs = some (a, rest) → rest.length < cs.length

/-- The four characters that may stand between tokens. -/
def isBlank (c : Char) : Bool :=
  c = ' ' ∨ c = '\t' ∨ c = '\n' ∨ c = '\r'

/-- The text after the blanks that it starts with. -/
def skipBlanks (cs : List Char) : List Char :=
  cs.dropWhile isBlank

theorem skipBlanks_length_le (cs : List Char) : (skipBlanks cs).length ≤ cs.length :=
  (List.dropWhile_sublist isBlank).length_le

namespace Reader

/-- Things with commas between them, up to a closing bracket. -/
def items {α : Type} (item : Reader α) (close : Char) (cs : List Char) :
    Option (List α × List Char) :=
  match taken : item.run cs with
  | none => none
  | some (a, rest) =>
      have _ := item.shortens taken
      match between : skipBlanks rest with
      | [] => none
      | c :: after =>
          have _ := between ▸ skipBlanks_length_le rest
          have _ := skipBlanks_length_le after
          if c = ',' then
            (items item close (skipBlanks after)).map fun (more, final) => (a :: more, final)
          else if c = close then some ([a], after)
          else none
termination_by cs.length
decreasing_by
  simp only [List.length_cons] at *
  omega

/-- The things after an opening bracket, none or several, up to the closing one. -/
def enclosed {α : Type} (item : Reader α) (close : Char) (cs : List Char) :
    Option (List α × List Char) :=
  match skipBlanks cs with
  | [] => none
  | c :: after => if c = close then some ([], after) else item.items close (c :: after)

theorem items_shortens {α : Type} (item : Reader α) (close : Char) {cs : List Char}
    {found : List α} {rest : List Char} (h : item.items close cs = some (found, rest)) :
    rest.length < cs.length := by
  fun_induction items item close cs generalizing found with
  | case1 => cases h
  | case2 => cases h
  | case3 cs a middle taken first after third between second ih =>
      obtain ⟨⟨more, final⟩, hmore, heq⟩ := Option.map_eq_some_iff.1 h
      cases heq
      have last := ih hmore
      simp only [List.length_cons] at *
      omega
  | case4 cs a middle taken first after third between second hcomma =>
      cases h
      simp only [List.length_cons] at *
      omega
  | case5 => cases h

theorem enclosed_shortens {α : Type} (item : Reader α) (close : Char) {cs : List Char}
    {found : List α} {rest : List Char} (h : item.enclosed close cs = some (found, rest)) :
    rest.length < cs.length := by
  unfold enclosed at h
  have between := skipBlanks_length_le cs
  split at h
  · cases h
  · next c after hcs =>
      rw [hcs, List.length_cons] at between
      split at h
      · cases h
        omega
      · have := items_shortens item close h
        rw [List.length_cons] at this
        omega

end Reader

end SignedMessaging.Json
