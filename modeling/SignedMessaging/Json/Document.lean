import SignedMessaging.Json.Number
import SignedMessaging.Json.Text
import SignedMessaging.Value.Entries

/-!
# JSON documents

A document is one value with blanks around it, in UTF-8.  Lists and objects nest
at most 1024 deep; the reader for a value within `depth` containers is built
from the one within `depth - 1`.  An object's members come in the order of
their first occurrence and have the value of their last.
-/

namespace SignedMessaging.Json

/-- The value of a document's literal name, if the text starts with one. -/
def name : List Char → Option (Value × List Char)
  | 't' :: 'r' :: 'u' :: 'e' :: rest => some (.bool true, rest)
  | 'f' :: 'a' :: 'l' :: 's' :: 'e' :: rest => some (.bool false, rest)
  | 'n' :: 'u' :: 'l' :: 'l' :: rest => some (.null, rest)
  | _ => none

theorem name_shortens {cs : List Char} {v : Value} {rest : List Char}
    (h : name cs = some (v, rest)) : rest.length < cs.length := by
  unfold name at h
  split at h <;> cases h <;> simp only [List.length_cons] <;> omega

/-- A value that is no container: a name, a text or a number. -/
def scalar : Reader Value where
  run cs :=
    match name cs with
    | some found => some found
    | none =>
        match text.run cs with
        | some (found, rest) => some (.text (String.ofList found), rest)
        | none => number.run cs
  shortens h := by
    split at h
    · next hname =>
        cases h
        exact name_shortens hname
    · split at h
      · next htext =>
          cases h
          exact text.shortens htext
      · exact number.shortens h

/-- A member of an object: a text, a colon and a value. -/
def member (value : Reader Value) : Reader (Value × Value) where
  run cs :=
    match text.run cs with
    | none => none
    | some (key, rest) =>
        match skipBlanks rest with
        | ':' :: after =>
            (value.run (skipBlanks after)).map fun (v, final) =>
              ((.text (String.ofList key), v), final)
        | _ => none
  shortens h := by
    split at h
    · cases h
    · next key rest hkey =>
        have first := text.shortens hkey
        have second := skipBlanks_length_le rest
        split at h
        · next after hafter =>
            obtain ⟨⟨v, final⟩, hvalue, heq⟩ := Option.map_eq_some_iff.1 h
            cases heq
            have third := skipBlanks_length_le after
            have last := value.shortens hvalue
            rw [hafter, List.length_cons] at second
            omega
        · cases h

/-- A list, an object or a scalar whose parts `value` reads. -/
def container (value : Reader Value) : Reader Value where
  run cs :=
    match cs with
    | '[' :: rest =>
        (value.enclosed ']' rest).map fun (items, final) => (.list items, final)
    | '\x7b' :: rest =>
        ((member value).enclosed '\x7d' rest).map fun (members, final) =>
          (.dictionary (Entries.ofList members), final)
    | _ => scalar.run cs
  shortens h := by
    split at h
    · obtain ⟨⟨items, final⟩, hitems, heq⟩ := Option.map_eq_some_iff.1 h
      cases heq
      have := Reader.enclosed_shortens value ']' hitems
      simp only [List.length_cons]
      omega
    · obtain ⟨⟨members, final⟩, hmembers, heq⟩ := Option.map_eq_some_iff.1 h
      cases heq
      have := Reader.enclosed_shortens (member value) '\x7d' hmembers
      simp only [List.length_cons]
      omega
    · exact scalar.shortens h

/-- A value that nests at most `depth` containers. -/
def value : Nat → Reader Value
  | 0 => scalar
  | depth + 1 => container (value depth)

/-- The number of containers that a document may nest. -/
def readDepth : Nat := 1024

/-- The value of a whole text, blanks around it aside. -/
def readText (cs : List Char) : Option Value :=
  match (value readDepth).run (skipBlanks cs) with
  | some (v, rest) => if skipBlanks rest = [] then some v else none
  | none => none

/-- The value of a document. -/
def read (document : Bytes) : Option Value :=
  match document.text? with
  | some s => readText s.toList
  | none => none

end SignedMessaging.Json
