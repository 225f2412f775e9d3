import SignedMessaging.Json.Reader

/-!
# JSON texts

Inside its double quotes a text is written character by character: a quote, a
backslash and the controls below U+0020 are escaped, five controls by a letter
and the others by `\u00` and two lower-case digits; every other character stands
for itself.  The reader also takes any character by its four-digit code, those
beyond U+FFFF as a high and a low surrogate, and refuses a surrogate alone.
-/

namespace SignedMessaging.Json

/-- The number of a hexadecimal digit. -/
def hexValue? (c : Char) : Option Nat :=
  if '0' ≤ c ∧ c ≤ '9' then some (c.toNat - 48)
  else if 'a' ≤ c ∧ c ≤ 'f' then some (c.toNat - 87)
  else if 'A' ≤ c ∧ c ≤ 'F' then some (c.toNat - 55)
  else none

/-- Four hexadecimal digits. -/
def codeUnit : List Char → Option (Nat × List Char)
  | a :: b :: c :: d :: rest =>
      match hexValue? a, hexValue? b, hexValue? c, hexValue? d with
      | some a, some b, some c, some d => some (((a * 16 + b) * 16 + c) * 16 + d, rest)
      | _, _, _, _ => none
  | _ => none

/-- What follows the `\u` of an escape: one code unit, or two that pair up. -/
def codePoint (cs : List Char) : Option (Char × List Char) :=
  match codeUnit cs with
  | none => none
  | some (high, rest) =>
      if 0xd800 ≤ high ∧ high < 0xdc00 then
        match rest with
        | '\\' :: 'u' :: more =>
            match codeUnit more with
            | some (low, rest) =>
                if 0xdc00 ≤ low ∧ low < 0xe000 then
                  some (Char.ofNat (0x10000 + (high - 0xd800) * 0x400 + (low - 0xdc00)), rest)
                else none
            | none => none
        | _ => none
      else if 0xdc00 ≤ high ∧ high < 0xe000 then none
      else some (Char.ofNat high, rest)

/-- The character that a letter after a backslash stands for. -/
def shortEscape? (c : Char) : Option Char :=
  match c with
  | '"' => some '"'
  | '\\' => some '\\'
  | '/' => some '/'
  | 'b' => some '\x08'
  | 'f' => some '\x0c'
  | 'n' => some '\n'
  | 'r' => some '\r'
  | 't' => some '\t'
  | _ => none

/-- One character of a text, as itself or as an escape. -/
def character : List Char → Option (Char × List Char)
  | [] => none
  | '\\' :: 'u' :: rest => codePoint rest
  | '\\' :: c :: rest => (shortEscape? c).map fun found => (found, rest)
  | c :: rest => if c = '"' ∨ c = '\\' ∨ c.toNat < 0x20 then none else some (c, rest)

theorem codeUnit_shortens {cs : List Char} {n : Nat} {rest : List Char}
    (h : codeUnit cs = some (n, rest)) : rest.length < cs.length := by
  unfold codeUnit at h
  split at h
  · split at h
    · cases h
      simp only [List.length_cons]
      omega
    · cases h
  · cases h

theorem codePoint_shortens {cs : List Char} {c : Char} {rest : List Char}
    (h : codePoint cs = some (c, rest)) : rest.length < cs.length := by
  unfold codePoint at h
  split at h
  · cases h
  · next high middle hhigh =>
      have first := codeUnit_shortens hhigh
      split at h
      · split at h
        · split at h
          · next low after hlow =>
              have second := codeUnit_shortens hlow
              split at h
              · obtain ⟨-, rfl⟩ := Prod.mk.inj (Option.some.inj h)
                simp only [List.length_cons] at first
                omega
              · cases h
          · cases h
        · cases h
      · split at h
        · cases h
        · obtain ⟨-, rfl⟩ := Prod.mk.inj (Option.some.inj h)
          exact first

theorem character_shortens {cs : List Char} {c : Char} {rest : List Char}
    (h : character cs = some (c, rest)) : rest.length < cs.length := by
  unfold character at h
  split at h
  · cases h
  · have := codePoint_shortens h
    simp only [List.length_cons]
    omega
  · obtain ⟨_, _, heq⟩ := Option.map_eq_some_iff.1 h
    cases heq
    simp only [List.length_cons]
    omega
  · split at h
    · cases h
    · cases h
      simp only [List.length_cons]
      omega

/-- The characters up to the closing quote. -/
def textBody (cs : List Char) : Option (List Char × List Char) :=
  if cs.head? = some '"' then some ([], cs.tail)
  else
    match taken : character cs with
    | none => none
    | some (c, rest) =>
        have _ := character_shortens taken
        (textBody rest).map fun (more, final) => (c :: more, final)
termination_by cs.length

theorem textBody_shortens {cs : List Char} {found rest : List Char}
    (h : textBody cs = some (found, rest)) : rest.length < cs.length := by
  fun_induction textBody cs generalizing found with
  | case1 cs hquote =>
      cases h
      cases cs with
      | nil => cases hquote
      | cons c cs => simp
  | case2 => cases h
  | case3 cs hquote c middle taken first ih =>
      obtain ⟨⟨more, final⟩, hmore, heq⟩ := Option.map_eq_some_iff.1 h
      cases heq
      have := ih hmore
      omega

/-- A text in its quotes. -/
def text : Reader (List Char) where
  run
    | '"' :: rest => textBody rest
    | _ => none
  shortens h := by
    split at h
    · have := textBody_shortens h
      simp only [List.length_cons]
      omega
    · cases h

/-- The lower-case hexadecimal digit of a number below sixteen. -/
def hexChar (n : Nat) : Char :=
  Nat.digitChar n

/-- One character as it is written inside the quotes. -/
def escape (c : Char) : List Char :=
  if c = '"' then ['\\', '"']
  else if c = '\\' then ['\\', '\\']
  else if c = '\x08' then ['\\', 'b']
  else if c = '\t' then ['\\', 't']
  else if c = '\n' then ['\\', 'n']
  else if c = '\x0c' then ['\\', 'f']
  else if c = '\r' then ['\\', 'r']
  else if c.toNat < 0x20 then
    ['\\', 'u', '0', '0', hexChar (c.toNat / 16), hexChar (c.toNat % 16)]
  else [c]

/-- A text as it is written, in its quotes. -/
def writeText (cs : List Char) : List Char :=
  '"' :: cs.flatMap escape ++ ['"']

end SignedMessaging.Json
