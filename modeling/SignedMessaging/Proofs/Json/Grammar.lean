import SignedMessaging.Json.Document

/-!
# The grammar of JSON documents

What a document is and what it denotes, stated without the reader.  A document is
a text in UTF-8 with one value in it and blanks around it.  The value is a tree of
names, numbers, texts, lists and objects, and a tree can be spelled in many ways:
blanks may stand around every item and every member, a character may be written as
itself or by an escape, and digits and exponents have a choice of letters and signs.

Spelling, nesting and meaning are kept apart.  A tree is spelled by the relation
`Spells` whatever its depth and whatever its numbers; `Tree.nesting` counts the
containers inside one another; `Tree.value?` is the value that is meant, which is
missing only where a number is beyond the doubles.
-/

namespace SignedMessaging.Json

/-! ### Blanks and lists of things -/

/-- The characters that may stand between tokens, and nothing else. -/
def Blanks (cs : List Char) : Prop :=
  ∀ c ∈ cs, c ∈ [' ', '\t', '\n', '\r']

/-- Things with a comma between every two, each with blanks around it; where there
are none, blanks alone. -/
inductive Listed {α : Type} (P : α → List Char → Prop) : List α → List Char → Prop
  | empty {gap : List Char} (hgap : Blanks gap) : Listed P [] gap
  | last {a : α} {before core after : List Char} (hbefore : Blanks before) (hcore : P a core)
      (hafter : Blanks after) : Listed P [a] (before ++ (core ++ after))
  | more {a next : α} {others : List α} {before core after rest : List Char}
      (hbefore : Blanks before) (hcore : P a core) (hafter : Blanks after)
      (hrest : Listed P (next :: others) rest) :
      Listed P (a :: next :: others) (before ++ (core ++ (after ++ ',' :: rest)))

/-! ### Texts -/

/-- A hexadecimal digit in either letter case, with its number. -/
def HexDigit (n : Nat) (c : Char) : Prop :=
  n < 16 ∧ (c = Nat.digitChar n ∨ c = (Nat.digitChar n).toUpper)

/-- A number below `2 ^ 16` in four hexadecimal digits. -/
inductive CodeUnit : Nat → List Char → Prop
  | digits {i j k l : Nat} {a b c d : Char} (ha : HexDigit i a) (hb : HexDigit j b)
      (hc : HexDigit k c) (hd : HexDigit l d) :
      CodeUnit (i * 4096 + j * 256 + k * 16 + l) [a, b, c, d]

/-- The first half of a pair that codes a character beyond U+FFFF. -/
def IsHighSurrogate (n : Nat) : Prop := 0xd800 ≤ n ∧ n < 0xdc00

/-- The second half of such a pair. -/
def IsLowSurrogate (n : Nat) : Prop := 0xdc00 ≤ n ∧ n < 0xe000

/-- The escapes by one letter, each with the character that it stands for. -/
def letterEscapes : List (Char × Char) :=
  [('"', '"'), ('\\', '\\'), ('/', '/'), ('b', '\x08'), ('f', '\x0c'), ('n', '\n'),
    ('r', '\r'), ('t', '\t')]

/-- The spellings of one character inside quotes. -/
inductive CharacterText : Char → List Char → Prop
  | plain {c : Char} (hquote : c ≠ '"') (hbackslash : c ≠ '\\') (hcontrol : 0x20 ≤ c.toNat) :
      CharacterText c [c]
  | letter {letter c : Char} (hescape : (letter, c) ∈ letterEscapes) :
      CharacterText c ['\\', letter]
  | unit {n : Nat} {cs : List Char} (hunit : CodeUnit n cs) (hhigh : ¬ IsHighSurrogate n)
      (hlow : ¬ IsLowSurrogate n) : CharacterText (Char.ofNat n) ('\\' :: 'u' :: cs)
  | pair {high low : Nat} {cs ds : List Char} (hcs : CodeUnit high cs) (hds : CodeUnit low ds)
      (hhigh : IsHighSurrogate high) (hlow : IsLowSurrogate low) :
      CharacterText (Char.ofNat (0x10000 + (high - 0xd800) * 0x400 + (low - 0xdc00)))
        ('\\' :: 'u' :: (cs ++ '\\' :: 'u' :: ds))

/-- The spellings of a run of characters. -/
inductive CharactersText : List Char → List Char → Prop
  | nil : CharactersText [] []
  | cons {c : Char} {cs more rest : List Char} (hc : CharacterText c cs)
      (hmore : CharactersText more rest) : CharactersText (c :: more) (cs ++ rest)

/-- The spellings of a text in its quotes. -/
inductive QuotedText : List Char → List Char → Prop
  | quotes {found cs : List Char} (hcs : CharactersText found cs) :
      QuotedText found ('"' :: (cs ++ ['"']))

/-! ### Numbers -/

/-- At least one decimal digit, and nothing else. -/
def Digits (cs : List Char) : Prop :=
  cs ≠ [] ∧ ∀ c ∈ cs, c.isDigit

/-- An optional minus sign. -/
inductive SignText : Bool → List Char → Prop
  | none : SignText false []
  | minus : SignText true ['-']

/-- An optional fraction. -/
inductive FractionText : Option (List Char) → List Char → Prop
  | none : FractionText none []
  | point {digits : List Char} (hdigits : Digits digits) :
      FractionText (some digits) ('.' :: digits)

/-- An optional exponent: a letter, a sign that may be missing where it is a plus, and
digits. -/
inductive ExponentText : Option Int → List Char → Prop
  | none : ExponentText none []
  | positive {letter : Char} {sign digits : List Char} (hletter : letter = 'e' ∨ letter = 'E')
      (hsign : sign = [] ∨ sign = ['+']) (hdigits : Digits digits) :
      ExponentText (some (Nat.ofDigitChars 10 digits 0)) (letter :: (sign ++ digits))
  | negative {letter : Char} {digits : List Char} (hletter : letter = 'e' ∨ letter = 'E')
      (hdigits : Digits digits) :
      ExponentText (some (-(Nat.ofDigitChars 10 digits 0 : Int))) (letter :: '-' :: digits)

/-- The spellings of a number: a leading zero stands alone before the point. -/
inductive NumberText : NumberLiteral → List Char → Prop
  | parts {negative : Bool} {whole : List Char} {fraction : Option (List Char)}
      {exponent : Option Int} {sign fractionText exponentText : List Char}
      (hsign : SignText negative sign) (hwhole : Digits whole)
      (hzero : whole.head? = some '0' → whole = ['0'])
      (hfraction : FractionText fraction fractionText)
      (hexponent : ExponentText exponent exponentText) :
      NumberText ⟨negative, whole, fraction, exponent⟩
        (sign ++ (whole ++ (fractionText ++ exponentText)))

/-! ### Trees -/

/-- What a document says, before any number is rounded and any key is merged. -/
inductive Tree where
  | null
  | bool (b : Bool)
  | number (literal : NumberLiteral)
  | text (cs : List Char)
  | list (items : List Tree)
  | object (members : List (List Char × Tree))

/-- A member of an object: a text, a colon and what is filed under the text. -/
inductive MemberText {α : Type} (P : α → List Char → Prop) : List Char × α → List Char → Prop
  | colon {key quoted before after core : List Char} {a : α} (hkey : QuotedText key quoted)
      (hbefore : Blanks before) (hafter : Blanks after) (hcore : P a core) :
      MemberText P (key, a) (quoted ++ (before ++ ':' :: (after ++ core)))

/-- The spellings of a tree. -/
inductive Spells : Tree → List Char → Prop
  | null : Spells .null ['n', 'u', 'l', 'l']
  | true : Spells (.bool true) ['t', 'r', 'u', 'e']
  | false : Spells (.bool false) ['f', 'a', 'l', 's', 'e']
  | number {literal : NumberLiteral} {cs : List Char} (h : NumberText literal cs) :
      Spells (.number literal) cs
  | text {found cs : List Char} (h : QuotedText found cs) : Spells (.text found) cs
  | list {items : List Tree} {inner : List Char} (h : Listed Spells items inner) :
      Spells (.list items) ('[' :: (inner ++ [']']))
  | object {members : List (List Char × Tree)} {inner : List Char}
      (h : Listed (MemberText Spells) members inner) :
      Spells (.object members) ('\x7b' :: (inner ++ ['\x7d']))

/-- A tree alone in a text, with blanks around it. -/
inductive SpellsDocument : Tree → List Char → Prop
  | blanks {tree : Tree} {before core after : List Char} (hbefore : Blanks before)
      (hcore : Spells tree core) (hafter : Blanks after) :
      SpellsDocument tree (before ++ (core ++ after))

namespace Tree

mutual

/-- How many lists and objects stand inside one another. -/
def nesting : Tree → Nat
  | .list items => nestingOf items + 1
  | .object members => nestingUnder members + 1
  | _ => 0
termination_by structural tree => tree

/-- The deepest nesting among items. -/
def nestingOf : List Tree → Nat
  | [] => 0
  | item :: items => max (nesting item) (nestingOf items)
termination_by structural items => items

/-- The deepest nesting among the values of members. -/
def nestingUnder : List (List Char × Tree) → Nat
  | [] => 0
  | (_, tree) :: members => max (nesting tree) (nestingUnder members)
termination_by structural members => members

end

/-- The members of an object as entries: the keys in the order of their first occurrence,
each with the value of its last. -/
def merged (members : List (List Char × Value)) : Entries :=
  (members.map (·.1)).eraseDups.filterMap fun key =>
    (members.reverse.lookup key).map fun v => (.text (String.ofList key), v)

mutual

/-- The value that a tree denotes. -/
def value? : Tree → Option Value
  | .null => some .null
  | .bool b => some (.bool b)
  | .number literal => literal.value?
  | .text cs => some (.text (String.ofList cs))
  | .list items => (values? items).map .list
  | .object members => (memberValues? members).map fun found => .dictionary (merged found)
termination_by structural tree => tree

/-- The values of items. -/
def values? : List Tree → Option (List Value)
  | [] => some []
  | item :: items =>
      match value? item, values? items with
      | some v, some vs => some (v :: vs)
      | _, _ => none
termination_by structural items => items

/-- The values of members, each under its key. -/
def memberValues? : List (List Char × Tree) → Option (List (List Char × Value))
  | [] => some []
  | (key, tree) :: members =>
      match value? tree, memberValues? members with
      | some v, some found => some ((key, v) :: found)
      | _, _ => none
termination_by structural members => members

end

end Tree

/-- A document in UTF-8 means a value: it spells a tree with that value, however deep. -/
def Means (document : Bytes) (v : Value) : Prop :=
  ∃ (s : String) (tree : Tree), document = Bytes.ofText s ∧ SpellsDocument tree s.toList ∧
    tree.value? = some v

/-- A document in UTF-8 denotes a value: it spells a tree that nests no deeper than the
reader goes, all of whose numbers have values. -/
def Denotes (document : Bytes) (v : Value) : Prop :=
  ∃ (s : String) (tree : Tree), document = Bytes.ofText s ∧ SpellsDocument tree s.toList ∧
    tree.nesting ≤ readDepth ∧ tree.value? = some v

end SignedMessaging.Json
