import SignedMessaging.Bytes
import SignedMessaging.Text.Quoted

/-!
# Paths

A path is a text that may hold surrogates too, which are no characters.  For a
system of files it stands for octets: a character for its UTF-8 form, and each
surrogate from U+DC80 to U+DCFF for the octet from 80 to FF at its end, so that
a path can be found for any octets.  Other surrogates stand for nothing, and a
path with one of them has no octets.
-/

namespace SignedMessaging

/-- A surrogate, by its place among them; the first is U+D800. -/
structure Surrogate where
  place : Fin 0x800
deriving DecidableEq, Repr

namespace Surrogate

/-- The code point of a surrogate. -/
def code (surrogate : Surrogate) : Nat :=
  0xd800 + surrogate.place.val

/-- The octet that a surrogate stands for, if it stands for one. -/
def octet? (surrogate : Surrogate) : Option UInt8 :=
  if 0xdc80 ≤ surrogate.code ∧ surrogate.code ≤ 0xdcff then
    some (UInt8.ofNat (surrogate.code - 0xdc00))
  else none

/-- A surrogate as an error message shows it. -/
def literal (surrogate : Surrogate) : List Char :=
  '\\' :: 'u' :: Quoted.hex 4 surrogate.code

end Surrogate

/-- A code point of a path. -/
inductive CodePoint where
  | character (c : Char)
  | surrogate (s : Surrogate)
deriving DecidableEq, Repr

namespace CodePoint

def character? : CodePoint → Option Char
  | .character c => some c
  | .surrogate _ => none

def isSurrogate : CodePoint → Bool
  | .character _ => false
  | .surrogate _ => true

/-- A code point inside the given quotes. -/
def quoted (quote : Char) : CodePoint → List Char
  | .character c => Quoted.character Text.isPrintable quote c
  | .surrogate s => s.literal

end CodePoint

/-- A path as an application names it. -/
abbrev Path := List CodePoint

/-- The surrogates for which a path has no octets: the first that stands for none, where it is,
and how many more there are right after it, whatever they stand for. -/
structure StraySurrogates where
  position : Nat
  first : Surrogate
  more : Nat
deriving DecidableEq, Repr

namespace StraySurrogates

def message (stray : StraySurrogates) : String :=
  "'utf-8' codec can't encode " ++
    (if stray.more = 0 then
      "character '" ++ String.ofList stray.first.literal ++ "' in position " ++
        stray.position.repr
    else
      "characters in position " ++ stray.position.repr ++ "-" ++
        (stray.position + stray.more).repr) ++
    ": surrogates not allowed"

end StraySurrogates

namespace Path

/-- The path that a text names. -/
def ofText (text : String) : Path :=
  text.toList.map .character

/-- The octets of the code points from a position on. -/
def octetsFrom (position : Nat) : Path → Except StraySurrogates Bytes
  | [] => .ok []
  | .character c :: rest =>
      (octetsFrom (position + 1) rest).map (String.utf8EncodeChar c ++ ·)
  | .surrogate s :: rest =>
      match s.octet? with
      | some octet => (octetsFrom (position + 1) rest).map (octet :: ·)
      | none => .error ⟨position, s, (rest.takeWhile CodePoint.isSurrogate).length⟩

/-- The octets that a path stands for. -/
def octets (path : Path) : Except StraySurrogates Bytes :=
  octetsFrom 0 path

/-- A path as an error message shows it. -/
def literal (path : Path) : String :=
  let quote := Quoted.quoteFor (path.filterMap CodePoint.character?)
  String.ofList (quote :: path.flatMap (CodePoint.quoted quote) ++ [quote])

end Path

end SignedMessaging
