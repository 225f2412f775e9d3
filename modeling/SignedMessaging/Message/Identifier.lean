import SignedMessaging.Bytes

/-!
# Message identifiers

Every message takes sixteen random bytes of its own.  Its identifier is the text
of the version 4 UUID made of them: four bits carry the version, two the variant,
and the other 122 are those drawn.  The randomness may run out, and drawing then
fails.
-/

namespace SignedMessaging

/-- Sixteen bytes of randomness. -/
abbrev Draw := Vector UInt8 16

namespace Draw

/-- The bytes of a draw with the version and the variant set. -/
def stamped (draw : Draw) : Draw :=
  let versioned := draw.set 6 ((draw[6] &&& 0x0f) ||| 0x40)
  versioned.set 8 ((draw[8] &&& 0x3f) ||| 0x80)

/-- Hexadecimal digits in groups of 8, 4, 4, 4 and 12, with dashes between. -/
def grouped (digits : List Char) : List Char :=
  digits.take 8 ++ '-' :: (digits.drop 8).take 4 ++ '-' :: (digits.drop 12).take 4 ++
    '-' :: (digits.drop 16).take 4 ++ '-' :: digits.drop 20

/-- The identifier made of a draw. -/
def identifier (draw : Draw) : String :=
  String.ofList (grouped ((Hex.encode draw.stamped.toList).map Char.ofUInt8))

end Draw

/-- Why no randomness can be drawn. -/
inductive EntropyFailure where
  | unreadable
  | unavailable
deriving DecidableEq, Repr

/-- A source of randomness: the draws that are left and the failure after them. -/
structure EntropySource where
  draws : List Draw
  failure : EntropyFailure

namespace EntropySource

/-- The next draw and the source without it. -/
def next (source : EntropySource) : Except EntropyFailure (Draw × EntropySource) :=
  match source.draws with
  | [] => .error source.failure
  | draw :: rest => .ok (draw, { source with draws := rest })

end EntropySource

end SignedMessaging
