import SignedMessaging.Value.Entries

/-!
# Dictionaries made of pairs

A dictionary can be given as itself or as any value whose elements are pairs.
The elements of a dictionary are its keys, those of a text its characters, and
those of a byte string the numbers of its bytes.  The first element that is no
pair, or whose first half cannot be a key, is what a failure reports.
-/

namespace SignedMessaging

/-- Why a value is no dictionary. -/
inductive PairingFault where
  | notIterable (kind : Kind)
  | elementNotSequence (index : Nat)
  | elementLength (index length : Nat)
  | unusableKey (kind : Kind)
deriving DecidableEq, Repr

namespace Value

/-- The elements of a value that has elements. -/
def elements? : Value → Option (List Value)
  | .list items => some items
  | .tuple items => some items
  | .dictionary entries => some (entries.map (·.1))
  | .text s => some (s.toList.map fun c => .text (String.singleton c))
  | .bytes b => some (b.map fun byte => .int byte.toNat)
  | .emptySet => some []
  | _ => none

end Value

namespace Entries

/-- Put pairs in order; `index` counts the elements before them. -/
def putPairs (index : Nat) (entries : Entries) : List Value → Except PairingFault Entries
  | [] => .ok entries
  | item :: rest =>
      match item.elements? with
      | none => .error (.elementNotSequence index)
      | some [key, value] =>
          match key.unusableKey? with
          | some kind => .error (.unusableKey kind)
          | none => putPairs (index + 1) (entries.put key value) rest
      | some parts => .error (.elementLength index parts.length)

/-- The dictionary that a value gives. -/
def ofValue : Value → Except PairingFault Entries
  | .dictionary entries => .ok entries
  | value =>
      match value.elements? with
      | none => .error (.notIterable value.kind)
      | some items => putPairs 0 [] items

end Entries

end SignedMessaging
