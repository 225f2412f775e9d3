import SignedMessaging.Value.Basic

/-!
# Equality of values

Numbers are equal when their sizes are, whatever their kinds, with a boolean
worth 0 or 1; texts, byte strings, lists and tuples are equal to their own kind
with equal parts in the same order; dictionaries are equal when every entry of
one has an equal entry in the other and they have equally many.  A value that is
no number and an object without structure are equal to no other value.
-/

namespace SignedMessaging

namespace Value

/-- The exact integer that a number of any kind is worth. -/
def integer? : Value → Option Int
  | .bool b => some (if b then 1 else 0)
  | .int n => some n
  | .float x => x.integer?
  | .complexZero => some 0
  | _ => none

/-- Equality of two numbers: of doubles as doubles, else of integers. -/
def sameNumber : Value → Value → Bool
  | .float x, .float y => x.same y
  | v, w =>
      match v.integer?, w.integer? with
      | some m, some n => m == n
      | _, _ => false

mutual

/-- Equality of values. -/
def same : Value → Value → Bool
  | .null, w => match w with
      | .null => true
      | _ => false
  | .text s, w => match w with
      | .text t => s == t
      | _ => false
  | .bytes b, w => match w with
      | .bytes c => b == c
      | _ => false
  | .emptySet, w => match w with
      | .emptySet => true
      | _ => false
  | .list items, w => match w with
      | .list others => sameItems items others
      | _ => false
  | .tuple items, w => match w with
      | .tuple others => sameItems items others
      | _ => false
  | .dictionary entries, w => match w with
      | .dictionary others => entries.length == others.length && sameEntries entries others
      | _ => false
  | .bool b, w => sameNumber (.bool b) w
  | .int n, w => sameNumber (.int n) w
  | .float x, w => sameNumber (.float x) w
  | .complexZero, w => sameNumber .complexZero w
  | .object, _ => false
termination_by structural v => v

/-- Equality item by item, in order. -/
def sameItems : List Value → List Value → Bool
  | [], others => others.isEmpty
  | item :: items, others => match others with
      | other :: others => same item other && sameItems items others
      | [] => false
termination_by structural items => items

/-- Whether each entry has an equal value under an equal key. -/
def sameEntries : List (Value × Value) → List (Value × Value) → Bool
  | [], _ => true
  | (key, value) :: entries, others =>
      (match others.find? (fun other => same key other.1) with
        | some (_, other) => same value other
        | none => false) && sameEntries entries others
termination_by structural entries => entries

end

/-- Whether a value can be a dictionary's key: no list, dictionary or set is in
it.  The kind named is the first that cannot. -/
def unusableKey? : Value → Option Kind
  | .list _ => some .list
  | .dictionary _ => some .dictionary
  | .emptySet => some .set
  | .tuple items => unusableKeyIn? items
  | _ => none
where
  /-- The first such kind among the items of a tuple. -/
  unusableKeyIn? : List Value → Option Kind
    | [] => none
    | item :: items => match unusableKey? item with
        | some kind => some kind
        | none => unusableKeyIn? items

end Value

end SignedMessaging
