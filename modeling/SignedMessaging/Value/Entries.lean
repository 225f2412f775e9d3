import SignedMessaging.Value.Equality

/-!
# Dictionaries

Entries stand in the order of insertion.  Putting a value under a key that is
already there, up to equality, keeps the earlier key and its place and replaces
the value.
-/

namespace SignedMessaging

/-- The entries of a dictionary in insertion order. -/
abbrev Entries := List (Value × Value)

namespace Entries

/-- Put a value under a key. -/
def put : Entries → Value → Value → Entries
  | [], key, value => [(key, value)]
  | (k, v) :: rest, key, value =>
      if k.same key then (k, value) :: rest else (k, v) :: put rest key value

/-- Put several entries in order. -/
def putAll (entries : Entries) (more : Entries) : Entries :=
  more.foldl (fun entries entry => entries.put entry.1 entry.2) entries

/-- The dictionary of entries given one after another. -/
def ofList (more : Entries) : Entries :=
  putAll [] more

/-- The value under a text key. -/
def find? (entries : Entries) (name : String) : Option Value :=
  (List.find? (fun entry => entry.1.same (.text name)) entries).map (·.2)

end Entries

end SignedMessaging
