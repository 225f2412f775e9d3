import SignedMessaging.Digest.Algorithm

/-!
# Libraries of digests

Which names stand for algorithms is for a platform's library to say (`Library`),
and all that is assumed of it is that it has SHA-256, that the empty text names
nothing and that no name has a zero character.

The standard library has the names in common use: those with an underscore and
the short ones of BLAKE2 as they stand, and the others in any letter case, with
or without dashes where those are usual.  It leaves out what only some platforms
know, such as `SHA512-256`, `SHA512_256` and `BLAKE2B512` for algorithms that are
here, `SM3` or `RIPEMD160` for others, and object identifiers.
-/

namespace SignedMessaging.Digest

/-- The algorithms that a platform has under names, for digests and for keyed ones.  A keyed
digest takes keys of any length, as the construction has it; how much a platform can hold at
once is no part of this. -/
class Library where
  /-- The algorithm with digests of one size that has a name. -/
  algorithm? : String → Option Algorithm
  /-- Whether a name is that of an algorithm whose digests extend to any size; there are no
  keyed digests of these. -/
  isExtendable : String → Bool
  algorithm?_sha256 : algorithm? "sha256" = some .sha256
  algorithm?_empty : algorithm? "" = none
  ne_zero_of_known {name : String} {c : Char} :
    (algorithm? name).isSome → c ∈ name.toList → c ≠ '\x00'

/-! ### The standard library -/

namespace Standard

/-- The names that are read as they stand. -/
def exactNames : List (String × Algorithm) :=
  [("sha512_224", .sha512Short224), ("sha512_256", .sha512Short256),
    ("sha3_224", .sha3Size224), ("sha3_256", .sha3Size256),
    ("sha3_384", .sha3Size384), ("sha3_512", .sha3Size512),
    ("blake2b", .blake2b), ("blake2s", .blake2s)]

/-- The names that are read in any letter case, here in lower case. -/
def caselessNames : List (String × Algorithm) :=
  [("md5", .md5), ("sha1", .sha1), ("sha-1", .sha1),
    ("sha224", .sha224), ("sha-224", .sha224), ("sha2-224", .sha224),
    ("sha256", .sha256), ("sha-256", .sha256), ("sha2-256", .sha256),
    ("sha384", .sha384), ("sha-384", .sha384), ("sha2-384", .sha384),
    ("sha512", .sha512), ("sha-512", .sha512), ("sha2-512", .sha512),
    ("sha3-224", .sha3Size224), ("sha3-256", .sha3Size256),
    ("sha3-384", .sha3Size384), ("sha3-512", .sha3Size512)]

/-- A name with its ASCII letters in lower case. -/
def lowerCase (name : String) : String :=
  String.ofList (name.toList.map Char.toLower)

/-- The algorithm of a name. -/
def algorithm? (name : String) : Option Algorithm :=
  match exactNames.lookup name with
  | some algorithm => some algorithm
  | none => caselessNames.lookup (lowerCase name)

/-- Whether a name is that of an algorithm whose digests extend to any size. -/
def isExtendable (name : String) : Bool :=
  ["shake_128", "shake_256"].contains name ||
    ["shake128", "shake-128", "shake256", "shake-256"].contains (lowerCase name)

/-- No name in the lists has a zero character. -/
theorem all_names_ne_zero :
    (exactNames ++ caselessNames).all (fun entry => entry.1.toList.all (· != '\x00')) := by
  decide

theorem ne_zero_of_listed {entry : String × Algorithm}
    (listed : entry ∈ exactNames ++ caselessNames) {c : Char} (mem : c ∈ entry.1.toList) :
    c ≠ '\x00' := by
  have nonzero := List.all_eq_true.1 (List.all_eq_true.1 all_names_ne_zero entry listed) c mem
  simpa using nonzero

/-- An algorithm's name has no zero character. -/
theorem ne_zero_of_isSome {name : String} {c : Char} (known : (algorithm? name).isSome)
    (mem : c ∈ name.toList) : c ≠ '\x00' := by
  unfold algorithm? at known
  split at known
  · next found =>
      obtain ⟨entry, listed, same⟩ :=
        List.lookup_isSome_iff.1 (Option.isSome_of_eq_some found)
      rw [eq_of_beq same] at mem
      exact ne_zero_of_listed (List.mem_append_left _ listed) mem
  · obtain ⟨entry, listed, same⟩ := List.lookup_isSome_iff.1 known
    have lowered : c.toLower ∈ entry.1.toList := by
      rw [← eq_of_beq same, lowerCase, String.toList_ofList]
      exact List.mem_map_of_mem mem
    have nonzero := ne_zero_of_listed (List.mem_append_right _ listed) lowered
    rintro rfl
    exact nonzero (by decide)

/-- The library where no other is given. -/
instance library : Library where
  algorithm? := algorithm?
  isExtendable := isExtendable
  algorithm?_sha256 := rfl
  algorithm?_empty := rfl
  ne_zero_of_known := ne_zero_of_isSome

end Standard

end SignedMessaging.Digest
