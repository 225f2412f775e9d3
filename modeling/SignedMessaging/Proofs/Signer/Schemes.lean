import SignedMessaging.Proofs.Signer.Signature
import SignedMessaging.Signer.Scheme

/-!
# Schemes

A scheme is accepted exactly if it is empty or names an algorithm behind `hmac-`
(`Scheme.Names`), whatever the key is; names of algorithms may have dashes themselves.  That is
all there is to check: a signer that was made of a scheme signs every four frames under every
key (`validated_once`).  Of the name only the algorithm counts for this, so that signers whose
schemes spell one algorithm in different ways are as good as each other.

Which names there are is for the library to say, and all this holds of every library.  The
schemes that the standard one knows are those of `Scheme.names_standard_iff`.
-/

namespace SignedMessaging

namespace Digest.Standard

variable {name : String} {algorithm : Algorithm}

/-- Whether a name is that of an algorithm: as it stands, or with its letters made small. -/
def Named (name : String) (algorithm : Algorithm) : Prop :=
  (name, algorithm) ∈ exactNames ∨ (lowerCase name, algorithm) ∈ caselessNames

/-- In a list of different names the algorithm of a name is the one that stands beside it. -/
theorem lookup_eq_some_iff {names : List (String × Algorithm)}
    (h : names.Pairwise fun x y => x.1 ≠ y.1) :
    names.lookup name = some algorithm ↔ (name, algorithm) ∈ names := by
  rw [List.lookup_eq_some_iff]
  constructor
  · rintro ⟨before, after, rfl, -⟩
    exact List.mem_append_right _ List.mem_cons_self
  · intro hmem
    obtain ⟨before, after, rfl⟩ := List.append_of_mem hmem
    refine ⟨before, after, rfl, fun entry hentry => bne_iff_ne.2 ?_⟩
    exact ((List.pairwise_append.1 h).2.2 entry hentry _ List.mem_cons_self).symm

/-- No name that is read as it stands becomes another name in small letters. -/
theorem lowerCase_ne : ∀ exact ∈ exactNames, ∀ caseless ∈ caselessNames,
    lowerCase exact.1 ≠ caseless.1 := by
  decide

/-- The algorithm that a name is looked up to is the one whose name it is. -/
theorem algorithm?_eq_some_iff : algorithm? name = some algorithm ↔ Named name algorithm := by
  have hexact : ∀ a, exactNames.lookup name = some a ↔ (name, a) ∈ exactNames := fun a =>
    lookup_eq_some_iff (by decide)
  unfold algorithm? Named
  rw [← hexact]
  cases hlookup : exactNames.lookup name with
  | none =>
      rw [lookup_eq_some_iff (by decide)]
      simp
  | some found =>
      have hcaseless : (lowerCase name, algorithm) ∉ caselessNames := fun hmem =>
        lowerCase_ne _ ((hexact found).1 hlookup) _ hmem rfl
      simp [hcaseless]

end Digest.Standard

section

variable [Digest.Library]

namespace Scheme

variable {scheme name : String} {algorithm : Digest.Algorithm}

/-- Whether a scheme names an algorithm: it is empty, which stands for SHA-256, or has a name
of the algorithm behind `hmac-`. -/
def Names (scheme : String) (algorithm : Digest.Algorithm) : Prop :=
  scheme = "" ∧ algorithm = .sha256 ∨
    ∃ name, scheme = "hmac-" ++ name ∧ Digest.Library.algorithm? name = some algorithm

end Scheme

namespace Signer

variable {key : Value} {scheme : String} {signer first second : Signer} {body : Body Bytes}
  {algorithm : Digest.Algorithm}

/-- Whether a byte string has the form of a signature under a key: it is empty where there is
no key, and else two small digits of hexadecimal for each byte of a digest. -/
structure HasForm (key : Bytes) (algorithm : Digest.Algorithm) (signature : Bytes) : Prop where
  unsigned : key = [] → signature = []
  length : key ≠ [] → signature.length = 2 * algorithm.size
  digits {c : UInt8} : c ∈ signature → Hex.IsSmallDigit c

end Signer

end

/-- With the standard library these are the schemes that are not refused. -/
theorem Scheme.names_standard_iff {scheme : String} {algorithm : Digest.Algorithm} :
    Scheme.Names scheme algorithm ↔ scheme = "" ∧ algorithm = .sha256 ∨
      ∃ name, scheme = "hmac-" ++ name ∧ Digest.Standard.Named name algorithm := by
  simp only [← Digest.Standard.algorithm?_eq_some_iff]
  rfl

/-- SHA-256 under four names of the standard library; the empty scheme is one of them. -/
example : Scheme.Names "" .sha256 ∧ Scheme.Names "hmac-sha256" .sha256 ∧
    Scheme.Names "hmac-SHA2-256" .sha256 ∧ Scheme.Names "hmac-Sha-256" .sha256 :=
  ⟨.inl ⟨rfl, rfl⟩, .inr ⟨"sha256", rfl, rfl⟩, .inr ⟨"SHA2-256", rfl, rfl⟩,
    .inr ⟨"Sha-256", rfl, rfl⟩⟩

end SignedMessaging
