import SignedMessaging.Signer.Basic

/-!
# Signature schemes

A scheme names the keyed construction, which is always `hmac`, and after a dash
the digest.  The empty scheme stands for the usual one.
-/

namespace SignedMessaging

variable [Digest.Library]

namespace Scheme

/-- The scheme where none is given. -/
def standard : String := "hmac-sha256"

/-- The digest that a scheme that is not empty names. -/
def digestOf (scheme : String) : Except SchemeFault String :=
  match scheme.toList with
  | 'h' :: 'm' :: 'a' :: 'c' :: '-' :: name =>
      if name = [] then .error (.unsupported scheme)
      else if (Digest.Library.algorithm? (String.ofList name)).isSome then
        .ok (String.ofList name)
      else .error (.unknownDigest scheme)
  | _ => .error (.unsupported scheme)

/-- The digest that a scheme names. -/
def digest (scheme : String) : Except SchemeFault String :=
  digestOf (if scheme = "" then standard else scheme)

/-- Whatever digest a scheme names is known. -/
theorem isSome_of_digest {scheme name : String} (h : digest scheme = .ok name) :
    (Digest.Library.algorithm? name).isSome := by
  unfold digest digestOf at h
  split at h
  · split at h
    · cases h
    · split at h
      · next hknown =>
          cases h
          exact hknown
      · cases h
  · cases h

end Scheme

namespace Signer

/-- The signer of a scheme.  The scheme is checked before the key. -/
def ofScheme (key : Value) (scheme : String) : Except Fault Signer :=
  match Scheme.digest scheme with
  | .error fault => .error (.configuration (.scheme fault))
  | .ok digest =>
      match key.encoded with
      | .error fault => .error (.octets fault)
      | .ok bytes => .ok ⟨bytes, digest⟩

/-- A signer made of a scheme can be used. -/
theorem usable_of_ofScheme {key : Value} {scheme : String} {signer : Signer}
    (h : ofScheme key scheme = .ok signer) : signer.Usable := by
  unfold ofScheme at h
  split at h
  · cases h
  · next hdigest =>
      split at h
      · cases h
      · cases h
        exact usable_of_known (Scheme.isSome_of_digest hdigest)

end Signer

/-- How the digest of a new signer is chosen. -/
inductive DigestChoice where
  | standard
  | scheme (scheme : String)
  | named (digest : String)

/-- What a new signer is made of. -/
structure SignerRequest where
  key : Value := .bytes []
  choice : DigestChoice := .standard

namespace SignerRequest

/-- The signer that a request asks for; only the digest of a scheme is checked. -/
def build (request : SignerRequest) : Except Fault Signer :=
  match request.choice with
  | .scheme scheme => Signer.ofScheme request.key scheme
  | .standard => (request.key.encoded.mapError .octets).map fun key => { key }
  | .named digest => (request.key.encoded.mapError .octets).map fun key => { key, digest }

end SignerRequest

end SignedMessaging
