import SignedMessaging.Digest.Hmac
import SignedMessaging.Digest.Library
import SignedMessaging.Fault.Report

/-!
# Signers

A signer holds the shared key and names the digest algorithm, which a library
knows by this name.  Its signature of a message is the keyed digest of the four
frames, one after another, in lower-case hexadecimal.  With an empty key nothing is
signed and everything verifies.
-/

namespace SignedMessaging

/-- A shared key and the name of a digest algorithm. -/
structure Signer where
  key : Bytes := []
  digest : String := "sha256"
deriving DecidableEq, Repr

namespace Signer

variable [Digest.Library]

/-- Whether messages are signed at all. -/
def enabled (signer : Signer) : Bool := !signer.key.isEmpty

/-- A digest's name as it is looked up, which is up to a zero character. -/
def lookedUp (name : String) : String :=
  String.ofList (name.toList.takeWhile (· ≠ '\x00'))

/-- The algorithm that a signer names. -/
def algorithm (signer : Signer) : Except DigestFault Digest.Algorithm :=
  if signer.digest = "" then .error .noName
  else
    match Digest.Library.algorithm? (lookedUp signer.digest) with
    | some algorithm => .ok algorithm
    | none =>
        .error (if Digest.Library.isExtendable (lookedUp signer.digest) then .extendable
          else .unknown)

/-- An algorithm's name is looked up as it stands. -/
theorem lookedUp_of_known {name : String} (known : (Digest.Library.algorithm? name).isSome) :
    lookedUp name = name := by
  have all : (name.toList ++ []).takeWhile (· ≠ '\x00') = name.toList ++ [] :=
    List.takeWhile_append_of_pos fun c mem => by
      simpa using Digest.Library.ne_zero_of_known known mem
  rw [lookedUp, ← name.toList.append_nil, all, List.append_nil, String.ofList_toList]

/-- Whether a signer names an algorithm. -/
def Usable (signer : Signer) : Prop :=
  signer.algorithm.toOption.isSome

instance (signer : Signer) : Decidable signer.Usable :=
  inferInstanceAs (Decidable (_ = true))

/-- A signer with an algorithm's name names that algorithm. -/
theorem algorithm_of_known {signer : Signer} {algorithm : Digest.Algorithm}
    (known : Digest.Library.algorithm? signer.digest = some algorithm) :
    signer.algorithm = .ok algorithm := by
  have nonempty : signer.digest ≠ "" := by
    intro empty
    rw [empty, Digest.Library.algorithm?_empty] at known
    cases known
  simp [Signer.algorithm, nonempty, lookedUp_of_known (Option.isSome_of_eq_some known), known]

/-- A signer with an algorithm's name is usable. -/
theorem usable_of_known {signer : Signer}
    (known : (Digest.Library.algorithm? signer.digest).isSome) : signer.Usable := by
  obtain ⟨algorithm, named⟩ := Option.isSome_iff_exists.1 known
  rw [Usable, algorithm_of_known named]
  rfl

/-- The keyed digest of the frames, one after another. -/
def authenticate (signer : Signer) (algorithm : Digest.Algorithm) (body : Body Bytes) : Bytes :=
  Digest.hmac algorithm signer.key body.toList.flatten

/-- The keyed digest under the algorithm that the signer names. -/
def mac (signer : Signer) (body : Body Bytes) : Except DigestFault Bytes :=
  match signer.algorithm with
  | .error fault => .error fault
  | .ok algorithm => .ok (signer.authenticate algorithm body)

/-- The signature of four frames. -/
def sign (signer : Signer) (body : Body Bytes) : Except DigestFault Bytes :=
  if signer.key = [] then .ok [] else (signer.mac body).map Hex.encode

/-- Compare a signature in hexadecimal with the keyed digest of the frames. -/
def verify (signer : Signer) (signature : Bytes) (body : Body Bytes) : Except Fault Unit :=
  if signer.key = [] then .ok ()
  else
    match Hex.decode signature with
    | none => .error (.signature .notHex)
    | some supplied =>
        match signer.mac body with
        | .error fault => .error (.digest fault)
        | .ok expected =>
            if expected = supplied then .ok () else .error (.signature .mismatch)

end Signer

end SignedMessaging
