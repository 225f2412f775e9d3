import SignedMessaging.Proofs.Hex
import SignedMessaging.Signer.Basic

/-!
# Verification of signatures

A signer whose algorithm is known accepts a signature for four frames exactly where it
has no key, or the signature is the hexadecimal, in either letter case, of the keyed
digest of the frames one after another.  What it refuses it refuses as a signature, and
which of the two reasons is given depends on the signature alone and on nothing in the
frames.

Nothing is assumed of the digest.  Where one signature is good for two bodies, these are the
same bytes or the digest collides on them (`same_bytes_or_collides`).
-/

namespace SignedMessaging.Signer

variable [Digest.Library] {signer : Signer} {signature : Bytes} {body : Body Bytes}

/-- Whether a signature is good for four frames: there is no key, or it is hexadecimal of
the frames' keyed digest. -/
def Accepts (signer : Signer) (signature : Bytes) (body : Body Bytes) : Prop :=
  signer.key = [] ∨ ∃ algorithm, signer.algorithm = .ok algorithm ∧
    Hex.Spells (Digest.hmac algorithm signer.key body.toList.flatten) signature

/-- Why a signature is refused that is not good for some frames. -/
def refusal (signature : Bytes) : SignatureFault :=
  if (Hex.decode signature).isSome then .mismatch else .notHex

theorem exists_algorithm (husable : signer.Usable) :
    ∃ algorithm, signer.algorithm = .ok algorithm := by
  unfold Usable at husable
  cases halgorithm : signer.algorithm with
  | error _ => rw [halgorithm] at husable; cases husable
  | ok algorithm => exact ⟨algorithm, rfl⟩

theorem mac_of_algorithm {algorithm : Digest.Algorithm} (h : signer.algorithm = .ok algorithm)
    (body : Body Bytes) :
    signer.mac body = .ok (Digest.hmac algorithm signer.key body.toList.flatten) := by
  rw [mac, h]
  rfl

/-- With a key and a known algorithm a signature is good exactly where it is hexadecimal
of the keyed digest. -/
theorem accepts_iff_spells {algorithm : Digest.Algorithm} (hkey : signer.key ≠ [])
    (h : signer.algorithm = .ok algorithm) :
    signer.Accepts signature body ↔
      Hex.Spells (Digest.hmac algorithm signer.key body.toList.flatten) signature := by
  constructor
  · rintro (hempty | ⟨other, hother, hspells⟩)
    · exact absurd hempty hkey
    · cases h.symm.trans hother
      exact hspells
  · intro hspells
    exact .inr ⟨algorithm, h, hspells⟩

/-- Without a key every signature verifies. -/
theorem verify_of_no_key (hkey : signer.key = []) : signer.verify signature body = .ok () :=
  if_pos hkey

theorem verify_of_spells {algorithm : Digest.Algorithm} (h : signer.algorithm = .ok algorithm)
    (hspells : Hex.Spells (Digest.hmac algorithm signer.key body.toList.flatten) signature) :
    signer.verify signature body = .ok () := by
  by_cases hkey : signer.key = []
  · exact verify_of_no_key hkey
  · rw [verify, if_neg hkey, Hex.decode_eq_some_iff.2 hspells, mac_of_algorithm h]
    exact if_pos rfl

/-- A signature that is not good is refused for a reason of its own. -/
theorem verify_of_not_accepts (husable : signer.Usable) (h : ¬ signer.Accepts signature body) :
    signer.verify signature body = .error (.signature (refusal signature)) := by
  obtain ⟨algorithm, halgorithm⟩ := exists_algorithm husable
  have hkey : signer.key ≠ [] := fun hempty => h (.inl hempty)
  rw [accepts_iff_spells hkey halgorithm, ← Hex.decode_eq_some_iff] at h
  rw [verify, if_neg hkey, refusal, mac_of_algorithm halgorithm]
  cases hdecode : Hex.decode signature with
  | none => rfl
  | some supplied =>
      have hne : Digest.hmac algorithm signer.key body.toList.flatten ≠ supplied := by
        rintro rfl
        exact h hdecode
      exact if_neg hne

theorem verify_eq_ok_iff (husable : signer.Usable) :
    signer.verify signature body = .ok () ↔ signer.Accepts signature body := by
  constructor
  · intro h
    by_cases haccepts : signer.Accepts signature body
    · exact haccepts
    · rw [verify_of_not_accepts husable haccepts] at h
      cases h
  · rintro (hkey | ⟨algorithm, halgorithm, hspells⟩)
    · exact verify_of_no_key hkey
    · exact verify_of_spells halgorithm hspells

/-- A signer with a key that verifies something knows its algorithm. -/
theorem usable_of_verify (hkey : signer.key ≠ []) (h : signer.verify signature body = .ok ()) :
    signer.Usable := by
  unfold Usable
  cases halgorithm : signer.algorithm with
  | ok algorithm => rfl
  | error fault =>
      rw [verify, if_neg hkey, mac, halgorithm] at h
      split at h <;> cases h

/-- What a signer signs, it accepts. -/
theorem accepts_of_sign (h : signer.sign body = .ok signature) :
    signer.Accepts signature body := by
  by_cases hkey : signer.key = []
  · exact .inl hkey
  · rw [sign, if_neg hkey, mac] at h
    cases halgorithm : signer.algorithm with
    | error _ => rw [halgorithm] at h; cases h
    | ok algorithm =>
        rw [halgorithm] at h
        cases h
        exact .inr ⟨algorithm, halgorithm, Hex.spells_encode _⟩

/-- What a signer signs, it verifies, and nothing has to be known of the signer for that. -/
theorem verify_of_sign (h : signer.sign body = .ok signature) :
    signer.verify signature body = .ok () := by
  rcases accepts_of_sign h with hkey | ⟨algorithm, halgorithm, hspells⟩
  · exact verify_of_no_key hkey
  · exact verify_of_spells halgorithm hspells

/-- Verifying is no matter of a session, so that its faults are others. -/
theorem verify_ne_session (signer : Signer) (signature : Bytes) (body : Body Bytes)
    (fault : SessionFault) : signer.verify signature body ≠ .error (.session fault) := by
  unfold verify
  split
  · simp
  · split
    · simp
    · split
      · simp
      · split <;> simp

/-- A signer whose algorithm is known signs everything. -/
theorem exists_sign (husable : signer.Usable) (body : Body Bytes) :
    ∃ signature, signer.sign body = .ok signature := by
  obtain ⟨algorithm, halgorithm⟩ := exists_algorithm husable
  by_cases hkey : signer.key = []
  · exact ⟨[], if_pos hkey⟩
  · rw [sign, if_neg hkey, mac_of_algorithm halgorithm]
    exact ⟨_, rfl⟩

/-- Two different inputs that the keyed digest of a signer takes to the same output. -/
def Collides (signer : Signer) (x y : Bytes) : Prop :=
  x ≠ y ∧ ∃ algorithm, signer.algorithm = .ok algorithm ∧
    Digest.hmac algorithm signer.key x = Digest.hmac algorithm signer.key y

/-- Signatures that letter case alone tells apart are good for the same bytes, or for bytes
on which the keyed digest collides. -/
theorem same_bytes_or_collides {signature' : Bytes} {body' : Body Bytes}
    (hkey : signer.key ≠ []) (husable : signer.Usable) (h : signer.Accepts signature body)
    (h' : signer.Accepts signature' body')
    (hsignature : signature.map Hex.lower = signature'.map Hex.lower) :
    body.toList.flatten = body'.toList.flatten ∨
      signer.Collides body.toList.flatten body'.toList.flatten := by
  obtain ⟨algorithm, halgorithm⟩ := exists_algorithm husable
  rw [accepts_iff_spells hkey halgorithm] at h h'
  have hspells := h.of_lower_eq hsignature
  rw [← Hex.decode_eq_some_iff] at h' hspells
  -- Both signatures are read to one digest, which is that of either body.
  by_cases hbytes : body.toList.flatten = body'.toList.flatten
  · exact .inl hbytes
  · exact .inr ⟨hbytes, algorithm, halgorithm, Option.some.inj (hspells.symm.trans h')⟩

end SignedMessaging.Signer
