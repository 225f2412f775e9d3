import SignedMessaging.Message.Signed
import SignedMessaging.Proofs.Outcome
import SignedMessaging.Proofs.Signer.Verification

/-!
# Signed frames

A message is packed where it is encoded, and its frames are those of its body behind their
signature.  Frames are unpacked by their signature first: where it is good they are decoded,
and where it is not they are refused for what the signature is.
-/

namespace SignedMessaging.Message

variable {message : Message} {signer : Signer} {frames : SignedFrames Bytes}

/-- The frames of a message stand behind their signature. -/
theorem toSigned_eq_ok_iff : message.toSigned signer = .ok frames ↔
    encode message = .ok frames.body ∧ signer.sign frames.body = .ok frames.signature := by
  constructor
  · intro h
    unfold toSigned at h
    split at h
    · cases h
    · next body hencode =>
      split at h
      · cases h
      · next signature hsignature =>
        cases h
        exact ⟨hencode, hsignature⟩
  · rintro ⟨hencode, hsignature⟩
    simp only [toSigned, hencode, hsignature]

theorem ofSigned_of_accepts (husable : signer.Usable)
    (h : signer.Accepts frames.signature frames.body) :
    ofSigned signer frames = (decode frames.body).mapError .decoding := by
  rw [ofSigned, (Signer.verify_eq_ok_iff husable).2 h]

theorem ofSigned_of_not_accepts (husable : signer.Usable)
    (h : ¬ signer.Accepts frames.signature frames.body) :
    ofSigned signer frames = .error (.signature (Signer.refusal frames.signature)) := by
  rw [ofSigned, Signer.verify_of_not_accepts husable h]

/-- A signer with a key that unpacks something knows its algorithm. -/
theorem usable_of_ofSigned (hkey : signer.key ≠ []) (h : ofSigned signer frames = .ok message) :
    signer.Usable := by
  unfold ofSigned at h
  split at h
  · cases h
  · next hverify => exact Signer.usable_of_verify hkey hverify

/-- Frames are unpacked where their signature is good and they are decoded. -/
theorem ofSigned_eq_ok_iff (husable : signer.Usable) : ofSigned signer frames = .ok message ↔
    signer.Accepts frames.signature frames.body ∧ decode frames.body = .ok message := by
  by_cases haccepts : signer.Accepts frames.signature frames.body
  · rw [ofSigned_of_accepts husable haccepts, Outcome.mapError_eq_ok_iff, and_iff_right haccepts]
  · rw [ofSigned_of_not_accepts husable haccepts]
    simp [haccepts]

end SignedMessaging.Message
