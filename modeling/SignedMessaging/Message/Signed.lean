import SignedMessaging.Message.Decoding
import SignedMessaging.Message.Encoding
import SignedMessaging.Signer.Frames

/-!
# Signed messages

A message is signed by encoding it and putting the signature of its frames before
them.  A signed message is read by verifying the signature first, so that only
authentic frames are decoded.
-/

namespace SignedMessaging

namespace Message

/-- The frames of a message behind their signature. -/
def toSigned (signer : Signer) (message : Message) : Except Fault (SignedFrames Bytes) :=
  match message.encode with
  | .error fault => .error (.encoding fault)
  | .ok body =>
      match signer.sign body with
      | .error fault => .error (.digest fault)
      | .ok signature => .ok ⟨signature, body⟩

/-- The message of frames whose signature verifies. -/
def ofSigned (signer : Signer) (frames : SignedFrames Bytes) : Except Fault Message :=
  match signer.verify frames.signature frames.body with
  | .error fault => .error fault
  | .ok () => (decode frames.body).mapError .decoding

/-- The message of frames that were handed over; those beyond five do not count. -/
def ofSignedFrames (signer : Signer) (frames : List Value) : Except Fault Message :=
  match SignedFrames.ofList? frames with
  | none => .error (.framing (.tooFew frames.length))
  | some signed =>
      match signer.verifyFrames signed.signature signed.body.toList with
      | .error fault => .error fault
      | .ok () => decodeBody signed.body

/-- On byte strings this is the message of the frames. -/
theorem ofSignedFrames_bytes (signer : Signer) (frames : SignedFrames Bytes) :
    ofSignedFrames signer (frames.map .bytes).toList = ofSigned signer frames := by
  have hverify := signer.verifyFrames_bytes frames.signature frames.body
  have hdecode := decodeBody_bytes frames.body
  simp only [ofSignedFrames, ofSigned, SignedFrames.map, SignedFrames.toList, Body.toList,
    SignedFrames.ofList?, Body.map] at hverify hdecode ⊢
  rw [hverify, hdecode]

end Message

end SignedMessaging
