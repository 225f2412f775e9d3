import SignedMessaging.Signer.Basic

/-!
# Signing what was handed over

A signer also takes frames as they were handed over.  There must be four, and
only byte strings can be authenticated.  A signature may be given as text if the
text is ASCII; other things than bytes and texts are no hexadecimal.
-/

namespace SignedMessaging

namespace Signer

/-- The bytes of a frame that is authenticated. -/
def frameBytes : Value → Except DigestFault Bytes
  | .bytes b => .ok b
  | .text _ => .error .textFrame
  | _ => .error .noBytes

/-- The bytes of four frames, in order. -/
def bodyBytes (body : Body Value) : Except DigestFault (Body Bytes) := do
  let header ← frameBytes body.header
  let parentHeader ← frameBytes body.parentHeader
  let metadata ← frameBytes body.metadata
  let content ← frameBytes body.content
  return ⟨header, parentHeader, metadata, content⟩

variable [Digest.Library]

/-- The keyed digest of frames as they were handed over. -/
def macOfFrames (signer : Signer) (frames : List Value) : Except DigestFault Bytes :=
  match Body.ofList? frames with
  | none => .error (.frameCount frames.length)
  | some body =>
      match signer.algorithm with
      | .error fault => .error fault
      | .ok algorithm => (bodyBytes body).map (signer.authenticate algorithm)

/-- The signature of frames as they were handed over. -/
def signFrames (signer : Signer) (frames : List Value) : Except DigestFault Bytes :=
  if signer.key = [] then .ok [] else (signer.macOfFrames frames).map Hex.encode

/-- The bytes that a signature stands for. -/
def suppliedBytes (signature : Value) : Except Fault Bytes :=
  match signature with
  | .bytes b => decoded b
  | .text s =>
      if s.toList.all fun c => c.toNat < 128 then decoded (Bytes.ofText s)
      else .error (.digest .signatureNotAscii)
  | _ => .error (.signature .notHex)
where
  /-- Hexadecimal digits as bytes. -/
  decoded (digits : Bytes) : Except Fault Bytes :=
    match Hex.decode digits with
    | some bytes => .ok bytes
    | none => .error (.signature .notHex)

/-- Verify a signature of frames as they were handed over. -/
def verifyFrames (signer : Signer) (signature : Value) (frames : List Value) :
    Except Fault Unit :=
  if signer.key = [] then .ok ()
  else
    match suppliedBytes signature with
    | .error fault => .error fault
    | .ok supplied =>
        match signer.macOfFrames frames with
        | .error fault => .error (.digest fault)
        | .ok expected =>
            if expected = supplied then .ok () else .error (.signature .mismatch)

/-- On byte strings this is the keyed digest of the frames. -/
theorem macOfFrames_bytes (signer : Signer) (body : Body Bytes) :
    signer.macOfFrames (body.map .bytes).toList = signer.mac body := by
  unfold macOfFrames mac
  rw [Body.ofList?_toList]
  rfl

/-- On byte strings this is the signature of the frames. -/
theorem signFrames_bytes (signer : Signer) (body : Body Bytes) :
    signer.signFrames (body.map .bytes).toList = signer.sign body := by
  rw [signFrames, macOfFrames_bytes, sign]

/-- On byte strings this is the verification of the frames. -/
theorem verifyFrames_bytes (signer : Signer) (signature : Bytes) (body : Body Bytes) :
    signer.verifyFrames (.bytes signature) (body.map .bytes).toList =
      signer.verify signature body := by
  rw [verifyFrames, macOfFrames_bytes, verify, suppliedBytes, suppliedBytes.decoded]
  cases Hex.decode signature <;> rfl

end Signer

end SignedMessaging
