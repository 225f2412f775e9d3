import SignedMessaging.Proofs.Signer.Verification

/-!
# Signatures

The signature of four frames is the text in hexadecimal, in small letters, of their keyed
digest, and it is good in either letter case (`signs_exactly`).  No other signature is good,
and what is refused is refused as a signature: as no hexadecimal where it is not digits in
pairs, and else as a mismatch, whatever its length.

The keyed digest is the standard one (`Digest.Keyed`): the key fills a block, which under two
masks goes before the message and before the digest of that.
-/

namespace SignedMessaging

namespace Digest

/-! ### The standard construction -/

/-- A key as it fills a block: with zeros after it where it is shorter, as it stands where it
is as long, and as its digest with zeros after that where it is longer. -/
structure FillsBlock (algorithm : Algorithm) (key block : Bytes) : Prop where
  length : block.length = algorithm.blockSize
  shorter : key.length < algorithm.blockSize →
    block = key ++ List.replicate (algorithm.blockSize - key.length) 0
  equal : key.length = algorithm.blockSize → block = key
  longer : algorithm.blockSize < key.length →
    block = algorithm.hash key ++ List.replicate (algorithm.blockSize - algorithm.size) 0

/-- The keyed digest of a message by the standard construction. -/
def Keyed (algorithm : Algorithm) (key message mac : Bytes) : Prop :=
  ∃ block, FillsBlock algorithm key block ∧
    mac = algorithm.hash (block.map (· ^^^ 0x5c) ++
      algorithm.hash (block.map (· ^^^ 0x36) ++ message))

theorem fillsBlock_blockKey (algorithm : Algorithm) (key : Bytes) :
    FillsBlock algorithm key (blockKey algorithm key) := by
  by_cases hlonger : algorithm.blockSize < key.length
  · have hblock : blockKey algorithm key = algorithm.hash key ++
        List.replicate (algorithm.blockSize - algorithm.size) 0 := by
      simp only [blockKey, if_pos hlonger, Algorithm.hash_length]
    refine ⟨?_, fun h => absurd h (by omega), fun h => absurd h (by omega), fun _ => hblock⟩
    have := algorithm.size_le_blockSize
    rw [hblock, List.length_append, Algorithm.hash_length, List.length_replicate]
    omega
  · have hblock : blockKey algorithm key = key ++
        List.replicate (algorithm.blockSize - key.length) 0 := by
      simp only [blockKey, if_neg hlonger]
    refine ⟨?_, fun _ => hblock, fun h => ?_, fun h => absurd h hlonger⟩
    · rw [hblock, List.length_append, List.length_replicate]
      omega
    · rw [hblock, h, Nat.sub_self, List.replicate_zero, List.append_nil]

/-- A key fills a block in one way. -/
theorem FillsBlock.unique {algorithm : Algorithm} {key block other : Bytes}
    (h : FillsBlock algorithm key block) (hother : FillsBlock algorithm key other) :
    block = other := by
  rcases Nat.lt_trichotomy key.length algorithm.blockSize with hlength | hlength | hlength
  · rw [h.shorter hlength, hother.shorter hlength]
  · rw [h.equal hlength, hother.equal hlength]
  · rw [h.longer hlength, hother.longer hlength]

/-- The keyed digest is that of the standard construction and nothing else. -/
theorem keyed_iff {algorithm : Algorithm} {key message mac : Bytes} :
    Keyed algorithm key message mac ↔ mac = hmac algorithm key message := by
  constructor
  · rintro ⟨block, hblock, rfl⟩
    rw [hblock.unique (fillsBlock_blockKey algorithm key)]
    rfl
  · rintro rfl
    exact ⟨_, fillsBlock_blockKey algorithm key, rfl⟩

end Digest

namespace Signer

section

variable [Digest.Library] {signer : Signer} {body : Body Bytes}

/-! ### Signing -/

/-- With a key and a known algorithm the signature is the keyed digest in hexadecimal. -/
theorem sign_of_algorithm {algorithm : Digest.Algorithm} (hkey : signer.key ≠ [])
    (h : signer.algorithm = .ok algorithm) (body : Body Bytes) : signer.sign body =
      .ok (Hex.encode (Digest.hmac algorithm signer.key body.toList.flatten)) := by
  rw [sign, if_neg hkey, mac_of_algorithm h]
  rfl

/-- Frames that are the same bytes one after another have the same signature. -/
theorem sign_of_same_bytes {other : Body Bytes}
    (h : other.toList.flatten = body.toList.flatten) : signer.sign other = signer.sign body := by
  rw [sign, sign, mac, mac]
  simp only [authenticate, h]

/-- With a key a signature is good exactly if it is that of the frames once its capital
letters are made small. -/
theorem accepts_iff_sign (hkey : signer.key ≠ []) (husable : signer.Usable) {given : Bytes} :
    signer.Accepts given body ↔ signer.sign body = .ok (given.map Hex.lower) := by
  obtain ⟨algorithm, halgorithm⟩ := exists_algorithm husable
  rw [accepts_iff_spells hkey halgorithm, sign_of_algorithm hkey halgorithm, Hex.Spells,
    Except.ok.injEq, eq_comm]

/-- How four frames are signed, and which signatures of them are good. -/
structure SignsExactly (signer : Signer) (body : Body Bytes) : Prop where
  /-- Without a key the signature is empty, and every signature is good. -/
  unsigned : signer.key = [] →
    signer.sign body = .ok [] ∧ ∀ given, signer.verify given body = .ok ()
  /-- With a key it is the text of the keyed digest in hexadecimal. -/
  signed : signer.key ≠ [] → signer.Usable → ∃ algorithm mac,
    signer.algorithm = .ok algorithm ∧
      Digest.Keyed algorithm signer.key body.toList.flatten mac ∧
      signer.sign body = .ok (Bytes.ofText (Hex.text mac))
  /-- Where the frames are cut plays no part in it. -/
  boundaries {other : Body Bytes} : other.toList.flatten = body.toList.flatten →
    signer.sign other = signer.sign body
  /-- In either letter case it is good. -/
  accepted : signer.key ≠ [] → signer.Usable → ∀ given, signer.verify given body = .ok () ↔
    signer.sign body = .ok (given.map Hex.lower)
  /-- Every other is refused as a signature. -/
  refused : signer.key ≠ [] → signer.Usable → ∀ given,
    signer.sign body ≠ .ok (given.map Hex.lower) → signer.verify given body =
      .error (.signature (if Hex.IsNumeral given then .mismatch else .notHex))

/-- Four frames are signed by the hexadecimal of their keyed digest, and only this is good. -/
theorem signs_exactly (signer : Signer) (body : Body Bytes) : SignsExactly signer body where
  unsigned hkey := ⟨if_pos hkey, fun _ => verify_of_no_key hkey⟩
  signed hkey husable := by
    obtain ⟨algorithm, halgorithm⟩ := exists_algorithm husable
    refine ⟨algorithm, _, halgorithm, Digest.keyed_iff.2 rfl, ?_⟩
    rw [sign_of_algorithm hkey halgorithm, Hex.encode_eq_ofText]
  boundaries := sign_of_same_bytes
  accepted hkey husable given := by
    rw [verify_eq_ok_iff husable, accepts_iff_sign hkey husable]
  refused hkey husable given hsign := by
    rw [ne_eq, ← accepts_iff_sign hkey husable] at hsign
    rw [verify_of_not_accepts husable hsign, refusal]
    simp only [Hex.isSome_decode_iff]

end

/-- Four frames with objects and the null value in them. -/
def plainBody : Body Bytes :=
  ⟨[123, 125], [123, 125], [123, 125], [110, 117, 108, 108]⟩

/-- Under a key of two bytes the signature has 64 digits.  It is good in capital letters too,
and one digit alone is as little good as none. -/
theorem signs_exactly_short :
    ([115, 51] ≠ ([] : Bytes) ∧ Signer.Usable { key := [115, 51] }) ∧
      ∃ mac : Bytes, Digest.Keyed .sha256 [115, 51] plainBody.toList.flatten mac ∧
        Signer.sign { key := [115, 51] } plainBody = .ok (Bytes.ofText (Hex.text mac)) ∧
        (∀ given : Bytes, given.map Hex.lower = Bytes.ofText (Hex.text mac) →
          Signer.verify { key := [115, 51] } given plainBody = .ok ()) ∧
        Signer.verify { key := [115, 51] } [97] plainBody = .error (.signature .notHex) ∧
        Signer.verify { key := [115, 51] } [] plainBody = .error (.signature .mismatch) := by
  have hkey : [115, 51] ≠ ([] : Bytes) := by decide
  have husable : Signer.Usable { key := [115, 51] } := by decide
  have hexact := signs_exactly { key := [115, 51] } plainBody
  obtain ⟨algorithm, mac, halgorithm, hkeyed, hsign⟩ := hexact.signed hkey husable
  cases halgorithm
  -- A signature of another length is not this one.
  have hlength : ∀ given : Bytes, given.length ≠ 64 →
      Signer.sign { key := [115, 51] } plainBody ≠ .ok (given.map Hex.lower) := by
    intro given hgiven heq
    rw [hsign, Except.ok.injEq, ← Hex.encode_eq_ofText, Digest.keyed_iff.1 hkeyed] at heq
    have := congrArg List.length heq
    rw [Hex.encode_length, Digest.hmac_length, List.length_map] at this
    exact hgiven this.symm
  refine ⟨⟨hkey, husable⟩, mac, hkeyed, hsign, fun given hgiven => ?_, ?_, ?_⟩
  · exact (hexact.accepted hkey husable given).2 (by rw [hsign, hgiven])
  · have hrefused := hexact.refused hkey husable [97] (hlength _ (by decide))
    rwa [if_neg (by decide : ¬ Hex.IsNumeral [97])] at hrefused
  · have hrefused := hexact.refused hkey husable [] (hlength _ (by decide))
    rwa [if_pos (by decide : Hex.IsNumeral [])] at hrefused

end Signer

end SignedMessaging
