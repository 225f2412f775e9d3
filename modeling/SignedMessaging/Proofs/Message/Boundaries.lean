import SignedMessaging.Proofs.Json.PrefixFree
import SignedMessaging.Proofs.Message.Normal
import SignedMessaging.Proofs.Message.Signing

/-!
# Boundaries between frames

A signature is made of the frames one after another, without any mark between them, so it
does not protect the boundaries.  It does not have to: the first three frames are objects,
and objects end where they end, so the bytes as a whole determine the message, wherever
they are cut.

Therefore two messages that are read under one signature are the same, unless the keyed
digest collides on the bytes of their frames (`boundaries_immaterial`).  This holds of a
message that was sent as well, even of one that is too deep to be read.
-/

namespace SignedMessaging.Message

/-! ### The message that frames mean -/

open Json (Means TextMeans)

/-- A document is an object whose four members give a header. -/
def HeaderMeant (document : Bytes) (header : Header) : Prop :=
  ∃ entries, Means document (.dictionary entries) ∧
    ∀ key, decodeMember entries key = .ok (header.get key)

/-- Four frames mean a message, however deep they nest. -/
def MeantBy (body : Body Bytes) (message : Message) : Prop :=
  ∃ header parentHeader metadata content, HeaderMeant body.header header ∧
    HeaderMeant body.parentHeader parentHeader ∧ Means body.metadata (.dictionary metadata) ∧
    Means body.content content ∧
    message = ⟨.header header, .header parentHeader, .dictionary metadata, content⟩

variable {body : Body Bytes} {message : Message}

theorem headerMeant_of_decode {document : Bytes} {header : Header}
    (h : decodeHeader document = .ok header) : HeaderMeant document header := by
  obtain ⟨entries, hentries, hmembers⟩ := decodeHeader_eq_ok_iff.1 h
  exact ⟨entries, hentries.means, hmembers⟩

/-- Frames mean the message that they are decoded to. -/
theorem meantBy_of_decode (h : decode body = .ok message) : MeantBy body message := by
  obtain ⟨header, parentHeader, metadata, content, hheader, hparent, hmetadata, hcontent, rfl⟩ :=
    decode_eq_ok_iff.1 h
  exact ⟨header, parentHeader, metadata, content, headerMeant_of_decode hheader,
    headerMeant_of_decode hparent, hmetadata.means, hcontent.means, rfl⟩

/-- The frames of a message mean its normal form. -/
theorem meantBy_normal (h : encode message = .ok body) (hkeyed : message.WellKeyed) :
    MeantBy body message.normal := by
  obtain ⟨header, parentHeader, entries, h⟩ := encode_eq_ok_iff.1 h
  have hmetadata := means_of_encodeValue h.metadata_encoded (h.wellKeyed_metadata hkeyed)
  rw [Value.normal] at hmetadata
  exact ⟨header, parentHeader, _, _,
    headerMeant_of_decode (decodeHeader_of_encode h.header_textual h.header_encoded),
    headerMeant_of_decode (decodeHeader_of_encode h.parentHeader_textual h.parentHeader_encoded),
    hmetadata, means_of_encodeValue h.content_encoded hkeyed.2, h.normal_eq⟩

/-- The entries of an object determine the header that they give. -/
theorem header_unique {entries : Entries} {header header' : Header}
    (h : ∀ key, decodeMember entries key = .ok (header.get key))
    (h' : ∀ key, decodeMember entries key = .ok (header'.get key)) : header = header' := by
  have hget : ∀ key, header.get key = header'.get key := fun key =>
    Except.ok.inj ((h key).symm.trans (h' key))
  cases header
  cases header'
  rw [Header.mk.injEq]
  exact ⟨hget .msgId, hget .username, hget .session, hget .msgType⟩

/-- Four texts in UTF-8 are determined as one by their bytes. -/
theorem texts_of_flatten {s t u v s' t' u' v' : String}
    (h : [Bytes.ofText s, Bytes.ofText t, Bytes.ofText u, Bytes.ofText v].flatten =
      [Bytes.ofText s', Bytes.ofText t', Bytes.ofText u', Bytes.ofText v'].flatten) :
    [s.toList, t.toList, u.toList].flatten ++ v.toList =
      [s'.toList, t'.toList, u'.toList].flatten ++ v'.toList := by
  simp only [List.flatten_cons, List.flatten_nil, List.append_nil, ← Bytes.ofText_append] at h
  have htexts := congrArg String.toList (Bytes.ofText_injective h)
  simpa only [String.toList_append, List.flatten_cons, List.flatten_nil, List.append_nil,
    List.append_assoc] using htexts

/-- Frames that are the same bytes one after another mean the same message. -/
theorem MeantBy.unique {body' : Body Bytes} {message' : Message} (h : MeantBy body message)
    (h' : MeantBy body' message') (hbytes : body.toList.flatten = body'.toList.flatten) :
    message = message' := by
  obtain ⟨header, parentHeader, metadata, content, ⟨entries, hheader, hmembers⟩,
    ⟨parentEntries, hparent, hparentMembers⟩, hmetadata, hcontent, rfl⟩ := h
  obtain ⟨header', parentHeader', metadata', content', ⟨entries', hheader', hmembers'⟩,
    ⟨parentEntries', hparent', hparentMembers'⟩, hmetadata', hcontent', rfl⟩ := h'
  rw [Json.means_iff] at hheader hparent hmetadata hcontent hheader' hparent' hmetadata' hcontent'
  obtain ⟨s, hs, hheader⟩ := hheader
  obtain ⟨t, ht, hparent⟩ := hparent
  obtain ⟨u, hu, hmetadata⟩ := hmetadata
  obtain ⟨v, hv, hcontent⟩ := hcontent
  obtain ⟨s', hs', hheader'⟩ := hheader'
  obtain ⟨t', ht', hparent'⟩ := hparent'
  obtain ⟨u', hu', hmetadata'⟩ := hmetadata'
  obtain ⟨v', hv', hcontent'⟩ := hcontent'
  -- Three objects and a last document, in either cut of the same text.
  have hobjects : List.Forall₂ (fun entries => TextMeans (.dictionary entries))
      [entries, parentEntries, metadata] [s.toList, t.toList, u.toList] :=
    .cons hheader (.cons hparent (.cons hmetadata .nil))
  have hobjects' : List.Forall₂ (fun entries => TextMeans (.dictionary entries))
      [entries', parentEntries', metadata'] [s'.toList, t'.toList, u'.toList] :=
    .cons hheader' (.cons hparent' (.cons hmetadata' .nil))
  rw [Body.toList, Body.toList, hs, ht, hu, hv, hs', ht', hu', hv'] at hbytes
  obtain ⟨hsame, rfl⟩ := Json.texts_unique hobjects hobjects' rfl hcontent hcontent'
    Json.blanks_nil Json.blanks_nil (texts_of_flatten hbytes)
  cases hsame
  rw [header_unique hmembers hmembers', header_unique hparentMembers hparentMembers']

/-- Frames that are the same bytes one after another are decoded to the same message. -/
theorem decode_of_same_bytes {body' : Body Bytes} {message' : Message}
    (h : decode body = .ok message) (h' : decode body' = .ok message')
    (hbytes : body.toList.flatten = body'.toList.flatten) : message = message' :=
  (meantBy_of_decode h).unique (meantBy_of_decode h') hbytes

/-! ### Frames under one signature -/

variable {signer : Signer} {frames frames' : SignedFrames Bytes} {message' : Message}

/-- Frames under one signature are unpacked to the same message, or the digest collides. -/
theorem ofSigned_or_collides (hkey : signer.key ≠ [])
    (hsignature : frames.signature.map Hex.lower = frames'.signature.map Hex.lower)
    (h : ofSigned signer frames = .ok message) (h' : ofSigned signer frames' = .ok message') :
    message = message' ∨
      signer.Collides frames.body.toList.flatten frames'.body.toList.flatten := by
  have husable := usable_of_ofSigned hkey h
  obtain ⟨haccepts, hdecode⟩ := (ofSigned_eq_ok_iff husable).1 h
  obtain ⟨haccepts', hdecode'⟩ := (ofSigned_eq_ok_iff husable).1 h'
  rcases Signer.same_bytes_or_collides hkey husable haccepts haccepts' hsignature with
    hbytes | hcollides
  · exact .inl (decode_of_same_bytes hdecode hdecode' hbytes)
  · exact .inr hcollides

/-- Frames under the signature of a message are unpacked to its normal form, or the digest
collides. -/
theorem ofSigned_normal_or_collides (hkey : signer.key ≠ [])
    (hsignature : frames.signature.map Hex.lower = frames'.signature.map Hex.lower)
    (hkeyed : message.WellKeyed) (h : message.toSigned signer = .ok frames)
    (h' : ofSigned signer frames' = .ok message') :
    message' = message.normal ∨
      signer.Collides frames.body.toList.flatten frames'.body.toList.flatten := by
  have husable := usable_of_ofSigned hkey h'
  obtain ⟨hencode, hsign⟩ := toSigned_eq_ok_iff.1 h
  obtain ⟨haccepts', hdecode'⟩ := (ofSigned_eq_ok_iff husable).1 h'
  rcases Signer.same_bytes_or_collides hkey husable (Signer.accepts_of_sign hsign) haccepts'
    hsignature with hbytes | hcollides
  -- The message sent may be too deep to be decoded, so its frames are taken as they mean it.
  · exact .inl ((meantBy_of_decode hdecode').unique (meantBy_normal hencode hkeyed) hbytes.symm)
  · exact .inr hcollides

/-- The boundaries between frames may be anywhere.  Frames that are the same bytes one after
another are decoded to the same message.  With a key, frames that are unpacked under the
same signature, letter case aside, are unpacked to the same message, unless the keyed digest
collides on their bytes; and frames that are unpacked under the signature of a message that
was packed are unpacked to its normal form, with the same exception. -/
theorem boundaries_immaterial :
    (∀ (body body' : Body Bytes) (message message' : Message),
      body.toList.flatten = body'.toList.flatten → decode body = .ok message →
        decode body' = .ok message' → message = message') ∧
    (∀ (signer : Signer) (frames frames' : SignedFrames Bytes), signer.key ≠ [] →
        frames.signature.map Hex.lower = frames'.signature.map Hex.lower →
      (∀ message message' : Message, ofSigned signer frames = .ok message →
        ofSigned signer frames' = .ok message' → message = message' ∨
          signer.Collides frames.body.toList.flatten frames'.body.toList.flatten) ∧
      (∀ message message' : Message, message.WellKeyed → message.toSigned signer = .ok frames →
        ofSigned signer frames' = .ok message' → message' = message.normal ∨
          signer.Collides frames.body.toList.flatten frames'.body.toList.flatten)) := by
  refine ⟨?_, ?_⟩
  · intro body body' message message' hbytes h h'
    exact decode_of_same_bytes h h' hbytes
  · intro signer frames frames' hkey hsignature
    refine ⟨?_, ?_⟩
    · intro message message' h h'
      exact ofSigned_or_collides hkey hsignature h h'
    · intro message message' hkeyed h h'
      exact ofSigned_normal_or_collides hkey hsignature hkeyed h h'

theorem decode_emptyObjects {metadata content : Bytes}
    (hmetadata : Json.Denotes metadata (.dictionary [])) (hcontent : Json.Denotes content .null) :
    decode ⟨emptyObject, emptyObject, metadata, content⟩ = .ok {} :=
  decode_eq_ok_iff.2 ⟨_, _, _, _, decodeHeader_emptyObject, decodeHeader_emptyObject, hmetadata,
    hcontent, rfl⟩

/-- A blank between metadata and content may stand in either frame, under one signature. -/
theorem boundaries_immaterial_blank :
    ∃ frames frames' : SignedFrames Bytes, frames.body ≠ frames'.body ∧
      frames.body.toList.flatten = frames'.body.toList.flatten ∧
      frames.signature.map Hex.lower = frames'.signature.map Hex.lower ∧
      (∃ message, decode frames.body = .ok message ∧ decode frames'.body = .ok message) ∧
      (∃ message, ofSigned { key := [1] } frames = .ok message ∧
        ofSigned { key := [1] } frames' = .ok message) ∧
      ∃ sent message, toSigned { key := [1] } {} = .ok sent ∧
        ofSigned { key := [1] } sent = .ok message ∧ message = normal {} := by
  have husable : Signer.Usable { key := [1] } := by decide
  have hblank : Json.Blanks [' '] := by simp [Json.Blanks]
  have hobject : Json.Spells (.object []) ('\x7b' :: ([] ++ ['\x7d'])) :=
    .object (.empty Json.blanks_nil)
  have hmetadata : Json.Denotes (Bytes.ofText "\x7b\x7d ") (.dictionary []) :=
    ⟨_, _, rfl, .blanks Json.blanks_nil hobject hblank, by decide, rfl⟩
  have hnull : Json.Denotes (Bytes.ofText "null") .null :=
    ⟨_, _, rfl, .blanks Json.blanks_nil .null Json.blanks_nil, by decide, rfl⟩
  have hnull' : Json.Denotes (Bytes.ofText " null") .null :=
    ⟨_, _, rfl, .blanks hblank .null Json.blanks_nil, by decide, rfl⟩
  let body : Body Bytes := ⟨emptyObject, emptyObject, Bytes.ofText "\x7b\x7d ", Bytes.ofText "null"⟩
  let body' : Body Bytes := ⟨emptyObject, emptyObject, emptyObject, Bytes.ofText " null"⟩
  obtain ⟨message, hdecode⟩ : ∃ message, decode body = .ok message :=
    ⟨_, decode_emptyObjects hmetadata hnull⟩
  obtain ⟨message', hdecode'⟩ : ∃ message', decode body' = .ok message' :=
    ⟨_, decode_emptyObjects denotes_emptyObject hnull'⟩
  have hdifferent : body ≠ body' := by decide
  have hbytes : body.toList.flatten = body'.toList.flatten := by decide
  obtain ⟨signature, hsign⟩ := Signer.exists_sign husable body
  have haccepts := Signer.accepts_of_sign hsign
  have hread : ofSigned { key := [1] } ⟨signature, body⟩ = .ok message :=
    (ofSigned_eq_ok_iff husable).2 ⟨haccepts, hdecode⟩
  have hread' : ofSigned { key := [1] } ⟨signature, body'⟩ = .ok message' := by
    rw [Signer.Accepts, hbytes] at haccepts
    exact (ofSigned_eq_ok_iff husable).2 ⟨haccepts, hdecode'⟩
  have hkeyed : WellKeyed {} :=
    wellKeyed_of_content (by simp [Value.WellKeyed, Value.Everywhere])
  obtain ⟨encoded, hencode⟩ : ∃ encoded, encode {} = .ok encoded :=
    exists_encode_of_content rfl
  obtain ⟨sent, hsent, hreceived, -⟩ := exists_toSigned hencode hkeyed husable
  refine ⟨⟨signature, body⟩, ⟨signature, body'⟩, hdifferent, hbytes, rfl, ?_, ?_, sent, _, hsent,
    hreceived.2 (by decide), ?_⟩
  · have hsame := boundaries_immaterial.1 body body' message message' hbytes hdecode hdecode'
    exact ⟨message, hdecode, by rw [hsame, hdecode']⟩
  · have hsame := (boundaries_immaterial.2 _ ⟨signature, body⟩ ⟨signature, body'⟩
      (by decide) rfl).1 message message' hread hread'
    rcases hsame with hsame | hcollides
    · exact ⟨message, hread, by rw [hsame, hread']⟩
    · exact absurd hbytes hcollides.1
  · have hnormal := (boundaries_immaterial.2 _ _ _ (by decide) rfl).2 {} _ hkeyed hsent
      (hreceived.2 (by decide))
    exact hnormal.resolve_right fun hcollides => hcollides.1 rfl

end SignedMessaging.Message
