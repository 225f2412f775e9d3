import SignedMessaging.Proofs.Json.Members
import SignedMessaging.Proofs.Json.Writing
import SignedMessaging.Proofs.Message.FrameDecoding
import SignedMessaging.Proofs.Message.Parts

/-!
# Which frames can be decoded

A header frame is decoded if it is an object in which the last member of each of four names is a
text or missing, a metadata frame if it is an object, and a content frame if the reader takes
it.  The first frame that is not decoded is reported, whatever comes after it.  A header has
the texts of these members, and empty texts for those that are missing (`headerOf`).

Of a header frame only the values of the four last members count: two objects that agree on them
are decoded alike, however they are spelled and whatever else is in them (`interchangeable`).  But
what else is in them must be read as well, and a single number beyond the doubles keeps a
header from being decoded (`decode_overflowing_member`).
-/

namespace SignedMessaging.Message

open Json (Accepted Denotes Edit Tree lastUnder?)

variable {document other : Bytes} {members others : List (List Char × Tree)} {entries : Entries}

/-! ### Headers -/

/-- The member of an object that counts for a header. -/
def lastMember? (members : List (List Char × Tree)) (key : HeaderKey) : Option Tree :=
  lastUnder? members key.name.toList

/-- The value of that member. -/
def lastValue? (members : List (List Char × Tree)) (key : HeaderKey) : Option Value :=
  (lastMember? members key).bind Tree.value?

/-- Whether an object is one of a header: what counts in it are texts. -/
def IsHeader (members : List (List Char × Tree)) : Prop :=
  ∀ key tree, lastMember? members key = some tree → ∃ cs, tree = .text cs

/-- Only a text denotes a text. -/
theorem exists_text {tree : Tree} {s : String} (h : tree.value? = some (.text s)) :
    ∃ cs, tree = .text cs := by
  cases tree with
  | text cs => exact ⟨cs, rfl⟩
  | null | bool _ => cases h
  | number literal => simpa using Json.number_of_literal h
  | list items =>
      obtain ⟨_, -, heq⟩ := Option.map_eq_some_iff.1 h
      cases heq
  | object members =>
      obtain ⟨_, -, heq⟩ := Option.map_eq_some_iff.1 h
      cases heq

/-- What is found in the dictionary of an object is what counts in the object. -/
theorem find?_eq_lastValue? (h : Accepted document (.object members))
    (hentries : Denotes document (.dictionary entries)) (key : HeaderKey) :
    entries.find? key.name = lastValue? members key := by
  have hfound := Json.find?_of_object h hentries key.name
  rw [lastValue?, lastMember?]
  generalize lastUnder? members key.name.toList = last, entries.find? key.name = found at hfound ⊢
  cases hfound with
  | none => rfl
  | some hvalue => exact hvalue.symm

theorem exists_decodeMember_iff (h : Accepted document (.object members))
    (hentries : Denotes document (.dictionary entries)) (key : HeaderKey) :
    (∃ v, decodeMember entries key = .ok v) ↔
      ∀ tree, lastMember? members key = some tree → ∃ cs, tree = .text cs := by
  have hfound := Json.find?_of_object h hentries key.name
  rw [lastMember?, decodeMember]
  generalize lastUnder? members key.name.toList = last, entries.find? key.name = found at hfound ⊢
  cases hfound with
  | none => simp
  | @some tree v hvalue =>
      cases v with
      | text s => simp [exists_text hvalue]
      | _ =>
          refine iff_of_false (by simp) fun htext => ?_
          obtain ⟨cs, rfl⟩ := htext tree rfl
          cases hvalue

/-- A header is decoded exactly from an object of one. -/
theorem exists_decodeHeader_iff : (∃ header, decodeHeader document = .ok header) ↔
    ∃ members, Accepted document (.object members) ∧ IsHeader members := by
  constructor
  · rintro ⟨header, hheader⟩
    obtain ⟨entries, hentries, hmembers⟩ := decodeHeader_eq_ok_iff.1 hheader
    obtain ⟨members, h⟩ := Json.exists_object hentries
    exact ⟨members, h, fun key => (exists_decodeMember_iff h hentries key).1 ⟨_, hmembers key⟩⟩
  · rintro ⟨members, h, hheader⟩
    obtain ⟨found, -, hentries⟩ := Json.exists_merged h
    choose v hv using fun key => (exists_decodeMember_iff h hentries key).2 (hheader key)
    refine ⟨⟨v .msgId, v .username, v .session, v .msgType⟩, ?_⟩
    refine decodeHeader_eq_ok_iff.2 ⟨_, hentries, fun key => ?_⟩
    cases key <;> exact hv _

/-- The header of an object: under each name what counts, or an empty text. -/
def headerOf (members : List (List Char × Tree)) : Header :=
  ⟨(lastValue? members .msgId).getD (.text ""), (lastValue? members .username).getD (.text ""),
    (lastValue? members .session).getD (.text ""), (lastValue? members .msgType).getD (.text "")⟩

theorem eq_headerOf {header : Header} (h : Accepted document (.object members))
    (hheader : decodeHeader document = .ok header) : header = headerOf members := by
  obtain ⟨entries, hentries, hmembers⟩ := decodeHeader_eq_ok_iff.1 hheader
  have hget : ∀ key, header.get key = (lastValue? members key).getD (.text "") := by
    intro key
    have hmember := hmembers key
    rw [decodeMember, find?_eq_lastValue? h hentries] at hmember
    split at hmember
    · next hnone =>
        rw [hnone]
        exact (Except.ok.inj hmember).symm
    · next s hsome =>
        rw [hsome]
        exact (Except.ok.inj hmember).symm
    · cases hmember
  rw [headerOf, ← hget, ← hget, ← hget, ← hget]
  rfl

/-- Objects with the same values in what counts are decoded to the same header, or refused for
the same cause. -/
theorem decodeHeader_congr (h : Accepted document (.object members))
    (hother : Accepted other (.object others))
    (hsame : ∀ key, lastValue? members key = lastValue? others key) :
    decodeHeader document = decodeHeader other := by
  obtain ⟨found, -, hentries⟩ := Json.exists_merged h
  obtain ⟨found', -, hentries'⟩ := Json.exists_merged hother
  have hmember : decodeMember (Tree.merged found) = decodeMember (Tree.merged found') := by
    funext key
    rw [decodeMember, decodeMember, find?_eq_lastValue? h hentries,
      find?_eq_lastValue? hother hentries', hsame]
  rw [decodeHeader, decodeHeader, decodeEntries_eq_ok_iff.2 hentries,
    decodeEntries_eq_ok_iff.2 hentries']
  simp only [bind, Except.bind, hmember]

/-! ### Messages -/

variable {body : Body Bytes} {field : Field}

/-- Whether a frame can be decoded. -/
def Decodable (body : Body Bytes) : Field → Prop
  | .header => ∃ members, Accepted body.header (.object members) ∧ IsHeader members
  | .parentHeader => ∃ members, Accepted body.parentHeader (.object members) ∧ IsHeader members
  | .metadata => ∃ members, Accepted body.metadata (.object members)
  | .content => ∃ tree, Accepted body.content tree

theorem exists_decodeEntries_iff : (∃ entries, decodeEntries document = .ok entries) ↔
    ∃ members, Accepted document (.object members) := by
  simp only [decodeEntries_eq_ok_iff]
  constructor
  · rintro ⟨entries, hentries⟩
    exact Json.exists_object hentries
  · rintro ⟨members, h⟩
    obtain ⟨found, -, hentries⟩ := Json.exists_merged h
    exact ⟨_, hentries⟩

theorem exists_decodeValue_iff : (∃ v, decodeValue document = .ok v) ↔
    ∃ tree, Accepted document tree := by
  simp only [decodeValue_eq_ok_iff, Json.exists_denotes_iff]

theorem decodable_iff : Decodable body field ↔ (decodingCauses body).get field = none := by
  cases field with
  | header => exact exists_decodeHeader_iff.symm.trans Outcome.fault?_eq_none_iff.symm
  | parentHeader => exact exists_decodeHeader_iff.symm.trans Outcome.fault?_eq_none_iff.symm
  | metadata => exact exists_decodeEntries_iff.symm.trans Outcome.fault?_eq_none_iff.symm
  | content => exact exists_decodeValue_iff.symm.trans Outcome.fault?_eq_none_iff.symm

/-- Why a frame cannot be decoded does not depend on the others. -/
theorem get_decodingCauses_congr {later : Body Bytes} (h : later.get field = body.get field) :
    (decodingCauses later).get field = (decodingCauses body).get field := by
  cases field with
  | header => exact congrArg (fun document => Outcome.fault? (decodeHeader document)) h
  | parentHeader => exact congrArg (fun document => Outcome.fault? (decodeHeader document)) h
  | metadata => exact congrArg (fun document => Outcome.fault? (decodeEntries document)) h
  | content => exact congrArg (fun document => Outcome.fault? (decodeValue document)) h

/-- Whether two documents are decoded alike in the place of either header. -/
def Interchangeable (document other : Bytes) : Prop :=
  ∀ body : Body Bytes,
    decode { body with header := document } = decode { body with header := other } ∧
    decode { body with parentHeader := document } = decode { body with parentHeader := other }

theorem interchangeable (h : Accepted document (.object members))
    (hother : Accepted other (.object others))
    (hsame : ∀ key, lastValue? members key = lastValue? others key) :
    Interchangeable document other := by
  have hheader := decodeHeader_congr h hother hsame
  intro body
  constructor
  · simp only [decode, hheader]
  · simp only [decode, hheader]

/-- The names that count in a header. -/
def IsHeaderName (name : List Char) : Prop :=
  ∃ key : HeaderKey, name = key.name.toList

theorem lastValue?_of_edits (h : Relation.EqvGen (Edit IsHeaderName) members others)
    (key : HeaderKey) : lastValue? members key = lastValue? others key := by
  rw [lastValue?, lastValue?, lastMember?, lastMember?, Json.lastUnder?_of_edits h ⟨key, rfl⟩]

/-- When four frames are decoded, which frame is reported where they are not, and what of a
header frame counts. -/
structure DecodingLaw (body : Body Bytes) : Prop where
  message : (∃ message, decode body = .ok message) ↔ ∀ field, Decodable body field
  header : ∀ message members, decode body = .ok message →
    Accepted body.header (.object members) → message.header = .header (headerOf members)
  parentHeader : ∀ message members, decode body = .ok message →
    Accepted body.parentHeader (.object members) →
      message.parentHeader = .header (headerOf members)
  frame : ∀ field, (∃ cause, decode body = .error ⟨field, cause⟩) ↔
    ¬ Decodable body field ∧ ∀ earlier ∈ field.before, Decodable body earlier
  /-- Frames after the one that is reported make no difference. -/
  later : ∀ field cause (later : Body Bytes), later.get field = body.get field →
    (∀ earlier ∈ field.before, later.get earlier = body.get earlier) →
      decode body = .error ⟨field, cause⟩ → decode later = .error ⟨field, cause⟩
  alike : ∀ document other members others, Accepted document (.object members) →
    Accepted other (.object others) →
      (∀ key, lastValue? members key = lastValue? others key) → Interchangeable document other
  edited : ∀ document other members others, Accepted document (.object members) →
    Accepted other (.object others) →
      Relation.EqvGen (Edit IsHeaderName) members others → Interchangeable document other

/-- Any four frames are decoded to a message or refused for the first that cannot be decoded, and
a header frame counts only by the last of its members under each of four names. -/
theorem decode_decides (body : Body Bytes) : DecodingLaw body where
  message := by
    rw [exists_decode_iff]
    exact forall_congr' fun _ => decodable_iff.symm
  header message members hmessage h := by
    obtain ⟨header, _, _, _, hheader, -, -, -, rfl⟩ := decode_eq_ok_iff.1 hmessage
    rw [eq_headerOf h hheader]
  parentHeader message members hmessage h := by
    obtain ⟨_, parentHeader, _, _, -, hparent, -, -, rfl⟩ := decode_eq_ok_iff.1 hmessage
    rw [eq_headerOf h hparent]
  frame field := by
    simp only [exists_decode_eq_error_iff, decodable_iff, ne_eq]
  later field cause later hfield hbefore h := by
    rw [decode_eq_error_iff] at h ⊢
    refine ⟨(get_decodingCauses_congr hfield).trans h.1, fun earlier hearlier => ?_⟩
    exact (get_decodingCauses_congr (hbefore earlier hearlier)).trans (h.2 earlier hearlier)
  alike _ _ _ _ := interchangeable
  edited _ _ _ _ h hother hedits := interchangeable h hother (lastValue?_of_edits hedits)

theorem not_isHeaderName : ¬ IsHeaderName ['x'] := by
  rintro ⟨key, hkey⟩
  cases key <;> cases hkey

/-- A header with an identifier. -/
def identified : List (List Char × Tree) :=
  [("msg_id".toList, .text ['a'])]

/-- The same behind another member and another identifier. -/
def identifiedAgain : List (List Char × Tree) :=
  [(['x'], .null), ("msg_id".toList, .text ['b']), ("msg_id".toList, .text ['a'])]

theorem accepted_identified :
    Accepted (Bytes.ofText "\x7b\"msg_id\":\"a\"\x7d") (.object identified) := by
  have hname := Json.writeText_spells "msg_id".toList
  have htext := Json.writeText_spells ['a']
  have hmembers : Json.Listed (Json.MemberText Json.Spells) identified _ :=
    .last Json.blanks_nil (.colon hname Json.blanks_nil Json.blanks_nil (.text htext))
      Json.blanks_nil
  exact ⟨_, rfl, .blanks Json.blanks_nil (.object hmembers) Json.blanks_nil, by decide, _, rfl⟩

theorem accepted_identifiedAgain :
    Accepted (Bytes.ofText "\x7b\"x\":null,\"msg_id\":\"b\", \"msg_id\":\"\\u0061\"\x7d")
      (.object identifiedAgain) := by
  have hother := Json.writeText_spells ['x']
  have hname := Json.writeText_spells "msg_id".toList
  have hfirst := Json.writeText_spells ['b']
  have hunit : Json.CodeUnit 0x61 ['0', '0', '6', '1'] :=
    .digits (i := 0) (j := 0) (k := 6) (l := 1) ⟨by decide, .inl rfl⟩ ⟨by decide, .inl rfl⟩
      ⟨by decide, .inl rfl⟩ ⟨by decide, .inl rfl⟩
  have hlast : Json.QuotedText ['a'] _ :=
    .quotes (.cons (.unit hunit (by simp [Json.IsHighSurrogate]) (by simp [Json.IsLowSurrogate]))
      .nil)
  have hblank : Json.Blanks [' '] := by simp [Json.Blanks]
  have hmembers : Json.Listed (Json.MemberText Json.Spells) identifiedAgain _ :=
    .more Json.blanks_nil (.colon hother Json.blanks_nil Json.blanks_nil .null) Json.blanks_nil
      (.more Json.blanks_nil (.colon hname Json.blanks_nil Json.blanks_nil (.text hfirst))
        Json.blanks_nil
        (.last hblank (.colon hname Json.blanks_nil Json.blanks_nil (.text hlast))
          Json.blanks_nil))
  exact ⟨_, rfl, .blanks Json.blanks_nil (.object hmembers) Json.blanks_nil, by decide, _, rfl⟩

/-- Another member and an earlier identifier make no difference, and neither do an escape and a
blank. -/
theorem decode_decides_identified :
    Accepted (Bytes.ofText "\x7b\"msg_id\":\"a\"\x7d") (.object identified) ∧
    Accepted (Bytes.ofText "\x7b\"x\":null,\"msg_id\":\"b\", \"msg_id\":\"\\u0061\"\x7d")
      (.object identifiedAgain) ∧
    Relation.EqvGen (Edit IsHeaderName) identified identifiedAgain ∧
    Interchangeable (Bytes.ofText "\x7b\"msg_id\":\"a\"\x7d")
      (Bytes.ofText "\x7b\"x\":null,\"msg_id\":\"b\", \"msg_id\":\"\\u0061\"\x7d") := by
  have hearlier : Edit IsHeaderName identified
      [("msg_id".toList, .text ['b']), ("msg_id".toList, .text ['a'])] :=
    @Edit.earlier _ _ [] [] [] _ _ _
  have hother : Edit IsHeaderName
      [("msg_id".toList, .text ['b']), ("msg_id".toList, .text ['a'])] identifiedAgain :=
    @Edit.other _ _ [] _ _ not_isHeaderName
  have hedits := (Relation.EqvGen.rel _ _ hearlier).trans _ _ _ (.rel _ _ hother)
  have hlaw := decode_decides ⟨emptyObject, emptyObject, emptyObject, emptyObject⟩
  exact ⟨accepted_identified, accepted_identifiedAgain, hedits,
    hlaw.edited _ _ _ _ accepted_identified accepted_identifiedAgain hedits⟩

/-- A member that does not count, with a number beyond the doubles. -/
def overflowing : List (List Char × Tree) :=
  [(['x'], .number ⟨false, ['1'], none, some 999⟩)]

theorem spells_overflowing :
    Json.SpellsDocument (.object overflowing) "\x7b\"x\":1e999\x7d".toList := by
  have hkey : Json.QuotedText ['x'] ('"' :: (['x'] ++ [] ++ ['"'])) :=
    .quotes (.cons (.plain (by decide) (by decide) (by decide)) .nil)
  have hdigits : Json.Digits ['9', '9', '9'] := by simp [Json.Digits]
  have hnumber : Json.NumberText ⟨false, ['1'], none, some 999⟩ _ :=
    .parts .none (by simp [Json.Digits]) (by simp) .none (.positive (.inl rfl) (.inl rfl) hdigits)
  have hmembers : Json.Listed (Json.MemberText Json.Spells) overflowing _ :=
    .last Json.blanks_nil (.colon hkey Json.blanks_nil Json.blanks_nil (.number hnumber))
      Json.blanks_nil
  exact .blanks Json.blanks_nil (.object hmembers) Json.blanks_nil

/-- Put into an empty header, a member that does not count but is not read keeps the header from
being decoded. -/
theorem decode_overflowing_member :
    Json.SpellsDocument (.object overflowing) "\x7b\"x\":1e999\x7d".toList ∧
    IsHeader overflowing ∧ Edit IsHeaderName [] overflowing ∧
    decode ⟨emptyObject, emptyObject, emptyObject, emptyObject⟩ =
      .ok ⟨.header {}, .header {}, .dictionary [], .dictionary []⟩ ∧
    decode ⟨Bytes.ofText "\x7b\"x\":1e999\x7d", emptyObject, emptyObject, emptyObject⟩ =
      .error ⟨.header, .malformed⟩ := by
  have hlast : ∀ key, lastMember? overflowing key = none := by
    intro key
    have hne : key.name.toList ≠ ['x'] := fun h => not_isHeaderName ⟨key, h.symm⟩
    rw [lastMember?, overflowing, Json.lastUnder?_cons, if_neg hne]
    rfl
  have hread : Json.read (Bytes.ofText "\x7b\"x\":1e999\x7d") = none :=
    Option.isNone_iff_eq_none.1 (by decide +kernel)
  refine ⟨spells_overflowing, fun key tree htree => ?_,
    @Edit.other _ _ [] [] _ not_isHeaderName, ?_, ?_⟩
  · rw [hlast] at htree
    cases htree
  · exact decode_eq_ok_iff.2 ⟨{}, {}, [], _, decodeHeader_emptyObject, decodeHeader_emptyObject,
      denotes_emptyObject, denotes_emptyObject, rfl⟩
  · rw [decode, decodeHeader, decodeEntries, decodeValue, hread]
    rfl

end SignedMessaging.Message
