import SignedMessaging.Proofs.Framing
import SignedMessaging.Proofs.Message.Inside
import SignedMessaging.Proofs.Message.Normal

/-!
# Messages sent and received

A message that is encoded passes through four stages and their inverses: its parts are
written as documents, signed, and put behind routing identities; on the other side the
parts are split, verified and read.  What arrives are the same identities and the same
frames, and the message in its normal form (`round_trip`).

The reader goes deeper than the writer, but the writer does not see all depth: a tuple is
never too deep for it.  Therefore a message that nests tuples among lists may arrive and
yet be too deep to be sent on, now that its tuples are lists.
-/

namespace SignedMessaging

namespace Message

variable {message : Message} {body : Body Bytes} {signer : Signer}

/-- A message that is encoded survives the whole way: behind any identities that are not
the delimiter its frames are joined and split, and under the signer that packed them they
are unpacked to the normal form, as long as the reader's depth allows it.  The normal form
equals the message if nothing had to be changed in it, and is packed to the same frames as
long as the writer's depth allows it, which for a message without tuples it does. -/
theorem round_trip {identities : List Bytes} (hencode : message.encode = .ok body)
    (hkeyed : message.WellKeyed) (husable : signer.Usable)
    (hidentities : delimiter ∉ identities) :
    ∃ frames parts, message.toSigned signer = .ok frames ∧
      Envelope.join (identities.map .bytes) (frames.toList.map .bytes) = .ok parts ∧
      Envelope.ofValues parts = .ok ⟨identities, frames⟩ ∧
      (ofSigned signer frames = .ok message.normal ↔ message.nesting ≤ Json.readDepth) ∧
      (message.normal.same message = true ↔
        message.TupleFree ∧ message.metadata.kind ≠ .null) ∧
      (message.normal.toSigned signer = if message.nesting ≤ Json.writeDepth then .ok frames
        else .error (.encoding ⟨message.deepField, .unwritable .tooDeep⟩)) ∧
      (message.TupleFree → message.nesting ≤ Json.writeDepth) := by
  obtain ⟨frames, hpacked, hunpacked, hagain⟩ := exists_toSigned hencode hkeyed husable
  exact ⟨frames, _, hpacked, Envelope.join_bytes identities frames,
    Envelope.ofValues_parts frames hidentities, hunpacked, same_normal_iff hencode hkeyed, hagain,
    nesting_le_of_tupleFree hencode hkeyed⟩

/-- A tuple sent behind two identities arrives as a list, and is sent on unchanged. -/
theorem round_trip_tuple :
    (∃ body, encode { content := .tuple [.int 1, .text "é"] } = .ok body) ∧
      Message.WellKeyed { content := .tuple [.int 1, .text "é"] } ∧
      Signer.Usable { key := [115, 51] } ∧ delimiter ∉ [[0, 1], [2]] ∧
      ∃ frames parts,
        Message.toSigned { key := [115, 51] } { content := .tuple [.int 1, .text "é"] } =
          .ok frames ∧
        Envelope.join ([[0, 1], [2]].map .bytes) (frames.toList.map .bytes) = .ok parts ∧
        Envelope.ofValues parts = .ok ⟨[[0, 1], [2]], frames⟩ ∧
        ofSigned { key := [115, 51] } frames = .ok { content := .list [.int 1, .text "é"] } ∧
        Message.toSigned { key := [115, 51] } { content := .list [.int 1, .text "é"] } =
          .ok frames := by
  have hencode : ∃ body, encode { content := .tuple [.int 1, .text "é"] } = .ok body :=
    exists_encode_of_content rfl
  have hkeyed : WellKeyed { content := .tuple [.int 1, .text "é"] } :=
    wellKeyed_of_content (by simp [Value.WellKeyed, Value.Everywhere, Value.EverywhereIn])
  have husable : Signer.Usable { key := [115, 51] } := by decide
  have hidentities : delimiter ∉ [[0, 1], [2]] := by decide
  refine ⟨hencode, hkeyed, husable, hidentities, ?_⟩
  obtain ⟨body, hbody⟩ := hencode
  obtain ⟨frames, parts, hpacked, hjoined, hsplit, hunpacked, -, hagain, -⟩ :=
    round_trip hbody hkeyed husable hidentities
  have hnormal : normal { content := .tuple [.int 1, .text "é"] } =
      { content := .list [.int 1, .text "é"] } := rfl
  have hnesting : nesting { content := .tuple [.int 1, .text "é"] } = 1 := rfl
  rw [hnormal, hnesting] at hunpacked hagain
  exact ⟨frames, parts, hpacked, hjoined, hsplit, hunpacked.2 (by decide), hagain⟩

/-! ### Depth that the writer does not see -/

theorem exists_encode_of_write {content : Value} (hfinite : content.nonFinite? = none)
    (h : ∃ cs, Json.writeValue 0 content = .ok cs) : ∃ body, encode { content } = .ok body := by
  obtain ⟨cs, hcs⟩ := h
  exact exists_encode_of_content (encodeValue_eq_ok_iff.2 ⟨hfinite, cs, hcs, rfl⟩)

/-- An empty tuple inside as many lists as are written is itself written and arrives as a
list, which is one too many to be sent on; and tuples can be sent that are too deep to
arrive. -/
theorem not_sent_on :
    (∃ frames, Message.toSigned {} { content := inside .list 254 (.tuple []) } = .ok frames ∧
      ofSigned {} frames = .ok { content := inside .list 254 (.list []) } ∧
      Message.toSigned {} { content := inside .list 254 (.list []) } =
        .error (.encoding ⟨.content, .unwritable .tooDeep⟩)) ∧
    ∃ frames, Message.toSigned {} { content := inside .tuple 1025 .null } = .ok frames ∧
      ofSigned {} frames ≠ .ok (normal { content := inside .tuple 1025 .null }) := by
  have husable : Signer.Usable {} := by decide
  constructor
  · obtain ⟨body, hbody⟩ := exists_encode_of_write
      (nonFinite?_inside (.inl rfl) 254 (v := .tuple []) rfl)
      (exists_write_inside_list (Nat.le_refl _) ⟨_, rfl⟩)
    have hkeyed : WellKeyed { content := inside .list 254 (.tuple []) } :=
      wellKeyed_of_content (wellKeyed_inside (.inl rfl) 254
        (Value.everywhere_tuple_iff.2 (by simp)))
    have hnormal : normal { content := inside .list 254 (.tuple []) } =
        { content := inside .list 254 (.list []) } := by
      rw [normal, normal_inside_list]
      rfl
    have hnesting : nesting { content := inside .list 254 (.tuple []) } = 255 := by
      rw [nesting, nesting_inside (.inl rfl)]
      rfl
    obtain ⟨frames, hpacked, hunpacked, hagain⟩ := exists_toSigned hbody hkeyed husable
    rw [hnormal, hnesting] at hunpacked hagain
    exact ⟨frames, hpacked, hunpacked.2 (by decide), hagain⟩
  · obtain ⟨body, hbody⟩ := exists_encode_of_write
      (nonFinite?_inside (.inr rfl) 1025 (v := .null) rfl) (exists_write_inside_tuple 1025 0)
    have hkeyed : WellKeyed { content := inside .tuple 1025 .null } :=
      wellKeyed_of_content (wellKeyed_inside (.inr rfl) 1025 (by simp [Value.WellKeyed,
        Value.Everywhere]))
    have hnesting : nesting { content := inside .tuple 1025 .null } = 1025 := by
      rw [nesting, nesting_inside (.inr rfl)]
      rfl
    obtain ⟨frames, hpacked, hunpacked, -⟩ := exists_toSigned hbody hkeyed husable
    rw [hnesting] at hunpacked
    exact ⟨frames, hpacked, fun hread => absurd (hunpacked.1 hread) (by decide)⟩

end Message

end SignedMessaging
