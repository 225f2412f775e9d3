import SignedMessaging.Proofs.Connection.Loading
import SignedMessaging.Proofs.Message.Inside

/-!
# Storing connections

A connection is stored as an object with a member for each of its nine parts, and is the same
again when the file is loaded (`returns_of_storable`).  All that counts of an object is what it
says of the parts (`Describes`): members may stand in any order or be left out where they are
as usual, and others may stand among them.  Only the depth of the others matters, since the
reader has a limit (`not_returned`).
-/

namespace SignedMessaging.Connection

/-- A part of a connection, each with a member of its own in a file. -/
inductive Part where
  | key
  | text (entry : ConnectionText)
  | port (channel : Channel)

namespace Part

/-- All parts in the order of a connection's fields. -/
def all : List Part :=
  [.key, .text .signatureScheme, .text .transport, .text .ip] ++ Channel.all.map .port

/-- The name of a part's member. -/
def name : Part → String
  | .key => "key"
  | .text entry => entry.name
  | .port channel => channel.portName

/-- What a connection has as a part, its key being that of a text. -/
def value (key : String) (connection : Connection) : Part → Value
  | .key => .text key
  | .text .signatureScheme => .text connection.signatureScheme
  | .text .transport => .text connection.transport
  | .text .ip => .text connection.ip
  | .port channel => connection.port channel

/-- The value of a part that has no member. -/
def usual (part : Part) : Value :=
  part.value "" {}

/-- The member of a part. -/
def entry (key : String) (connection : Connection) (part : Part) : Value × Value :=
  (.text part.name, part.value key connection)

theorem mem_all (part : Part) : part ∈ all := by
  cases part with
  | key => simp [all]
  | text entry => cases entry <;> simp [all]
  | port channel => simp [all, Channel.mem_all]

theorem nodup_names : (all.map name).Nodup := by
  decide

theorem name_injective {part other : Part} (h : part.name = other.name) : part = other :=
  List.inj_on_of_nodup_map nodup_names (mem_all part) (mem_all other) h

theorem text_ne_name {name : String} (h : name ∉ all.map Part.name) (part : Part) :
    Value.text name ≠ .text part.name := by
  rintro ⟨⟩
  exact h (List.mem_map_of_mem (mem_all part))

end Part

variable {key : String} {connection : Connection} {entries : Entries}

/-- The members of a stored connection. -/
def members (key : String) (connection : Connection) : Entries :=
  Part.all.map (Part.entry key connection)

/-- Whether a connection with the key of a text can be stored and used. -/
structure Storable (key : String) (connection : Connection) : Prop where
  key : connection.key = .bytes (Bytes.ofText key)
  signer : ∃ signer, connection.signer = .ok signer
  transport : connection.transport = "tcp" ∨ connection.transport = "ipc"
  port (channel : Channel) : ∃ n, connection.port channel = .int n ∧ -2 ^ 63 ≤ n ∧ n < 2 ^ 64

/-- Whether entries say of every part what a connection has: in the part's member, or by
leaving it out where it is as usual. -/
structure Describes (key : String) (connection : Connection) (entries : Entries) : Prop where
  member {part : Part} {v : Value} : (.text part.name, v) ∈ entries → v = part.value key connection
  usual {part : Part} : (∀ v, (.text part.name, v) ∉ entries) →
    part.value key connection = part.usual

/-- Members of parts in any order, with others among them, describe a connection where the
parts without a member are as usual. -/
theorem describes_of_perm (kept : List Part) (others : Entries)
    (hperm : entries.Perm (kept.map (Part.entry key connection) ++ others))
    (hothers : ∀ entry ∈ others, ∀ part : Part, entry.1 ≠ .text part.name)
    (husual : ∀ part ∉ kept, part.value key connection = part.usual) :
    Describes key connection entries where
  member {part v} h := by
    rcases List.mem_append.1 (hperm.mem_iff.1 h) with hkept | hother
    · obtain ⟨same, -, hsame⟩ := List.mem_map.1 hkept
      rw [Part.entry, Prod.mk.injEq, Value.text.injEq] at hsame
      rw [← hsame.2, Part.name_injective hsame.1]
    · exact absurd rfl (hothers _ hother part)
  usual {part} h := by
    refine husual part fun hkept => h (part.value key connection) (hperm.mem_iff.2 ?_)
    exact List.mem_append_left _ (List.mem_map_of_mem hkept)

theorem describes_members : Describes key connection (members key connection) :=
  describes_of_perm Part.all [] (List.Perm.of_eq (List.append_nil _).symm) (by simp)
    fun part hpart => absurd (Part.mem_all part) hpart

/-! ### Entries that describe a connection say what it has -/

namespace Describes

/-- What is found under the name of a part. -/
theorem found (h : Describes key connection entries) (part : Part) :
    entries.find? part.name = some (part.value key connection) ∨
      entries.find? part.name = none ∧ part.value key connection = part.usual := by
  cases hfound : entries.find? part.name with
  | some v => exact .inl (congrArg some (h.member (Entries.exists_of_find? hfound)))
  | none =>
      refine .inr ⟨rfl, h.usual fun v hv => ?_⟩
      have hmissing := List.find?_eq_none.1 (Option.map_eq_none_iff.1 hfound) _ hv
      exact hmissing (Value.same_text_iff.2 rfl)

/-- The normal form describes the same connection. -/
theorem normal (h : Describes key connection entries)
    (hscalar : ∀ part : Part, (part.value key connection).IsScalar) :
    Describes key connection (Value.normalEntries entries) where
  member {part v} hv := by
    rw [Value.normalEntries_eq_map] at hv
    obtain ⟨⟨name, w⟩, hentry, heq⟩ := List.mem_map.1 hv
    cases heq
    rw [h.member hentry, Value.normal_of_scalar (hscalar part)]
  usual {part} hv := by
    refine h.usual fun v hmember => hv v.normal ?_
    rw [Value.normalEntries_eq_map]
    exact List.mem_map_of_mem hmember

end Describes

theorem textOf_of_found {entry : ConnectionText} {usual s : String}
    (h : entries.find? entry.name = some (.text s) ∨
      entries.find? entry.name = none ∧ Value.text s = .text usual) :
    textOf entries entry usual = .ok s := by
  unfold textOf
  rcases h with hfound | ⟨hmissing, husual⟩
  · rw [hfound]
  · cases husual
    rw [hmissing]

theorem portOf_of_found {channel : Channel} {n : Int}
    (h : entries.find? channel.portName = some (.int n) ∨
      entries.find? channel.portName = none ∧ Value.int n = .int 0) :
    portOf entries channel = .ok n := by
  unfold portOf
  rcases h with hfound | ⟨hmissing, husual⟩
  · rw [hfound]
    rfl
  · cases husual
    rw [hmissing]

theorem keyOf_of_found (h : entries.find? "key" = some (.text key) ∨
    entries.find? "key" = none ∧ Value.text key = .text "") :
    keyOf entries = .ok (Bytes.ofText key) := by
  unfold keyOf
  rcases h with hfound | ⟨hmissing, husual⟩
  · rw [hfound]
    rfl
  · cases husual
    rw [hmissing]
    rfl

namespace Storable

theorem said (h : Storable key connection) (hdescribes : Describes key connection entries) :
    Says entries connection where
  key := ⟨_, keyOf_of_found (hdescribes.found .key), h.key⟩
  signatureScheme := textOf_of_found (hdescribes.found (.text .signatureScheme))
  transport := textOf_of_found (hdescribes.found (.text .transport))
  ip := textOf_of_found (hdescribes.found (.text .ip))
  port channel := by
    obtain ⟨n, hn, -⟩ := h.port channel
    have hfound := hdescribes.found (.port channel)
    simp only [Part.value, hn] at hfound
    exact ⟨n, portOf_of_found hfound, hn⟩
  known := by simpa [transports] using h.transport
  digest := by
    obtain ⟨signer, hsigner⟩ := h.signer
    rw [signer_of_key h.key] at hsigner
    cases hdigest : Scheme.digest connection.signatureScheme with
    | error fault => simp [hdigest] at hsigner
    | ok digest => exact ⟨digest, rfl⟩

theorem isScalar_value (h : Storable key connection) (part : Part) :
    (part.value key connection).IsScalar := by
  cases part with
  | key => trivial
  | text entry => cases entry <;> trivial
  | port channel =>
      obtain ⟨n, hn, -⟩ := h.port channel
      rw [Part.value, hn]
      trivial

theorem hasForm_value (h : Storable key connection) (part : Part) :
    (part.value key connection).HasForm := by
  cases part with
  | key => trivial
  | text entry => cases entry <;> trivial
  | port channel =>
      obtain ⟨n, hn, hrange⟩ := h.port channel
      rw [Part.value, hn]
      refine decide_eq_true ?_
      omega

/-- The members of a connection make an object that can be written, of a single level. -/
theorem portable_members (h : Storable key connection) :
    (Value.dictionary (members key connection)).Portable ∧
      (Value.dictionary (members key connection)).nesting ≤ Json.writeDepth := by
  constructor
  · refine Value.portable_dictionary_iff.2 ⟨⟨?_, ?_⟩, ?_⟩
    · exact List.forall_mem_map.2 fun part _ => ⟨_, rfl⟩
    · refine List.pairwise_map.2 ((List.pairwise_map.1 Part.nodup_names).imp fun hne => ?_)
      rw [Part.entry, Part.entry, Value.same_text, decide_eq_false_iff_not]
      exact hne
    · exact List.forall_mem_map.2 fun part _ =>
        (Value.everywhere_scalar_iff (h.isScalar_value part)).2 (h.hasForm_value part)
  · have hflat : Value.nestingUnder (members key connection) ≤ 0 :=
      Value.nestingUnder_le_iff.2 (List.forall_mem_map.2 fun part _ =>
        Nat.le_of_eq (Json.nesting_scalar (h.isScalar_value part)))
    exact Nat.le_trans (Nat.succ_le_succ hflat) (by decide)

end Storable

/-! ### Files -/

/-- What loading gives for a document, whatever path leads to it and wherever the path is
from. -/
def Gives (document : Bytes) (outcome : Path → Except Fault Connection) : Prop :=
  ∀ ⦃system : FileSystem⦄ ⦃path environment : Option Path⦄ ⦃named : Path⦄ ⦃octets : Bytes⦄,
    path.or environment = some named → .character '\x00' ∉ named →
      named.octets = .ok octets → system octets = .ok document →
        loadFrom system path environment = outcome named

theorem gives_of_read {document : Bytes} : Gives document fun named =>
    match Json.read document with
    | none => .error (.configuration (.notDocument named))
    | some information => ofValue information := by
  intro system path environment named octets hnamed hzero hoctets hsystem
  rw [loadFrom, hnamed]
  dsimp only
  rw [readFrom, contentsAt_of_octets hoctets hzero, hsystem]
  rfl

/-- A document of a dictionary gives the connection that its entries say. -/
theorem gives_of_said {document : Bytes} (h : Json.Denotes document (.dictionary entries))
    (hsaid : Says entries connection) : Gives document fun _ => .ok connection := by
  intro system path environment named octets hnamed hzero hoctets hsystem
  rw [gives_of_read hnamed hzero hoctets hsystem, Json.read_eq_some_iff.2 h]
  exact ofEntries_eq_ok_iff.2 hsaid

theorem gives_of_too_deep {document : Bytes} {v : Value} (h : Json.Means document v)
    (hdeep : Json.readDepth < v.nesting) :
    Gives document fun named => .error (.configuration (.notDocument named)) := by
  intro system path environment named octets hnamed hzero hoctets hsystem
  rw [gives_of_read hnamed hzero hoctets hsystem, Json.read_of_too_deep h hdeep]

/-- How a connection returns from the files that describe it. -/
structure Returns (key : String) (connection : Connection) : Prop where
  /-- Its own members are written, and give it back. -/
  members : ∃ document, Json.write (.dictionary (members key connection)) = .ok document ∧
    Gives document fun _ => .ok connection
  /-- All else that describes it can be written within the writer's depth. -/
  writes {entries : Entries} : Describes key connection entries →
    (Value.dictionary entries).Portable → (Value.dictionary entries).nesting ≤ Json.writeDepth →
      ∃ document, Json.write (.dictionary entries) = .ok document
  /-- What is written gives it back within the reader's depth, and else is refused. -/
  written {entries : Entries} {document : Bytes} : Describes key connection entries →
    (Value.dictionary entries).Portable → Json.write (.dictionary entries) = .ok document →
      Gives document fun named =>
        if (Value.dictionary entries).nesting ≤ Json.readDepth then .ok connection
        else .error (.configuration (.notDocument named))
  /-- So does every other document, however it is spelled. -/
  spelled {entries : Entries} {document : Bytes} : Describes key connection entries →
    Json.Denotes document (.dictionary entries) → Gives document fun _ => .ok connection
  /-- A document that nests too deep is refused, whatever it describes. -/
  refused {entries : Entries} {document : Bytes} : Json.Means document (.dictionary entries) →
    Json.readDepth < (Value.dictionary entries).nesting →
      Gives document fun named => .error (.configuration (.notDocument named))

/-- What is written of a description gives the connection, unless it is too deep. -/
theorem Storable.gives_of_write {document : Bytes} (h : Storable key connection)
    (hdescribes : Describes key connection entries)
    (hportable : (Value.dictionary entries).Portable)
    (hdocument : Json.write (.dictionary entries) = .ok document) :
    Gives document fun named =>
      if (Value.dictionary entries).nesting ≤ Json.readDepth then .ok connection
      else .error (.configuration (.notDocument named)) := by
  intro system path environment named octets hnamed hzero hoctets hsystem
  by_cases hnesting : (Value.dictionary entries).nesting ≤ Json.readDepth
  · have hdenotes := (Json.denotes_write_iff hportable hdocument).2 hnesting
    rw [Value.normal] at hdenotes
    dsimp only
    rw [if_pos hnesting]
    have hsaid := h.said (hdescribes.normal h.isScalar_value)
    exact gives_of_said hdenotes hsaid hnamed hzero hoctets hsystem
  · dsimp only
    rw [if_neg hnesting]
    have hmeans := Json.means_of_write hportable hdocument
    refine gives_of_too_deep hmeans ?_ hnamed hzero hoctets hsystem
    rw [Value.nesting_normal]
    exact Nat.lt_of_not_le hnesting

/-- A connection with a text for its key, a known scheme and transport and ports of 64 bits
returns from every file that describes it. -/
theorem returns_of_storable (h : Storable key connection) : Returns key connection where
  members := by
    obtain ⟨hportable, hnesting⟩ := h.portable_members
    obtain ⟨document, hdocument, hdenotes⟩ := Json.exists_document hportable hnesting
    rw [Value.normal] at hdenotes
    exact ⟨document, hdocument,
      gives_of_said hdenotes (h.said (describes_members.normal h.isScalar_value))⟩
  writes _ hportable hnesting := by
    obtain ⟨document, hdocument, -⟩ := Json.exists_document hportable hnesting
    exact ⟨document, hdocument⟩
  written := h.gives_of_write
  spelled hdescribes hdenotes := gives_of_said hdenotes (h.said hdescribes)
  refused := gives_of_too_deep

/-- A connection over files, whose scheme and most ports are as usual. -/
def overFiles : Connection where
  key := .bytes (Bytes.ofText "clé")
  transport := "ipc"
  ip := "/tmp/é"
  port channel := .int (if channel = .shell then -1 else 0)

/-- Its members without the usual ones, in another order and after another object. -/
def overFilesEntries : Entries :=
  [(.text "kernel", .dictionary [(.text "key", .list [.null])]), (.text "shell_port", .int (-1)),
    (.text "ip", .text "/tmp/é"), (.text "key", .text "clé"), (.text "transport", .text "ipc")]

theorem describes_overFiles : Describes "clé" overFiles overFilesEntries := by
  refine describes_of_perm [.port .shell, .text .ip, .key, .text .transport]
    [(.text "kernel", .dictionary [(.text "key", .list [.null])])]
    (List.perm_append_singleton _ _).symm
    (List.forall_mem_singleton.2 (Part.text_ne_name (by decide))) fun part hpart => ?_
  rcases part with _ | (_ | _ | _) | (_ | _ | _ | _ | _) <;>
    first | rfl | exact absurd (by simp) hpart

/-- A connection over files returns from an object that leaves out what is as usual. -/
theorem returns_of_storable_overFiles : Storable "clé" overFiles ∧
    ∃ document, Json.write (.dictionary overFilesEntries) = .ok document ∧
      Gives document fun _ => .ok overFiles := by
  have hstorable : Storable "clé" overFiles := by
    refine ⟨rfl, ⟨_, rfl⟩, .inr rfl, fun channel => ⟨_, rfl, ?_⟩⟩
    split <;> decide
  have hreturns := returns_of_storable hstorable
  have hportable : (Value.dictionary overFilesEntries).Portable := by
    simp [overFilesEntries, Value.Portable, Value.Everywhere, Value.EverywhereUnder,
      Value.EverywhereIn, Value.HasForm, Value.DistinctKeys, Value.same_text,
      Json.NumberLiteral.fitsInteger]
  obtain ⟨document, hdocument⟩ := hreturns.writes describes_overFiles hportable (by decide)
  refine ⟨hstorable, document, hdocument, ?_⟩
  have hgives := hreturns.written describes_overFiles hportable hdocument
  intro system path environment named octets hnamed hzero hoctets hsystem
  rw [hgives hnamed hzero hoctets hsystem]
  exact if_pos (by decide)

/-- A key with another member. -/
def keyWith (extra : Value) : Entries :=
  [(.text "key", .text "k"), (.text "extra", extra)]

theorem describes_keyWith (extra : Value) :
    Describes "k" { key := .bytes (Bytes.ofText "k") } (keyWith extra) := by
  refine describes_of_perm [.key] [(.text "extra", extra)] (List.Perm.refl _)
    (List.forall_mem_singleton.2 (Part.text_ne_name (by decide))) fun part hpart => ?_
  rcases part with _ | (_ | _ | _) | _ <;> first | rfl | exact absurd (by simp) hpart

theorem portable_keyWith {extra : Value} (h : extra.Portable) :
    (Value.dictionary (keyWith extra)).Portable := by
  refine Value.portable_dictionary_iff.2 ⟨⟨by simp [keyWith], ?_⟩, ?_⟩
  · simp [keyWith, Value.DistinctKeys, Value.same_text]
  · exact List.forall_mem_cons.2 ⟨trivial, List.forall_mem_singleton.2 h⟩

theorem exists_write_keyWith {extra : Value}
    (h : ∃ cs, Json.writeValue (Json.deeper 0) extra = .ok cs) :
    ∃ document, Json.write (.dictionary (keyWith extra)) = .ok document := by
  obtain ⟨cs, hcs⟩ := h
  rw [Json.write, Json.writeValue, if_neg (by decide), keyWith]
  simp only [Json.writeMembers, Value.text?, Json.writeValue, hcs]
  exact ⟨_, rfl⟩

/-- Lists as deep as the reader goes keep the object that they stand in from being loaded;
as tuples they are even written. -/
theorem not_returned :
    Storable "k" { key := .bytes (Bytes.ofText "k") } ∧
    Describes "k" { key := .bytes (Bytes.ofText "k") }
      (keyWith (Message.inside .list 1024 .null)) ∧
    ∃ document,
      Json.write (.dictionary (keyWith (Message.inside .tuple 1024 .null))) = .ok document ∧
      Json.Means document (.dictionary (keyWith (Message.inside .list 1024 .null))) ∧
      loadFrom (fun _ => .ok document) (some (.ofText "kernel.json")) none =
        .error (.configuration (.notDocument (.ofText "kernel.json"))) := by
  refine ⟨⟨rfl, ⟨_, rfl⟩, .inl rfl, fun _ => ⟨0, rfl, by decide⟩⟩, describes_keyWith _, ?_⟩
  have hportable := portable_keyWith (Message.portable_inside_tuple 1024 (v := .null) trivial)
  obtain ⟨document, hdocument⟩ :=
    exists_write_keyWith (Message.exists_write_inside_tuple 1024 (Json.deeper 0))
  have hnormal : (Value.dictionary (keyWith (Message.inside .tuple 1024 .null))).normal =
      .dictionary (keyWith (Message.inside .list 1024 .null)) := by
    simp only [keyWith, Value.normal, Value.normalEntries, Message.normal_inside_tuple]
  have hmeans := Json.means_of_write hportable hdocument
  rw [hnormal] at hmeans
  refine ⟨document, hdocument, hmeans, ?_⟩
  refine gives_of_too_deep hmeans ?_ rfl (by decide) (Path.octets_ofText _) rfl
  rw [keyWith, Value.nesting, Value.nestingUnder, Value.nestingUnder,
    Message.nesting_inside (.inl rfl)]
  decide

end SignedMessaging.Connection
