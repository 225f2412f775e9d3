import SignedMessaging.Connection.File
import SignedMessaging.Proofs.Connection.Information
import SignedMessaging.Proofs.Json.Portability
import SignedMessaging.Proofs.Message.FrameDecoding
import SignedMessaging.Proofs.Path
import SignedMessaging.Proofs.Signer.Verification

/-!
# Loading connections

Whatever a system of files gives for the octets of a path, loading ends with a connection or
with a fault of the configuration (`load_decides`).  A connection that was loaded can be used
for all that it is there for (`Serviceable`): its signer signs and verifies, and every channel
has its endpoint.  Neither has anything left to refuse, since the scheme was looked up when the
connection was made and no port that a document can hold is too long for an endpoint.

A path without octets is no fault of the configuration, though it cannot be read either
(`not_refused_as_configuration`).
-/

namespace SignedMessaging

/-- Whether a signer signs and verifies all there is to sign, and refuses nothing but
signatures. -/
structure Signer.Serves (signer : Signer) : Prop where
  signs (body : Body Bytes) :
    ∃ signature, signer.sign body = .ok signature ∧ signer.verify signature body = .ok ()
  refuses {signature : Bytes} {body : Body Bytes} {fault : Fault} :
    signer.verify signature body = .error fault → ∃ cause, fault = .signature cause

/-- Every signer that names an algorithm serves. -/
theorem Signer.serves_of_usable {signer : Signer} (husable : signer.Usable) : signer.Serves where
  signs body := by
    obtain ⟨signature, hsign⟩ := exists_sign husable body
    exact ⟨signature, hsign, verify_of_sign hsign⟩
  refuses {signature body fault} h := by
    by_cases haccepts : signer.Accepts signature body
    · rw [(verify_eq_ok_iff husable).2 haccepts] at h
      cases h
    · rw [verify_of_not_accepts husable haccepts] at h
      cases h
      exact ⟨_, rfl⟩

namespace Connection

variable {entries : Entries} {connection : Connection}

/-- Whether a connection can be used: it has a signer with its key, and an endpoint for each
channel, made of an integer. -/
structure Serviceable (connection : Connection) : Prop where
  transport : connection.transport = "tcp" ∨ connection.transport = "ipc"
  signer : ∃ key signer, connection.key = .bytes key ∧ connection.signer = .ok signer ∧
    signer.key = key ∧ signer.Serves
  address (channel : Channel) : ∃ n, connection.port channel = .int n ∧
    connection.addressOf (.text channel.name) =
      .ok (endpoint connection.transport connection.ip (String.ofList (Whole.text n)))

/-- A connection that is made of the members of a document can be used. -/
theorem serviceable_of_says (hform : ∀ entry ∈ entries, entry.2.HasForm)
    (h : Says entries connection) : connection.Serviceable := by
  constructor
  case transport => simpa [transports] using h.known
  case signer =>
    obtain ⟨key, -, hkey⟩ := h.key
    obtain ⟨digest, hdigest⟩ := h.digest
    have hsigner : connection.signer = .ok ⟨key, digest⟩ := by
      rw [signer_of_key hkey, hdigest]
    exact ⟨key, _, hkey, hsigner, rfl, Signer.serves_of_usable (Signer.usable_of_ofScheme hsigner)⟩
  case address =>
    intro channel
    obtain ⟨n, hn, hport⟩ := h.port channel
    rcases portOf_decides hform channel with ⟨cause, hcause⟩ | ⟨m, hm, hlimit⟩
    · cases hcause.symm.trans hn
    · cases hm.symm.trans hn
      refine ⟨n, hport, ?_⟩
      rw [addressOf, Channel.ofValue?_eq_some_iff.2 rfl]
      dsimp only
      rw [address, hport, Port.written_of_natAbs_lt hlimit]
      rfl

theorem ofValue_decides {information : Value} (h : information.Portable) :
    (∃ cause, ofValue information = .error (.configuration cause)) ∨
      ∃ connection, ofValue information = .ok connection ∧ connection.Serviceable := by
  cases information with
  | dictionary entries =>
      have hform : ∀ entry ∈ entries, entry.2.HasForm := fun entry hentry =>
        Value.hasForm_of_portable ((Value.portable_dictionary_iff.1 h).2 entry hentry)
      rw [ofValue]
      cases hmade : ofEntries entries with
      | error fault =>
          obtain ⟨cause, rfl⟩ := configuration_of_ofEntries hform hmade
          exact .inl ⟨cause, rfl⟩
      | ok connection =>
          exact .inr ⟨connection, rfl, serviceable_of_says hform (ofEntries_eq_ok_iff.1 hmade)⟩
  | _ => exact .inl ⟨_, rfl⟩

/-- With octets, and without a zero character, a path is what the system of files is asked for. -/
theorem contentsAt_of_octets {system : FileSystem} {named : Path} {octets : Bytes}
    (hoctets : named.octets = .ok octets) (hzero : .character '\x00' ∉ named) :
    contentsAt system named =
      (system octets).mapError fun fault => .configuration (.unreadable named fault) := by
  rw [← Path.zero_mem_octets_iff hoctets] at hzero
  rw [contentsAt, hoctets]
  exact if_neg hzero

theorem readFrom_decides {system : FileSystem} {named : Path} (hencodable : named.Encodable)
    (hzero : .character '\x00' ∉ named) :
    (∃ cause, readFrom system named = .error (.configuration cause)) ∨
      ∃ connection, readFrom system named = .ok connection ∧ connection.Serviceable := by
  obtain ⟨octets, hoctets⟩ := Path.exists_octets_iff.2 hencodable
  rw [readFrom, contentsAt_of_octets hoctets hzero]
  cases system octets with
  | error fault => exact .inl ⟨_, rfl⟩
  | ok contents =>
      dsimp only [Except.mapError]
      cases hread : Json.read contents with
      | none => exact .inl ⟨_, rfl⟩
      | some information => exact ofValue_decides (Json.portable_of_read hread)

/-- What loading comes to for the path that is given or named by the environment. -/
structure Loads (named : Option Path) (outcome : Except Fault Connection) : Prop where
  /-- Where no surrogate of a path is in the way, there is a connection that can be used or a
  fault of the configuration. -/
  decided : (∀ path ∈ named, path.Encodable) →
    (∃ cause, outcome = .error (.configuration cause)) ∨
      ∃ connection, outcome = .ok connection ∧ connection.Serviceable
  /-- Else the first surrogate that stands for no octet is told, as a fault of the path. -/
  strayed {path : Path} : path ∈ named → ¬ path.Encodable →
    ∃ before s after, path = before ++ .surrogate s :: after ∧ Path.Encodable before ∧
      ¬ s.Escapes ∧ outcome = .error (.path (.surrogates
        ⟨before.length, s, (after.takeWhile CodePoint.isSurrogate).length⟩))

/-- Loading from a path that has octets, without a zero among them, gives a connection that can
be used, or has a fault of the configuration, whatever is found at the path. -/
theorem load_decides (system : FileSystem) (path environment : Option Path)
    (hzero : ∀ named ∈ path.or environment, .character '\x00' ∉ named) :
    Loads (path.or environment) (loadFrom system path environment) := by
  unfold loadFrom
  cases hnamed : path.or environment with
  | none => exact ⟨fun _ => .inl ⟨_, rfl⟩, nofun⟩
  | some named =>
      constructor
      case decided =>
        intro hencodable
        exact readFrom_decides (hencodable named rfl) (hzero named hnamed)
      case strayed =>
        rintro _ ⟨⟩ hstray
        obtain ⟨before, s, after, rfl, hbefore, hs⟩ := Path.exists_stray hstray
        refine ⟨before, s, after, rfl, hbefore, hs, ?_⟩
        dsimp only
        rw [readFrom, contentsAt, Path.octets_of_stray hbefore hs]

/-- A file with nothing but braces describes a connection that can be used. -/
theorem load_decides_usual : .character '\x00' ∉ Path.ofText "kernel.json" ∧ ∃ connection,
    loadFrom (fun _ => .ok Message.emptyObject) none (some (.ofText "kernel.json")) =
      .ok connection ∧ connection.Serviceable := by
  have hzero : .character '\x00' ∉ Path.ofText "kernel.json" := by decide
  have hread := Json.read_eq_some_iff.2 Message.denotes_emptyObject
  have hload : loadFrom (fun _ => .ok Message.emptyObject) none (some (.ofText "kernel.json")) =
      ofEntries [] := by
    rw [loadFrom, Option.none_or]
    dsimp only
    rw [readFrom, contentsAt_of_octets (Path.octets_ofText _) hzero]
    dsimp only [Except.mapError]
    rw [hread]
    rfl
  refine ⟨hzero, ?_⟩
  have hloads := load_decides (fun _ => .ok Message.emptyObject) none
    (some (.ofText "kernel.json")) (by rintro _ ⟨⟩; exact hzero)
  have hencodable := Path.exists_octets_iff.1 ⟨_, Path.octets_ofText "kernel.json"⟩
  rcases hloads.decided (by rintro _ ⟨⟩; exact hencodable) with ⟨cause, hfault⟩ | hloaded
  · cases hload.symm.trans hfault
  · exact hloaded

/-- A lone surrogate keeps a path from being read, and this is no fault of the protocol. -/
theorem not_refused_as_configuration :
    .character '\x00' ∉ [CodePoint.surrogate ⟨0⟩] ∧
    load ⟨[], []⟩ (some [.surrogate ⟨0⟩]) none = .error (.path (.surrogates ⟨0, ⟨0⟩, 0⟩)) ∧
    (Fault.path (.surrogates ⟨0, ⟨0⟩, 0⟩)).report.category.isProtocol = false :=
  ⟨by decide, rfl, rfl⟩

end Connection
end SignedMessaging
