import SignedMessaging.Proofs.Connection.Ports
import SignedMessaging.Proofs.Outcome

/-!
# What connection information says

A connection is made of information exactly where each part of it can be had from the
members and its transport and scheme are known (`ofEntries_eq_ok_iff`).  What else can be
wrong is said by faults of the configuration, but for one thing: a port that is infinite, in
information that is right up to that port (`ofEntries_eq_error`, `ofEntries_of_overflows`).
No document holds an infinite number, so that nothing of the sort happens to what is read
from a file (`configuration_of_ofEntries`).
-/

namespace SignedMessaging

/-- What is found under a name is the value of an entry with that name. -/
theorem Entries.exists_of_find? {entries : Entries} {name : String} {v : Value}
    (h : entries.find? name = some v) : (.text name, v) ∈ entries := by
  obtain ⟨entry, hentry, rfl⟩ := Option.map_eq_some_iff.1 h
  have hsame := List.find?_some hentry
  rw [Value.same_text_iff] at hsame
  rw [← hsame]
  exact List.mem_of_find?_eq_some hentry

namespace Connection

variable {entries : Entries} {connection : Connection}

theorem portsOf_eq_ok_iff {ports : Channel → Int} :
    portsOf entries = .ok ports ↔ ∀ channel, portOf entries channel = .ok (ports channel) := by
  unfold portsOf
  simp only [Outcome.bind_eq_ok_iff]
  constructor
  · rintro ⟨shell, hshell, iopub, hiopub, stdin, hstdin, control, hcontrol, heartbeat, hheartbeat,
      ⟨⟩⟩ channel
    cases channel <;> assumption
  · intro h
    refine ⟨_, h .shell, _, h .iopub, _, h .stdin, _, h .control, _, h .heartbeat, ?_⟩
    refine congrArg Except.ok (funext fun channel => ?_)
    cases channel <;> rfl

/-- A connection has a signer where its scheme names a digest. -/
theorem signer_of_key {key : Bytes} (hkey : connection.key = .bytes key) :
    connection.signer = match Scheme.digest connection.signatureScheme with
      | .error fault => .error (.configuration (.scheme fault))
      | .ok digest => .ok ⟨key, digest⟩ := by
  rw [signer, Signer.ofScheme, hkey]
  rfl

/-- Whether entries say just what a connection has, part by part. -/
structure Says (entries : Entries) (connection : Connection) : Prop where
  key : ∃ key, keyOf entries = .ok key ∧ connection.key = .bytes key
  signatureScheme :
    textOf entries .signatureScheme Scheme.standard = .ok connection.signatureScheme
  transport : textOf entries .transport "tcp" = .ok connection.transport
  ip : textOf entries .ip "127.0.0.1" = .ok connection.ip
  port (channel : Channel) :
    ∃ n, portOf entries channel = .ok n ∧ connection.port channel = .int n
  known : connection.transport ∈ transports
  digest : ∃ digest, Scheme.digest connection.signatureScheme = .ok digest

/-- A connection is made of just the entries that say what it has. -/
theorem ofEntries_eq_ok_iff : ofEntries entries = .ok connection ↔ Says entries connection := by
  unfold ofEntries
  simp only [Outcome.bind_eq_ok_iff, Outcome.mapError_eq_ok_iff]
  constructor
  · rintro ⟨key, hkey, scheme, hscheme, transport, htransport, ip, hip, ports, hports, hmade⟩
    split at hmade
    · cases hmade
    · next hknown =>
        obtain ⟨signer, hsigner, hmade⟩ := Outcome.bind_eq_ok_iff.1 hmade
        cases hmade
        refine ⟨⟨key, hkey, rfl⟩, hscheme, htransport, hip, fun channel =>
          ⟨_, portsOf_eq_ok_iff.1 hports channel, rfl⟩, Decidable.not_not.1 hknown, ?_⟩
        rw [signer_of_key rfl] at hsigner
        cases hdigest : Scheme.digest scheme with
        | error fault => simp [hdigest] at hsigner
        | ok digest => exact ⟨digest, rfl⟩
  · rintro ⟨⟨key, hkey, hbytes⟩, hscheme, htransport, hip, hport, hknown, digest, hdigest⟩
    choose ports hports hport using hport
    obtain ⟨_, scheme, transport, ip, port⟩ := connection
    obtain rfl : _ = Value.bytes key := hbytes
    obtain rfl : port = fun channel => .int (ports channel) := funext hport
    refine ⟨key, hkey, _, hscheme, _, htransport, _, hip, ports, portsOf_eq_ok_iff.2 hports, ?_⟩
    rw [if_neg (not_not_intro hknown), signer_of_key rfl]
    simp only [hdigest]
    rfl

/-- A member of a document has a port that can be shown, or a fault of the configuration. -/
theorem portOf_decides (hform : ∀ entry ∈ entries, entry.2.HasForm) (channel : Channel) :
    (∃ cause, portOf entries channel = .error (.configuration cause)) ∨
      ∃ n, portOf entries channel = .ok n ∧ n.natAbs < 10 ^ Whole.digitLimit := by
  unfold portOf
  cases hfound : entries.find? channel.portName with
  | none => exact .inr ⟨0, rfl, Nat.pow_pos (by decide)⟩
  | some v =>
      have hvalue := hform _ (Entries.exists_of_find? hfound)
      dsimp only
      rw [Port.ofValue_of_hasForm hvalue]
      cases hdenoted : Port.denoted? v with
      | none => exact .inl ⟨_, rfl⟩
      | some n => exact .inr ⟨n, rfl, Port.natAbs_lt_of_denoted? hvalue hdenoted⟩

/-! ### What is wrong with information -/

/-- A key can be had unless something else than text or bytes stands for it. -/
theorem exists_keyOf_iff : (∃ key, keyOf entries = .ok key) ↔
    ∀ v, entries.find? "key" = some v → v.kind = .text ∨ v.kind = .bytes := by
  unfold keyOf
  cases entries.find? "key" with
  | none => exact iff_of_true ⟨_, rfl⟩ (by rintro _ ⟨⟩)
  | some v => cases v <;> simp [Value.kind]

/-- A text can be had unless something else stands for it. -/
theorem exists_textOf_iff {entry : ConnectionText} {usual : String} :
    (∃ s, textOf entries entry usual = .ok s) ↔
      ∀ v, entries.find? entry.name = some v → v.kind = .text := by
  unfold textOf
  cases entries.find? entry.name with
  | none => exact iff_of_true ⟨_, rfl⟩ (by rintro _ ⟨⟩)
  | some v => cases v <;> simp [Value.kind]

/-- A port can be had unless what stands for it is none. -/
theorem exists_portOf_iff {channel : Channel} : (∃ n, portOf entries channel = .ok n) ↔
    ∀ v, entries.find? channel.portName = some v → ∃ n, Port.ofValue v = .ok n := by
  unfold portOf
  cases entries.find? channel.portName with
  | none => exact iff_of_true ⟨_, rfl⟩ (by rintro _ ⟨⟩)
  | some v =>
      simp only [Option.some.injEq, forall_eq']
      rcases Port.ofValue v with (_ | _) | _ <;> simp

/-- A port that cannot be had is reported for its channel, unless it is infinite. -/
theorem portOf_eq_error {channel : Channel} {fault : Fault}
    (h : portOf entries channel = .error fault) :
    fault = .configuration (.portNotInteger channel) ∨ fault = .endpoint .portInfinite ∧
      ∃ x, entries.find? channel.portName = some (.float x) ∧ x.isInfinite = true := by
  unfold portOf at h
  split at h
  · cases h
  · next v hfound =>
      split at h
      · cases h
      · cases h
        exact .inl rfl
      · next hinfinite =>
          cases h
          obtain ⟨x, rfl, hx⟩ := Port.ofValue_eq_infinite_iff.1 hinfinite
          exact .inr ⟨rfl, x, hfound, hx⟩

theorem portOf_of_infinite {channel : Channel} {x : Double}
    (hfound : entries.find? channel.portName = some (.float x)) (hx : x.isInfinite = true) :
    portOf entries channel = .error (.endpoint .portInfinite) := by
  unfold portOf
  rw [hfound]
  dsimp only
  rw [Port.ofValue_eq_infinite_iff.2 ⟨x, rfl, hx⟩]

/-- The ports are looked at in the order of the channels, up to the first that cannot be had. -/
theorem fault?_portsOf (entries : Entries) : Outcome.fault? (portsOf entries) =
    Channel.all.findSome? fun channel => Outcome.fault? (portOf entries channel) := by
  unfold portsOf
  refine Eq.trans (Outcome.fault?_bind fun _ _ => Outcome.fault?_bind fun _ _ =>
    Outcome.fault?_bind fun _ _ => Outcome.fault?_bind fun _ _ =>
      Outcome.fault?_bind fun _ _ => rfl) ?_
  simp only [Channel.all, List.findSome?_cons, List.findSome?_nil]
  cases Outcome.fault? (portOf entries .shell) <;> try rfl
  cases Outcome.fault? (portOf entries .iopub) <;> try rfl
  cases Outcome.fault? (portOf entries .stdin) <;> try rfl
  cases Outcome.fault? (portOf entries .control) <;> try rfl
  cases Outcome.fault? (portOf entries .heartbeat) <;> rfl

theorem portsOf_eq_error_iff {fault : Fault} : portsOf entries = .error fault ↔
    ∃ earlier channel later, Channel.all = earlier ++ channel :: later ∧
      portOf entries channel = .error fault ∧
      ∀ before ∈ earlier, ∃ n, portOf entries before = .ok n := by
  rw [← Outcome.fault?_eq_some_iff, fault?_portsOf, List.findSome?_eq_some_iff]
  simp only [Outcome.fault?_eq_some_iff, Outcome.fault?_eq_none_iff]

/-- Whether information is right up to a port that is infinite: key and texts are of their
kinds, and what stands for the channels before it are ports. -/
structure Overflows (entries : Entries) : Prop where
  key {v : Value} : entries.find? "key" = some v → v.kind = .text ∨ v.kind = .bytes
  text {entry : ConnectionText} {v : Value} : entries.find? entry.name = some v → v.kind = .text
  port : ∃ earlier channel later x, Channel.all = earlier ++ channel :: later ∧
    entries.find? channel.portName = some (.float x) ∧ x.isInfinite = true ∧
    ∀ before ∈ earlier, ∀ v, entries.find? before.portName = some v → ∃ n, Port.ofValue v = .ok n

theorem ofEntries_of_overflows (h : Overflows entries) :
    ofEntries entries = .error (.endpoint .portInfinite) := by
  obtain ⟨key, hkey⟩ := exists_keyOf_iff.2 fun _ => h.key
  have htext : ∀ entry usual, ∃ s, textOf entries entry usual = .ok s := fun _ _ =>
    exists_textOf_iff.2 fun _ => h.text
  obtain ⟨scheme, hscheme⟩ := htext .signatureScheme Scheme.standard
  obtain ⟨transport, htransport⟩ := htext .transport "tcp"
  obtain ⟨ip, hip⟩ := htext .ip "127.0.0.1"
  obtain ⟨earlier, channel, later, x, hall, hfound, hx, hearlier⟩ := h.port
  have hports : portsOf entries = .error (.endpoint .portInfinite) :=
    portsOf_eq_error_iff.2 ⟨earlier, channel, later, hall, portOf_of_infinite hfound hx,
      fun before hbefore => exists_portOf_iff.2 (hearlier before hbefore)⟩
  rw [ofEntries, hkey, hscheme, htransport, hip, hports]
  rfl

/-- What is wrong with information is said by a fault of the configuration, unless it is right
up to an infinite port. -/
theorem ofEntries_eq_error {fault : Fault} (h : ofEntries entries = .error fault) :
    (∃ cause, fault = .configuration cause) ∨
      fault = .endpoint .portInfinite ∧ Overflows entries := by
  have hmapped : ∀ {α : Type} {x : Except ConfigurationFault α},
      x.mapError .configuration = .error fault → ∃ cause, fault = .configuration cause := by
    intro α x hx
    obtain ⟨cause, -, rfl⟩ := Outcome.mapError_eq_error_iff.1 hx
    exact ⟨cause, rfl⟩
  unfold ofEntries at h
  simp only [Outcome.bind_eq_error_iff, Outcome.mapError_eq_ok_iff] at h
  rcases h with h | ⟨key, hkey, h | ⟨scheme, hscheme, h | ⟨transport, htransport,
    h | ⟨ip, hip, h | ⟨ports, -, h⟩⟩⟩⟩⟩
  · exact .inl (hmapped h)
  · exact .inl (hmapped h)
  · exact .inl (hmapped h)
  · exact .inl (hmapped h)
  · obtain ⟨earlier, channel, later, hall, hport, hearlier⟩ := portsOf_eq_error_iff.1 h
    rcases portOf_eq_error hport with rfl | ⟨rfl, x, hfound, hx⟩
    · exact .inl ⟨_, rfl⟩
    · refine .inr ⟨rfl, exists_keyOf_iff.1 ⟨key, hkey⟩ _, ?_, earlier, channel, later, x, hall,
        hfound, hx, fun before hbefore => exists_portOf_iff.1 (hearlier before hbefore)⟩
      intro entry v
      cases entry with
      | signatureScheme => exact exists_textOf_iff.1 ⟨scheme, hscheme⟩ v
      | transport => exact exists_textOf_iff.1 ⟨transport, htransport⟩ v
      | ip => exact exists_textOf_iff.1 ⟨ip, hip⟩ v
  · split at h
    · cases h
      exact .inl ⟨_, rfl⟩
    · rw [signer_of_key rfl] at h
      cases hdigest : Scheme.digest scheme with
      | error fault =>
          simp only [hdigest] at h
          cases h
          exact .inl ⟨_, rfl⟩
      | ok digest =>
          simp only [hdigest] at h
          cases h

/-- No member of a document is infinite. -/
theorem not_overflows_of_hasForm (hform : ∀ entry ∈ entries, entry.2.HasForm) :
    ¬ Overflows entries := by
  rintro ⟨-, -, _, channel, _, x, -, hfound, hinfinite, -⟩
  have hfinite : x.rank < infinityRank :=
    of_decide_eq_true (hform _ (Entries.exists_of_find? hfound))
  exact Nat.ne_of_lt hfinite (of_decide_eq_true hinfinite)

/-- Nothing is wrong with the members of a document but what the configuration's own faults
say. -/
theorem configuration_of_ofEntries {fault : Fault} (hform : ∀ entry ∈ entries, entry.2.HasForm)
    (h : ofEntries entries = .error fault) : ∃ cause, fault = .configuration cause :=
  (ofEntries_eq_error h).resolve_right fun hinfinite => not_overflows_of_hasForm hform hinfinite.2

/-! ### What comes of a value -/

/-- What comes of a value that is taken for connection information. -/
structure Taken (information : Value) : Prop where
  /-- It gives a connection exactly if it is a dictionary that says what this has. -/
  made {connection : Connection} : ofValue information = .ok connection ↔
    ∃ entries, information = .dictionary entries ∧ Says entries connection
  /-- Unless it is one that is right up to an infinite port, it gives a connection or has a
  fault of the configuration. -/
  usual : (¬ ∃ entries, information = .dictionary entries ∧ Overflows entries) →
    (∃ connection, ofValue information = .ok connection) ∨
      ∃ fault, ofValue information = .error fault ∧ fault.report.category = .configuration
  /-- An infinite port overflows, and nothing else does. -/
  overflow : (∃ entries, information = .dictionary entries ∧ Overflows entries) ↔
    ∃ fault, ofValue information = .error fault ∧ fault.report.category = .overflow

/-- Whatever is taken for connection information gives a connection, has a fault of the
configuration, or overflows with its first infinite port. -/
theorem taken_for_information (information : Value) : Taken information := by
  cases information with
  | dictionary entries =>
      constructor
      case made =>
        intro connection
        simp only [Value.dictionary.injEq, exists_eq_left', ofValue, ofEntries_eq_ok_iff]
      case usual =>
        simp only [Value.dictionary.injEq, exists_eq_left', ofValue]
        intro hfinite
        cases hmade : ofEntries entries with
        | ok connection => exact .inl ⟨connection, rfl⟩
        | error fault =>
            obtain ⟨cause, rfl⟩ :=
              (ofEntries_eq_error hmade).resolve_right fun hinfinite => hfinite hinfinite.2
            exact .inr ⟨_, rfl, rfl⟩
      case overflow =>
        simp only [Value.dictionary.injEq, exists_eq_left', ofValue]
        constructor
        · exact fun h => ⟨_, ofEntries_of_overflows h, rfl⟩
        · rintro ⟨fault, hfault, hcategory⟩
          rcases ofEntries_eq_error hfault with ⟨cause, rfl⟩ | ⟨-, hinfinite⟩
          · cases hcategory
          · exact hinfinite
  | _ =>
      refine ⟨iff_of_false (by rintro ⟨⟩) (by rintro ⟨_, ⟨⟩, -⟩),
        fun _ => .inr ⟨_, rfl, rfl⟩, iff_of_false (by rintro ⟨_, ⟨⟩, -⟩) ?_⟩
      rintro ⟨_, ⟨⟩, ⟨⟩⟩

/-- A port of infinity is refused by none of the protocol's own faults. -/
theorem not_configuration_infinite :
    ofValue (.dictionary [(.text "shell_port", .float (.infinity false))]) =
        .error (.endpoint .portInfinite) ∧
      (Fault.endpoint .portInfinite).report.category.isProtocol = false :=
  ⟨rfl, rfl⟩

end Connection
end SignedMessaging
