import SignedMessaging.Proofs.Connection.Information
import SignedMessaging.Proofs.Connection.Numerals

/-!
# Ports given as texts

In connection information that is right but for one port, a numeral for this port gives the
connection with the number that is meant, and any other text is refused in the name of the
port.  The ports are looked at in the order of the channels, so that of several wrong ones it
is the first that is named.  An integer and a numeral for it are the same port, whatever else
the information says (`reads_port_texts`).
-/

namespace SignedMessaging.Connection

variable {entries others : Entries} {channel : Channel}

/-- Whether the key and the texts of information are of their kinds. -/
structure KindsRight (entries : Entries) : Prop where
  key {v : Value} : entries.find? "key" = some v → v.kind = .text ∨ v.kind = .bytes
  text {entry : ConnectionText} {v : Value} : entries.find? entry.name = some v → v.kind = .text

/-- Whether all that information says is right, the port of one channel aside. -/
structure RightApartFrom (entries : Entries) (channel : Channel) : Prop
    extends KindsRight entries where
  transport {s : String} : entries.find? "transport" = some (.text s) → s ∈ transports
  signatureScheme {s : String} : entries.find? "signature_scheme" = some (.text s) →
    ∃ digest, Scheme.digest s = .ok digest
  port {other : Channel} {v : Value} :
    other ≠ channel → entries.find? other.portName = some v →
    ∃ n, Port.ofValue v = .ok n

/-- What comes of information with a text, or with something else, for the port of a channel. -/
structure ReadsPort (entries : Entries) (channel : Channel) : Prop where
  /-- In information that is right otherwise, the text makes a connection with just the port
  that it is the numeral of. -/
  made {text : String} {n : Int} : entries.find? channel.portName = some (.text text) →
    RightApartFrom entries channel →
      ((∃ connection, ofValue (.dictionary entries) = .ok connection ∧
        connection.port channel = .int n) ↔ Port.Numeral n text.toList)
  /-- A text that is no numeral is refused in the name of the port. -/
  refused {text : String} : entries.find? channel.portName = some (.text text) →
    RightApartFrom entries channel → (∀ n, ¬ Port.Numeral n text.toList) →
      ofValue (.dictionary entries) = .error (.configuration (.portNotInteger channel))
  /-- The report names the port. -/
  named : (Fault.configuration (.portNotInteger channel)).report =
    { category := .configuration, text := some (channel.portName ++ " must be an integer") }
  /-- Whatever is wrong with later ports, it is the first one that is named. -/
  first {earlier later : List Channel} {v : Value} : Channel.all = earlier ++ channel :: later →
    KindsRight entries →
    (∀ before ∈ earlier, ∀ v, entries.find? before.portName = some v →
      ∃ n, Port.ofValue v = .ok n) →
    entries.find? channel.portName = some v → Port.ofValue v = .error .notInteger →
      ofValue (.dictionary entries) = .error (.configuration (.portNotInteger channel))
  /-- An integer and the same integer as a text, decorated in any way, are the same port. -/
  alike {others : Entries} {n : Int} {text : String} :
    (∀ name, name ≠ channel.portName → entries.find? name = others.find? name) →
    entries.find? channel.portName = some (.int n) →
    others.find? channel.portName = some (.text text) → Port.Decorated n text.toList →
      ofValue (.dictionary others) = ofValue (.dictionary entries)
  /-- In particular its decimal text is, if that is not too long. -/
  shown {others : Entries} {n : Int} :
    (∀ name, name ≠ channel.portName → entries.find? name = others.find? name) →
    entries.find? channel.portName = some (.int n) →
    others.find? channel.portName = some (.text (String.ofList (Whole.text n))) →
    Whole.tooLong n = false → ofValue (.dictionary others) = ofValue (.dictionary entries)

theorem portOf_of_find? {v : Value} {n : Int} (hfound : entries.find? channel.portName = some v)
    (h : Port.ofValue v = .ok n) : portOf entries channel = .ok n := by
  rw [portOf, hfound]
  simp only [h]

theorem portOf_of_notInteger {v : Value} (hfound : entries.find? channel.portName = some v)
    (h : Port.ofValue v = .error .notInteger) :
    portOf entries channel = .error (.configuration (.portNotInteger channel)) := by
  rw [portOf, hfound]
  simp only [h]

theorem portOf_text_eq_ok_iff {text : String} {n : Int}
    (hfound : entries.find? channel.portName = some (.text text)) :
    portOf entries channel = .ok n ↔ Port.Numeral n text.toList := by
  rw [← Port.ofText?_eq_some_iff, portOf, hfound]
  simp only [Port.ofValue]
  cases Port.ofText? text <;> simp

/-- A text that is of its kind can be had, with what is true of the usual one and of any other
that may stand for it. -/
theorem exists_textOf (h : KindsRight entries) {P : String → Prop} (entry : ConnectionText)
    {usual : String} (husual : P usual)
    (htext : ∀ s, entries.find? entry.name = some (.text s) → P s) :
    ∃ s, textOf entries entry usual = .ok s ∧ P s := by
  rw [textOf]
  cases hfound : entries.find? entry.name with
  | none => exact ⟨usual, rfl, husual⟩
  | some v =>
      have hkind := h.text hfound
      cases v with
      | text s => exact ⟨s, rfl, htext s hfound⟩
      | _ => cases hkind

/-- Information that is right has a connection with the ports that are read. -/
theorem exists_connection {n : Int} (h : RightApartFrom entries channel)
    (hport : portOf entries channel = .ok n) : ∃ connection,
      ofValue (.dictionary entries) = .ok connection ∧ connection.port channel = .int n := by
  have hkinds := h.toKindsRight
  obtain ⟨key, hkey⟩ := exists_keyOf_iff.2 fun _ => hkinds.key
  have hstandard : ∃ digest, Scheme.digest Scheme.standard = .ok digest := ⟨_, rfl⟩
  obtain ⟨scheme, hscheme, digest, hdigest⟩ :=
    exists_textOf hkinds .signatureScheme hstandard fun _ => h.signatureScheme
  have husual : "tcp" ∈ transports := by decide
  obtain ⟨transport, htransport, hknown⟩ :=
    exists_textOf hkinds .transport husual fun _ => h.transport
  have hip : ∃ ip, textOf entries .ip "127.0.0.1" = .ok ip :=
    exists_textOf_iff.2 fun _ => hkinds.text
  obtain ⟨ip, hip⟩ := hip
  have hports : ∀ other, ∃ n, portOf entries other = .ok n := by
    intro other
    by_cases hother : other = channel
    · subst hother
      exact ⟨n, hport⟩
    · exact exists_portOf_iff.2 fun _ => h.port hother
  choose ports hports using hports
  let connection : Connection :=
    ⟨.bytes key, scheme, transport, ip, fun other => .int (ports other)⟩
  have hsays : Says entries connection := by
    constructor
    · exact ⟨key, hkey, rfl⟩
    · exact hscheme
    · exact htransport
    · exact hip
    · intro other
      exact ⟨ports other, hports other, rfl⟩
    · exact hknown
    · exact ⟨digest, hdigest⟩
  refine ⟨connection, ofEntries_eq_ok_iff.2 hsays, ?_⟩
  have hn : ports channel = n := Except.ok.inj ((hports channel).symm.trans hport)
  rw [← hn]

/-- The first port that is none is named, where the key and the texts are right. -/
theorem ofEntries_of_first {earlier later : List Channel}
    (hall : Channel.all = earlier ++ channel :: later) (hkinds : KindsRight entries)
    (hearlier : ∀ before ∈ earlier, ∀ v, entries.find? before.portName = some v →
      ∃ n, Port.ofValue v = .ok n)
    (hport : portOf entries channel = .error (.configuration (.portNotInteger channel))) :
    ofEntries entries = .error (.configuration (.portNotInteger channel)) := by
  obtain ⟨key, hkey⟩ := exists_keyOf_iff.2 fun _ => hkinds.key
  have htext : ∀ entry usual, ∃ s, textOf entries entry usual = .ok s := fun _ _ =>
    exists_textOf_iff.2 fun _ => hkinds.text
  obtain ⟨scheme, hscheme⟩ := htext .signatureScheme Scheme.standard
  obtain ⟨transport, htransport⟩ := htext .transport "tcp"
  obtain ⟨ip, hip⟩ := htext .ip "127.0.0.1"
  have hports : portsOf entries = .error (.configuration (.portNotInteger channel)) :=
    portsOf_eq_error_iff.2 ⟨earlier, channel, later, hall, hport,
      fun before hbefore => exists_portOf_iff.2 (hearlier before hbefore)⟩
  rw [ofEntries, hkey, hscheme, htransport, hip, hports]
  rfl

/-- The channels before one are others. -/
theorem exists_earlier (channel : Channel) : ∃ earlier later,
    Channel.all = earlier ++ channel :: later ∧ ∀ before ∈ earlier, before ≠ channel := by
  have hnodup : Channel.all.Nodup := by decide
  obtain ⟨earlier, later, hall⟩ := List.append_of_mem (Channel.mem_all channel)
  rw [hall] at hnodup
  refine ⟨earlier, later, hall, fun before hbefore => ?_⟩
  exact (List.nodup_append.1 hnodup).2.2 before hbefore channel List.mem_cons_self

/-- Entries that say the same under all names but that of one port, and the same of this port,
make the same connection. -/
theorem ofEntries_congr
    (h : ∀ name, name ≠ channel.portName → entries.find? name = others.find? name)
    (hport : portOf entries channel = portOf others channel) :
    ofEntries entries = ofEntries others := by
  have hkey : keyOf entries = keyOf others := by
    rw [keyOf, keyOf, h "key" (by cases channel <;> decide)]
  have htext : ∀ entry usual, textOf entries entry usual = textOf others entry usual := by
    intro entry usual
    rw [textOf, textOf, h entry.name (by cases entry <;> cases channel <;> decide)]
  have hports : portOf entries = portOf others := by
    funext other
    by_cases hother : other = channel
    · rw [hother, hport]
    · rw [portOf, portOf, h other.portName ?_]
      revert hother
      cases other <;> cases channel <;> decide
  simp only [ofEntries, portsOf, hkey, htext, hports]

/-- A numeral for an integer is the same port as the integer. -/
theorem ofEntries_of_numeral {n : Int} {text : String}
    (h : ∀ name, name ≠ channel.portName → entries.find? name = others.find? name)
    (hint : entries.find? channel.portName = some (.int n))
    (htext : others.find? channel.portName = some (.text text))
    (hnumeral : Port.Numeral n text.toList) : ofEntries others = ofEntries entries := by
  have hports : portOf entries channel = portOf others channel := by
    rw [portOf_of_find? hint rfl, (portOf_text_eq_ok_iff htext).2 hnumeral]
  exact (ofEntries_congr h hports).symm

/-- Texts for ports are read exactly. -/
theorem reads_port_texts (entries : Entries) (channel : Channel) : ReadsPort entries channel := by
  constructor
  case made =>
    intro text n hfound hright
    rw [← portOf_text_eq_ok_iff hfound]
    constructor
    · rintro ⟨connection, hmade, hport⟩
      obtain ⟨m, hm, hsame⟩ := (ofEntries_eq_ok_iff.1 hmade).port channel
      cases hsame.symm.trans hport
      exact hm
    · exact exists_connection hright
  case refused =>
    intro text hfound hright hnone
    obtain ⟨earlier, later, hall, hearlier⟩ := exists_earlier channel
    exact ofEntries_of_first hall hright.toKindsRight
      (fun before hbefore _ => hright.port (hearlier before hbefore))
      (portOf_of_notInteger hfound (Port.ofValue_text_eq_notInteger_iff.2 hnone))
  case named => rfl
  case first =>
    intro earlier later v hall hkinds hearlier hfound hv
    exact ofEntries_of_first hall hkinds hearlier (portOf_of_notInteger hfound hv)
  case alike =>
    intro others n text hsame hint htext hdecorated
    exact ofEntries_of_numeral hsame hint htext (Port.numeral_of_decorated hdecorated)
  case shown =>
    intro others n hsame hint htext hshort
    refine ofEntries_of_numeral hsame hint htext ?_
    rw [String.toList_ofList]
    exact Port.numeral_of_decorated (Port.decorated_text hshort)

/-- Information with two ports. -/
def twoPorts (iopub shell : Value) : Entries :=
  [(.text "iopub_port", iopub), (.text "shell_port", shell)]

theorem kindsRight_twoPorts (iopub shell : Value) : KindsRight (twoPorts iopub shell) := by
  constructor
  · intro v hv
    simp [twoPorts, Entries.find?, Value.same_text] at hv
  · intro entry v hv
    cases entry <;>
      simp [twoPorts, Entries.find?, Value.same_text, ConnectionText.name] at hv

/-- Digits of two scripts with a sign, an underscore and blanks are a port.  Two underscores
are none, and that port is named before another one that is wrong. -/
theorem reads_port_texts_mixed :
    (∃ connection, ofValue (.dictionary (twoPorts (.int 7) (.text "\t+1_2\u0663 "))) =
        .ok connection ∧ connection.port .shell = .int 123) ∧
      ofValue (.dictionary (twoPorts .null (.text "1__2"))) =
        .error (.configuration (.portNotInteger .shell)) := by
  have hright : RightApartFrom (twoPorts (.int 7) (.text "\t+1_2\u0663 ")) .shell := by
    refine ⟨kindsRight_twoPorts _ _, fun hs => ?_, fun hs => ?_, fun {other v} hother hv => ?_⟩
    · simp [twoPorts, Entries.find?, Value.same_text] at hs
    · simp [twoPorts, Entries.find?, Value.same_text] at hs
    · cases other with
      | shell => exact absurd rfl hother
      | iopub =>
          obtain rfl : Value.int 7 = v := Option.some.inj hv
          exact ⟨7, rfl⟩
      | _ =>
          simp [twoPorts, Entries.find?, Value.same_text, Channel.portName, Channel.name] at hv
  have hnumeral : Port.Numeral 123 "\t+1_2\u0663 ".toList :=
    Port.ofText?_eq_some_iff.1 (by decide)
  have hall : Channel.all = [] ++ .shell :: [.iopub, .stdin, .control, .heartbeat] := rfl
  constructor
  · exact ((reads_port_texts _ .shell).made rfl hright).2 hnumeral
  · exact (reads_port_texts _ .shell).first hall (kindsRight_twoPorts _ _) (by simp) rfl rfl

end SignedMessaging.Connection
