import SignedMessaging.Connection.Basic

/-!
# Connection information

A connection is described by an object.  Its members are checked in the order
key, scheme, transport, address and then the ports; one that is missing has its
usual value, and members of other names do not count.  The names of the transport
and of the scheme's digest are checked last.
-/

namespace SignedMessaging

namespace Connection

/-- The key in connection information: a text or a byte string. -/
def keyOf (entries : Entries) : Except ConfigurationFault Bytes :=
  match (entries.find? "key").getD (.text "") with
  | .text s => .ok (Bytes.ofText s)
  | .bytes b => .ok b
  | _ => .error .keyNotText

/-- A text in connection information, or its usual value. -/
def textOf (entries : Entries) (entry : ConnectionText) (usual : String) :
    Except ConfigurationFault String :=
  match entries.find? entry.name with
  | none => .ok usual
  | some (.text s) => .ok s
  | some _ => .error (.notText entry)

/-- A port in connection information; an infinite one is refused outside the
configuration's own faults. -/
def portOf (entries : Entries) (channel : Channel) : Except Fault Int :=
  match entries.find? channel.portName with
  | none => .ok 0
  | some v =>
      match Port.ofValue v with
      | .ok n => .ok n
      | .error .notInteger => .error (.configuration (.portNotInteger channel))
      | .error .infinite => .error (.endpoint .portInfinite)

/-- The ports in connection information, in the order of the channels. -/
def portsOf (entries : Entries) : Except Fault (Channel → Int) := do
  let shell ← portOf entries .shell
  let iopub ← portOf entries .iopub
  let stdin ← portOf entries .stdin
  let control ← portOf entries .control
  let heartbeat ← portOf entries .heartbeat
  return fun
    | .shell => shell
    | .iopub => iopub
    | .stdin => stdin
    | .control => control
    | .heartbeat => heartbeat

/-- The connection that entries describe. -/
def ofEntries (entries : Entries) : Except Fault Connection := do
  let key ← (keyOf entries).mapError .configuration
  let signatureScheme ←
    (textOf entries .signatureScheme Scheme.standard).mapError .configuration
  let transport ← (textOf entries .transport "tcp").mapError .configuration
  let ip ← (textOf entries .ip "127.0.0.1").mapError .configuration
  let ports ← portsOf entries
  if transport ∉ transports then
    throw (.configuration (.unsupportedTransport transport))
  let connection : Connection :=
    ⟨.bytes key, signatureScheme, transport, ip, fun channel => .int (ports channel)⟩
  let _ ← connection.signer
  return connection

/-- The connection that a value describes. -/
def ofValue : Value → Except Fault Connection
  | .dictionary entries => ofEntries entries
  | _ => .error (.configuration .notObject)

end Connection

end SignedMessaging
