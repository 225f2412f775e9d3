import SignedMessaging.Connection.Channel
import SignedMessaging.Connection.Port
import SignedMessaging.Signer.Scheme

/-!
# Connections

A connection has the key and the scheme by which its messages are signed, and an
endpoint for each of its channels, made of the transport, the address and the
channel's port.  Over the transport `ipc` the address is the start of a file's
path, and the port follows it after a dash.
-/

namespace SignedMessaging

/-- How the parties of a conversation reach each other. -/
structure Connection where
  key : Value := .bytes []
  signatureScheme : String := Scheme.standard
  transport : String := "tcp"
  ip : String := "127.0.0.1"
  port : Channel → Value := fun _ => .int 0

namespace Connection

/-- The transports that connection information may name. -/
def transports : List String := ["tcp", "ipc"]

/-- The endpoint of a transport at an address, with the text of a port. -/
def endpoint (transport ip port : String) : String :=
  if transport = "ipc" then "ipc://" ++ ip ++ "-" ++ port
  else transport ++ "://" ++ ip ++ ":" ++ port

/-- The endpoint of a channel. -/
def address (connection : Connection) (channel : Channel) : Except EndpointFault String :=
  (Port.written (connection.port channel)).map (endpoint connection.transport connection.ip)

/-- The endpoint of the channel that a value names. -/
def addressOf (connection : Connection) (name : Value) : Except EndpointFault String :=
  match Channel.ofValue? name with
  | none =>
      if name.hasLongInteger then .error .tooManyDigits else .error (.unknownChannel name)
  | some channel => connection.address channel

/-- The signer of the connection's messages. -/
def signer (connection : Connection) : Except Fault Signer :=
  Signer.ofScheme connection.key connection.signatureScheme

end Connection

end SignedMessaging
