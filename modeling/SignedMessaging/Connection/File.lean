import SignedMessaging.Connection.Information
import SignedMessaging.Files
import SignedMessaging.Json.Document

/-!
# Connection files

Connection information stands in a JSON file.  Its path is the one given, or else
the one that the environment names.  A system of files is asked for octets, which a
path need not have; octets with a zero among them it is not asked for.
-/

namespace SignedMessaging

namespace Connection

/-- The contents of the file at a path. -/
def contentsAt (system : FileSystem) (path : Path) : Except Fault Bytes :=
  match path.octets with
  | .error stray => .error (.path (.surrogates stray))
  | .ok octets =>
      if 0 ∈ octets then .error (.path .zero)
      else (system octets).mapError fun fault => .configuration (.unreadable path fault)

/-- The connection that the file at a path describes. -/
def readFrom (system : FileSystem) (path : Path) : Except Fault Connection :=
  match contentsAt system path with
  | .error fault => .error fault
  | .ok contents =>
      match Json.read contents with
      | none => .error (.configuration (.notDocument path))
      | some information => ofValue information

/-- The connection of the file at the given path, or at the environment's. -/
def loadFrom (system : FileSystem) (path environment : Option Path) :
    Except Fault Connection :=
  match path.or environment with
  | none => .error (.configuration .noFile)
  | some path => readFrom system path

/-- The connection of a file in a tree. -/
def load (tree : FileTree) (path environment : Option Path) : Except Fault Connection :=
  loadFrom tree.read path environment

end Connection

end SignedMessaging
