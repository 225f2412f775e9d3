import SignedMessaging.Bytes

/-!
# File trees

A working directory with what stands below it.  A place is a list of names from
the working directory, and a directory stands wherever another place lies below
it.  What stands above the working directory is not known, and nothing can be
found there.

A path is read name by name, as octets.  An empty name and a single dot stay
where they are, two dots go one directory up, and every name but the last must
lead to a directory.

Other systems of files are known only by what they give for a path; they may refuse
to open a file, or fail while it is read, for reasons of their own.
-/

namespace SignedMessaging

/-- Why a file cannot be opened, or not be read to its end. -/
inductive OpenFault where
  | noSuchFile
  | notADirectory
  | isADirectory
  | nameTooLong
  | refused (number : Nat) (words : String)
  | interrupted (number : Nat) (words : String)
deriving DecidableEq, Repr

namespace OpenFault

/-- The number of the failure and its usual words. -/
def message : OpenFault → String
  | .noSuchFile => "[Errno 2] No such file or directory"
  | .notADirectory => "[Errno 20] Not a directory"
  | .isADirectory => "[Errno 21] Is a directory"
  | .nameTooLong => "[Errno 36] File name too long"
  | .refused number words | .interrupted number words =>
      "[Errno " ++ toString number ++ "] " ++ words

/-- Whether the failure names the path; one that comes later knows none. -/
def namesPath : OpenFault → Bool
  | .interrupted _ _ => false
  | _ => true

end OpenFault

/-- What a system of files gives for the octets of a path: contents, or why there are none. -/
abbrev FileSystem := Bytes → Except OpenFault Bytes

/-- The directories and files below a working directory. -/
structure FileTree where
  directories : List (List Bytes)
  files : List (List Bytes × Bytes)

/-- Where a path leads. -/
inductive Place where
  | above
  | directory (names : List Bytes)
  | file (contents : Bytes)

namespace FileTree

/-- The octet between two names. -/
def slash : UInt8 := 0x2f

/-- The name of the directory itself. -/
def dot : Bytes := [0x2e]

/-- The name of the directory above. -/
def dots : Bytes := [0x2e, 0x2e]

/-- The names in a path, the parts between its slashes; there is one more than slashes. -/
def names : Bytes → List Bytes
  | [] => [[]]
  | octet :: rest =>
      match names rest with
      | [] => []
      | first :: others =>
          if octet = slash then [] :: first :: others else (octet :: first) :: others

/-- The place of a path without dots that go up, as its names. -/
def placeOf (path : Bytes) : List Bytes :=
  (names path).filter fun name => name ≠ [] ∧ name ≠ dot

/-- A path has at most this many octets less one, and a name at most 255. -/
def pathLimit : Nat := 4096

/-- Whether a name is too long for any directory. -/
def nameTooLong (name : Bytes) : Bool :=
  decide (255 < name.length)

/-- What stands at a place inside the tree. -/
def at? (tree : FileTree) (place : List Bytes) : Option Place :=
  match tree.files.lookup place with
  | some contents => some (.file contents)
  | none =>
      if place ∈ tree.directories ∨
          (tree.directories ++ tree.files.map (·.1)).any (place.isPrefixOf ·) then
        some (.directory place)
      else none

/-- Go on from a place by one name. -/
def enter (tree : FileTree) (place : Place) (name : Bytes) : Except OpenFault Place :=
  match place with
  | .file _ => .error .notADirectory
  | .above =>
      if name = [] ∨ name = dot ∨ name = dots then .ok .above
      else if nameTooLong name then .error .nameTooLong
      else .error .noSuchFile
  | .directory names =>
      if name = [] ∨ name = dot then .ok (.directory names)
      else if name = dots then
        .ok (if names = [] then .above else .directory names.dropLast)
      else if nameTooLong name then .error .nameTooLong
      else
        match tree.at? (names ++ [name]) with
        | some found => .ok found
        | none => .error .noSuchFile

/-- The place where a path leads; one that starts with a slash starts above. -/
def resolve (tree : FileTree) (path : Bytes) : Except OpenFault Place :=
  if path = [] then .error .noSuchFile
  else if pathLimit ≤ path.length then .error .nameTooLong
  else
    let start : Place := if path.head? = some slash then .above else .directory []
    (names path).foldlM tree.enter start

/-- The contents of the file at a path. -/
def read (tree : FileTree) (path : Bytes) : Except OpenFault Bytes :=
  match tree.resolve path with
  | .error fault => .error fault
  | .ok (.file contents) => .ok contents
  | .ok _ => .error .isADirectory

end FileTree

end SignedMessaging
