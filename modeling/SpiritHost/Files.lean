import SpiritHost.Error

/-!
# Paths and files

A path is a text whose parts are divided by slashes. A file system is what reading a path gives,
bytes or a refusal. `FileTree` is a file system held in memory: the files below one directory. Above
it there are directories alone, up to the root.
-/

namespace SpiritHost

namespace Path

/-- A path that begins at the root. -/
def isAbsolute (path : String) : Bool := path.toList.head? = some '/'

/-- A path taken from a directory; an absolute one stays itself. -/
def join (directory path : String) : String :=
  if isAbsolute path || directory.isEmpty then path
  else if directory.toList.getLast? = some '/' then directory ++ path
  else directory ++ "/" ++ path

/-- The parts of a path between its slashes. -/
def parts (path : String) : List String := path.splitOn "/"

/-- A part that names nothing of its own. -/
def isFiller (part : String) : Bool := part.isEmpty || part = "."

/-- Parts, last first, without the fillers at the end. The first part of a path stays: there it
marks the root or the current directory. -/
def dropFillers : List String → List String
  | [] => []
  | [first] => [first]
  | part :: rest => if isFiller part then dropFillers rest else part :: rest

/-- The directory that holds what a path names; none for the root and the empty path. -/
def parent? (path : String) : Option String :=
  match dropFillers (parts path).reverse with
  | [] => none
  | [first] => if first.isEmpty then none else some ""
  | _ :: rest => match dropFillers rest with
    | [""] => some "/"
    | rest => some ("/".intercalate rest.reverse)

end Path

/-- What reading a path gives. -/
abbrev FileSystem := String → Except ReadFault Bytes

/-- The file system that holds what was read before; nothing else is there. -/
def FileSystem.ofList (read : List (String × Except ReadFault Bytes)) : FileSystem := fun path =>
  (read.lookup path).getD (.error .notFound)

/-- Files by the parts of their paths. -/
structure FileTree where
  files : List (List String × Bytes)

namespace FileTree

/-- The tree of files given by relative paths. -/
def ofList (files : List (String × Bytes)) : FileTree :=
  ⟨files.map fun (path, bytes) => ((Path.parts path).filter (!Path.isFiller ·), bytes)⟩

/-- The bytes of a file. -/
def file? (t : FileTree) (place : List String) : Option Bytes := t.files.lookup place

/-- Something lies at or below a place. -/
def hasDirectory (t : FileTree) (place : List String) : Bool :=
  place.isEmpty || t.files.any fun (path, _) => place.isPrefixOf path && path != place

/-- Where a path leads. -/
inductive Place where
  /-- To a file or directory of the tree. -/
  | inside (parts : List String)
  /-- To a directory above the tree. -/
  | above
deriving DecidableEq, Repr

/-- The directory that holds a place. -/
def Place.parent : Place → Place
  | inside parts => if parts.isEmpty then above else inside parts.dropLast
  | above => above

/-- The most bytes of a name. -/
def maxName : Nat := 255

/-- The most bytes of a path. -/
def maxPath : Nat := 4095

/-- What a directory holds under a name. Nothing else is known of the directories above. -/
def enter (t : FileTree) (place : Place) (name : String) : Except ReadFault Place :=
  if maxName < name.utf8ByteSize then .error .nameTooLong
  else match place with
  | .above => .error .notFound
  | .inside parts =>
    let inner := parts ++ [name]
    if (t.file? inner).isSome || t.hasDirectory inner then .ok (.inside inner)
    else .error .notFound

/-- The file at a place. -/
def fileAt? (t : FileTree) : Place → Option Bytes
  | .inside parts => t.file? parts
  | .above => none

/-- Follows the parts of a path from a place. -/
def walk (t : FileTree) (place : Place) : List String → Except ReadFault Place
  | [] => .ok place
  | part :: rest =>
    if (t.fileAt? place).isSome then .error .notDirectory
    else if Path.isFiller part then t.walk place rest
    else if part = ".." then t.walk place.parent rest
    else do t.walk (← t.enter place part) rest

/-- Reading in the tree. Relative paths begin at its top. -/
def read (t : FileTree) : FileSystem := fun path =>
  if path.toList.contains '\x00' then
    .error (.other "file name contained an unexpected NUL byte")
  else if path.isEmpty then .error .notFound
  else if maxPath < path.utf8ByteSize then .error .nameTooLong
  else
    let start : Place := if Path.isAbsolute path then .above else .inside []
    match t.walk start (Path.parts path) with
    | .error fault => .error fault
    | .ok place => match t.fileAt? place with
      | some bytes => .ok bytes
      | none => .error .isDirectory

end FileTree

end SpiritHost
