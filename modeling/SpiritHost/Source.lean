import SpiritHost.Files

/-!
# Sources

Where the bytes of a module come from: they are at hand, in a file, or behind a reference with a
scheme. A reference without a scheme of its own meaning is read as a path. What files there are and
what a network gives is the world's doing.
-/

namespace SpiritHost

/-- What fetching a reference over a network gives: bytes, or a text that says why there are none. -/
abbrev Network := String → Except String Bytes

/-- A network that leads nowhere. -/
def Network.unreachable : Network := fun _ => .error "network unreachable"

/-- What is there to read. -/
structure World where
  files : FileSystem
  network : Network := .unreachable

/-- The world in which some paths were read; nothing else is there. -/
def World.ofList (read : List (String × Except ReadFault Bytes)) : World :=
  { files := .ofList read }

/-- Where a module's bytes come from. -/
inductive Source where
  | bytes (bytes : Bytes)
  | path (path : String)
  | uri (reference : String)
deriving DecidableEq, Repr

namespace Source

/-- A location with a scheme. -/
def hasScheme : List Char → Bool
  | ':' :: '/' :: '/' :: _ => true
  | _ :: rest => hasScheme rest
  | [] => false

/-- A location with a scheme is a reference, any other a path (`SpiritSource::parse`). -/
def parse (location : String) : Source :=
  if hasScheme location.toList then .uri location else .path location

/-- What follows the given beginning of a text. -/
def after? (beginning text : String) : Option String :=
  if beginning.toList.isPrefixOf text.toList then
    some (String.ofList (text.toList.drop beginning.toList.length))
  else none

/-- The source in messages. -/
def text : Source → String
  | bytes b => s!"<{b.length} bytes>"
  | path p => p
  | uri u => u

/-- The path that a reference names, once it is known not to lead to a network. -/
def pathOf (reference : String) : String := (after? "file://" reference).getD reference

/-- What a reference leads to (`read_uri`). -/
def readReference (world : World) (reference : String) : Except FetchFault Bytes :=
  if (after? "oci://" reference).isSome || (after? "http://" reference).isSome then
    (world.network reference).mapError .network
  else if (after? "https://" reference).isSome then .error .secureTransport
  else (world.files (pathOf reference)).mapError .reference

/-- The path at which reading a source may look. -/
def place? : Source → Option String
  | bytes _ => none
  | path p => some p
  | uri u => some (pathOf u)

/-- The bytes of a source (`read_bytes`). -/
def read (world : World) (s : Source) : Except Error Bytes :=
  match s with
  | bytes b => .ok b
  | path p => (world.files p).mapError fun fault => .fetch s.text (.path p fault)
  | uri u => (readReference world u).mapError fun fault => .fetch s.text fault

end Source

end SpiritHost
