import SpiritHost.Source
import SpiritHost.Spirit.Options
import SpiritHost.Text.Utf8
import SpiritHost.Toml.Reader

/-!
# Manifests

A manifest describes Spirits to be summoned together: one table for each, under its name. Relative
locations are taken from the manifest's directory, with or without the scheme of files.
-/

namespace SpiritHost

/-- One Spirit of a manifest. What is unset keeps the séance's default. -/
structure Definition where
  name : String
  uri : String
  debug : Option Bool := none
  /-- Bounds of the memory, if the table has a place for them at all. -/
  memory : Option (Option UInt32 × Option UInt32) := none
  heapBase : Option UInt32 := none
  /-- The directory that relative locations are taken from. -/
  root : Option String
deriving DecidableEq, Repr

namespace Definition

/-- Where the module is (`SpiritDefinition::source`). -/
def source (d : Definition) : Source :=
  let relative (path : String) : Source :=
    .path (match d.root with
      | some root => Path.join root path
      | none => path)
  match Source.parse d.uri with
  | .path path => if Path.isAbsolute path then .path path else relative path
  | .uri uri => match Source.after? "file://" uri with
    | some path => if Path.isAbsolute path then .uri uri else relative path
    | none => .uri uri
  | .bytes bytes => .bytes bytes

/-- What this definition changes about the defaults (`SpiritDefinition::summon_options`). -/
def summonOptions (d : Definition) : SummonOptions where
  initialPages := d.memory.bind (·.1)
  maximumPages := d.memory.bind (·.2)
  heapBase := d.heapBase
  debug := d.debug

/-! ## From a table -/

/-- A 32-bit unsigned integer. -/
def word? : Toml.Value → Option UInt32
  | .integer n => if 0 ≤ n ∧ n < 4294967296 then some (UInt32.ofNat n.toNat) else none
  | _ => none

/-- Memory bounds with one more set; there are no bounds but these. -/
def bound? (bounds : Option UInt32 × Option UInt32) (key : String) (value : Toml.Value) :
    Option (Option UInt32 × Option UInt32) :=
  match key with
  | "initial" => do some (some (← word? value), bounds.2)
  | "maximum" => do some (bounds.1, some (← word? value))
  | _ => none

/-- Memory bounds from a table with the keys `initial` and `maximum`, each of which may be missing,
or from an array of the two. -/
def memory? : Toml.Value → Option (Option UInt32 × Option UInt32)
  | .table entries => entries.foldlM (fun bounds (key, value) => bound? bounds key value)
      (none, none)
  | .array [initial, maximum] => do some (some (← word? initial), some (← word? maximum))
  | _ => none

/-- A text. A point in time counts as one, in the form in which it is shown. -/
def text? : Toml.Value → Option String
  | .string text => some text
  | .time text => some (Toml.timeText text)
  | _ => none

/-- A definition with one more setting; there are no settings but these. -/
def set? (d : Definition) (key : String) (value : Toml.Value) : Option Definition :=
  match key, value with
  | "uri", value => do some { d with uri := ← text? value }
  | "debug", .boolean debug => some { d with debug := some debug }
  | "memory", value => do some { d with memory := some (← memory? value) }
  | "heap-base", value => do some { d with heapBase := some (← word? value) }
  | _, _ => none

/-- The definition that a manifest's entry gives. -/
def ofEntry (root : Option String) (name : String) :
    Toml.Value → Except ManifestFault Definition
  | .table entries =>
    if entries.any (·.1 == "uri") then
      match entries.foldlM (fun d (key, value) => set? d key value)
          ({ name, uri := "", root } : Definition) with
      | some d => .ok d
      | none => .error (.definition name)
    else .error (.missingUri name)
  | _ => .error (.notTable name)

end Definition

namespace Manifest

/-- The definitions of a manifest's text, in the order of their names (`parse_manifest`). -/
def parse (text : String) (root : Option String) : Except ManifestFault (List Definition) :=
  match Toml.parse? text with
  | none => .error .malformed
  | some entries => entries.mapM fun (name, value) => Definition.ofEntry root name value

/-- The definitions of a manifest's file (`parse_manifest_file`). -/
def parseFile (files : FileSystem) (path : String) : Except ManifestFault (List Definition) :=
  match files path with
  | .error fault => .error (.unreadable path fault)
  | .ok bytes => match Utf8.decode? bytes with
    | none => .error (.notText path)
    | some text => parse text (Path.parent? path)

/-- The first name in a list that occurred before. -/
def repeated? (seen : List String) : List String → Option String
  | [] => none
  | name :: rest => if name ∈ seen then some name else repeated? (name :: seen) rest

/-- The definitions of several manifests, file by file (`load_manifest`). A name must not occur
twice in all. -/
def load (files : FileSystem) (paths : List String) : Except Error (List Definition) := do
  let definitions ← (paths.mapM (parseFile files)).mapError .manifest
  match repeated? [] (definitions.flatten.map (·.name)) with
  | some name => .error (.manifest (.duplicate name))
  | none => .ok definitions.flatten

end Manifest

end SpiritHost
