import SpiritHost.Command.Arguments
import SpiritHost.Command.Session

/-!
# The program

What the program writes and how it ends, for each request. A run reads the file of one module; a
session begins by reading manifests and the modules that they name, and then obeys its input.
-/

namespace SpiritHost.Command

/-- How the program ended and what it had written. -/
structure Ending where
  outputs : List Output
  exitCode : UInt32

namespace Ending

/-- The program did what it was asked. -/
def success (outputs : List Output) : Ending := ⟨outputs, 0⟩

/-- The program failed, or it panicked. -/
def failure (outputs : List Output) : Ending :=
  ⟨outputs, if outputs.any Output.isPanic then 101 else 1⟩

/-- The arguments are no request. -/
def misuse : Ending := ⟨[], 2⟩

end Ending

namespace RunRequest

/-- What the module is loaded with. The maximum of its memory is raised to the initial size asked
for. -/
def options (r : RunRequest) : LoadOptions :=
  let defaults : LoadOptions := {}
  let memory : MemoryOptions := match r.memory with
    | none => defaults.memory
    | some pages => ⟨pages, max defaults.memory.maximum pages⟩
  { defaults with debug := r.debug, memory }

/-- The arguments of the call. -/
def json (r : RunRequest) : Except Fault (List Json) :=
  match Json.parse? r.arguments with
  | some (.array items) => .ok items
  | _ => .error .argumentsNotArray

/-- The result of the call (`run_spirit`). -/
def result (loader : Loader) (world : World) (r : RunRequest) : Except Fault Json := do
  let arguments ← r.json
  let bytes ← ((Source.parse r.location).read world).mapError .failed
  let spirit ← (loader.load bytes r.options).result.mapError .failed
  match r.function <|> spirit.defaultEntry? with
  | none => .error .noFunctions
  | some function => (spirit.callJson function arguments).result.mapError .failed

/-- Calls the function and writes its result. -/
def perform (loader : Loader) (world : World) (r : RunRequest) : Ending :=
  match r.result loader world with
  | .ok value => .success [.text value.pretty]
  | .error fault => .failure [.fault fault]

end RunRequest

namespace Request

/-- Opens a session, lets it obey the input, and closes it (`run_interactive_session`). -/
def session (loader : Loader) (world : World) (manifests input : List String) : Ending :=
  let opening := Session.begin (.new loader) world manifests
  match opening.next? with
  | none => .failure opening.outputs
  | some s => .success (opening.outputs ++ Session.run input s)

/-- Does what a request asks for, given the lines of the input. -/
def perform (loader : Loader) (world : World) (input : List String) : Request → Ending
  | .run r => r.perform loader world
  | .seance manifests => session loader world manifests input

end Request

/-! ## Files -/

namespace Request

/-- The paths at which a request looks first. -/
def places : Request → List String
  | .run r => (Source.parse r.location).place?.toList
  | .seance manifests => manifests

/-- The paths at which it looks once it has read those. -/
def furtherPlaces (files : FileSystem) : Request → List String
  | .run _ => []
  | .seance manifests => match Manifest.load files manifests with
    | .ok definitions => definitions.filterMap (·.source.place?)
    | .error _ => []

end Request

/-! ## The whole -/

/-- How the program is used. -/
def usage : String := "Usage: vudo [--verbose] run <SPIRIT> [OPTIONS] | seance <MANIFESTS>..."

/-- The whole program, given its arguments and its input. -/
def program (loader : Loader) (world : World) (arguments : List String) (input : String) :
    Ending :=
  match Request.ofArguments arguments with
  | .ok request => request.perform loader world (lines input)
  | .error .help => .success [.text usage]
  | .error .misuse => .misuse

end SpiritHost.Command
