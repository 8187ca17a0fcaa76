import SpiritHost.Command.Program
import Std.Time.DateTime.Timestamp

/-!
# Main

Reads the files that a request may look at, the clock and the input, and writes what the program
says: faults and hints to standard error, all else to standard output.
-/

namespace SpiritHost.Command

/-- What the operating system gives for a path. -/
def readPath (path : String) : IO (Except ReadFault Bytes) := do
  try
    return .ok (← IO.FS.readBinFile path).toList
  catch
    | .noFileOrDirectory .. => return .error .notFound
    | .inappropriateType _ 21 _ => return .error .isDirectory
    | .inappropriateType .. => return .error .notDirectory
    | fault => return .error (.other (toString fault))

/-- What the operating system gives for some paths. -/
def readPaths (paths : List String) : IO (List (String × Except ReadFault Bytes)) :=
  paths.mapM fun path => return (path, ← readPath path)

/-- The files that a request may look at. There is no network. -/
def Request.readWorld (request : Request) : IO World := do
  let first ← readPaths request.places
  let further ← readPaths (request.furtherPlaces (.ofList first))
  return .ofList (first ++ further)

/-- A loader with the time of day and random bits. -/
def newLoader : IO Loader := do
  let now ← Std.Time.Timestamp.now
  let random ← IO.getRandomBytes 8
  return {
    budget := Loader.defaultBudget
    clock := UInt64.ofInt now.toMillisecondsSinceUnixEpoch.val
    entropy := UInt64.ofNat (Bytes.toNatLE random.toList) }

/-- Writes a piece of output. -/
def Output.put (output : Output) : IO Unit := do
  match output with
  | .text _ =>
    IO.println output.written
    (← IO.getStdout).flush
  | _ => IO.eprintln output.written

/-- Obeys the input line by line. -/
partial def converse (input : IO.FS.Stream) (s : Seance) : IO Unit := do
  let line ← input.getLine
  if line.isEmpty then Session.farewell.put
  else
    let turn := Session.obey s (String.ofList (withoutEnd line.toList))
    turn.outputs.forM Output.put
    match turn.next? with
    | none => return
    | some s => converse input s

/-- Does what a request asks for and gives the exit code. -/
def Request.execute (loader : Loader) (world : World) : Request → IO UInt32
  | .run r => do
    let ending := r.perform loader world
    ending.outputs.forM Output.put
    return ending.exitCode
  | .seance manifests => do
    let opening := Session.begin (.new loader) world manifests
    opening.outputs.forM Output.put
    match opening.next? with
    | none => return (Ending.failure opening.outputs).exitCode
    | some s =>
      converse (← IO.getStdin) s
      return 0

/-- Does what the arguments ask for and gives the exit code. -/
def execute (arguments : List String) : IO UInt32 := do
  match Request.ofArguments arguments with
  | .error .help =>
    IO.println usage
    return 0
  | .error .misuse =>
    IO.eprintln usage
    return 2
  | .ok request => request.execute (← newLoader) (← request.readWorld)

end SpiritHost.Command

/-- The program. -/
def main (arguments : List String) : IO UInt32 := SpiritHost.Command.execute arguments
