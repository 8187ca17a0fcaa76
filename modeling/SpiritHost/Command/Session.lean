import SpiritHost.Command.Output
import SpiritHost.Command.Words
import SpiritHost.Seance

/-!
# The interactive session

A session holds a séance and obeys lines one after another, until one of them or the end of the
input ends it. A line that cannot be obeyed is answered, and the session goes on. A Spirit's
function is named by a target: the Spirit's name, a dot and the function's name.
-/

namespace SpiritHost.Command

/-- What a line asks for. -/
inductive Instruction where
  | list
  | invoke (target : String) (arguments : List String)
  | release (name : String)
  | help
  | leave
  /-- The words lack an operand; the text says what is expected. -/
  | incomplete (usage : String)
  | unknown
deriving DecidableEq, Repr

namespace Instruction

/-- The instruction that the words of a line spell; none if there are no words. -/
def ofWords? : List String → Option Instruction
  | [] => none
  | "list" :: _ => some list
  | ["invoke"] => some (incomplete "Usage: invoke <spirit>.<function> [args...]")
  | "invoke" :: target :: arguments => some (invoke target arguments)
  | ["release"] => some (incomplete "Usage: release <spirit>")
  | "release" :: name :: _ => some (release name)
  | "help" :: _ => some help
  | "exit" :: _ | "quit" :: _ => some leave
  | _ => some unknown

/-- What the instructions are. -/
def overview : String :=
  "\n".intercalate [
    "Available commands:",
    "  list                             - List summoned spirits and their functions",
    "  invoke <spirit>.<fn> [args...]   - Call a function with arguments",
    "  release <spirit>                 - Release a spirit",
    "  help                             - Show this help message",
    "  exit, quit                       - Exit the interactive session"]

end Instruction

namespace Session

/-! ## Targets -/

/-- The target that names a function of a Spirit. -/
def target (spirit function : String) : String := spirit ++ "." ++ function

/-- The Spirit and the function that a target names: what stands before its first dot, and what
stands after it. -/
def splitTarget? (target : String) : Option (String × String) :=
  match target.toList.span (· ≠ '.') with
  | (spirit, _ :: function) => some (String.ofList spirit, String.ofList function)
  | (_, []) => none

/-- Every Spirit of a séance with every function of it, by name. -/
def functions (s : Seance) : List (String × String) :=
  s.entries.flatMap fun (name, spirit) => spirit.functions.map (name, ·)

/-- The targets of every function of a séance, in order. -/
def targets (s : Seance) : List String :=
  ((functions s).map fun (name, function) => target name function).mergeSort (· ≤ ·)

/-- What an argument of a call says: the JSON value that it spells, or else itself as a string. -/
def argument (text : String) : Json :=
  let trimmed := String.ofList (Text.trim text.toList)
  (Json.parse? trimmed).getD (.string trimmed)

/-! ## Obeying -/

/-- What came of one line: the output, and the séance with which the session goes on, if it does. -/
structure Turn where
  outputs : List Output
  next? : Option Seance

namespace Turn

/-- The session goes on. -/
def proceed (s : Seance) (outputs : List Output) : Turn := ⟨outputs, some s⟩

/-- The session goes on with what an operation left, after a text about its result. -/
def ofReply {α : Type} (r : Reply Seance α) (text : α → String) : Turn :=
  proceed r.state [match r.result with
    | .ok a => .text (text a)
    | .error e => .fault (.failed e)]

end Turn

/-- Does what an instruction asks for. -/
def perform (s : Seance) : Instruction → Turn
  | .list => .proceed s ((targets s).map fun t => .text ("- " ++ t))
  | .invoke target arguments => match splitTarget? target with
    | none => .proceed s [.fault .targetWithoutDot]
    | some (spirit, function) =>
      .ofReply (s.invokeJson spirit function (arguments.map argument)) Json.pretty
  | .release name => .ofReply (s.release name) fun _ => "Released " ++ name
  | .help => .proceed s [.text Instruction.overview]
  | .leave => ⟨[], none⟩
  | .incomplete usage => .proceed s [.hint usage]
  | .unknown => .proceed s [.hint "Unknown command. Type 'help' for a list of commands."]

/-- Obeys a line (`handle_command`); one without words asks for nothing. -/
def obey (s : Seance) (line : String) : Turn :=
  match Instruction.ofWords? (words line) with
  | none => .proceed s []
  | some instruction => perform s instruction

/-- What is written when the input ends. -/
def farewell : Output := .text "CTRL-D"

/-- Everything written while a session obeys the given lines up to the end of the input. -/
def run : List String → Seance → List Output
  | [], _ => [farewell]
  | line :: rest, s =>
    let turn := obey s line
    turn.outputs ++ match turn.next? with
      | none => []
      | some s => run rest s

/-- Summons the Spirits of manifests, with which a session begins. -/
def begin (s : Seance) (world : World) (manifests : List String) : Turn :=
  let reply := s.summonManifest world manifests
  let loading : Output := .text s!"Loading manifests from: {Quoted.list manifests}..."
  match reply.result with
  | .error e => ⟨[loading, .fault (.failed e)], none⟩
  | .ok names => .proceed reply.state [loading, .text s!"Summoned {names.length} spirits.",
      .text "Starting interactive session. Type 'help' for commands."]

end Session

/-! ## Lines -/

/-- A line without its end: a line feed, or a carriage return before one. -/
def withoutEnd (line : List Char) : List Char :=
  match line.reverse with
  | '\n' :: '\r' :: rest => rest.reverse
  | '\n' :: rest => rest.reverse
  | _ => line

/-- The lines of a text, each with its end; the last one may lack it. -/
def rawLines (begun : List Char) : List Char → List (List Char)
  | [] => wordOf begun
  | c :: rest =>
    if c = '\n' then (begun ++ [c]) :: rawLines [] rest else rawLines (begun ++ [c]) rest

/-- The lines of a text, without their ends. -/
def lines (text : String) : List String :=
  (rawLines [] text.toList).map fun line => String.ofList (withoutEnd line)

end SpiritHost.Command
