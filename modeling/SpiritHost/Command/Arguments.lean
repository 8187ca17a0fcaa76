import SpiritHost.Json.Reader

/-!
# The command line

`run SPIRIT` calls one function of one Spirit; `seance MANIFEST...` opens an interactive session. Of
the switches, a long one takes its value after an equals sign or as the next argument, and short
ones may share a dash. No switch is given twice. After two dashes every argument is a plain word.
The first thing that is wrong decides: misuse before a request for help is misuse.
-/

namespace SpiritHost.Command

/-- What a switch sets. -/
inductive Setting where
  | help
  | verbose
  | function
  | arguments
  | memory
  | debug
deriving DecidableEq, Repr

/-- A switch of the command line. -/
structure Switch where
  setting : Setting
  long : String
  short : Option Char := none
  takesValue : Bool := false

namespace Switch

/-- Switches that are allowed everywhere. -/
def common : List Switch :=
  [⟨.help, "help", some 'h', false⟩, ⟨.verbose, "verbose", some 'v', false⟩]

/-- Switches of `run`. -/
def ofRun : List Switch :=
  common ++ [⟨.function, "function", some 'f', true⟩, ⟨.arguments, "args", some 'a', true⟩,
    ⟨.memory, "memory", none, true⟩, ⟨.debug, "debug", none, false⟩]

end Switch

/-- One thing that the arguments say. -/
inductive Item where
  | word (text : String)
  | flag (setting : Setting)
  | value (setting : Setting) (text : String)
  /-- A switch that does not exist, lacks its value or takes none. -/
  | wrong
deriving DecidableEq, Repr

namespace Item

/-- What an argument says, and the setting whose value the next one is. -/
abbrev Reading := List Item × Option Setting

/-- A long switch, after its dashes. -/
def ofLong (switches : List Switch) (text : List Char) : Reading :=
  let (name, rest) := text.span (· ≠ '=')
  let found? := switches.find? fun s => s.long.toList = name
  match found?, rest with
  | none, _ => ([wrong], none)
  | some s, [] => if s.takesValue then ([], some s.setting) else ([flag s.setting], none)
  | some s, _ :: attached =>
    if s.takesValue then ([value s.setting (String.ofList attached)], none) else ([wrong], none)

/-- Short switches, after their dash. The first that takes a value takes the rest, less an equals
sign before it. -/
def ofShort (switches : List Switch) : List Char → Reading
  | [] => ([], none)
  | letter :: rest =>
    match switches.find? fun s => s.short = some letter with
    | none => ([wrong], none)
    | some s =>
      if !s.takesValue then
        let (items, next) := ofShort switches rest
        (flag s.setting :: items, next)
      else match rest with
        | [] => ([], some s.setting)
        | '=' :: attached | attached => ([value s.setting (String.ofList attached)], none)

/-- One argument: a word, or switches after dashes. A dash alone is a word. -/
def ofArgument (switches : List Switch) (argument : String) : Reading :=
  match argument.toList with
  | '-' :: '-' :: text => ofLong switches text
  | '-' :: letter :: rest => ofShort switches (letter :: rest)
  | _ => ([word argument], none)

/-- An argument that is not a word. -/
def isSwitch (argument : String) : Bool :=
  match argument.toList with
  | '-' :: _ :: _ => true
  | _ => false

/-- What arguments say, given the setting whose value the first one is. -/
def ofArguments (switches : List Switch) : Option Setting → List String → List Item
  | none, [] => []
  | some _, [] => [wrong]
  | some setting, argument :: rest =>
    if isSwitch argument then [wrong]
    else value setting argument :: ofArguments switches none rest
  | none, argument :: rest =>
    if argument = "--" then rest.map word
    else
      let (items, next) := ofArgument switches argument
      items ++ ofArguments switches next rest

end Item

/-! ## Requests -/

/-- A call of one function of one Spirit. -/
structure RunRequest where
  /-- Where the module is. -/
  location : String
  /-- The function, if not the one that runs by default. -/
  function : Option String := none
  /-- JSON text of the arguments. -/
  arguments : String := "[]"
  /-- Initial size of the memory in pages, if not the default. -/
  memory : Option UInt32 := none
  debug : Bool := false
deriving DecidableEq, Repr

/-- What the program is asked to do. -/
inductive Request where
  | run (request : RunRequest)
  | seance (manifests : List String)
deriving DecidableEq, Repr

/-- Why the arguments are no request. -/
inductive Refusal where
  | misuse
  | help
deriving DecidableEq, Repr

/-- What has been said so far: the words, and the settings with the texts of their values. -/
structure Said where
  words : List String := []
  settings : List (Setting × String) := []

namespace Said

/-- The text of a setting's value. -/
def value? (s : Said) (setting : Setting) : Option String := s.settings.lookup setting

/-- One more setting; none may be given twice. -/
def give (s : Said) (setting : Setting) (text : String) : Except Refusal Said :=
  if (s.value? setting).isSome then .error .misuse
  else .ok { s with settings := (setting, text) :: s.settings }

/-- One more item. A value is refused by the test for its setting, and a word by the test for its
place. -/
def add (allowsWord : Nat → String → Bool) (allowsValue : Setting → String → Bool) (s : Said) :
    Item → Except Refusal Said
  | .word text =>
    if allowsWord s.words.length text then .ok { s with words := s.words ++ [text] }
    else .error .misuse
  | .flag .help => .error .help
  | .flag setting => s.give setting ""
  | .value setting text => if allowsValue setting text then s.give setting text else .error .misuse
  | .wrong => .error .misuse

end Said

/-- A number of pages: decimal digits, perhaps with a sign. -/
def pages? (text : String) : Option UInt32 :=
  let (negative, digits) : Bool × List Char := match text.toList with
    | '-' :: digits => (true, digits)
    | '+' :: digits => (false, digits)
    | digits => (false, digits)
  let n := Json.digitsValue digits
  if digits.isEmpty || !digits.all Char.isDigit || 4294967296 ≤ n || (negative && n ≠ 0) then none
  else some (UInt32.ofNat n)

namespace RunRequest

/-- The values that the settings of `run` take. -/
def allowsValue : Setting → String → Bool
  | .memory, text => (pages? text).isSome
  | _, _ => true

/-- The request of `run` with its arguments: exactly one word, where the module is. -/
def ofArguments (arguments : List String) : Except Refusal RunRequest := do
  let said ← (Item.ofArguments Switch.ofRun none arguments).foldlM
    (Said.add (fun before _ => before = 0) allowsValue) {}
  match said.words with
  | [location] => .ok {
      location
      function := said.value? .function
      arguments := (said.value? .arguments).getD "[]"
      memory := (said.value? .memory).bind pages?
      debug := (said.value? .debug).isSome }
  | _ => .error .misuse

end RunRequest

namespace Request

/-- The request of `seance` with its arguments: the paths of manifests, at least one. -/
def seanceOfArguments (arguments : List String) : Except Refusal Request := do
  let said ← (Item.ofArguments Switch.common none arguments).foldlM
    (Said.add (fun _ path => !path.isEmpty) fun _ _ => true) {}
  if said.words.isEmpty then .error .misuse else .ok (.seance said.words)

/-- Commands about which help may be asked. -/
def isCommand (name : String) : Bool := name ∈ ["run", "seance", "help"]

/-- The request that arguments make, after some switches. -/
def ofArgumentsAfter (said : Said) : List String → Except Refusal Request
  | [] => .error .misuse
  | "run" :: rest => do .ok (.run (← RunRequest.ofArguments rest))
  | "seance" :: rest => seanceOfArguments rest
  | "help" :: rest =>
    if rest.isEmpty || rest.length = 1 && rest.all isCommand then .error .help else .error .misuse
  | argument :: rest => do
    let said ← (Item.ofArgument Switch.common argument).1.foldlM
      (Said.add (fun _ _ => false) fun _ _ => true) said
    ofArgumentsAfter said rest

/-- The request that arguments make. -/
def ofArguments (arguments : List String) : Except Refusal Request := ofArgumentsAfter {} arguments

end Request

end SpiritHost.Command
