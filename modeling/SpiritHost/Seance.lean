import SpiritHost.Manifest
import SpiritHost.Spirit.Loader

/-!
# Séances

A séance holds Spirits by name, loaded against one shared registry. A name is absent until a Spirit
is summoned under it and absent again once that Spirit is released. Every operation checks what it
needs before it touches the séance, so that a failed one leaves it as it was; a manifest is
summoned as a whole or not at all, unless one of its Spirits makes the loader panic.
-/

namespace SpiritHost

open Wasm (Value)

/-- Spirits by name, with what later ones are loaded with. The names are in order and differ. -/
structure Seance where
  loader : Loader
  defaults : LoadOptions
  entries : List (String × Spirit)

namespace Seance

/-- A séance without Spirits (`Seance::new`). -/
def new (loader : Loader) (defaults : LoadOptions := {}) : Seance := ⟨loader, defaults, []⟩

/-- Names of the summoned Spirits, in order (`Seance::spirits`). -/
def names (s : Seance) : List String := s.entries.map (·.1)

/-- The Spirit of a name (`Seance::get_spirit`). -/
def get? (s : Seance) (name : String) : Option Spirit := s.entries.lookup name

/-- A Spirit is summoned under the name (`Seance::has_spirit`). -/
def contains (s : Seance) (name : String) : Bool := (s.get? name).isSome

/-- How many Spirits are summoned (`Seance::len`). -/
def size (s : Seance) : Nat := s.entries.length

/-- No Spirit is summoned (`Seance::is_empty`). -/
def isEmpty (s : Seance) : Bool := s.entries.isEmpty

/-- The shared registry (`Seance::registry`). -/
def registry (s : Seance) : Registry := s.loader.registry

/-- The séance with another registry, which later summonings use (`Seance::registry_mut`). Spirits
already summoned keep the functions they were linked with. -/
def setRegistry (s : Seance) (registry : Registry) : Seance :=
  { s with loader := { s.loader with registry } }

/-- Entries with a Spirit put in its place in the order of the names. -/
def insertEntry (name : String) (spirit : Spirit) :
    List (String × Spirit) → List (String × Spirit)
  | [] => [(name, spirit)]
  | (n, other) :: rest =>
    if name < n then (name, spirit) :: (n, other) :: rest
    else if name = n then (name, spirit) :: rest
    else (n, other) :: insertEntry name spirit rest

/-- The séance with a Spirit under a name. -/
def insert (s : Seance) (name : String) (spirit : Spirit) : Seance :=
  { s with entries := insertEntry name spirit s.entries }

/-- The séance without the Spirit of a name. -/
def erase (s : Seance) (name : String) : Seance :=
  { s with entries := s.entries.filter (·.1 != name) }

/-! ## Summoning -/

/-- The options that a summoning loads with (`Seance::options_for`). -/
def optionsFor (s : Seance) : Option SummonOptions → LoadOptions
  | some o => o.apply s.defaults
  | none => s.defaults

/-- The séance with what a load gave. -/
def seat (s : Seance) (name : String) (loaded : Reply Unit Spirit) : Reply Seance Unit :=
  match loaded.result with
  | .ok spirit => loaded.after (.plain (.ok ()) (s.insert name spirit))
  | .error e => loaded.after (.plain (.error e) s)

/-- Loads a Spirit from bytes under a name that is absent (`Seance::summon_bytes`). -/
def summonBytes (s : Seance) (name : String) (bytes : Bytes) (options : Option SummonOptions) :
    Reply Seance Unit :=
  if s.contains name then .plain (.error (.spiritExists name)) s
  else s.seat name (s.loader.load bytes (s.optionsFor options))

/-- Loads a Spirit from a source under a name that is absent (`Seance::summon`); the source is not
read otherwise. -/
def summon (s : Seance) (world : World) (name : String) (source : Source)
    (options : Option SummonOptions) : Reply Seance Unit :=
  if s.contains name then .plain (.error (.spiritExists name)) s
  else match source.read world with
    | .ok bytes => s.summonBytes name bytes options
    | .error e => .plain (.error e) s

/-! ## Ending -/

/-- Takes a Spirit out of the séance (`Seance::release`). Its memory is given back and its store
dropped. -/
def release (s : Seance) (name : String) : Reply Seance Unit :=
  match s.get? name with
  | some spirit =>
    { result := .ok (), state := s.erase name, destroyed := spirit.reset.store.planted }
  | none => .plain (.error (.spiritNotFound name)) s

/-- How many values are planted in the stores of some Spirits. -/
def planted (entries : List (String × Spirit)) : Nat :=
  entries.foldr (fun (_, spirit) n => spirit.reset.store.planted + n) 0

/-- Releases every Spirit (`Seance::dismiss`). -/
def dismiss (s : Seance) : Reply Seance Unit where
  result := .ok ()
  state := { s with entries := [] }
  destroyed := planted s.entries

/-- Releases Spirits that are there, in order. -/
def releaseAll : List String → Seance → Reply Seance Unit
  | [], s => .plain (.ok ()) s
  | name :: rest, s =>
    let released := s.release name
    released.after (releaseAll rest released.state)

/-- Takes back what was summoned before an error. After a panic there is nobody to do it. -/
def undo (e : Error) (summoned : List String) (s : Seance) : Reply Seance Unit :=
  if e.isPanic then .plain (.ok ()) s else releaseAll summoned s

/-- Summons Spirits in order. If one fails, those summoned before it are released. -/
def summonAll (world : World) : List Definition → (summoned : List String) → Seance →
    Reply Seance (List String)
  | [], summoned, s => .plain (.ok summoned) s
  | d :: rest, summoned, s =>
    let reply := s.summon world d.name d.source (some d.summonOptions)
    match reply.result with
    | .ok () => reply.after (summonAll world rest (summoned ++ [d.name]) reply.state)
    | .error e =>
      let undone := reply.after (undo e summoned reply.state)
      undone.after (.plain (.error e) undone.state)

/-- Summons every Spirit of some manifests, or none of them (`Seance::summon_manifest`). -/
def summonManifest (s : Seance) (world : World) (paths : List String) :
    Reply Seance (List String) :=
  match Manifest.load world.files paths with
  | .error e => .plain (.error e) s
  | .ok definitions => match definitions.find? (s.contains ·.name) with
    | some taken => .plain (.error (.spiritExists taken.name)) s
    | none => summonAll world definitions [] s

/-! ## Using -/

/-- An operation on the Spirit of a name (`Seance::spirit_mut`). -/
def onSpirit {α : Type} (s : Seance) (name : String) (operation : Spirit → Reply Spirit α) :
    Reply Seance α :=
  match s.get? name with
  | some spirit => (operation spirit).mapState (s.insert name)
  | none => .plain (.error (.spiritNotFound name)) s

/-- Calls a function of a Spirit (`Seance::invoke`). -/
def invoke (s : Seance) (name function : String) (args : List Value) :
    Reply Seance (List Value) :=
  s.onSpirit name (·.call function args)

/-- Calls a function of a Spirit with JSON arguments (`Seance::invoke_json`). -/
def invokeJson (s : Seance) (name function : String) (args : List Json) : Reply Seance Json :=
  s.onSpirit name (·.callJson function args)

/-- Lets a séance go: whoever is still there is released. -/
def drop (s : Seance) : Reply Seance Unit := s.dismiss

/-- Holds a séance, dismisses it afterwards, whatever came of it, and lets it go
(`Seance::scoped`). -/
def hold {α : Type} (s : Seance) (use : Seance → Reply Seance α) : Reply Seance α :=
  let used := use s
  let dismissed := used.after used.state.dismiss
  let dropped := dismissed.after dismissed.state.drop
  { dropped with result := used.result }

/-- The séance on one line. -/
def describe (s : Seance) : String :=
  s!"Seance \x7b spirits: {Quoted.list s.names}, defaults: {s.defaults.describe} \x7d"

end Seance

end SpiritHost
