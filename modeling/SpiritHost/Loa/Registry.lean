import SpiritHost.Loa.Basic
import SpiritHost.Spirit.Store

/-!
# Registries

The Loas that Spirits are linked against, in the order of their registration. The built-in Loa is
there from the start and stays; no two Loas share a name. An operation that fails leaves the
registry as it was.
-/

namespace SpiritHost

/-- Registered Loas. -/
structure Registry where
  loas : List Loa

namespace Registry

/-- The registry of the built-in Loa alone (`LoaRegistry::new`). -/
def new : Registry := ⟨[Loa.builtin]⟩

/-- The Loa of a name (`LoaRegistry::get`). -/
def get? (r : Registry) (name : String) : Option Loa := r.loas.find? (·.name == name)

/-- A Loa of the name is registered (`LoaRegistry::has`). -/
def contains (r : Registry) (name : String) : Bool := (r.get? name).isSome

/-- Registers a Loa after all others (`LoaRegistry::register_shared`). -/
def register (r : Registry) (loa : Loa) : Except Error Registry :=
  if r.contains loa.name then .error (.loaExists loa.name) else .ok ⟨r.loas ++ [loa]⟩

/-- Takes a Loa out (`LoaRegistry::unregister`). -/
def unregister (r : Registry) (name : String) : Except Error (Loa × Registry) :=
  if name = Loa.builtinName then .error (.builtinLoa name)
  else match r.get? name with
    | some loa => .ok (loa, ⟨r.loas.eraseP (·.name == name)⟩)
    | none => .error (.loaNotFound name)

/-- Registers Loas in order. -/
def registerAll (r : Registry) (loas : List Loa) : Except Error Registry :=
  loas.foldlM register r

/-- The names in order. -/
def names (r : Registry) : List String := r.loas.map (·.name)

/-- How many Loas are registered (`LoaRegistry::len`). -/
def size (r : Registry) : Nat := r.loas.length

end Registry

/-- What linking has gathered: the store that Loas were asked against, and the functions they
offer, by name. -/
structure Linking where
  store : Store
  functions : List (String × HostFunction)

namespace Linking

/-- Adds a function; it takes the place of an earlier one of its name, which is logged. -/
def add (l : Linking) (loa name : String) (function : HostFunction) : Linking :=
  if l.functions.any (·.1 == name) then
    { store := { l.store with log := l.store.log.push (.overridden loa name) }
      functions := l.functions.map fun (n, f) => if n == name then (n, function) else (n, f) }
  else { l with functions := l.functions ++ [(name, function)] }

/-- Asks a Loa for its functions and adds them (`merge_provided`). -/
def merge (l : Linking) (loa : Loa) : Except LoadFault Unit × Linking :=
  match loa.provides.run l.store with
  | (.ok provided, store) =>
    (.ok (), provided.foldl (fun l (name, f) => l.add loa.name name f) { l with store })
  | (.error failure, store) => (.error (.providing loa.name failure), { l with store })

/-- Asks Loas in order, up to the first that fails (`LoaRegistry::build_imports`). -/
def mergeAll : List Loa → Linking → Except LoadFault Unit × Linking
  | [], l => (.ok (), l)
  | loa :: rest, l =>
    match l.merge loa with
    | (.ok (), l) => mergeAll rest l
    | (.error fault, l) => (.error fault, l)

/-- The function of a name. -/
def get? (l : Linking) (name : String) : Option HostFunction := l.functions.lookup name

end Linking

end SpiritHost
