import SpiritHost.Spirit.Basic
import SpiritHost.Wasm.Frame

/-!
# Loading

From the bytes of a module to a Spirit: decode and check, make the memory, ask the Loas for their
functions, link, fill, and run the start function. A failure on the way leaves no Spirit; the store
that was in the making is dropped, and with it what Loas planted there. A memory that may grow beyond
the address space is no failure but a panic, and so nothing on the way from there is done.
-/

namespace SpiritHost

open Wasm (Module Instance)

/-- What Spirits are loaded with unless their options say otherwise. -/
structure Loader where
  registry : Registry := .new
  budget : Wasm.Budget
  /-- Milliseconds since the epoch, for Spirits that ask. -/
  clock : UInt64
  /-- Where the random numbers of Spirits start. -/
  entropy : UInt64

namespace Loader

/-- How much one call may take: more steps than a machine can make, and a stack of half a mebibyte,
of which a kibibyte is taken before the call begins. -/
def defaultBudget : Wasm.Budget := ⟨1 <<< 62, 523264, Wasm.Frame.size⟩

/-- The module that bytes encode, if it is well typed. -/
def compile (bytes : Bytes) : Except LoadFault Module :=
  match Module.decode bytes with
  | .error fault => .error (.malformed fault)
  | .ok m => match m.check with
    | .error fault => .error (.illTyped fault)
    | .ok () => .ok m

/-- The memory that options ask for. Its bounds are compared with each other, but not with the address
space before its type is made. -/
def memory (o : MemoryOptions) : Except Error LinearMemory :=
  if o.maximum < o.initial then .error (.load (.initialExceedsMaximum o.initial o.maximum))
  else match LinearMemory.create? o.initial.toNat o.maximum.toNat with
    | some m => .ok m
    | none => .error (.panic (.memoryType o.maximum))

/-- The Loas that a Spirit is linked against, in order. -/
def loas (l : Loader) (o : LoadOptions) : List Loa := (o.registry.getD l.registry).loas ++ o.imports

/-- Where the memory that the host makes is in a store. -/
def hostMemory : Nat := 0

/-- The store before linking. -/
def freshStore (l : Loader) (o : LoadOptions) (memory : LinearMemory) : Store :=
  .new memory o.heapBase o.debug l.clock l.entropy

/-- Links a module against what the Loas provided and fills its memories and tables. -/
def link (budget : Wasm.Budget) (m : Module) (linking : Linking) :
    Except LoadFault (Instance × Store) := do
  if (linking.get? Link.memoryName).isSome then .error .memoryRedefined
  let bindings ← m.imports.mapM (Link.bind m linking)
  let inst := Link.instantiate budget m bindings linking.store
  let store ← Link.fillTables m.elements (Link.extend m linking.store)
  let store ← Link.fillMemories inst m.data store
  .ok (inst, store)

/-- Runs the start function of a module, if it has one. -/
def start (budget : Wasm.Budget) (inst : Instance) (store : Store) :
    Except LoadFault Unit × Store :=
  match inst.source.start with
  | none => (.ok (), store)
  | some f => match inst.run budget f [] store with
    | .finished _ store => (.ok (), store)
    | .halted (.trap t) store => (.error (.start (.wasm t)), store)
    | .halted (.host failure) store => (.error (.start (.host failure)), store)
    | .halted .stuck store => (.error (.start .stuck), store)
    | .outOfSteps store => (.error .outOfSteps, store)

/-- The memory that an instance exports under the memory's name, if it is one. -/
def exportedMemory? (inst : Instance) : Option Nat :=
  match inst.source.export? Link.memoryName with
  | some ⟨_, .memory i⟩ => inst.memories[i]?
  | _ => none

/-- The Spirit of an instance that has been started. One that brings its own memory is served from
it, by the host functions and by its holder, and otherwise from the memory that the host made. -/
def serve (budget : Wasm.Budget) (inst : Instance) (store : Store) : Spirit :=
  match exportedMemory? inst with
  | some memory => ⟨inst, { store with record? := some memory }, memory, budget⟩
  | none => ⟨inst, store, hostMemory, budget⟩

/-- A load that failed after the Loas were asked. -/
def abandon (fault : LoadFault) (store : Store) : Reply Unit Spirit where
  result := .error (.load fault)
  state := ()
  log := store.log.toList
  destroyed := store.planted

/-- Instantiates a Spirit from the bytes of a module (`Loader::load`). -/
def load (l : Loader) (bytes : Bytes) (o : LoadOptions) : Reply Unit Spirit :=
  match compile bytes with
  | .error fault => .plain (.error (.load fault)) ()
  | .ok m => match memory o.memory with
    | .error e => .plain (.error e) ()
    | .ok memory => match Linking.mergeAll (l.loas o) ⟨l.freshStore o memory, []⟩ with
      | (.error fault, linking) => abandon fault linking.store
      | (.ok (), linking) => match link l.budget m linking with
        | .error fault => abandon fault linking.store
        | .ok (inst, store) => match start l.budget inst store with
          | (.error fault, store) => abandon fault store
          | (.ok (), store) =>
            let spirit := serve l.budget inst store
            let settled := spirit.settle (.ok ()) spirit.store
            { result := .ok settled.state
              state := ()
              log := settled.log
              destroyed := settled.destroyed }

end Loader

end SpiritHost
