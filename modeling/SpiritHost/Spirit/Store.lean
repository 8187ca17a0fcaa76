import SpiritHost.Loa.HostCall
import SpiritHost.Wasm.Table

/-!
# Stores

Everything that a Spirit's code and the host functions it calls can change. Memories are addressed
in the order of their creation: first the one the host makes, then those of the module. One of them
is the memory of record, which host functions work on; as long as there is none, they are refused it.
-/

namespace SpiritHost

/-- The state of one Spirit (`SpiritState`). -/
structure Store where
  memories : List LinearMemory
  /-- The memory that host functions work on, once there is one. -/
  record? : Option Nat
  allocator : Allocator
  globals : List Wasm.Value
  tables : List Wasm.Table
  /-- Whether the Spirit's debug output is passed on. -/
  debug : Bool
  loaState : LoaState
  /-- The kinds of the planted values that live in the store, which holds one of each at most. -/
  held : List String
  /-- Planted values that gave way to later ones. -/
  replaced : Nat
  /-- Milliseconds since the epoch, as the host last set them. -/
  clock : UInt64
  /-- State of the random number generator. -/
  entropy : UInt64
  log : Array LogLine

namespace Store

/-- A store without memories. -/
def empty (heapBase : UInt32) (debug : Bool) (clock entropy : UInt64) : Store where
  memories := []
  record? := none
  allocator := .new heapBase
  globals := []
  tables := []
  debug := debug
  loaState := {}
  held := []
  replaced := 0
  clock := clock
  entropy := entropy
  log := #[]

/-- The store with one more memory, which becomes the memory of record. -/
def attach (s : Store) (memory : LinearMemory) : Store :=
  { s with memories := s.memories ++ [memory], record? := some s.memories.length }

/-- A store with one memory, which is the memory of record. -/
def new (memory : LinearMemory) (heapBase : UInt32) (debug : Bool) (clock entropy : UInt64) :
    Store := (empty heapBase debug clock entropy).attach memory

/-- The memory at an address. -/
def memory (s : Store) (address : Nat) : LinearMemory := s.memories.getD address .absent

/-- The store with the memory at an address replaced. -/
def setMemory (s : Store) (address : Nat) (memory : LinearMemory) : Store :=
  { s with memories := s.memories.set address memory }

/-- The memory at an address with the allocator. -/
def heapAt (s : Store) (address : Nat) : Heap := ⟨s.memory address, s.allocator⟩

/-- The address of the memory of record (`SpiritState::memory`). -/
def recordAddress (s : Store) : Except Error Nat :=
  match s.record? with
  | some address => .ok address
  | none => .error (.load .unattached)

/-- What a host function works on (`caller_memory`): the memory of record with the allocator. -/
def callerHeap (s : Store) : Except Error Heap := s.recordAddress.map s.heapAt

/-- The store with the memory at an address and the allocator replaced. -/
def setHeapAt (s : Store) (address : Nat) (h : Heap) : Store :=
  { s.setMemory address h.memory with allocator := h.allocator }

/-- Planted values destroyed when the store is dropped, those already replaced included. -/
def planted (s : Store) : Nat := s.replaced + s.held.length

/-- Plants a value, in place of the one of its kind if there is one. -/
def plant (s : Store) (kind : String) : Store :=
  if kind ∈ s.held then { s with replaced := s.replaced + 1 }
  else { s with held := s.held ++ [kind] }

/-- The next state of the random number generator. -/
def advance (state : UInt64) : UInt64 := 0x9E3779B97F4A7C15 + state

/-- The bits that a state of the generator gives. -/
def scramble (state : UInt64) : UInt64 :=
  let z := (state ^^^ (state >>> 30)) * 0xBF58476D1CE4E5B9
  let z := (z ^^^ (z >>> 27)) * 0x94D049BB133111EB
  z ^^^ (z >>> 31)

/-- Runs a request that may change the heap of the memory at an address. -/
def onHeapAt {α : Type} (s : Store) (address : Nat) (result : Except Error (α × Heap)) :
    Except Error α × Store :=
  match result with
  | .ok (a, h) => (.ok a, s.setHeapAt address h)
  | .error e => (.error e, s)

/-- Runs a request of a host function that may change the heap it works on. -/
def onHeap {α : Type} (s : Store) (request : Heap → Except Error (α × Heap)) :
    Except Error α × Store :=
  match s.recordAddress with
  | .ok address => s.onHeapAt address (request (s.heapAt address))
  | .error e => (.error e, s)

end Store

/-- Runs a host call on a store. -/
def HostCall.run {α : Type} : HostCall α → Store → Except Failure α × Store
  | done result, s => (.ok result, s)
  | fail failure, s => (.error failure, s)
  | alloc size align next, s =>
    let (r, s) := s.onHeap (·.allocAligned size align)
    (next r).run s
  | readBytes address len next, s => (next (s.callerHeap >>= (·.readBytes address len))).run s
  | writeBytes address bytes next, s =>
    let (r, s) := s.onHeap fun h => (h.writeBytes address bytes).map fun h => ((), h)
    (next r).run s
  | encodeString text next, s =>
    let (r, s) := s.onHeap (·.encodeString text)
    (next r).run s
  | decodeString address next, s => (next (s.callerHeap >>= (·.decodeString address))).run s
  | reset next, s =>
    let (r, s) := s.onHeap fun h => .ok ((), h.reset)
    (next r).run s
  | inspect next, s => (next s.callerHeap).run s
  | getState next, s => (next s.loaState).run s
  | setState state next, s => next.run { s with loaState := state }
  | plant kind next, s => next.run (s.plant kind)
  | debugFlag next, s => (next s.debug).run s
  | now next, s => (next s.clock).run s
  | random next, s =>
    let state := Store.advance s.entropy
    (next (Store.scramble state)).run { s with entropy := state }
  | log line next, s => next.run { s with log := s.log.push line }

end SpiritHost
