import SpiritHost.Loa.Registry
import SpiritHost.Wasm.Machine

/-!
# Linking

A module's imports are looked up in the one namespace that the host offers: its functions under
their names, and the memory under `memory`. Each must be there with the type that the import asks
for. Then the module's own memories, tables and variables are made and filled.
-/

namespace SpiritHost

open Wasm

namespace Link

/-- The namespace of everything that the host offers. -/
def namespaceName : String := "env"

/-- The name of the memory, as an import and as an export. -/
def memoryName : String := "memory"

/-- A memory serves where the limits ask for no more than it has and allow all it may grow to. -/
def fits (memory : LinearMemory) (asked : Limits) : Bool :=
  asked.minimum ≤ memory.pages && asked.maximum.all (memory.limit ≤ ·)

/-- The host function or the memory that an import is bound to. -/
inductive Binding where
  | function (function : HostFunction)
  | memory

/-- What an import is bound to. -/
def bind (m : Module) (l : Linking) (i : Import) : Except LoadFault Binding :=
  let mismatch : Except LoadFault Binding := .error (.importType i.namespaceName i.name)
  if i.namespaceName ≠ namespaceName then .error (.unknownImport i.namespaceName i.name)
  else if i.name = memoryName then
    match i.kind with
    | .memory asked => if fits (l.store.memory 0) asked then .ok .memory else mismatch
    | _ => mismatch
  else match l.get? i.name with
    | none => .error (.unknownImport i.namespaceName i.name)
    | some function => match i.kind with
      | .func type =>
        if m.types[type]? = some function.type then .ok (.function function) else mismatch
      | _ => mismatch

/-- The functions among bindings. -/
def functions (bindings : List Binding) : List HostFunction :=
  bindings.filterMap fun b => match b with | .function f => some f | .memory => none

/-- The host's memory, once for each time it is bound. -/
def memories (bindings : List Binding) : List Nat :=
  bindings.filterMap fun b => match b with | .function _ => none | .memory => some 0

/-- The module's own functions, with the frames that a budget reckons with. -/
def ownFunctions (budget : Budget) (m : Module) : List Callee :=
  (m.functions.zip m.code).map fun (index, code) =>
    let type := m.types.getD index ⟨[], []⟩
    .code type code (budget.frame m type code)

/-- The module's own memories, as they are made. -/
def ownMemories (m : Module) : List LinearMemory :=
  m.memories.map fun l => (LinearMemory.create? l.minimum (l.maximum.getD maxPages)).getD .absent

/-- The linked module. Its own memories come after those already in the store. -/
def instantiate (budget : Budget) (m : Module) (bindings : List Binding) (s : Store) :
    Instance where
  source := m
  functions := ((functions bindings).map Callee.host ++ ownFunctions budget m).toArray
  memories := memories bindings ++ List.range' s.memories.length m.memories.length

/-- The store with the module's own memories, variables and tables. -/
def extend (m : Module) (s : Store) : Store :=
  { s with
    memories := s.memories ++ ownMemories m
    globals := m.globals.map fun g => g.init.value?.getD (.zero g.type.value)
    tables := m.tables.map fun t => .empty t.limits.minimum }

/-- The place that a segment starts at. -/
def offset (e : ConstExpr) : Nat :=
  match e.value? with
  | some (.i32 word) => word.toNat
  | _ => 0

/-- Puts functions into tables, segment by segment. -/
def fillTables : List ElementSegment → Store → Except LoadFault Store
  | [], s => .ok s
  | segment :: rest, s =>
    let table := s.tables.getD segment.table (.empty 0)
    match table.fill? (offset segment.offset) segment.functions with
    | some filled => fillTables rest { s with tables := s.tables.set segment.table filled }
    | none => .error .tableSegment

/-- Puts bytes into memories, segment by segment. -/
def fillMemories (inst : Instance) : List DataSegment → Store → Except LoadFault Store
  | [], s => .ok s
  | segment :: rest, s =>
    let address := inst.memories.getD segment.memory s.memories.length
    match (s.memory address).write? (offset segment.offset) segment.bytes with
    | some written => fillMemories inst rest (s.setMemory address written)
    | none => .error .dataSegment

end Link

end SpiritHost
