import SpiritHost.Decimal.Binary32
import SpiritHost.Spirit.Link
import SpiritHost.Spirit.Options

/-!
# Spirits

A Spirit is an instantiated module with the store it owns. The host calls its exports and works on
its memory; each operation gives a reply, which says what came out and what the Spirit is
afterwards. A call that does not fit the function called is refused before any of its code runs.
-/

namespace SpiritHost

open Wasm (ExternType FuncType Value ValType)

/-- What comes out of an operation: a result or an error, the state afterwards, the lines it left in
the log, and how many planted values it destroyed. -/
structure Reply (σ α : Type) where
  result : Except Error α
  state : σ
  log : List LogLine := []
  destroyed : Nat := 0

namespace Reply

/-- A reply that leaves no trace. -/
def plain {σ α : Type} (result : Except Error α) (state : σ) : Reply σ α := { result, state }

/-- The reply with its state converted. -/
def mapState {σ τ α : Type} (f : σ → τ) (r : Reply σ α) : Reply τ α :=
  ⟨r.result, f r.state, r.log, r.destroyed⟩

/-- What went before a reply, put in front of it. -/
def after {σ τ α β : Type} (earlier : Reply τ β) (r : Reply σ α) : Reply σ α :=
  { r with log := earlier.log ++ r.log, destroyed := earlier.destroyed + r.destroyed }

/-- The reply with its result converted. -/
def map {σ α β : Type} (f : α → β) (r : Reply σ α) : Reply σ β :=
  ⟨r.result.map f, r.state, r.log, r.destroyed⟩

theorem map_id {σ α : Type} (r : Reply σ α) : r.map id = r := by
  obtain ⟨_ | _, _, _, _⟩ := r <;> rfl

end Reply

/-- A loaded module and everything it owns. -/
structure Spirit where
  linked : Wasm.Instance
  store : Store
  /-- The memory that the holder works on. -/
  manager : Nat
  budget : Wasm.Budget

namespace Spirit

/-- The module. -/
def source (s : Spirit) : Wasm.Module := s.linked.source

/-- The memory that the holder works on with the allocator. -/
def heap (s : Spirit) : Heap := s.store.heapAt s.manager

/-! ## Exports -/

/-- Every export with its type, in order (`Spirit::exports`). -/
def exports (s : Spirit) : List (String × ExternType) :=
  s.source.exports.filterMap fun e => (s.source.exportType? e.kind).map fun t => (e.name, t)

/-- The export of a name (`Spirit::export`). -/
def export? (s : Spirit) (name : String) : Option ExternType := s.exports.lookup name

/-- Names of the exported functions, in order (`Spirit::list_functions`). -/
def functions (s : Spirit) : List String :=
  s.exports.filterMap fun (name, t) => t.func?.map fun _ => name

/-- The type of the exported function of a name (`Spirit::function_type`). -/
def functionType? (s : Spirit) (name : String) : Option FuncType := do
  (← s.export? name).func?

/-- A function of the name is exported (`Spirit::has_function`). -/
def hasFunction (s : Spirit) (name : String) : Bool := (s.functionType? name).isSome

/-- The function that runs unless another is asked for. -/
def mainName : String := "main"

/-- `main` if it is an exported function, otherwise the first exported function
(`Spirit::default_entry`). -/
def defaultEntry? (s : Spirit) : Option String :=
  if s.hasFunction mainName then some mainName else s.functions.head?

/-- The index of an exported function (`Spirit::func`). -/
def function (s : Spirit) (name : String) : Except Error Nat :=
  match s.source.export? name with
  | some ⟨_, .func index⟩ => .ok index
  | some _ => .error (.notCallable name)
  | none => .error (.functionNotFound name)

/-! ## Calls -/

/-- The reply about a store after an operation; its log is taken out. -/
def settle {α : Type} (s : Spirit) (result : Except Error α) (store : Store) : Reply Spirit α where
  result := result
  state := { s with store := { store with log := #[], replaced := 0 } }
  log := store.log.toList
  destroyed := store.replaced

/-- The first argument whose type is not the parameter's (`check_args`). References are not
compared. -/
def checkTypes (name : String) : Nat → List ValType → List Value → Except Error Unit
  | index, param :: params, arg :: args =>
    if param.isNumeric ∧ arg.type ≠ param then
      .error (.signature name (.parameter index param arg))
    else checkTypes name (index + 1) params args
  | _, _, _ => .ok ()

/-- As many arguments as parameters. -/
def checkCount (name : String) (expected found : Nat) : Except Error Unit :=
  if found = expected then .ok () else .error (.signature name (.count expected found))

/-- The first argument that is a reference of another type than its parameter. -/
def misfit? : Nat → List ValType → List Value → Option Nat
  | index, param :: params, arg :: args =>
    if arg.type ≠ param then some index else misfit? (index + 1) params args
  | _, _, _ => none

/-- The error that a failure inside a call comes out as (`Error::from_trap`): what the host raised
on the Spirit's behalf, or else a trap. -/
def haltError : Wasm.Halt → Error
  | .trap t => .trap (.wasm t)
  | .host failure => failure.recover?.getD (.trap (.host failure))
  | .stuck => .trap .stuck

/-- Runs a function with arguments of its type. -/
def run (s : Spirit) (index : Nat) (args : List Value) : Reply Spirit (List Value) :=
  match s.linked.functions[index]? with
  | some (.host function) =>
    match (function.call args).run s.store with
    | (.ok results, store) => s.settle (.ok results) store
    | (.error failure, store) => s.settle (.error (.trap (.direct failure))) store
  | _ => match s.linked.run s.budget index args s.store with
    | .finished results store => s.settle (.ok results) store
    | .halted halt store => s.settle (.error (haltError halt)) store
    | .outOfSteps store => s.settle (.error .outOfSteps) store

/-- A call once its arguments are known: refused if they do not fit, otherwise run. -/
def callIndex (s : Spirit) (name : String) (index : Nat) (args : List Value) :
    Reply Spirit (List Value) :=
  let params := ((s.source.functionType? index).getD ⟨[], []⟩).params
  match (do
    checkCount name params.length args.length
    checkTypes name 0 params args) with
  | .error e => .plain (.error e) s
  | .ok () => match misfit? 0 params args with
    | some i => .plain (.error (.trap (.reference i))) s
    | none => s.run index args

/-- Calls an exported function (`Spirit::call`). -/
def call (s : Spirit) (name : String) (args : List Value) : Reply Spirit (List Value) :=
  match s.function name with
  | .error e => .plain (.error e) s
  | .ok index => s.callIndex name index args

/-- Calls an exported function that must have the given type (`Spirit::typed`). -/
def callTyped (s : Spirit) (name : String) (type : FuncType) (args : List Value) :
    Reply Spirit (List Value) :=
  match s.function name with
  | .error e => .plain (.error e) s
  | .ok index =>
    let found := (s.source.functionType? index).getD ⟨[], []⟩
    if found = type then s.callIndex name index args
    else .plain (.error (.signature name (.typed type found))) s

/-! ## Calls with JSON -/

/-- A JSON argument as a value of a parameter's type (`json_to_val`). Only numbers become numbers,
except that a 32-bit integer may be given as a truth value; nothing becomes a reference. -/
def ofJson (json : Json) (type : ValType) : Except ConversionFault Value :=
  match json, type with
  | .bool b, .i32 => .ok (.i32 (if b then 1 else 0))
  | .number n, .i32 => match n.toInt64? with
    | some v =>
      if -2147483648 ≤ v ∧ v < 2147483648 then .ok (.i32 (UInt32.ofInt v))
      else .error (.number .i32 n)
    | none => .error (.number .i32 n)
  | .number n, .i64 => match n.toInt64? with
    | some v => .ok (.i64 (UInt64.ofInt v))
    | none => .error (.number .i64 n)
  | .number n, .f32 => .ok (.f32 (Float.ofBits n.toFloatBits).toFloat32.toBits)
  | .number n, .f64 => .ok (.f64 n.toFloatBits)
  | json, type => .error (.type json type)

/-- A value as JSON (`val_to_json`). Integers are signed, a float that is not finite is null, and a
reference is its text. -/
def toJson : Value → Json
  | .i32 word => .int word.toInt32.toInt
  | .i64 word => .int word.toInt64.toInt
  | .f32 bits => .ofFloatBits (Decimal.Binary32.widen bits)
  | .f64 bits => .ofFloatBits bits
  | v => .string v.text

/-- Arguments converted in order; the first that does not fit decides the error. -/
def convert (name : String) : Nat → List ValType → List Json → Except Error (List Value)
  | index, param :: params, arg :: args =>
    match ofJson arg param with
    | .error fault => .error (.signature name (.conversion index fault))
    | .ok value => do
      let rest ← convert name (index + 1) params args
      .ok (value :: rest)
  | _, _, _ => .ok []

/-- Results as one JSON value: nothing, the value itself, or an array of several. -/
def resultJson : List Value → Json
  | [] => .null
  | [v] => toJson v
  | vs => .array (vs.map toJson)

/-- Calls an exported function with JSON arguments (`Spirit::call_json`). -/
def callJson (s : Spirit) (name : String) (args : List Json) : Reply Spirit Json :=
  match s.function name with
  | .error e => .plain (.error e) s
  | .ok index =>
    let params := ((s.source.functionType? index).getD ⟨[], []⟩).params
    match (do
      checkCount name params.length args.length
      convert name 0 params args) with
    | .error e => .plain (.error e) s
    | .ok values => (s.callIndex name index values).map resultJson

/-! ## Memory -/

/-- An operation on the Spirit's memory that gives back the heap it leaves. -/
def onHeap {α : Type} (s : Spirit) (operation : Heap → Except Error (α × Heap)) :
    Reply Spirit α :=
  let (result, store) := s.store.onHeapAt s.manager (operation s.heap)
  s.settle result store

/-- Allocates a region of the Spirit's memory. -/
def alloc (s : Spirit) (size : UInt32) : Reply Spirit UInt32 := s.onHeap (·.alloc size)

/-- Allocates an aligned region of the Spirit's memory. -/
def allocAligned (s : Spirit) (size align : UInt32) : Reply Spirit UInt32 :=
  s.onHeap (·.allocAligned size align)

/-- Gives a region back, which changes nothing (`MemoryManager::free`): memory is reclaimed by a
reset alone. -/
def free (s : Spirit) (_address : UInt32) : Spirit := s

/-- Writes a string and gives its address (`Spirit::write_string`). -/
def writeString (s : Spirit) (text : String) : Reply Spirit UInt32 :=
  s.onHeap (·.encodeString text)

/-- The string at an address (`Spirit::read_string`). -/
def readString (s : Spirit) (address : UInt32) : Except Error String := s.heap.decodeString address

/-- Overwrites a range. -/
def writeBytes (s : Spirit) (address : UInt32) (bytes : Bytes) : Reply Spirit Unit :=
  s.onHeap fun h => (h.writeBytes address bytes).map fun h => ((), h)

/-- Allocates room for one instance of a gene. -/
def allocRecord (s : Spirit) (g : GeneLayout) : Reply Spirit UInt32 := s.onHeap (·.allocRecord g)

/-- Writes an instance of a gene. -/
def writeRecord (s : Spirit) (g : GeneLayout) (address : UInt32) (r : Record) :
    Reply Spirit Unit :=
  s.onHeap fun h => (h.writeRecord g address r).map fun h => ((), h)

/-- Takes back every region of the Spirit's memory (`Spirit::reset_memory`). -/
def reset (s : Spirit) : Spirit := { s with store := s.store.setHeapAt s.manager s.heap.reset }

/-- The Spirit on one line. -/
def describe (s : Spirit) : String :=
  s!"Spirit \x7b functions: {Quoted.list s.functions}, " ++
    s!"allocator: {s.store.allocator.describe} \x7d"

end Spirit

end SpiritHost
