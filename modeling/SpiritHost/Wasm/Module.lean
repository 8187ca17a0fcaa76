import SpiritHost.Bytes
import SpiritHost.Wasm.Operation

/-!
# Modules

The abstract form of a module: what its bytes decode to and what is validated, linked and run.
Code is a tree, so a block's end needs no search.

The instructions are those of the first version of Wasm, sign extension, saturating truncation, and
null references. What later versions added besides several memories and tables, results of blocks
and constant arithmetic is not there: a module with bulk memory or table instructions, passive
segments, `ref.func`, a data count, vectors, threads, tail calls or exceptions does not decode.
-/

namespace SpiritHost.Wasm

/-- The type of a block: nothing, one result, or a function type by index. -/
inductive BlockType where
  | empty
  | value (type : ValType)
  | index (index : Nat)
deriving DecidableEq, Repr

/-- Where a memory instruction reaches: a memory, an offset added to the address operand, and the
alignment that the code promises (as a power of two). -/
structure MemArg where
  align : Nat
  memory : Nat
  offset : Nat
deriving DecidableEq, Repr

/-- Instructions. Branch targets count the enclosing blocks outwards. -/
inductive Instr where
  | unreachable
  | nop
  | block (type : BlockType) (body : List Instr)
  | loop (type : BlockType) (body : List Instr)
  | ifElse (type : BlockType) (whenTrue whenFalse : List Instr)
  | br (label : Nat)
  | brIf (label : Nat)
  | brTable (labels : List Nat) (otherwise : Nat)
  | ret
  | call (function : Nat)
  | callIndirect (table type : Nat)
  | drop
  /-- One of two operands, by a third. Its type may be given. -/
  | select (type : Option ValType)
  | localGet (index : Nat)
  | localSet (index : Nat)
  | localTee (index : Nat)
  | globalGet (index : Nat)
  | globalSet (index : Nat)
  | load (op : LoadOp) (arg : MemArg)
  | store (op : StoreOp) (arg : MemArg)
  | memorySize (memory : Nat)
  | memoryGrow (memory : Nat)
  | const (value : Value)
  | refIsNull
  | unary (op : UnaryOp)
  | binary (op : BinaryOp)
deriving Repr

/-- An instruction of a constant expression. -/
inductive ConstInstr where
  | const (value : Value)
  | binary (op : BinaryOp)
deriving DecidableEq, Repr

/-- An expression whose value is known before any code runs; operands come before their
operation. -/
structure ConstExpr where
  instrs : List ConstInstr
deriving DecidableEq, Repr

/-- What an import asks for. Functions are typed by index. -/
inductive ImportKind where
  | func (type : Nat)
  | table (type : TableType)
  | memory (limits : Limits)
  | global (type : GlobalType)
deriving DecidableEq, Repr

/-- An import: a two-part name and what must stand under it. -/
structure Import where
  namespaceName : String
  name : String
  kind : ImportKind
deriving DecidableEq, Repr

/-- What an export stands for, by its index among things of its kind. -/
inductive ExportKind where
  | func (index : Nat)
  | table (index : Nat)
  | memory (index : Nat)
  | global (index : Nat)
deriving DecidableEq, Repr

/-- A named export. -/
structure Export where
  name : String
  kind : ExportKind
deriving DecidableEq, Repr

/-- A function's code: its further local variables and its body. -/
structure Code where
  locals : List ValType
  body : List Instr
deriving Repr

/-- A global variable with its initial value. -/
structure Global where
  type : GlobalType
  init : ConstExpr
deriving DecidableEq, Repr

/-- Functions put into a table when the module is instantiated. -/
structure ElementSegment where
  table : Nat
  offset : ConstExpr
  functions : List Nat
deriving DecidableEq, Repr

/-- Bytes put into a memory when the module is instantiated. -/
structure DataSegment where
  memory : Nat
  offset : ConstExpr
  bytes : Bytes
deriving DecidableEq, Repr

/-- A module. Its own functions are typed by index, in step with their code. -/
structure Module where
  types : List FuncType := []
  imports : List Import := []
  functions : List Nat := []
  tables : List TableType := []
  memories : List Limits := []
  globals : List Global := []
  exports : List Export := []
  start : Option Nat := none
  elements : List ElementSegment := []
  code : List Code := []
  data : List DataSegment := []
deriving Repr

namespace Module

/-- The types of imported functions, by type index. -/
def importedFunctions (m : Module) : List Nat :=
  m.imports.filterMap fun i => match i.kind with | .func t => some t | _ => none

/-- The types of imported tables. -/
def importedTables (m : Module) : List TableType :=
  m.imports.filterMap fun i => match i.kind with | .table t => some t | _ => none

/-- The limits of imported memories. -/
def importedMemories (m : Module) : List Limits :=
  m.imports.filterMap fun i => match i.kind with | .memory l => some l | _ => none

/-- The types of imported globals. -/
def importedGlobals (m : Module) : List GlobalType :=
  m.imports.filterMap fun i => match i.kind with | .global t => some t | _ => none

/-- Every function by type index: imported ones first. -/
def functionTypes (m : Module) : List Nat := m.importedFunctions ++ m.functions

/-- Every table: imported ones first. -/
def tableTypes (m : Module) : List TableType := m.importedTables ++ m.tables

/-- Every memory: imported ones first. -/
def memoryTypes (m : Module) : List Limits := m.importedMemories ++ m.memories

/-- Every global: imported ones first. -/
def globalTypes (m : Module) : List GlobalType :=
  m.importedGlobals ++ m.globals.map (·.type)

/-- The type of a function by its index. -/
def functionType? (m : Module) (index : Nat) : Option FuncType := do
  m.types[← m.functionTypes[index]?]?

/-- The type of an export; `none` if its index leads nowhere. -/
def exportType? (m : Module) : ExportKind → Option ExternType
  | .func i => (m.functionType? i).map .func
  | .table i => m.tableTypes[i]?.map .table
  | .memory i => m.memoryTypes[i]?.map .memory
  | .global i => m.globalTypes[i]?.map .global

/-- The first export under a name. -/
def export? (m : Module) (name : String) : Option Export :=
  m.exports.find? (·.name == name)

/-- Parameters and results of a block type. -/
def blockType? (m : Module) : BlockType → Option FuncType
  | .empty => some ⟨[], []⟩
  | .value t => some ⟨[], [t]⟩
  | .index i => m.types[i]?

end Module

end SpiritHost.Wasm
