import SpiritHost.Wasm.Bounds
import SpiritHost.Wasm.Numeric

/-!
# Typing

Which modules may be instantiated. Code is checked against a stack of operand types; after an
instruction that never falls through, the stack may hold anything, and the check goes on with an
open stack. Everything a module refers to by index must exist and have the type its use needs.
-/

namespace SpiritHost.Wasm

/-- Why a module is not well typed. -/
inductive TypingFault where
  | tooMany
  | unknownIndex
  | sizeLimits
  | initialValue
  | duplicateExport (name : String)
  | startType
  | elementType
  | codeType (function : Nat)
deriving DecidableEq, Repr

/-- The fault in words. -/
def TypingFault.message : TypingFault → String
  | tooMany => "too many definitions"
  | unknownIndex => "an index leads nowhere"
  | sizeLimits => "size limits out of range"
  | initialValue => "an initial value or offset has the wrong type"
  | duplicateExport name => s!"duplicate export name '{name}'"
  | startType => "the start function takes or returns values"
  | elementType => "functions in a table of another type"
  | codeType function => s!"type mismatch in function {function}"

/-- The operand types known at a point of the code, topmost first. Under an open stack there may be
any further operands. -/
structure Operands where
  known : List ValType
  isOpen : Bool
deriving DecidableEq, Repr

namespace Operands

/-- Nothing is known and anything may be there: the state after a jump. -/
def anything : Operands := ⟨[], true⟩

/-- The stack with one more operand. -/
def push (s : Operands) (t : ValType) : Operands := { s with known := t :: s.known }

/-- The stack with more operands, the last one on top. -/
def pushAll (s : Operands) (ts : List ValType) : Operands :=
  { s with known := ts.reverse ++ s.known }

/-- Takes an operand of the given type. -/
def pop (s : Operands) (t : ValType) : Option Operands :=
  match s.known with
  | top :: rest => if top = t then some { s with known := rest } else none
  | [] => if s.isOpen then some s else none

/-- Takes operands of the given types, the last one first. -/
def popAll (s : Operands) (ts : List ValType) : Option Operands :=
  ts.reverse.foldlM pop s

/-- Takes an operand of any type; its type is absent if it comes from below an open stack. -/
def popAny (s : Operands) : Option (Option ValType × Operands) :=
  match s.known with
  | top :: rest => some (some top, { s with known := rest })
  | [] => if s.isOpen then some (none, s) else none

/-- The stack after one of two operands is chosen by a third. Where their type is not given, it is a
numeric one. -/
def choose (s : Operands) : Option ValType → Option Operands
  | some t => do
    let rest ← s.pop .i32
    let rest ← rest.pop t
    let rest ← rest.pop t
    some (rest.push t)
  | none => do
    let rest ← s.pop .i32
    let (second, rest) ← rest.popAny
    let (first, rest) ← rest.popAny
    match first.or second with
    | some t =>
      if t.isNumeric ∧ first.all (· = t) ∧ second.all (· = t) then some (rest.push t) else none
    -- Both come from below an open stack, where there may be anything, the chosen one too.
    | none => some rest

/-- Succeeds if the stack is exactly the given types. -/
def exactly (s : Operands) (ts : List ValType) : Option Unit := do
  let rest ← s.popAll ts
  if rest.known = [] then some () else none

end Operands

/-- What code can refer to. -/
structure Scope where
  source : Module
  /-- Types of parameters and local variables. -/
  locals : List ValType
  /-- Types that a return gives back. -/
  results : List ValType

namespace Scope

/-- A memory operand in range, promising no more than the access's natural alignment. -/
def memArg (s : Scope) (arg : MemArg) (natural : Nat) : Option Unit := do
  let _ ← s.source.memoryTypes[arg.memory]?
  if arg.align ≤ natural ∧ arg.offset < 4294967296 then some () else none

mutual

/-- The operands after an instruction, if it is well typed at the given ones. The labels are the
types that branches to the enclosing blocks carry, innermost first. -/
def instr (s : Scope) (labels : List (List ValType)) (stack : Operands) :
    Instr → Option Operands
  | .unreachable => some .anything
  | .nop => some stack
  | .block bt body => do
    let t ← s.source.blockType? bt
    let outer ← stack.popAll t.params
    let inner ← s.sequence (t.results :: labels) (Operands.pushAll ⟨[], false⟩ t.params) body
    inner.exactly t.results
    some (outer.pushAll t.results)
  | .loop bt body => do
    let t ← s.source.blockType? bt
    let outer ← stack.popAll t.params
    let inner ← s.sequence (t.params :: labels) (Operands.pushAll ⟨[], false⟩ t.params) body
    inner.exactly t.results
    some (outer.pushAll t.results)
  | .ifElse bt whenTrue whenFalse => do
    let t ← s.source.blockType? bt
    let stack ← stack.pop .i32
    let outer ← stack.popAll t.params
    let first ← s.sequence (t.results :: labels) (Operands.pushAll ⟨[], false⟩ t.params) whenTrue
    first.exactly t.results
    let second ← s.sequence (t.results :: labels) (Operands.pushAll ⟨[], false⟩ t.params) whenFalse
    second.exactly t.results
    some (outer.pushAll t.results)
  | .br label => do
    let _ ← stack.popAll (← labels[label]?)
    some .anything
  | .brIf label => do
    let carried ← labels[label]?
    let stack ← stack.pop .i32
    let rest ← stack.popAll carried
    some (rest.pushAll carried)
  | .brTable targets otherwise => do
    let carried ← labels[otherwise]?
    let stack ← stack.pop .i32
    targets.forM fun target => do
      let other ← labels[target]?
      if other.length = carried.length then
        let _ ← stack.popAll other
        some ()
      else none
    let _ ← stack.popAll carried
    some .anything
  | .ret => do
    let _ ← stack.popAll s.results
    some .anything
  | .call function => do
    let t ← s.source.functionType? function
    let rest ← stack.popAll t.params
    some (rest.pushAll t.results)
  | .callIndirect table type => do
    let tableType ← s.source.tableTypes[table]?
    if tableType.element ≠ .funcRef then none
    let t ← s.source.types[type]?
    let stack ← stack.pop .i32
    let rest ← stack.popAll t.params
    some (rest.pushAll t.results)
  | .drop => do
    let (_, rest) ← stack.popAny
    some rest
  | .select type => stack.choose type
  | .localGet i => do
    some (stack.push (← s.locals[i]?))
  | .localSet i => do
    stack.pop (← s.locals[i]?)
  | .localTee i => do
    let t ← s.locals[i]?
    let rest ← stack.pop t
    some (rest.push t)
  | .globalGet i => do
    some (stack.push (← s.source.globalTypes[i]?).value)
  | .globalSet i => do
    let g ← s.source.globalTypes[i]?
    if g.isMutable then stack.pop g.value else none
  | .load op arg => do
    s.memArg arg op.extent.log2
    let rest ← stack.pop .i32
    some (rest.push op.type.valType)
  | .store op arg => do
    s.memArg arg op.extent.log2
    let rest ← stack.pop op.type.valType
    rest.pop .i32
  | .memorySize memory => do
    let _ ← s.source.memoryTypes[memory]?
    some (stack.push .i32)
  | .memoryGrow memory => do
    let _ ← s.source.memoryTypes[memory]?
    let rest ← stack.pop .i32
    some (rest.push .i32)
  | .const value => some (stack.push value.type)
  | .refIsNull => do
    match ← stack.popAny with
    | (some (.ref _), rest) => some (rest.push .i32)
    | (none, rest) => some (rest.push .i32)
    | _ => none
  | .unary op => do
    let (operand, result) := op.signature
    let rest ← stack.pop operand
    some (rest.push result)
  | .binary op => do
    let (operand, result) := op.signature
    let rest ← stack.pop operand
    let rest ← rest.pop operand
    some (rest.push result)

/-- The operands after a sequence of instructions. -/
def sequence (s : Scope) (labels : List (List ValType)) (stack : Operands) :
    List Instr → Option Operands
  | [] => some stack
  | i :: rest => do
    let after ← s.instr labels stack i
    s.sequence labels after rest

end

end Scope

namespace Module

/-- A function's code is well typed. -/
def checkCode (m : Module) (type : Nat) (code : Code) : Option Unit := do
  let t ← m.types[type]?
  if Bounds.locals < t.params.length + code.locals.length then none
  let s : Scope := ⟨m, t.params ++ code.locals, t.results⟩
  let stack ← s.sequence [t.results] ⟨[], false⟩ code.body
  stack.exactly t.results

/-- Limits within a bound, in order. -/
def checkLimits (l : Limits) (bound : Nat) : Bool :=
  l.minimum ≤ bound && l.maximum.all fun max => l.minimum ≤ max && max ≤ bound

/-- Names that occur again later in a list. -/
def repeated? : List String → Option String
  | [] => none
  | name :: rest => if name ∈ rest then some name else repeated? rest

/-- A fault unless the condition holds. -/
def ensure (holds : Bool) (fault : TypingFault) : Except TypingFault Unit :=
  if holds then .ok () else .error fault

/-- The size of a type in a module's interface. -/
def interfaceSize : ExternType → Nat
  | .func t => 2 + t.params.length + t.results.length
  | _ => 1

/-- The type of what an import asks for. -/
def importType? (m : Module) : ImportKind → Option ExternType
  | .func type => m.types[type]?.map .func
  | .table type => some (.table type)
  | .memory l => some (.memory l)
  | .global type => some (.global type)

/-- The types of everything a module imports and exports. -/
def interface (m : Module) : List ExternType :=
  m.imports.filterMap (m.importType? ·.kind) ++ m.exports.filterMap (m.exportType? ·.kind)

/-- The parts of the module keep within their bounds. -/
def isBounded (m : Module) : Bool :=
  m.types.length ≤ Bounds.definitions &&
  m.imports.length ≤ Bounds.definitions &&
  m.functionTypes.length ≤ Bounds.definitions &&
  m.globalTypes.length ≤ Bounds.definitions &&
  m.exports.length ≤ Bounds.definitions &&
  m.tableTypes.length ≤ Bounds.stores &&
  m.memoryTypes.length ≤ Bounds.stores &&
  m.elements.length ≤ Bounds.segments &&
  m.data.length ≤ Bounds.segments &&
  m.elements.all (·.functions.length ≤ Bounds.segmentFunctions) &&
  1 + m.interface.foldr (fun t size => interfaceSize t + size) 0 < Bounds.interface

/-- Accepts the module if it is well typed. -/
def check (m : Module) : Except TypingFault Unit := do
  ensure m.isBounded .tooMany
  ensure (m.functionTypes.all (· < m.types.length)) .unknownIndex
  ensure (m.tableTypes.all fun t => checkLimits t.limits 4294967295) .sizeLimits
  ensure (m.memoryTypes.all (checkLimits · maxPages)) .sizeLimits
  ensure (m.globals.all fun g => g.init.type? = some g.type.value) .initialValue
  ensure (m.exports.all fun e => (m.exportType? e.kind).isSome) .unknownIndex
  match repeated? (m.exports.map (·.name)) with
  | some name => throw (.duplicateExport name)
  | none => pure ()
  match m.start with
  | none => pure ()
  | some f => match m.functionType? f with
    | none => throw .unknownIndex
    | some t => ensure (t = ⟨[], []⟩) .startType
  m.elements.forM fun segment => do
    match m.tableTypes[segment.table]? with
    | none => throw .unknownIndex
    | some t => ensure (t.element = .funcRef) .elementType
    ensure (segment.offset.type? = some .i32) .initialValue
    ensure (segment.functions.all (· < m.functionTypes.length)) .unknownIndex
  m.data.forM fun segment => do
    ensure (segment.memory < m.memoryTypes.length) .unknownIndex
    ensure (segment.offset.type? = some .i32) .initialValue
  ((m.functions.zip m.code).zipIdx m.importedFunctions.length).forM fun ((type, code), i) =>
    ensure (m.checkCode type code).isSome (.codeType i)

end Module

end SpiritHost.Wasm
