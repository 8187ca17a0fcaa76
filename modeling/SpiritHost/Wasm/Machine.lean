import SpiritHost.Spirit.Store
import SpiritHost.Wasm.Numeric

/-!
# Running code

A machine runs one instruction at a time over a stack of operands and a stack of contexts: the
blocks it is in and the calls it has to return from. A step gives the next machine, the results, or
a halt: a trap, the failure of a host function, or code that no validated module holds (`stuck`).
`run` repeats steps within a budget; running out of it is an outcome of its own.
-/

namespace SpiritHost.Wasm

/-- A function of an instance: the host's, or the module's own. -/
inductive Callee where
  | host (function : HostFunction)
  /-- A call takes a frame of the given number of bytes. -/
  | code (type : FuncType) (code : Code) (frame : Nat)

/-- The type of a function. -/
def Callee.type : Callee → FuncType
  | host function => function.type
  | code type .. => type

/-- A module linked to what it imports. -/
structure Instance where
  source : Module
  functions : Array Callee
  /-- Where the module's memories are in the store, imported ones first. -/
  memories : List Nat

/-- How much a call may take. -/
structure Budget where
  /-- Instructions that one call may run. -/
  steps : Nat
  /-- Bytes that the frames of the calls under way may take together. -/
  stack : Nat
  /-- Bytes of the frame of a call, for a function of a module. They depend on the code that an
  engine makes of it, and differ from one engine to the next. -/
  frame : Module → FuncType → Code → Nat

/-- What happens after the code at hand. -/
inductive Context where
  /-- In a block: how many operands a branch out of it carries, the operands below the block's, the
  code that a branch goes to, and the code after the block. -/
  | label (carried : Nat) (below : List Value) (target rest : List Instr)
  /-- In a call: how many results it gives, the bytes of its frame, and the caller's operands,
  variables and code. -/
  | frame (results size : Nat) (below : List Value) (locals : List Value) (rest : List Instr)

/-- A machine in the middle of running. The operand on top is the first of the list. -/
structure Machine where
  code : List Instr
  operands : List Value
  locals : List Value
  contexts : List Context
  /-- Bytes that the frames of the calls under way take. -/
  stack : Nat
  store : Store

/-- Why a machine stopped before its end. -/
inductive Halt where
  | trap (trap : Trap)
  | host (failure : Failure)
  | stuck

/-- What one step leads to. -/
inductive Step where
  | running (m : Machine)
  | finished (results : List Value) (store : Store)
  | halted (halt : Halt) (store : Store)

namespace Machine

/-- A trap here. -/
def trap (m : Machine) (t : Trap) : Step := .halted (.trap t) m.store

/-- Code that no validated module holds. -/
def stuck (m : Machine) : Step := .halted .stuck m.store

/-- On to the next instructions. -/
def next (m : Machine) (rest : List Instr) (operands : List Value) : Step :=
  .running { m with code := rest, operands }

/-- Leaves contexts up to the innermost call and gives its results to the caller. -/
def unwind (m : Machine) : List Context → Step
  | [] => m.stuck
  | .label .. :: outer => m.unwind outer
  | .frame results size below locals rest :: outer =>
    .running { m with
      code := rest
      operands := m.operands.take results ++ below
      locals
      contexts := outer
      stack := m.stack - size }

/-- Leaves contexts up to the given label and goes to its target. The label of a call is that of
its function's body: to branch there is to return. -/
def branch (m : Machine) : Nat → List Context → Step
  | _, [] => m.stuck
  | 0, .label carried below target _ :: outer =>
    .running { m with
      code := target
      operands := m.operands.take carried ++ below
      contexts := outer }
  | 0, .frame .. :: _ => m.unwind m.contexts
  | n + 1, .label .. :: outer => m.branch n outer
  | _ + 1, .frame .. :: _ => m.stuck

/-- Enters a block with its parameters as its only operands. -/
def enter (m : Machine) (params carried : Nat) (body target rest : List Instr)
    (operands : List Value) : Step :=
  .running { m with
    code := body
    operands := operands.take params
    contexts := .label carried (operands.drop params) target rest :: m.contexts }

/-- The end of the code at hand: back to the block or call around it. -/
def leave (m : Machine) : Step :=
  match m.contexts with
  | [] => .finished m.operands.reverse m.store
  | .label _ below _ rest :: outer =>
    .running { m with code := rest, operands := m.operands ++ below, contexts := outer }
  | .frame .. :: _ => m.unwind m.contexts

/-- Calls a function with the arguments on the stack. -/
def invoke (m : Machine) (budget : Budget) (callee : Callee) (rest : List Instr)
    (operands : List Value) : Step :=
  let params := callee.type.params.length
  let args := (operands.take params).reverse
  let below := operands.drop params
  match callee with
  | .host function =>
    match (function.call args).run m.store with
    | (.ok results, store) =>
      .running { m with code := rest, operands := results.reverse ++ below, store }
    | (.error failure, store) => .halted (.host failure) store
  | .code type code size =>
    if budget.stack < m.stack + size then m.trap .stackOverflow
    else
      .running { m with
        code := code.body
        operands := []
        locals := args ++ code.locals.map Value.zero
        contexts := .frame type.results.length size below m.locals rest :: m.contexts
        stack := m.stack + size }

/-- The address that a memory operand reaches: a memory and an offset in it. -/
def reach? (inst : Instance) (arg : MemArg) (base : UInt32) : Option (Nat × Nat) := do
  let memory ← inst.memories[arg.memory]?
  some (memory, base.toNat + arg.offset)

/-- Stores bytes at a memory operand. -/
def storeBytes (m : Machine) (inst : Instance) (arg : MemArg) (base : UInt32) (bytes : Bytes)
    (rest : List Instr) (operands : List Value) : Step :=
  match reach? inst arg base with
  | none => m.stuck
  | some (memory, address) =>
    match (m.store.memory memory).write? address bytes with
    | none => m.trap .memoryOutOfBounds
    | some written =>
      .running { m with code := rest, operands, store := m.store.setMemory memory written }

/-- The result of a numeric instruction goes on the stack. -/
def result (m : Machine) (rest : List Instr) (operands : List Value) :
    Option (Except Trap Value) → Step
  | some (.ok value) => m.next rest (value :: operands)
  | some (.error t) => m.trap t
  | none => m.stuck

/-- Runs an instruction that is followed by the given code. -/
def instr (m : Machine) (inst : Instance) (budget : Budget) (rest : List Instr) :
    Instr → List Value → Step
  | .unreachable, _ => m.trap .unreachable
  | .nop, operands => m.next rest operands
  | .block type body, operands =>
    match inst.source.blockType? type with
    | some t => m.enter t.params.length t.results.length body rest rest operands
    | none => m.stuck
  | .loop type body, operands =>
    match inst.source.blockType? type with
    | some t =>
      m.enter t.params.length t.params.length body (.loop type body :: rest) rest operands
    | none => m.stuck
  | .ifElse type whenTrue whenFalse, .i32 c :: operands =>
    match inst.source.blockType? type with
    | some t =>
      let body := if c = 0 then whenFalse else whenTrue
      m.enter t.params.length t.results.length body rest rest operands
    | none => m.stuck
  | .br label, operands => { m with operands }.branch label m.contexts
  | .brIf label, .i32 c :: operands =>
    if c = 0 then m.next rest operands else { m with operands }.branch label m.contexts
  | .brTable labels otherwise, .i32 i :: operands =>
    { m with operands }.branch (labels.getD i.toNat otherwise) m.contexts
  | .ret, operands => { m with operands }.unwind m.contexts
  | .call f, operands =>
    match inst.functions[f]? with
    | some callee => m.invoke budget callee rest operands
    | none => m.stuck
  | .callIndirect table type, .i32 i :: operands =>
    match m.store.tables[table]?, inst.source.types[type]? with
    | some t, some expected =>
      if t.size ≤ i.toNat then m.trap .tableOutOfBounds
      else match t.function? i.toNat with
        | none => m.trap .indirectCallToNull
        | some f => match inst.functions[f]? with
          | some callee =>
            if callee.type = expected then m.invoke budget callee rest operands
            else m.trap .badSignature
          | none => m.stuck
    | _, _ => m.stuck
  | .drop, _ :: operands => m.next rest operands
  | .select _, .i32 c :: second :: first :: operands =>
    m.next rest ((if c = 0 then second else first) :: operands)
  | .localGet i, operands =>
    match m.locals[i]? with
    | some value => m.next rest (value :: operands)
    | none => m.stuck
  | .localSet i, value :: operands =>
    .running { m with code := rest, operands, locals := m.locals.set i value }
  | .localTee i, value :: operands =>
    .running { m with
      code := rest
      operands := value :: operands
      locals := m.locals.set i value }
  | .globalGet i, operands =>
    match m.store.globals[i]? with
    | some value => m.next rest (value :: operands)
    | none => m.stuck
  | .globalSet i, value :: operands =>
    .running { m with
      code := rest
      operands
      store := { m.store with globals := m.store.globals.set i value } }
  | .load op arg, .i32 base :: operands =>
    match reach? inst arg base with
    | none => m.stuck
    | some (memory, address) =>
      match (m.store.memory memory).read? address op.extent.bytes with
      | none => m.trap .memoryOutOfBounds
      | some bytes => m.next rest (op.value bytes :: operands)
  | .store op arg, value :: .i32 base :: operands =>
    match op.bytes? value with
    | none => m.stuck
    | some bytes => m.storeBytes inst arg base bytes rest operands
  | .memorySize memory, operands =>
    match inst.memories[memory]? with
    | some address => m.next rest (.i32 (UInt32.ofNat (m.store.memory address).pages) :: operands)
    | none => m.stuck
  | .memoryGrow memory, .i32 more :: operands =>
    match inst.memories[memory]? with
    | some address =>
      let old := m.store.memory address
      match old.grow? more.toNat with
      | some grown =>
        .running { m with
          code := rest
          operands := .i32 (UInt32.ofNat old.pages) :: operands
          store := m.store.setMemory address grown }
      | none => m.next rest (.i32 0xFFFFFFFF :: operands)
    | none => m.stuck
  | .const value, operands => m.next rest (value :: operands)
  | .refIsNull, .null _ :: operands => m.next rest (.i32 1 :: operands)
  | .unary op, a :: operands => m.result rest operands (op.eval a)
  | .binary op, b :: a :: operands => m.result rest operands (op.eval a b)
  | _, _ => m.stuck

/-- One step. -/
def step (m : Machine) (inst : Instance) (budget : Budget) : Step :=
  match m.code with
  | [] => m.leave
  | i :: rest => m.instr inst budget rest i m.operands

end Machine

/-- How running ended. -/
inductive Outcome where
  | finished (results : List Value) (store : Store)
  | halted (halt : Halt) (store : Store)
  | outOfSteps (store : Store)

/-- The store in the end. -/
def Outcome.store : Outcome → Store
  | finished _ store => store
  | halted _ store => store
  | outOfSteps store => store

/-- Repeats steps, at most as often as given. -/
def Machine.run (inst : Instance) (budget : Budget) : Nat → Machine → Outcome
  | 0, m => .outOfSteps m.store
  | steps + 1, m =>
    match m.step inst budget with
    | .running m => run inst budget steps m
    | .finished results store => .finished results store
    | .halted halt store => .halted halt store

/-- A machine that has yet to run a function, whose arguments are its operands. -/
def Machine.start (function : Nat) (args : List Value) (store : Store) : Machine where
  code := [.call function]
  operands := args.reverse
  locals := []
  contexts := []
  stack := 0
  store := store

/-- Runs a function of an instance to its end. -/
def Instance.run (inst : Instance) (budget : Budget) (function : Nat) (args : List Value)
    (store : Store) : Outcome :=
  Machine.run inst budget budget.steps (.start function args store)

end SpiritHost.Wasm
