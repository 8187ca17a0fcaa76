import SpiritHost.Wasm.Liveness
import SpiritHost.Wasm.Typing

/-!
# Frames

The frames that the default budget reckons with. A call takes two words to return by, the parameters
for which there is no register, and a word for everything that is still needed when one of its own
calls returns. Constants are not kept. Floats take two words, and a frame a whole number of pairs.
This is an estimate of what one engine's code takes, and nothing but how deep calls can go depends
on it; another engine's frames are the `frame` of another `Budget`.
-/

namespace SpiritHost.Wasm

/-- Words that a value takes. -/
def ValType.words : ValType → Nat
  | .f32 | .f64 => 2
  | _ => 1

/-- An operand, as far as keeping it is concerned. -/
inductive Holding where
  | constant (type : ValType)
  /-- It is the value of a variable, which is kept once. -/
  | variable (index : Nat)
  | computed (type : ValType)
deriving DecidableEq, Repr

/-- What a survey of a function's code looks up. -/
structure Survey where
  source : Module
  /-- Types of parameters and local variables. -/
  locals : Array ValType

namespace Survey

/-- The type of a variable. -/
def localType (s : Survey) (index : Nat) : ValType := s.locals.getD index .i32

/-- An operand that was the value of a variable before the variable is set. -/
def detach (s : Survey) (index : Nat) : Holding → Holding
  | .variable i => if i = index then .computed (s.localType i) else .variable i
  | h => h

/-- The type of an operand. -/
def typeOf (s : Survey) : Holding → ValType
  | .constant type | .computed type => type
  | .variable index => s.localType index

/-- Computed operands of the given types, the last one on top, put on others. -/
def compute (types : List ValType) (operands : List Holding) : List Holding :=
  types.reverse.map Holding.computed ++ operands

/-- The operands after an instruction, topmost first. -/
def hold (s : Survey) (operands : List Holding) : Instr → List Holding
  | .block bt _ | .loop bt _ =>
    let t := (s.source.blockType? bt).getD ⟨[], []⟩
    compute t.results (operands.drop t.params.length)
  | .ifElse bt _ _ =>
    let t := (s.source.blockType? bt).getD ⟨[], []⟩
    compute t.results (operands.drop (1 + t.params.length))
  | .call function =>
    let t := (s.source.functionType? function).getD ⟨[], []⟩
    compute t.results (operands.drop t.params.length)
  | .callIndirect _ type =>
    let t := s.source.types.getD type ⟨[], []⟩
    compute t.results (operands.drop (1 + t.params.length))
  | .localGet i => .variable i :: operands
  | .localSet i => operands.tail.map (s.detach i)
  | .localTee i => .variable i :: operands.tail.map (s.detach i)
  | .globalGet i => .computed ((s.source.globalTypes[i]?).elim .i32 (·.value)) :: operands
  | .const value => .constant value.type :: operands
  | .memorySize _ => .computed .i32 :: operands
  | .load op _ => .computed op.type.valType :: operands.tail
  | .memoryGrow _ | .refIsNull => .computed .i32 :: operands.tail
  | .unary op => .computed op.signature.2 :: operands.tail
  | .binary op => .computed op.signature.2 :: operands.drop 2
  | .select _ => .computed (s.typeOf (operands.getD 1 (.constant .i32))) :: operands.drop 3
  | .store _ _ => operands.drop 2
  | .drop | .globalSet _ | .brIf _ | .brTable _ _ => operands.tail
  | .nop | .unreachable | .br _ | .ret => operands

/-- Words kept over a call, given the operands below its arguments and what is live after it. -/
def keptWords (s : Survey) (below : List Holding) (after : Live) : Nat :=
  let locals := below.foldl (fun set h => match h with
    | .variable i => set.insert i
    | _ => set) after.locals
  let computed := below.foldl (fun n h => match h with
    | .computed type => n + type.words
    | _ => n) 0
  locals.foldl (fun n i => n + (s.localType i).words) computed + after.linked.toNat

mutual

/-- What is live before an instruction, and the most words that its calls keep. -/
def instr (s : Survey) (labels : List Live) (operands : List Holding) (after : Live) :
    Instr → Live × Nat
  | .block _ body => s.sequence (after :: labels) operands after body
  | .loop bt body =>
    let start := (Instr.loop bt body).live labels after
    (start, (s.sequence (start :: labels) operands after body).2)
  | .ifElse _ whenTrue whenFalse =>
    let first := s.sequence (after :: labels) operands.tail after whenTrue
    let second := s.sequence (after :: labels) operands.tail after whenFalse
    (first.1.union second.1, max first.2 second.2)
  | .call function =>
    let t := (s.source.functionType? function).getD ⟨[], []⟩
    (after.linking, s.keptWords (operands.drop t.params.length) after)
  | .callIndirect _ type =>
    let t := s.source.types.getD type ⟨[], []⟩
    (after.linking, s.keptWords (operands.drop (1 + t.params.length)) after)
  | .memoryGrow _ => (after.linking, s.keptWords operands.tail after)
  | i => (i.live labels after, 0)

/-- What is live before a sequence of instructions, and the most words that its calls keep. -/
def sequence (s : Survey) (labels : List Live) (operands : List Holding) (after : Live) :
    List Instr → Live × Nat
  | [] => (after, 0)
  | i :: rest =>
    let later := s.sequence labels (s.hold operands i) after rest
    let now := s.instr labels operands later.1 i
    (now.1, max now.2 later.2)

end

/-- The most words that the calls of a whole function keep. -/
def kept (s : Survey) (body : List Instr) : Nat := (s.sequence [.nothing] [] .nothing body).2

end Survey

namespace Frame

/-- Bytes of a word. -/
def wordSize : Nat := 8

/-- Registers for parameters that are not floats. -/
def registers : Nat := 4

/-- Registers for parameters that are floats. -/
def floatRegisters : Nat := 8

/-- Words for the parameters for which there is no register. -/
def paramWords (params : List ValType) : Nat :=
  let floats := params.countP fun t => t = .f32 ∨ t = .f64
  (params.length - floats - registers) + (floats - floatRegisters)

/-- The least even number that is not below a number. -/
def roundUp (words : Nat) : Nat := (words + 1) / 2 * 2

/-- Bytes of the stack that a call of a function takes. -/
def size (m : Module) (type : FuncType) (code : Code) : Nat :=
  let s : Survey := ⟨m, (type.params ++ code.locals).toArray⟩
  wordSize * (2 + roundUp (s.kept code.body) + roundUp (paramWords type.params))

end Frame

end SpiritHost.Wasm
