import SpiritHost.Text.Utf8
import SpiritHost.Wasm.Bounds
import SpiritHost.Wasm.Module

/-!
# The binary format

Reading a module from its bytes. A reader takes what it needs from the front of the input and
fails at the first thing that is out of place. Integers are LEB128 digits: an encoding may be
longer than it has to be, but never longer than its width allows, and its spare bits must repeat
the sign. Sections come in a fixed order, each at most once, with custom sections anywhere.
-/

namespace SpiritHost.Wasm

/-- Why bytes are not a module. -/
inductive DecodeFault where
  | endOfInput
  | badMagic
  | badVersion
  | integerTooLong
  | integerTooLarge
  | malformedName
  | unknownType
  | unknownOpcode (opcode : Nat)
  | unknownKind
  | unknownSection (id : Nat)
  | sectionOrder (id : Nat)
  | sectionSize
  | tooMany
  | functionCount
deriving DecidableEq, Repr

/-- The fault in words. -/
def DecodeFault.message : DecodeFault → String
  | endOfInput => "unexpected end of input"
  | badMagic => "the bytes do not begin as a module"
  | badVersion => "unknown binary version"
  | integerTooLong => "integer representation too long"
  | integerTooLarge => "integer too large"
  | malformedName => "malformed UTF-8 in a name"
  | unknownType => "unknown type"
  | unknownOpcode opcode => s!"unsupported instruction {opcode}"
  | unknownKind => "unknown kind of definition"
  | unknownSection id => s!"unknown section {id}"
  | sectionOrder id => s!"section {id} is out of order"
  | sectionSize => "a section or body does not fill its size"
  | tooMany => "a count or size is out of bounds"
  | functionCount => "function and code sections differ in length"

/-- A reader of binary input: takes from the front of the bytes, or fails. -/
abbrev Reader := StateT Bytes (Except DecodeFault)

namespace Reader

/-- One byte. -/
def byte : Reader Nat := fun
  | [] => .error .endOfInput
  | b :: rest => .ok (b.toNat, rest)

/-- A given number of bytes. -/
def take (n : Nat) : Reader Bytes := fun bytes =>
  let part := bytes.take n
  if part.length < n then .error .endOfInput else .ok (part, bytes.drop n)

/-- Succeeds if nothing is left. -/
def finished (fault : DecodeFault) : Reader Unit := fun
  | [] => .ok ((), [])
  | _ :: _ => .error fault

/-- At most `digits` base-128 digits of an unsigned integer of `width` bits. -/
def unsignedDigits : (digits width : Nat) → Reader Nat
  | 0, _ => throw .integerTooLong
  | digits + 1, width => do
    let n ← byte
    if n < 128 then
      if n < 1 <<< width then pure n else throw .integerTooLarge
    else
      let high ← unsignedDigits digits (width - 7)
      pure (n - 128 + 128 * high)

/-- At most `digits` base-128 digits of a signed integer of `width` bits. -/
def signedDigits : (digits width : Nat) → Reader Int
  | 0, _ => throw .integerTooLong
  | digits + 1, width => do
    let n ← byte
    if n < 64 then
      if n < 1 <<< (width - 1) then pure n else throw .integerTooLarge
    else if n < 128 then
      if 128 ≤ n + 1 <<< (width - 1) then pure (n - 128) else throw .integerTooLarge
    else
      let high ← signedDigits digits (width - 7)
      pure (n - 128 + 128 * high)

/-- An unsigned integer of the given width. -/
def unsigned (width : Nat) : Reader Nat := unsignedDigits ((width + 6) / 7) width

/-- A signed integer of the given width. -/
def signed (width : Nat) : Reader Int := signedDigits ((width + 6) / 7) width

/-- An index, count or size. -/
def index : Reader Nat := unsigned 32

/-- The same thing a number of times. -/
def times {α : Type} (item : Reader α) : Nat → Reader (List α)
  | 0 => pure []
  | n + 1 => do
    let first ← item
    let rest ← times item n
    pure (first :: rest)

/-- A counted list. -/
def vector {α : Type} (item : Reader α) : Reader (List α) := do
  times item (← index)

/-- A count or size within a bound. -/
def indexUpTo (bound : Nat) : Reader Nat := do
  let n ← index
  if n ≤ bound then pure n else throw .tooMany

/-- A counted byte string. -/
def byteVector : Reader Bytes := do
  take (← index)

/-- A name, which must be well-formed UTF-8. -/
def name : Reader String := do
  match Utf8.decode? (← take (← indexUpTo Bounds.name)) with
  | some text => pure text
  | none => throw .malformedName

/-- A part of the input of a given size, read to its end by its own reader. -/
def sized {α : Type} (size : Nat) (item : Reader α) : Reader α := do
  let part ← take size
  match (do let a ← item; finished .sectionSize; pure a : Reader α).run part with
  | .ok (a, _) => pure a
  | .error fault => throw fault

/-! ## Types -/

/-- A reference type by its code. -/
def refTypeOf (code : Nat) : Reader RefType :=
  match code with
  | 0x70 => pure .funcRef
  | 0x6F => pure .externRef
  | _ => throw .unknownType

/-- A value type by its code. -/
def valTypeOf (code : Nat) : Reader ValType :=
  match code with
  | 0x7F => pure .i32
  | 0x7E => pure .i64
  | 0x7D => pure .f32
  | 0x7C => pure .f64
  | code => .ref <$> refTypeOf code

/-- A reference type. -/
def refType : Reader RefType := do refTypeOf (← byte)

/-- A value type. -/
def valType : Reader ValType := do valTypeOf (← byte)

/-- A function type. -/
def funcType : Reader FuncType := do
  match ← byte with
  | 0x60 =>
    let params ← times valType (← indexUpTo Bounds.params)
    let results ← times valType (← indexUpTo Bounds.results)
    pure ⟨params, results⟩
  | _ => throw .unknownType

/-- Limits with or without a maximum. -/
def limits : Reader Limits := do
  match ← byte with
  | 0x00 =>
    let minimum ← index
    pure ⟨minimum, none⟩
  | 0x01 =>
    let minimum ← index
    let maximum ← index
    pure ⟨minimum, some maximum⟩
  | _ => throw .unknownType

/-- A table type. -/
def tableType : Reader TableType := do
  let element ← refType
  let size ← limits
  pure ⟨element, size⟩

/-- A global type. -/
def globalType : Reader GlobalType := do
  let value ← valType
  match ← byte with
  | 0x00 => pure ⟨value, false⟩
  | 0x01 => pure ⟨value, true⟩
  | _ => throw .unknownType

/-- A block type: one byte for nothing or a value type, else the index of a function type. -/
def blockType : Reader BlockType := do
  match ← get with
  | [] => throw .endOfInput
  | b :: rest =>
    if b.toNat = 0x40 then
      set rest
      pure .empty
    else if 0x40 < b.toNat ∧ b.toNat < 0x80 then
      .value <$> valType
    else
      let i ← signed 33
      if i < 0 then throw .unknownType else pure (.index i.toNat)

/-! ## Instructions -/

/-- A memory operand. Bit 6 of the alignment announces a memory index. -/
def memArg : Reader MemArg := do
  let flags ← index
  let hasMemory := flags / 64 % 2 = 1
  let memory ← if hasMemory then index else pure 0
  let align := if hasMemory then flags - 64 else flags
  if 64 ≤ align then throw .integerTooLarge
  let offset ← unsigned 64
  pure ⟨align, memory, offset⟩

/-- A constant by its opcode. -/
def constant? (opcode : Nat) : Option (Reader Value) :=
  match opcode with
  | 0x41 => some do pure (.i32 (UInt32.ofInt (← signed 32)))
  | 0x42 => some do pure (.i64 (UInt64.ofInt (← signed 64)))
  | 0x43 => some do pure (.f32 (Bytes.toUInt32 (← take 4)))
  | 0x44 => some do pure (.f64 (Bytes.toUInt64 (← take 8)))
  | 0xD0 => some do pure (.null (← refType))
  | _ => none

/-- The loads in the order of their opcodes. -/
def loads : List LoadOp :=
  [.whole (.int .i32), .whole (.int .i64), .whole (.float .f32), .whole (.float .f64),
    ⟨.int .i32, .one, true⟩, ⟨.int .i32, .one, false⟩, ⟨.int .i32, .two, true⟩,
    ⟨.int .i32, .two, false⟩, ⟨.int .i64, .one, true⟩, ⟨.int .i64, .one, false⟩,
    ⟨.int .i64, .two, true⟩, ⟨.int .i64, .two, false⟩, ⟨.int .i64, .four, true⟩,
    ⟨.int .i64, .four, false⟩]

/-- The stores in the order of their opcodes. -/
def stores : List StoreOp :=
  [.whole (.int .i32), .whole (.int .i64), .whole (.float .f32), .whole (.float .f64),
    ⟨.int .i32, .one⟩, ⟨.int .i32, .two⟩, ⟨.int .i64, .one⟩, ⟨.int .i64, .two⟩, ⟨.int .i64, .four⟩]

/-- A load or a store by its opcode. -/
def access? (opcode : Nat) : Option (MemArg → Instr) :=
  if opcode < 0x28 then none
  else (loads[opcode - 0x28]?.map Instr.load).or (stores[opcode - 0x36]?.map Instr.store)

/-- The comparisons of integers in the order of their opcodes. -/
def intRelations : List IntRelation := [.eq, .ne, .ltS, .ltU, .gtS, .gtU, .leS, .leU, .geS, .geU]

/-- The comparisons of floats in the order of their opcodes. -/
def floatRelations : List FloatRelation := [.eq, .ne, .lt, .gt, .le, .ge]

/-- The operations on one integer in the order of their opcodes. -/
def intUnaries : List IntUnary := [.clz, .ctz, .popcnt]

/-- The operations on two integers in the order of their opcodes. -/
def intBinaries : List IntBinary :=
  [.add, .sub, .mul, .divS, .divU, .remS, .remU, .and, .or, .xor, .shl, .shrS, .shrU, .rotl, .rotr]

/-- The operations on one float in the order of their opcodes. -/
def floatUnaries : List FloatUnary := [.abs, .neg, .ceil, .floor, .trunc, .nearest, .sqrt]

/-- The operations on two floats in the order of their opcodes. -/
def floatBinaries : List FloatBinary := [.add, .sub, .mul, .div, .min, .max, .copysign]

/-- The conversions in the order of their opcodes. -/
def conversions : List UnaryOp :=
  [.wrap, .truncate .i32 true .f32 false, .truncate .i32 false .f32 false,
    .truncate .i32 true .f64 false, .truncate .i32 false .f64 false, .widen true, .widen false,
    .truncate .i64 true .f32 false, .truncate .i64 false .f32 false, .truncate .i64 true .f64 false,
    .truncate .i64 false .f64 false, .convert .f32 .i32 true, .convert .f32 .i32 false,
    .convert .f32 .i64 true, .convert .f32 .i64 false, .demote, .convert .f64 .i32 true,
    .convert .f64 .i32 false, .convert .f64 .i64 true, .convert .f64 .i64 false, .promote,
    .floatBits .f32, .floatBits .f64, .ofBits .f32, .ofBits .f64, .int .i32 (.extend 8),
    .int .i32 (.extend 16), .int .i64 (.extend 8), .int .i64 (.extend 16), .int .i64 (.extend 32)]

/-- The saturating conversions in the order of their second opcodes. -/
def saturations : List UnaryOp :=
  [.truncate .i32 true .f32 true, .truncate .i32 false .f32 true, .truncate .i32 true .f64 true,
    .truncate .i32 false .f64 true, .truncate .i64 true .f32 true, .truncate .i64 false .f32 true,
    .truncate .i64 true .f64 true, .truncate .i64 false .f64 true]

/-- The numeric instructions in the order of their opcodes. -/
def numerics : List Instr :=
  .unary (.eqz .i32) :: intRelations.map (fun r => .binary (.intTest .i32 r)) ++
  .unary (.eqz .i64) :: intRelations.map (fun r => .binary (.intTest .i64 r)) ++
  floatRelations.map (fun r => .binary (.floatTest .f32 r)) ++
  floatRelations.map (fun r => .binary (.floatTest .f64 r)) ++
  intUnaries.map (fun op => .unary (.int .i32 op)) ++
  intBinaries.map (fun op => .binary (.int .i32 op)) ++
  intUnaries.map (fun op => .unary (.int .i64 op)) ++
  intBinaries.map (fun op => .binary (.int .i64 op)) ++
  floatUnaries.map (fun op => .unary (.float .f32 op)) ++
  floatBinaries.map (fun op => .binary (.float .f32 op)) ++
  floatUnaries.map (fun op => .unary (.float .f64 op)) ++
  floatBinaries.map (fun op => .binary (.float .f64 op)) ++
  conversions.map .unary

/-- A numeric instruction by its opcode. -/
def numeric? (opcode : Nat) : Option Instr :=
  if opcode < 0x45 then none else numerics[opcode - 0x45]?

/-- An instruction without a body, by its opcode. -/
def plain (opcode : Nat) : Reader Instr :=
  match opcode with
  | 0x00 => pure .unreachable
  | 0x01 => pure .nop
  | 0x0C => .br <$> index
  | 0x0D => .brIf <$> index
  | 0x0E => do
    let labels ← vector index
    let otherwise ← index
    pure (.brTable labels otherwise)
  | 0x0F => pure .ret
  | 0x10 => .call <$> index
  | 0x11 => do
    let type ← index
    let table ← index
    pure (.callIndirect table type)
  | 0x1A => pure .drop
  | 0x1B => pure (.select none)
  | 0x1C => do
    match ← vector valType with
    | [type] => pure (.select (some type))
    | _ => throw .tooMany
  | 0x20 => .localGet <$> index
  | 0x21 => .localSet <$> index
  | 0x22 => .localTee <$> index
  | 0x23 => .globalGet <$> index
  | 0x24 => .globalSet <$> index
  | 0x3F => .memorySize <$> index
  | 0x40 => .memoryGrow <$> index
  | 0xD1 => pure .refIsNull
  | 0xFC => do
    match saturations[← index]? with
    | some op => pure (.unary op)
    | none => throw (.unknownOpcode 0xFC)
  | opcode => match constant? opcode, access? opcode, numeric? opcode with
    | some value, _, _ => .const <$> value
    | none, some access, _ => access <$> memArg
    | none, none, some instr => pure instr
    | none, none, none => throw (.unknownOpcode opcode)

/-- How a sequence of instructions ends. -/
inductive Terminator where
  | endOfBlock
  | orElse
deriving DecidableEq, Repr

/-- Instructions up to the end of their block. Each takes at least one byte, so a bound on the
number of bytes bounds the recursion. -/
def sequence : Nat → Reader (List Instr × Terminator)
  | 0 => throw .endOfInput
  | bound + 1 =>
    let closed : Reader (List Instr) := do
      match ← sequence bound with
      | (body, .endOfBlock) => pure body
      | (_, .orElse) => throw (.unknownOpcode 0x05)
    let followed (instr : Instr) : Reader (List Instr × Terminator) := do
      let (rest, terminator) ← sequence bound
      pure (instr :: rest, terminator)
    do
      match ← byte with
      | 0x0B => pure ([], .endOfBlock)
      | 0x05 => pure ([], .orElse)
      | 0x02 =>
        let type ← blockType
        let body ← closed
        followed (.block type body)
      | 0x03 =>
        let type ← blockType
        let body ← closed
        followed (.loop type body)
      | 0x04 =>
        let type ← blockType
        match ← sequence bound with
        | (whenTrue, .endOfBlock) => followed (.ifElse type whenTrue [])
        | (whenTrue, .orElse) =>
          let whenFalse ← closed
          followed (.ifElse type whenTrue whenFalse)
      | opcode =>
        let instr ← plain opcode
        followed instr

/-- The instructions of a function body. -/
def body : Reader (List Instr) := do
  match ← sequence ((← get).length + 1) with
  | (instrs, .endOfBlock) => pure instrs
  | (_, .orElse) => throw (.unknownOpcode 0x05)

/-- An operation of constant expressions by its opcode. -/
def constantOp? (opcode : Nat) : Option BinaryOp :=
  match opcode with
  | 0x6A => some (.int .i32 .add)
  | 0x6B => some (.int .i32 .sub)
  | 0x6C => some (.int .i32 .mul)
  | 0x7C => some (.int .i64 .add)
  | 0x7D => some (.int .i64 .sub)
  | 0x7E => some (.int .i64 .mul)
  | _ => none

/-- The instructions of a constant expression up to its end; each takes a byte at least, so a bound
on the number of bytes bounds the recursion. -/
def constantInstrs : Nat → Reader (List ConstInstr)
  | 0 => throw .endOfInput
  | bound + 1 => do
    match ← byte with
    | 0x0B => pure []
    | opcode =>
      let first : ConstInstr ← match constant? opcode with
        | some value => .const <$> value
        | none => match constantOp? opcode with
          | some op => pure (.binary op)
          | none => throw (.unknownOpcode opcode)
      let rest ← constantInstrs bound
      pure (first :: rest)

/-- A constant expression. -/
def constant : Reader ConstExpr := do
  let instrs ← constantInstrs ((← get).length + 1)
  pure ⟨instrs⟩

/-! ## Sections -/

/-- An import. -/
def importItem : Reader Import := do
  let namespaceName ← name
  let itemName ← name
  let kind ← do
    match ← byte with
    | 0x00 => .func <$> index
    | 0x01 => .table <$> tableType
    | 0x02 => .memory <$> limits
    | 0x03 => .global <$> globalType
    | _ => throw .unknownKind
  pure ⟨namespaceName, itemName, kind⟩

/-- An export. -/
def exportItem : Reader Export := do
  let itemName ← name
  let kind ← byte
  let i ← index
  match kind with
  | 0x00 => pure ⟨itemName, .func i⟩
  | 0x01 => pure ⟨itemName, .table i⟩
  | 0x02 => pure ⟨itemName, .memory i⟩
  | 0x03 => pure ⟨itemName, .global i⟩
  | _ => throw .unknownKind

/-- A global with its initial value. -/
def global : Reader Global := do
  let type ← globalType
  let init ← constant
  pure ⟨type, init⟩

/-- An active element segment of function indices. -/
def element : Reader ElementSegment := do
  match ← index with
  | 0 =>
    let offset ← constant
    let functions ← vector index
    pure ⟨0, offset, functions⟩
  | 2 =>
    let table ← index
    let offset ← constant
    match ← byte with
    | 0x00 =>
      let functions ← vector index
      pure ⟨table, offset, functions⟩
    | _ => throw .unknownKind
  | _ => throw .unknownKind

/-- An active data segment. -/
def dataSegment : Reader DataSegment := do
  match ← index with
  | 0 =>
    let offset ← constant
    let bytes ← byteVector
    pure ⟨0, offset, bytes⟩
  | 2 =>
    let memory ← index
    let offset ← constant
    let bytes ← byteVector
    pure ⟨memory, offset, bytes⟩
  | _ => throw .unknownKind

/-- A function's local variables, in runs of equal ones, and its body. -/
def codeBody : Reader Code := do
  let runs ← vector do
    let count ← index
    let type ← valType
    pure (count, type)
  if Bounds.locals < runs.foldr (fun (count, _) n => count + n) 0 then throw .tooMany
  let instrs ← body
  pure ⟨runs.flatMap fun (count, type) => List.replicate count type, instrs⟩

/-- A function's code. -/
def codeItem : Reader Code := do
  sized (← indexUpTo Bounds.body) codeBody

/-- A section's payload, added to the module read so far. -/
def sectionItems (id : Nat) (m : Module) : Reader Module :=
  match id with
  | 1 => do pure { m with types := ← vector funcType }
  | 2 => do pure { m with imports := ← vector importItem }
  | 3 => do pure { m with functions := ← vector index }
  | 4 => do pure { m with tables := ← vector tableType }
  | 5 => do pure { m with memories := ← vector limits }
  | 6 => do pure { m with globals := ← vector global }
  | 7 => do pure { m with exports := ← vector exportItem }
  | 8 => do pure { m with start := some (← index) }
  | 9 => do pure { m with elements := ← vector element }
  | 10 => do pure { m with code := ← vector codeItem }
  | 11 => do pure { m with data := ← vector dataSegment }
  | id => throw (.unknownSection id)

/-- A custom section: a name, and bytes that mean nothing here. -/
def custom : Reader Unit := do
  let _ ← name
  set ([] : Bytes)

/-- The sections up to the end of the input, given the last one read. Each takes at least one
byte, so a bound on the number of bytes bounds the recursion. -/
def sections : Nat → (last : Nat) → Module → Reader Module
  | 0, _, _ => throw .endOfInput
  | bound + 1, last, m => do
    match ← get with
    | [] => pure m
    | _ :: _ =>
      match ← byte with
      | 0 =>
        sized (← index) custom
        sections bound last m
      | id =>
        if id ≤ last then throw (.sectionOrder id)
        let next ← sized (← index) (sectionItems id m)
        sections bound id next

/-- A whole module. -/
def module : Reader Module := do
  if (← take 4) ≠ [0x00, 0x61, 0x73, 0x6D] then throw .badMagic
  if (← take 4) ≠ [0x01, 0x00, 0x00, 0x00] then throw .badVersion
  let m ← sections ((← get).length + 1) 0 {}
  if m.functions.length ≠ m.code.length then throw .functionCount
  pure m

end Reader

/-- The module that a byte string encodes. -/
def Module.decode (bytes : Bytes) : Except DecodeFault Module :=
  match Reader.module.run bytes with
  | .ok (m, _) => .ok m
  | .error fault => .error fault

end SpiritHost.Wasm
