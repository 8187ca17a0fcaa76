/-!
# Traps

The ways in which running code can stop by itself.
-/

namespace SpiritHost.Wasm

/-- A Wasm trap. -/
inductive Trap where
  | unreachable
  | integerDivisionByZero
  | integerOverflow
  | badConversionToInteger
  | memoryOutOfBounds
  | tableOutOfBounds
  | indirectCallToNull
  | badSignature
  | stackOverflow
deriving DecidableEq, Repr

/-- The trap in words. -/
def Trap.message : Trap → String
  | unreachable => "unreachable code reached"
  | integerDivisionByZero => "integer divide by zero"
  | integerOverflow => "integer overflow"
  | badConversionToInteger => "invalid conversion to integer"
  | memoryOutOfBounds => "out of bounds memory access"
  | tableOutOfBounds => "undefined element: out of bounds table access"
  | indirectCallToNull => "uninitialized element"
  | badSignature => "indirect call type mismatch"
  | stackOverflow => "call stack exhausted"

end SpiritHost.Wasm
