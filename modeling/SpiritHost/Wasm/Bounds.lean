/-!
# Bounds

How large the parts of a module may be.
-/

namespace SpiritHost.Wasm.Bounds

/-- Parameters of a function. -/
def params : Nat := 1000

/-- Results of a function. -/
def results : Nat := 1000

/-- Parameters and local variables of a function together. -/
def locals : Nat := 50000

/-- Bytes of a name. -/
def name : Nat := 100000

/-- Bytes of a function's code. -/
def body : Nat := 7654321

/-- Definitions of one kind: types, functions, globals, imports and exports. -/
def definitions : Nat := 1000000

/-- Tables, and likewise memories. -/
def stores : Nat := 100

/-- Element segments, and likewise data segments. -/
def segments : Nat := 100000

/-- Functions of one element segment. -/
def segmentFunctions : Nat := 10000000

/-- The size of all types that a module imports and exports. -/
def interface : Nat := 1000000

end SpiritHost.Wasm.Bounds
