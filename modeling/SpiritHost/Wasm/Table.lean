/-!
# Tables

A table holds functions of the module it belongs to, by the module's index for them. It keeps its
size; a place holds nothing until a function is put there.
-/

namespace SpiritHost.Wasm

/-- A table. -/
structure Table where
  size : Nat
  /-- The function at a place. -/
  function? : Nat → Option Nat

namespace Table

/-- A table that holds nothing. -/
def empty (size : Nat) : Table := ⟨size, fun _ => none⟩

/-- The table with functions put in from a place on; none if they reach beyond its end. -/
def fill? (t : Table) (start : Nat) (functions : List Nat) : Option Table :=
  if start + functions.length ≤ t.size then
    let added := functions.toArray
    some { t with
      function? := fun i =>
        if i < start then t.function? i else added[i - start]?.or (t.function? i) }
  else none

/-- Filling keeps the size. -/
theorem size_fill? {t filled : Table} {start : Nat} {functions : List Nat}
    (h : t.fill? start functions = some filled) : filled.size = t.size := by
  unfold fill? at h
  split at h
  · cases h
    rfl
  · contradiction

/-- The places from the start on hold the functions put in, and all others what they held. -/
theorem function?_fill? {t filled : Table} {start : Nat} {functions : List Nat}
    (h : t.fill? start functions = some filled) (i : Nat) :
    filled.function? i =
      if i < start then t.function? i else functions[i - start]?.or (t.function? i) := by
  unfold fill? at h
  split at h
  · cases h
    simp
  · contradiction

end Table

end SpiritHost.Wasm
