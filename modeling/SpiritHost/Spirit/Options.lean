import SpiritHost.Json.Reader
import SpiritHost.Loa.Registry

/-!
# Options

How a Spirit is loaded. The options of one summoning are laid over a séance's defaults: what is
unset keeps the default, and further Loas come after the default ones, so that theirs win.
-/

namespace SpiritHost

/-- Bounds of the memory that the host makes, in pages. -/
structure MemoryOptions where
  initial : UInt32 := 16
  maximum : UInt32 := 256
deriving DecidableEq, Repr

/-- How a Spirit is loaded. -/
structure LoadOptions where
  memory : MemoryOptions := {}
  heapBase : UInt32 := Allocator.defaultBase
  debug : Bool := false
  /-- Used instead of the loader's registry. -/
  registry : Option Registry := none
  /-- Loas linked after those of the registry. -/
  imports : List Loa := []

/-- What one summoning changes about the defaults. -/
structure SummonOptions where
  initialPages : Option UInt32 := none
  maximumPages : Option UInt32 := none
  heapBase : Option UInt32 := none
  debug : Option Bool := none
  registry : Option Registry := none
  imports : List Loa := []

/-- The options that a summoning loads with (`SummonOptions::apply`). -/
def SummonOptions.apply (o : SummonOptions) (defaults : LoadOptions) : LoadOptions where
  memory :=
    ⟨o.initialPages.getD defaults.memory.initial, o.maximumPages.getD defaults.memory.maximum⟩
  heapBase := o.heapBase.getD defaults.heapBase
  debug := o.debug.getD defaults.debug
  registry := o.registry <|> defaults.registry
  imports := defaults.imports ++ o.imports

/-! ## On one line -/

/-- An optional part, by the text of what it holds. -/
def describeOption {α : Type} (text : α → String) : Option α → String
  | none => "None"
  | some a => s!"Some({text a})"

/-- Memory bounds on one line. -/
def MemoryOptions.describe (o : MemoryOptions) : String :=
  s!"MemoryOptions \x7b initial: {o.initial}, maximum: {o.maximum} \x7d"

/-- Load options on one line; Loas by name. -/
def LoadOptions.describe (o : LoadOptions) : String :=
  let registry := describeOption (fun (r : Registry) => Quoted.list r.names) o.registry
  let imports := Quoted.list (o.imports.map (·.name))
  s!"LoadOptions \x7b memory: {o.memory.describe}, heap_base: {o.heapBase}, debug: {o.debug}, " ++
    s!"registry: {registry}, imports: {imports} \x7d"

/-- Summoning options on one line; a registry by its size. -/
def SummonOptions.describe (o : SummonOptions) : String :=
  let initial := describeOption (fun (n : UInt32) => toString n) o.initialPages
  let maximum := describeOption (fun (n : UInt32) => toString n) o.maximumPages
  let base := describeOption (fun (n : UInt32) => toString n) o.heapBase
  let debug := describeOption (fun (b : Bool) => toString b) o.debug
  let registry := describeOption (fun (r : Registry) => toString r.size) o.registry
  let imports := "[" ++ ", ".intercalate (o.imports.map (·.describe)) ++ "]"
  s!"SummonOptions \x7b initial_pages: {initial}, maximum_pages: {maximum}, heap_base: {base}, " ++
    s!"debug: {debug}, registry: {registry}, imports: {imports} \x7d"

/-! ## Memory bounds from JSON -/

namespace MemoryOptions

/-- A 32-bit unsigned integer. -/
def word? : Json → Option UInt32
  | .number (.int n) => if 0 ≤ n ∧ n < 4294967296 then some (UInt32.ofNat n.toNat) else none
  | _ => none

/-- The value of one of two keys, neither of which may occur twice or beside another key. -/
def ofMembers? : List (String × Json) → Option UInt32 → Option UInt32 → Option MemoryOptions
  | [], initial, maximum =>
    let d : MemoryOptions := {}
    some ⟨initial.getD d.initial, maximum.getD d.maximum⟩
  | ("initial", value) :: rest, none, maximum => do
    ofMembers? rest (some (← word? value)) maximum
  | ("maximum", value) :: rest, initial, none => do
    ofMembers? rest initial (some (← word? value))
  | _, _, _ => none

/-- Memory bounds from an object with the keys `initial` and `maximum`, or from an array of those
two; either may be left out from the end. -/
def ofJson? : Json → Option MemoryOptions
  | .object members => ofMembers? members none none
  | .array [] => some {}
  | .array [initial] => do some { initial := ← word? initial }
  | .array [initial, maximum] => do some ⟨← word? initial, ← word? maximum⟩
  | _ => none

/-- Memory bounds from JSON text. -/
def parse? (text : String) : Option MemoryOptions := do ofJson? (← Json.parseAsWritten? text)

end MemoryOptions

end SpiritHost
