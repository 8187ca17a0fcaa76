import SpiritHost.Loa.Basic

/-!
# Declared Loas

Loas put together from ready-made functions by a declaration, without code of their own.
-/

namespace SpiritHost

open Wasm (Value)

/-- The ready-made functions. -/
inductive DeclaredFunction where
  /-- `x * factor + summand`, wrapping. -/
  | multiplyAdd (factor summand : UInt32)
  /-- Takes two integers and gives a fixed one. -/
  | status (code : UInt32)
  /-- Appends a text to the list of records, which making the function empties. -/
  | record
  /-- Counts its calls on from a start. -/
  | counter (start : UInt32)
  /-- Writes a fixed text and gives its address. -/
  | writeString (text : String)
  /-- The size of the text at an address. -/
  | stringLength
  /-- Whether the Spirit was loaded for debugging. -/
  | debugFlag
  /-- The address of a region that making the function allocates. -/
  | preallocated (size : UInt32)
  /-- Fails. -/
  | raise (failure : Failure)

/-- Makes the function for one Spirit. -/
def DeclaredFunction.make : DeclaredFunction → HostCall HostFunction
  | multiplyAdd factor summand => return {
      type := ⟨[.i32], [.i32]⟩
      call
        | [.i32 x] => return [.i32 (x * factor + summand)]
        | _ => Loa.wrongArguments }
  | status code => return {
      type := ⟨[.i32, .i32], [.i32]⟩
      call := fun _ => return [.i32 code] }
  | record => .getState fun state => .setState { state with recorded := some [] } <| return {
      type := ⟨[.i32, .i32], []⟩
      call
        | [.i32 address, .i32 len] => do
          let text ← HostCall.text address len
          .getState fun state =>
            .setState { state with recorded := some (state.recorded.getD [] ++ [text]) }
              (return [])
        | _ => Loa.wrongArguments }
  | counter start => .getState fun state => .setState { state with counter := start } <| return {
      type := ⟨[], [.i32]⟩
      call := fun _ => .getState fun state =>
        .setState { state with counter := state.counter + 1 } (return [.i32 (state.counter + 1)]) }
  | writeString text => return {
      type := ⟨[], [.i32]⟩
      call := fun _ => do return [.i32 (← .encodeString text HostCall.orFail)] }
  | stringLength => return {
      type := ⟨[.i32], [.i32]⟩
      call
        | [.i32 address] => do
          let text ← HostCall.decodeString address HostCall.orFail
          return [.i32 (UInt32.ofNat (Utf8.size text))]
        | _ => Loa.wrongArguments }
  | debugFlag => .debugFlag fun isOn => return {
      type := ⟨[], [.i32]⟩
      call := fun _ => return [.i32 (if isOn then 1 else 0)] }
  | preallocated size => do
    let address ← HostCall.region size
    return { type := ⟨[], [.i32]⟩, call := fun _ => return [.i32 address] }
  | raise failure => return {
      type := ⟨[], []⟩
      call := fun _ => .fail failure }

/-- The declaration of a Loa. -/
structure LoaDeclaration where
  name : String
  version : String := "1.0.0"
  capabilities : List String := []
  functions : List (String × DeclaredFunction) := []
  /-- Plant a value in the store of every Spirit that is linked. -/
  plants : Bool := false
  /-- Fail with this message instead of providing functions. -/
  failure : Option String := none

namespace LoaDeclaration

/-- Makes functions in order. -/
def make : List (String × DeclaredFunction) → HostCall (List (String × HostFunction))
  | [] => return []
  | (name, function) :: rest => do
    let made ← function.make
    let more ← make rest
    return (name, made) :: more

/-- The kind of the values that declared Loas plant. -/
def plantedKind : String := "tracker"

/-- The Loa that a declaration describes. -/
def toLoa (d : LoaDeclaration) : Loa where
  name := d.name
  version := d.version
  capabilities := d.capabilities
  provides := match d.failure with
    | some message => .fail (.text message)
    | none => if d.plants then .plant plantedKind (make d.functions) else make d.functions

end LoaDeclaration

end SpiritHost
