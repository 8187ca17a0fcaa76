import SpiritHost.Loa.HostCall
import SpiritHost.Text.Quoted

/-!
# Loas

A Loa is a named, versioned bundle of host functions. When a Spirit is loaded each Loa is asked for
its functions by a host call on that Spirit's store. The built-in Loa offers the functions whose
names begin with `vudo_`.
-/

namespace SpiritHost

open Wasm (Value)

/-- A provider of host functions. -/
structure Loa where
  name : String
  version : String
  /-- What this Loa lets the Spirits do that it is linked into. -/
  capabilities : List String
  /-- Its functions for one Spirit, in the order of their declaration. -/
  provides : HostCall (List (String × HostFunction))

namespace Loa

/-- A Loa on one line. -/
def describe (loa : Loa) : String :=
  s!"Loa \x7b name: {Quoted.encode loa.name}, version: {Quoted.encode loa.version} \x7d"

/-- A call with arguments that its type does not allow. -/
def wrongArguments : HostCall (List Value) := .fail (.text "wrong arguments")

/-! ## The built-in Loa -/

/-- The name of the built-in Loa, which is always registered. -/
def builtinName : String := "vudo"

/-- Prints a text. -/
def print : HostFunction where
  type := ⟨[.i32, .i32], []⟩
  call
    | [.i32 address, .i32 len] => do
      HostCall.write (.print (← HostCall.text address len))
      return []
    | _ => wrongArguments

/-- Allocates a region. -/
def alloc : HostFunction where
  type := ⟨[.i32], [.i32]⟩
  call
    | [.i32 size] => do return [.i32 (← HostCall.region size)]
    | _ => wrongArguments

/-- Milliseconds since the epoch. -/
def now : HostFunction where
  type := ⟨[], [.i64]⟩
  call _ := .now fun time => return [.i64 time]

/-- A random float between 0 and 1, from the upper 53 of 64 random bits. -/
def random : HostFunction where
  type := ⟨[], [.f64]⟩
  call _ := .random fun bits =>
    return [.f64 ((bits >>> 11).toFloat / 9007199254740992.0).toBits]

/-- Acknowledges an effect and drops it. -/
def emitEffect : HostFunction where
  type := ⟨[.i32, .i32], [.i32]⟩
  call
    | [.i32 id, .i32 payload] => do
      HostCall.write (.effect id payload)
      return [.i32 0]
    | _ => wrongArguments

/-- Passes a text on if the Spirit was loaded for debugging, and otherwise does not even read it. -/
def debug (isOn : Bool) : HostFunction where
  type := ⟨[.i32, .i32], []⟩
  call
    | [.i32 address, .i32 len] => do
      if isOn then HostCall.write (.debug (← HostCall.text address len))
      return []
    | _ => wrongArguments

/-- Ends the call with a fault of the Spirit's own wording. -/
def abort : HostFunction where
  type := ⟨[.i32, .i32, .i32, .i32, .i32], []⟩
  call
    | [.i32 message, .i32 messageLen, .i32 file, .i32 fileLen, .i32 line] => do
      let message ← HostCall.text message messageLen
      let file ← HostCall.text file fileLen
      HostCall.write (.abort ⟨message, file, line⟩)
      .fail (.error (.abort ⟨message, file, line⟩))
    | _ => wrongArguments

/-- The built-in Loa (`VudoLoa`). -/
def builtin : Loa where
  name := builtinName
  version := "0.1.0"
  capabilities := ["print", "alloc", "time", "random", "effects", "debug", "abort"]
  provides := .debugFlag fun isOn => return [
    ("vudo_print", print),
    ("vudo_alloc", alloc),
    ("vudo_now", now),
    ("vudo_random", random),
    ("vudo_emit_effect", emitEffect),
    ("vudo_debug", debug isOn),
    ("vudo_abort", abort)]

end Loa

end SpiritHost
