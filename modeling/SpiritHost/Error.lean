import SpiritHost.Gene.Field
import SpiritHost.Json.Writer
import SpiritHost.Wasm.Binary
import SpiritHost.Wasm.Trap
import SpiritHost.Wasm.Typing

/-!
# Errors

Every way in which an operation can fail, by cause; `Error.message` has the wording. A host
function fails with one of these errors or with a message of its own, possibly wrapped in further
messages and errors (`Failure`). What comes out of the call it was made from depends on the first
error in that chain (`Failure.recover?`).

An operation may also panic (`Panic`): it does not come back, so that nobody is given an error and
nothing of what would have followed is done. What it had done by then stays done.
-/

namespace SpiritHost

/-- A fault that a Spirit raises about itself. -/
structure Abort where
  message : String
  file : String
  line : UInt32
deriving DecidableEq, Repr

/-- The fault with its place. -/
def Abort.text (a : Abort) : String := s!"{a.message} at {a.file}:{a.line}"

/-- Why an operating system refuses to read a file. -/
inductive ReadFault where
  | notFound
  | isDirectory
  | notDirectory
  | nameTooLong
  | other (text : String)
deriving DecidableEq, Repr

/-- The refusal in the operating system's words. -/
def ReadFault.message : ReadFault → String
  | notFound => "No such file or directory (os error 2)"
  | isDirectory => "Is a directory (os error 21)"
  | notDirectory => "Not a directory (os error 20)"
  | nameTooLong => "File name too long (os error 36)"
  | other text => text

/-- Why a module's bytes could not be had. -/
inductive FetchFault where
  /-- A file given by its path could not be read. -/
  | path (name : String) (fault : ReadFault)
  /-- A file given by a reference could not be read. -/
  | reference (fault : ReadFault)
  | secureTransport
  /-- The reference leads to a network, and nothing came from there. -/
  | network (reason : String)
deriving DecidableEq, Repr

/-- The fault in words. -/
def FetchFault.message : FetchFault → String
  | .path name fault => s!"cannot read {name}: {fault.message}"
  | reference fault => fault.message
  | secureTransport => "https is not supported; fetch the module yourself and load its bytes"
  | network reason => reason

/-- Why a JSON argument does not fit its parameter. -/
inductive ConversionFault where
  | number (expected : Wasm.ValType) (value : Json.Number)
  | type (value : Json) (expected : Wasm.ValType)
deriving Repr

/-- The fault in words. -/
def ConversionFault.message : ConversionFault → String
  | .number expected value => s!"Invalid number for {expected.text}: {value.write}"
  | .type value expected =>
    s!"Type mismatch: cannot convert JSON {value.compact} to Wasm type {expected.text}"

/-- Why a call does not fit the function called. -/
inductive SignatureFault where
  | count (expected found : Nat)
  | parameter (index : Nat) (expected : Wasm.ValType) (found : Wasm.Value)
  | conversion (index : Nat) (fault : ConversionFault)
  /-- The function's type is not the one asked for. -/
  | typed (expected found : Wasm.FuncType)
  /-- A reason in a Loa's own words. -/
  | other (reason : String)
deriving Repr

/-- The fault in words. -/
def SignatureFault.message : SignatureFault → String
  | count expected found => s!"wrong number of args: expected {expected}, got {found}"
  | parameter index expected found =>
    s!"parameter {index} expects {expected.text}, got {found.text}"
  | conversion index fault => s!"error converting parameter {index}: {fault.message}"
  | typed _ _ => "typed"
  | other reason => reason

/-- What is wrong with a field of a gene or with its value. -/
inductive FieldFault where
  | duplicate
  | missing
  | overflow (address offset : UInt32)
  | mismatch (expected : FieldType) (found : FieldKind)
deriving DecidableEq, Repr

/-- The fault in words. -/
def FieldFault.message : FieldFault → String
  | duplicate => "declared more than once"
  | missing => "missing value"
  | overflow address offset => s!"address {address} + offset {offset} overflows"
  | mismatch expected found => s!"expected {expected.text} value, got {found.name}"

/-- What is wrong with a manifest. -/
inductive ManifestFault where
  | unreadable (path : String) (fault : ReadFault)
  | notText (path : String)
  /-- The text is not a configuration file. -/
  | malformed
  | notTable (name : String)
  | missingUri (name : String)
  | definition (name : String)
  | duplicate (name : String)
deriving DecidableEq, Repr

/-- The fault in words. -/
def ManifestFault.message : ManifestFault → String
  | unreadable path fault => s!"cannot read {path}: {fault.message}"
  | notText path => s!"cannot read {path}: stream did not contain valid UTF-8"
  | malformed => "not a well-formed configuration file"
  | notTable name => s!"Definition '{name}' must be a table"
  | missingUri name => s!"Definition '{name}' missing required 'uri' field"
  | definition name => s!"Failed to parse spirit '{name}'"
  | duplicate name => s!"Duplicate spirit name: '{name}'"

/-- Why an operation did not come back. -/
inductive Panic where
  /-- A sum of 32-bit words is none. -/
  | overflow
  /-- A condition that is taken for granted does not hold. -/
  | assertion
  /-- There is no memory that may grow to so many pages. -/
  | memoryType (pages : UInt32)
deriving DecidableEq, Repr

/-- The panic in words. -/
def Panic.message : Panic → String
  | overflow => "attempt to add with overflow"
  | assertion => "alignment must be a power of 2"
  | memoryType pages => s!"a memory of {pages} pages does not fit the address space"

mutual

/-- Why an operation failed. -/
inductive Error where
  /-- The bytes are no module, or it cannot be instantiated. No Spirit comes of it. -/
  | load (fault : LoadFault)
  | fetch (source : String) (fault : FetchFault)
  | functionNotFound (name : String)
  | notCallable (name : String)
  | signature (function : String) (fault : SignatureFault)
  /-- The code of a Spirit stopped before its end. -/
  | trap (cause : TrapCause)
  | spiritExists (name : String)
  | spiritNotFound (name : String)
  | loaExists (name : String)
  | builtinLoa (name : String)
  | loaNotFound (name : String)
  | allocation (requested : UInt32) (needed : Nat)
  | memoryAccess (address : UInt32) (len : Nat)
  | abort (abort : Abort)
  | field (gene field : String) (fault : FieldFault)
  | manifest (fault : ManifestFault)
  /-- The step budget ran out before the code's end. -/
  | outOfSteps
  /-- The operation gave no error: it panicked. -/
  | panic (cause : Panic)

/-- Why a module cannot be loaded. -/
inductive LoadFault where
  | malformed (fault : Wasm.DecodeFault)
  | illTyped (fault : Wasm.TypingFault)
  | initialExceedsMaximum (initial maximum : UInt32)
  | providing (loa : String) (failure : Failure)
  /-- A host function asks for the Spirit's memory before there is one. -/
  | unattached
  /-- A Loa offers a function under the memory's name. -/
  | memoryRedefined
  | unknownImport (namespaceName name : String)
  | importType (namespaceName name : String)
  | tableSegment
  | dataSegment
  | start (cause : TrapCause)
  | outOfSteps

/-- What made code stop. -/
inductive TrapCause where
  | wasm (trap : Wasm.Trap)
  | host (failure : Failure)
  /-- A host function called with no Wasm function in between failed. -/
  | direct (failure : Failure)
  /-- A reference of another type was passed. -/
  | reference (index : Nat)
  /-- The code did something that no validated code does. -/
  | stuck

/-- How a host function failed: with an error, or with a message of its own, under any number of
messages and errors that say what it was doing. -/
inductive Failure where
  | error (error : Error)
  | text (message : String)
  | context (message : String) (failure : Failure)
  | wrap (error : Error) (failure : Failure)

end

mutual

/-- The error in words. -/
def Error.message : Error → String
  | .load fault => s!"failed to load spirit: {fault.message}"
  | .fetch source fault => s!"failed to fetch spirit bytes from '{source}': {fault.message}"
  | .functionNotFound name => s!"function '{name}' not found in spirit exports"
  | .notCallable name => s!"export '{name}' is not a callable function"
  | .signature function fault => s!"bad call to '{function}': {fault.message}"
  | .trap cause => s!"spirit trapped: {cause.message}"
  | .spiritExists name => s!"spirit '{name}' is already summoned"
  | .spiritNotFound name => s!"spirit '{name}' not found"
  | .loaExists name => s!"loa '{name}' is already registered"
  | .builtinLoa name => s!"loa '{name}' is built in and cannot be unregistered"
  | .loaNotFound name => s!"loa '{name}' not found"
  | .allocation requested needed =>
    s!"cannot allocate {requested} bytes: linear memory cannot grow to {needed} bytes"
  | .memoryAccess address len => s!"memory access out of bounds at {address} (+{len} bytes)"
  | .abort abort => s!"spirit aborted: {abort.text}"
  | .field gene field fault => s!"field '{field}' of gene '{gene}': {fault.message}"
  | .manifest fault => s!"invalid manifest: {fault.message}"
  | .outOfSteps => "spirit exceeded its step budget"
  | .panic cause => cause.message

/-- The fault in words. -/
def LoadFault.message : LoadFault → String
  | .malformed fault => fault.message
  | .illTyped fault => fault.message
  | .initialExceedsMaximum initial maximum =>
    s!"initial memory ({initial} pages) exceeds maximum ({maximum} pages)"
  | .providing loa failure => s!"loa '{loa}' failed to provide functions: {failure.message}"
  | .unattached => "spirit has no linear memory attached"
  | .memoryRedefined => "a host function is named like the memory"
  | .unknownImport namespaceName name => s!"unknown import: {namespaceName}::{name}"
  | .importType namespaceName name => s!"incompatible import type for {namespaceName}::{name}"
  | .tableSegment => "an element segment does not fit its table"
  | .dataSegment => "a data segment does not fit its memory"
  | .start cause => cause.message
  | .outOfSteps => "the start function exceeded its step budget"

/-- The cause in words. -/
def TrapCause.message : TrapCause → String
  | .wasm trap => trap.message
  | .host failure => failure.message
  | .direct failure => failure.message
  | .reference index => s!"argument {index} is a reference of another type"
  | .stuck => "invalid code"

/-- The whole chain in words, from the outside in. -/
def Failure.message : Failure → String
  | .error error => error.message
  | .text message => message
  | .context message failure => s!"{message}: {failure.message}"
  | .wrap error failure => s!"{error.message}: {failure.message}"

end

namespace Error

/-- The operation panicked. -/
def isPanic : Error → Bool
  | .panic _ => true
  | _ => false

/-- Why it panicked, if it did. -/
def panic? : Error → Option Panic
  | .panic cause => some cause
  | _ => none

theorem panic?_eq_some_iff {e : Error} {cause : Panic} :
    e.panic? = some cause ↔ e = .panic cause := by
  cases e <;> simp [panic?]

end Error

namespace Failure

/-- The first error in the chain from the outside in, if there is one. -/
def error? : Failure → Option Error
  | error e => some e
  | text _ => none
  | context _ failure => failure.error?
  | wrap e _ => some e

/-- The errors that a host function raises on behalf of the Spirit that called it
(`Error::from_trap`). They come out of the call as they are; any other failure becomes a trap. -/
def recover? (failure : Failure) : Option Error :=
  match failure.error? with
  | some (.abort a) => some (.abort a)
  | some (.allocation requested needed) => some (.allocation requested needed)
  | some (.memoryAccess address len) => some (.memoryAccess address len)
  | _ => none

end Failure

end SpiritHost
