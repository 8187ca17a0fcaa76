import SpiritHost.Memory.Heap

/-!
# Host calls

What a host function does when a Spirit calls it: a tree of requests to the Spirit's own store,
ending in a result or a failure. The requests are the only way to the store, so whatever Loas are
linked, memory changes through the heap's operations alone, state is kept in the store, and lines
are only ever added to the log.
-/

namespace SpiritHost

/-- A line that a Spirit or the loading of one leaves in the log. -/
inductive LogLine where
  | print (text : String)
  | debug (text : String)
  | abort (fault : Abort)
  | effect (id payload : UInt32)
  /-- A Loa's function took the place of an earlier one of the same name. -/
  | overridden (loa function : String)
deriving DecidableEq, Repr

/-- The line with its level. -/
def LogLine.text : LogLine → String
  | print text => s!"INFO {text}"
  | debug text => s!"DEBUG {text}"
  | abort fault => s!"ERROR {fault.text}"
  | effect id payload =>
    s!"WARN effect emitted with no handler installed effect_id={id} payload_ptr={payload}"
  | overridden loa function => s!"DEBUG host function overridden loa={loa} function={function}"

/-- State that Loas keep in the store of a Spirit. -/
structure LoaState where
  /-- Texts recorded by the Spirit, once some Loa has started the list. -/
  recorded : Option (List String) := none
  /-- A count, once some Loa has started it. -/
  counter : UInt32 := 0
deriving DecidableEq, Repr

/-- A host call that ends in an `α`. -/
inductive HostCall (α : Type) where
  | done (result : α)
  | fail (failure : Failure)
  | alloc (size align : UInt32) (next : Except Error UInt32 → HostCall α)
  | readBytes (address len : UInt32) (next : Except Error Bytes → HostCall α)
  | writeBytes (address : UInt32) (bytes : Bytes) (next : Except Error Unit → HostCall α)
  | encodeString (text : String) (next : Except Error UInt32 → HostCall α)
  | decodeString (address : UInt32) (next : Except Error String → HostCall α)
  /-- Takes back every region of the heap. -/
  | reset (next : Except Error Unit → HostCall α)
  /-- Looks at the heap, which stays as it is: its cursor, its size, a record in it. -/
  | inspect (next : Except Error Heap → HostCall α)
  | getState (next : LoaState → HostCall α)
  | setState (state : LoaState) (next : HostCall α)
  /-- Plants a value of some kind in the store. It lives until the store is dropped or another of its
  kind is planted there. -/
  | plant (kind : String) (next : HostCall α)
  | debugFlag (next : Bool → HostCall α)
  | now (next : UInt64 → HostCall α)
  | random (next : UInt64 → HostCall α)
  | log (line : LogLine) (next : HostCall α)

namespace HostCall

/-- One call after the other; a failure ends both. -/
def bind {α β : Type} (first : HostCall α) (next : α → HostCall β) : HostCall β :=
  match first with
  | done result => next result
  | fail failure => fail failure
  | alloc size align k => alloc size align fun r => (k r).bind next
  | readBytes address len k => readBytes address len fun r => (k r).bind next
  | writeBytes address bytes k => writeBytes address bytes fun r => (k r).bind next
  | encodeString text k => encodeString text fun r => (k r).bind next
  | decodeString address k => decodeString address fun r => (k r).bind next
  | reset k => reset fun r => (k r).bind next
  | inspect k => inspect fun r => (k r).bind next
  | getState k => getState fun s => (k s).bind next
  | setState state k => setState state (k.bind next)
  | plant kind k => plant kind (k.bind next)
  | debugFlag k => debugFlag fun b => (k b).bind next
  | now k => now fun t => (k t).bind next
  | random k => random fun bits => (k bits).bind next
  | log line k => log line (k.bind next)

instance : Monad HostCall where
  pure := done
  bind := bind

/-- Goes on with the answer to a request; an error becomes the failure of the call. -/
def orFail {α : Type} : Except Error α → HostCall α
  | .ok a => done a
  | .error e => fail (.error e)

/-- The text of a range of memory. -/
def text (address len : UInt32) : HostCall String := do
  let bytes ← readBytes address len orFail
  return Utf8.decodeLossy bytes

/-- The address of a fresh region at the default alignment. -/
def region (size : UInt32) : HostCall UInt32 := alloc size Allocator.defaultAlign orFail

/-- Adds a line to the log. -/
def write (line : LogLine) : HostCall Unit := log line (done ())

end HostCall

/-- A function that a Loa offers: its type, and what it does with arguments of that type. -/
structure HostFunction where
  type : Wasm.FuncType
  call : List Wasm.Value → HostCall (List Wasm.Value)

end SpiritHost
