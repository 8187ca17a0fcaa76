import SpiritHost.Proofs.Wasm.History
import SpiritHost.Spirit.Basic

/-!
# Operations on a Spirit

Everything that the host can do with a Spirit it holds, as data, so that a run of operations is a
list. The moments of an operation are its requests to the heap, or, of a call that is not refused,
those of the code that it runs. `Spirit.performAll_reaches`: the moments of a run lead from the heap
at its beginning to the heap in the end.
-/

namespace SpiritHost

open Wasm (FuncType Machine Value)

/-- What the host can do with a Spirit. -/
inductive Operation where
  | alloc (size : UInt32)
  | allocAligned (size align : UInt32)
  | allocRecord (gene : GeneLayout)
  | writeString (text : String)
  | free (address : UInt32)
  | reset
  | writeBytes (address : UInt32) (bytes : Bytes)
  | writeRecord (gene : GeneLayout) (address : UInt32) (record : Record)
  | readBytes (address len : UInt32)
  | readText (address len : UInt32)
  | readString (address : UInt32)
  | readRecord (gene : GeneLayout) (address : UInt32)
  | call (function : String) (args : List Value)
  | callTyped (function : String) (type : FuncType) (args : List Value)
  | callJson (function : String) (args : List Json)

/-- The operation calls a function. -/
def Operation.runsCode : Operation → Bool
  | call .. | callTyped .. | callJson .. => true
  | _ => false

/-- What an operation that succeeds gives back. -/
inductive Answer where
  | nothing
  | address (address : UInt32)
  | bytes (bytes : Bytes)
  | text (text : String)
  | record (record : Record)
  | values (values : List Value)
  | json (json : Json)

namespace Spirit

/-- Performs an operation. -/
def perform (s : Spirit) : Operation → Reply Spirit Answer
  | .alloc size => (s.alloc size).map .address
  | .allocAligned size align => (s.allocAligned size align).map .address
  | .allocRecord gene => (s.allocRecord gene).map .address
  | .writeString text => (s.writeString text).map .address
  | .free address => .plain (.ok .nothing) (s.free address)
  | .reset => .plain (.ok .nothing) s.reset
  | .writeBytes address bytes => (s.writeBytes address bytes).map fun _ => .nothing
  | .writeRecord gene address record => (s.writeRecord gene address record).map fun _ => .nothing
  | .readBytes address len => .plain ((s.heap.readBytes address len).map .bytes) s
  | .readText address len => .plain ((s.heap.readText address len).map .text) s
  | .readString address => .plain ((s.readString address).map .text) s
  | .readRecord gene address => .plain ((s.heap.readRecord gene address).map .record) s
  | .call function args => (s.call function args).map .values
  | .callTyped function type args => (s.callTyped function type args).map .values
  | .callJson function args => (s.callJson function args).map .json

/-- The Spirit after a run of operations. -/
def performAll : List Operation → Spirit → Spirit
  | [], s => s
  | operation :: rest, s => performAll rest (s.perform operation).state

/-! ## Moments -/

/-- The moments of running a function. -/
def runHistory (s : Spirit) (index : Nat) (args : List Value) : List (Moment Heap) :=
  match s.linked.functions[index]? with
  | some (.host function) => (function.call args).history s.store
  | _ => Machine.runHistory s.linked s.budget s.budget.steps (.start index args s.store)

/-- The moments of a call once its arguments are known; a call that is refused has none. -/
def indexHistory (s : Spirit) (name : String) (index : Nat) (args : List Value) :
    List (Moment Heap) :=
  let params := ((s.source.functionType? index).getD ⟨[], []⟩).params
  match (do
    checkCount name params.length args.length
    checkTypes name 0 params args) with
  | .error _ => []
  | .ok () => match misfit? 0 params args with
    | some _ => []
    | none => s.runHistory index args

/-- The moments of a call. -/
def callHistory (s : Spirit) (name : String) (args : List Value) : List (Moment Heap) :=
  match s.function name with
  | .error _ => []
  | .ok index => s.indexHistory name index args

/-- The moments of a call of a given type. -/
def typedHistory (s : Spirit) (name : String) (type : FuncType) (args : List Value) :
    List (Moment Heap) :=
  match s.function name with
  | .error _ => []
  | .ok index =>
    if (s.source.functionType? index).getD ⟨[], []⟩ = type then s.indexHistory name index args
    else []

/-- The moments of a call with JSON arguments. -/
def jsonHistory (s : Spirit) (name : String) (args : List Json) : List (Moment Heap) :=
  match s.function name with
  | .error _ => []
  | .ok index =>
    let params := ((s.source.functionType? index).getD ⟨[], []⟩).params
    match (do
      checkCount name params.length args.length
      convert name 0 params args) with
    | .error _ => []
    | .ok values => s.indexHistory name index values

/-- The moment of an allocation by the host. -/
def allocationHistory (size align : UInt32) (r : Reply Spirit UInt32) : List (Moment Heap) :=
  [⟨.ofAllocation size align r.result, r.state.heap⟩]

/-- The moments of an operation. -/
def history (s : Spirit) : Operation → List (Moment Heap)
  | .alloc size => allocationHistory size Allocator.defaultAlign (s.alloc size)
  | .allocAligned size align => allocationHistory size align (s.allocAligned size align)
  | .allocRecord gene => allocationHistory gene.size gene.alignment (s.allocRecord gene)
  | .writeString text => allocationHistory (Heap.stringSize text) 4 (s.writeString text)
  | .reset => [⟨.reset, s.reset.heap⟩]
  | .writeBytes address bytes => [⟨.other, (s.writeBytes address bytes).state.heap⟩]
  | .writeRecord gene address record =>
    [⟨.other, (s.writeRecord gene address record).state.heap⟩]
  | .call function args => s.callHistory function args
  | .callTyped function type args => s.typedHistory function type args
  | .callJson function args => s.jsonHistory function args
  | .free _ | .readBytes .. | .readText .. | .readString _ | .readRecord .. => []

/-- The moments of a run of operations. -/
def historyAll : List Operation → Spirit → List (Moment Heap)
  | [], _ => []
  | operation :: rest, s => s.history operation ++ historyAll rest (s.perform operation).state

/-! ## What stays -/

/-- The memory that the holder works on is there. -/
def Attached (s : Spirit) : Prop := s.store.AttachedAt s.manager

/-- The holder works on the memory that host functions work on, and it is there. -/
structure Served (s : Spirit) : Prop where
  agree : s.store.record? = some s.manager
  attached : s.Attached

/-- A Spirit later in its life: of the same module, worked on at the same place. -/
structure Same (s t : Spirit) : Prop where
  linked : t.linked = s.linked
  manager : t.manager = s.manager
  budget : t.budget = s.budget

variable {s : Spirit}

theorem Served.record_eq (hs : s.Served) : s.store.record = s.manager := Store.record_eq hs.agree

theorem Served.store_attached (hs : s.Served) : s.store.Attached :=
  ⟨s.manager, hs.agree, hs.attached⟩

theorem Same.refl (s : Spirit) : s.Same s := ⟨rfl, rfl, rfl⟩

theorem Same.trans {t u : Spirit} (hst : s.Same t) (htu : t.Same u) : s.Same u :=
  ⟨htu.linked.trans hst.linked, htu.manager.trans hst.manager, htu.budget.trans hst.budget⟩

theorem same_settle {α : Type} (result : Except Error α) (store : Store) :
    s.Same (s.settle result store).state := ⟨rfl, rfl, rfl⟩

theorem same_run (index : Nat) (args : List Value) : s.Same (s.run index args).state := by
  unfold run
  split
  · split <;> exact same_settle _ _
  · split <;> exact same_settle _ _

theorem same_callIndex (name : String) (index : Nat) (args : List Value) :
    s.Same (s.callIndex name index args).state := by
  unfold callIndex
  dsimp only
  split
  · exact .refl s
  · split
    · exact .refl s
    · exact same_run index args

/-- No operation changes a Spirit's module or the place that the holder works on. -/
theorem same_perform (s : Spirit) (operation : Operation) : s.Same (s.perform operation).state := by
  cases operation with
  | call function args =>
    change s.Same (s.call function args).state
    unfold call
    split
    · exact .refl s
    · exact same_callIndex _ _ _
  | callTyped function type args =>
    change s.Same (s.callTyped function type args).state
    unfold callTyped
    split
    · exact .refl s
    · dsimp only
      split
      · exact same_callIndex _ _ _
      · exact .refl s
  | callJson function args =>
    change s.Same (s.callJson function args).state
    unfold callJson
    split
    · exact .refl s
    · dsimp only
      split
      · exact .refl s
      · exact same_callIndex _ _ _
  | _ => exact ⟨rfl, rfl, rfl⟩

/-! ## Calls -/

/-- Taking the log out of a store leaves its heap. -/
theorem reaches_settle {α : Type} (result : Except Error α) {store : Store} {address : Nat}
    {ms : List (Moment Heap)} (h : s.store.ReachesAt address ms store) :
    s.store.ReachesAt address ms (s.settle result store).state.store := by
  have hsame : store.SameHeap (s.settle result store).state.store := ⟨rfl, rfl, rfl⟩
  simpa using h.trans hsame.reachesAt

/-- The moments of running a function of the module. -/
theorem code_reaches (hs : s.store.Attached) (index : Nat) (args : List Value) :
    s.store.Reaches (Machine.runHistory s.linked s.budget s.budget.steps (.start index args s.store))
      (match s.linked.run s.budget index args s.store with
        | .finished results store => s.settle (.ok results) store
        | .halted halt store => s.settle (.error (haltError halt)) store
        | .outOfSteps store => s.settle (.error .outOfSteps) store).state.store := by
  have hrun := Machine.run_reaches s.linked s.budget s.budget.steps
    (m := .start index args s.store) hs
  unfold Wasm.Instance.run
  cases hend : Machine.run s.linked s.budget s.budget.steps (.start index args s.store) with
  | finished results store =>
    rw [hend] at hrun
    exact reaches_settle _ hrun
  | halted halt store =>
    rw [hend] at hrun
    exact reaches_settle _ hrun
  | outOfSteps store =>
    rw [hend] at hrun
    exact reaches_settle _ hrun

theorem run_reaches (hs : s.store.Attached) (index : Nat) (args : List Value) :
    s.store.Reaches (s.runHistory index args) (s.run index args).state.store := by
  unfold runHistory run
  cases s.linked.functions[index]? with
  | none => exact code_reaches hs index args
  | some callee =>
    cases callee with
    | code type code size => exact code_reaches hs index args
    | host function =>
      have hhost := HostCall.reaches (function.call args) hs
      dsimp only
      cases hrun : (function.call args).run s.store with
      | mk result store =>
        rw [hrun] at hhost
        cases result with
        | ok results => exact reaches_settle _ hhost
        | error failure => exact reaches_settle _ hhost

theorem callIndex_reaches (hs : s.store.Attached) (name : String) (index : Nat)
    (args : List Value) :
    s.store.Reaches (s.indexHistory name index args) (s.callIndex name index args).state.store := by
  unfold indexHistory callIndex
  dsimp only
  cases (do
    checkCount name ((s.source.functionType? index).getD ⟨[], []⟩).params.length args.length
    checkTypes name 0 ((s.source.functionType? index).getD ⟨[], []⟩).params args) with
  | error e => exact .refl _
  | ok =>
    cases misfit? 0 ((s.source.functionType? index).getD ⟨[], []⟩).params args with
    | some i => exact .refl _
    | none => exact run_reaches hs index args

theorem call_reaches (hs : s.store.Attached) (name : String) (args : List Value) :
    s.store.Reaches (s.callHistory name args) (s.call name args).state.store := by
  unfold callHistory call
  cases s.function name with
  | error e => exact .refl _
  | ok index => exact callIndex_reaches hs name index args

theorem callTyped_reaches (hs : s.store.Attached) (name : String) (type : FuncType)
    (args : List Value) :
    s.store.Reaches (s.typedHistory name type args) (s.callTyped name type args).state.store := by
  unfold typedHistory callTyped
  cases s.function name with
  | error e => exact .refl _
  | ok index =>
    dsimp only
    by_cases htype : (s.source.functionType? index).getD ⟨[], []⟩ = type
    · rw [if_pos htype, if_pos htype]
      exact callIndex_reaches hs name index args
    · rw [if_neg htype, if_neg htype]
      exact .refl _

theorem callJson_reaches (hs : s.store.Attached) (name : String) (args : List Json) :
    s.store.Reaches (s.jsonHistory name args) (s.callJson name args).state.store := by
  unfold jsonHistory callJson
  cases s.function name with
  | error e => exact .refl _
  | ok index =>
    dsimp only
    cases (do
      checkCount name ((s.source.functionType? index).getD ⟨[], []⟩).params.length args.length
      convert name 0 ((s.source.functionType? index).getD ⟨[], []⟩).params args) with
    | error e => exact .refl _
    | ok values => exact callIndex_reaches hs name index values

/-! ## Runs -/

/-- An operation that runs no code moves the heap of the memory that the holder works on. -/
theorem perform_reaches_of_quiet (hs : s.Attached) {operation : Operation}
    (hquiet : operation.runsCode = false) :
    s.store.ReachesAt s.manager (s.history operation) (s.perform operation).state.store := by
  cases operation with
  | alloc size => exact reaches_settle _ (Store.reaches_allocAligned hs size _)
  | allocAligned size align => exact reaches_settle _ (Store.reaches_allocAligned hs size align)
  | allocRecord gene => exact reaches_settle _ (Store.reaches_allocAligned hs gene.size gene.alignment)
  | writeString text => exact reaches_settle _ (Store.reaches_encodeString hs text)
  | reset => exact Store.reaches_reset hs
  | writeBytes address bytes =>
    exact reaches_settle _ (Store.reaches_write hs fun _ => Heap.moves_of_writeBytes)
  | writeRecord gene address record =>
    exact reaches_settle _ (Store.reaches_write hs fun _ => Heap.moves_of_writeRecord)
  | call | callTyped | callJson => cases hquiet
  | free | readBytes | readText | readString | readRecord => exact .refl _

/-- **One operation.** The moments of an operation lead from the heap before it to the heap after,
whether it succeeds or not. -/
theorem perform_reaches (hs : s.Served) (operation : Operation) :
    s.store.ReachesAt s.manager (s.history operation) (s.perform operation).state.store := by
  cases hcode : operation.runsCode with
  | false => exact perform_reaches_of_quiet hs.attached hcode
  | true =>
    have hstore := hs.store_attached
    rw [← hs.record_eq]
    cases operation with
    | call function args => exact call_reaches hstore function args
    | callTyped function type args => exact callTyped_reaches hstore function type args
    | callJson function args => exact callJson_reaches hstore function args
    | _ => cases hcode

theorem Served.perform (hs : s.Served) (operation : Operation) :
    (s.perform operation).state.Served := by
  have hreaches := perform_reaches hs operation
  have hsame := s.same_perform operation
  refine ⟨?_, ?_⟩
  · rw [hreaches.record?, hsame.manager, hs.agree]
  · rw [Attached, hsame.manager]
    exact hreaches.attached hs.attached

/-- **Runs of operations.** The moments of a run lead from the heap at its beginning to the heap in
the end. -/
theorem performAll_reaches : ∀ (operations : List Operation) {s : Spirit}, s.Served →
    s.store.ReachesAt s.manager (historyAll operations s) (performAll operations s).store
  | [], s, _ => .refl s.store
  | operation :: rest, s, hs => by
    have hfirst := perform_reaches hs operation
    have hrest := performAll_reaches rest (hs.perform operation)
    rw [(s.same_perform operation).manager] at hrest
    exact hfirst.trans hrest

theorem same_performAll : ∀ (operations : List Operation) (s : Spirit),
    s.Same (performAll operations s)
  | [], s => .refl s
  | operation :: rest, s => (s.same_perform operation).trans (same_performAll rest _)

end Spirit

end SpiritHost
