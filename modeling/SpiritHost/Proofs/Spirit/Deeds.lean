import SpiritHost.Proofs.Spirit.Arguments
import SpiritHost.Proofs.Spirit.Changes
import SpiritHost.Proofs.Wasm.Deeds

/-!
# The deeds of a Spirit's life

Whatever happens to a Spirit is a trace: of one deed if its holder works on its memory, of the deeds
of the code if a function runs, and empty if the call is refused. `Spirit.changeAll_passes`: a run of
changes is the trace of its changes.
-/

namespace SpiritHost

open Wasm (FuncType Machine Value)

namespace Store

/-- The store as it is left between operations, its log taken out and what was replaced accounted
for. -/
def settled (s : Store) : Store := { s with log := #[], replaced := 0 }

theorem does_settle (s : Store) : s.Does (.settle s.replaced) s.settled :=
  ⟨rfl, rfl, nofun, fun _ => .refl _ _, trivial, rfl, rfl, rfl⟩

end Store

namespace Spirit

/-! ## Functions that run -/

variable {s : Spirit}

/-- The function that a call runs with its arguments, unless it is refused. -/
def entry? (s : Spirit) (name : String) (args : List Value) : Option (Nat × List Value) :=
  match s.function name with
  | .ok index => if args.map Value.type = s.params index then some (index, args) else none
  | .error _ => none

/-- The function that a call of a given type runs. -/
def entryTyped? (s : Spirit) (name : String) (type : FuncType) (args : List Value) :
    Option (Nat × List Value) :=
  match s.function name with
  | .ok index =>
    if (s.source.functionType? index).getD ⟨[], []⟩ = type then s.entry? name args else none
  | .error _ => none

/-- The function that a call with JSON arguments runs. -/
def entryJson? (s : Spirit) (name : String) (args : List Json) : Option (Nat × List Value) :=
  match s.function name with
  | .ok index => match s.checkJson name index args with
    | .ok values => s.entry? name values
    | .error _ => none
  | .error _ => none

/-- What a call comes to: a refusal, or the run of a function. -/
def Enters {α : Type} (s : Spirit) (entry : Option (Nat × List Value)) (r : Reply Spirit α) : Prop :=
  match entry with
  | some (index, args) => ∃ answer : List Value → α, r = (s.run index args).map answer
  | none => ∃ e, r = .plain (.error e) s

theorem Enters.map {α β : Type} {entry : Option (Nat × List Value)} {r : Reply Spirit α}
    (h : s.Enters entry r) (f : α → β) : s.Enters entry (r.map f) := by
  unfold Enters at h ⊢
  split at h
  · obtain ⟨answer, rfl⟩ := h
    refine ⟨f ∘ answer, ?_⟩
    simp only [Reply.map]
    cases (s.run _ _).result <;> rfl
  · obtain ⟨e, rfl⟩ := h
    exact ⟨e, rfl⟩

theorem enters_call (name : String) (args : List Value) :
    s.Enters (s.entry? name args) (s.call name args) := by
  unfold entry? call
  cases s.function name with
  | error e => exact ⟨e, rfl⟩
  | ok index =>
    dsimp only
    by_cases hfits : args.map Value.type = s.params index
    · rw [if_pos hfits, callIndex_of_fits name hfits]
      exact ⟨id, (Reply.map_id _).symm⟩
    · rw [if_neg hfits]
      exact callIndex_of_misfits name hfits

theorem call_of_function {name : String} {index : Nat} (h : s.function name = .ok index)
    (args : List Value) : s.call name args = s.callIndex name index args := by
  rw [call, h]

theorem enters_callTyped (name : String) (type : FuncType) (args : List Value) :
    s.Enters (s.entryTyped? name type args) (s.callTyped name type args) := by
  unfold entryTyped? callTyped
  cases hfunction : s.function name with
  | error e => exact ⟨e, rfl⟩
  | ok index =>
    dsimp only
    by_cases htype : (s.source.functionType? index).getD ⟨[], []⟩ = type
    · rw [if_pos htype, if_pos htype, ← call_of_function hfunction]
      exact enters_call name args
    · rw [if_neg htype, if_neg htype]
      exact ⟨_, rfl⟩

theorem enters_callJson (name : String) (args : List Json) :
    s.Enters (s.entryJson? name args) (s.callJson name args) := by
  rw [callJson_eq]
  unfold entryJson?
  cases hfunction : s.function name with
  | error e => exact ⟨e, rfl⟩
  | ok index =>
    dsimp only
    rw [← checkJson]
    cases s.checkJson name index args with
    | error e => exact ⟨e, rfl⟩
    | ok values =>
      dsimp only
      rw [← call_of_function hfunction]
      exact (enters_call name values).map resultJson

/-! ## Traces -/

/-- The trace of running a function. -/
def codeInstants (s : Spirit) (index : Nat) (args : List Value) : List Instant :=
  match s.linked.functions[index]? with
  | some (.host function) => (function.call args).instants s.store
  | _ => Machine.runInstants s.linked s.budget s.budget.steps (.start index args s.store)

/-- The trace of a call that runs a function, if it does. -/
def callInstants (s : Spirit) : Option (Nat × List Value) → List Instant
  | some (index, args) => s.codeInstants index args ++
    [⟨.settle (s.run index args).destroyed, (s.run index args).state.store⟩]
  | none => []

/-- The trace of a request of the holder. -/
def requestInstants {α : Type} (s : Spirit) (deed : Except Error α → Deed)
    (request : Heap → Except Error (α × Heap)) : List Instant :=
  let (r, t) := s.store.onHeapAt s.manager (request s.heap)
  [⟨deed r, t⟩, ⟨.settle t.replaced, t.settled⟩]

/-- The trace of the holder's reading. -/
def readInstants (s : Spirit) (reading : Reading) : List Instant :=
  [⟨.read s.manager reading (s.heap.read reading), s.store⟩]

/-- The trace of an operation. -/
def instants (s : Spirit) : Operation → List Instant
  | .alloc size => s.requestInstants (fun _ => .other) (·.alloc size)
  | .allocAligned size align => s.requestInstants (fun _ => .other) (·.allocAligned size align)
  | .allocRecord gene => s.requestInstants (fun _ => .other) (·.allocRecord gene)
  | .writeString text => s.requestInstants (.ofString s.manager text) (·.encodeString text)
  | .free _ => []
  | .reset => [⟨.other, s.reset.store⟩]
  | .writeBytes address bytes => s.requestInstants (.ofWrite s.manager address.toNat bytes) fun h =>
    (h.writeBytes address bytes).map fun h => ((), h)
  | .writeRecord gene address record => s.requestInstants (.ofRecord s.manager gene address) fun h =>
    (h.writeRecord gene address record).map fun h => ((), h)
  | .readBytes address len => s.readInstants (.bytes address len)
  | .readText address len => s.readInstants (.text address len)
  | .readString address => s.readInstants (.string address)
  | .readRecord gene address => s.readInstants (.record gene address)
  | .call name args => s.callInstants (s.entry? name args)
  | .callTyped name type args => s.callInstants (s.entryTyped? name type args)
  | .callJson name args => s.callInstants (s.entryJson? name args)

/-- The trace of a change. -/
def changeInstants (s : Spirit) : Change → List Instant
  | .host operation => s.instants operation
  | .grow pages => [⟨.other, (s.grow pages).store⟩]

/-- The trace of a run of changes. -/
def changeInstantsAll : List Change → Spirit → List Instant
  | [], _ => []
  | c :: rest, s => s.changeInstants c ++ changeInstantsAll rest (s.change c)

/-! ## Running code -/

/-- The trace of running a function leads to a store that is settled then. -/
theorem code_passes (hs : s.store.Attached) (index : Nat) (args : List Value) :
    ∃ t : Store, s.store.Passes (s.codeInstants index args) t ∧
      (s.run index args).state.store = t.settled ∧ (s.run index args).destroyed = t.replaced := by
  have hcode : s.store.Passes _ (s.linked.run s.budget index args s.store).store :=
    Machine.run_passes s.linked s.budget s.budget.steps (m := .start index args s.store) hs
  unfold codeInstants run
  cases s.linked.functions[index]? with
  | none =>
    refine ⟨_, hcode, ?_⟩
    cases s.linked.run s.budget index args s.store <;> exact ⟨rfl, rfl⟩
  | some callee =>
    cases callee with
    | code type code size =>
      refine ⟨_, hcode, ?_⟩
      dsimp only
      cases s.linked.run s.budget index args s.store <;> exact ⟨rfl, rfl⟩
    | host function =>
      refine ⟨_, HostCall.passes (function.call args) hs, ?_⟩
      dsimp only
      cases (function.call args).run s.store with
      | mk result store => cases result <;> exact ⟨rfl, rfl⟩

theorem call_passes {α : Type} {entry : Option (Nat × List Value)} {r : Reply Spirit α}
    (hs : s.store.Attached) (h : s.Enters entry r) :
    s.store.Passes (s.callInstants entry) r.state.store := by
  unfold Enters at h
  split at h
  · rename_i index args
    obtain ⟨answer, rfl⟩ := h
    obtain ⟨t, hpasses, hstore, hdestroyed⟩ := code_passes hs index args
    rw [callInstants, hdestroyed]
    change s.store.Passes _ (s.run index args).state.store
    rw [hstore]
    exact hpasses.trans (.single t.does_settle)
  · obtain ⟨e, rfl⟩ := h
    exact .refl s.store

/-! ## Operations -/

theorem request_passes {α : Type} (s : Spirit) (deed : Except Error α → Deed)
    (request : Heap → Except Error (α × Heap))
    (h : s.store.Does (deed (s.store.onHeapAt s.manager (request s.heap)).1)
      (s.store.onHeapAt s.manager (request s.heap)).2) :
    s.store.Passes (s.requestInstants deed request) (s.onHeap request).state.store :=
  .cons h (.single (Store.does_settle _))

theorem read_passes (hs : s.Served) (reading : Reading) :
    s.store.Passes (s.readInstants reading) s.store :=
  .single (Store.does_read hs.agree reading)

/-- **Operations.** The trace of an operation leads from the store before it to the store after. -/
theorem perform_passes (hs : s.Served) (operation : Operation) :
    s.store.Passes (s.instants operation) (s.perform operation).state.store := by
  have hthere := hs.attached
  have hstore := hs.store_attached
  cases operation with
  | alloc size =>
    exact s.request_passes (fun _ => .other) (·.alloc size) (Store.does_alloc hthere size _)
  | allocAligned size align =>
    exact s.request_passes (fun _ => .other) (·.allocAligned size align)
      (Store.does_alloc hthere size align)
  | allocRecord gene =>
    exact s.request_passes (fun _ => .other) (·.allocRecord gene)
      (Store.does_alloc hthere gene.size gene.alignment)
  | writeString text =>
    exact s.request_passes (.ofString s.manager text) (·.encodeString text)
      (Store.does_encodeString hthere hs.agree text)
  | free address => exact .refl s.store
  | reset => exact .single (Store.does_reset hthere)
  | writeBytes address bytes =>
    exact s.request_passes (.ofWrite s.manager address.toNat bytes)
      (fun h => (h.writeBytes address bytes).map fun h => ((), h))
      (Store.does_writeBytes hthere address bytes)
  | writeRecord gene address record =>
    exact s.request_passes (.ofRecord s.manager gene address)
      (fun h => (h.writeRecord gene address record).map fun h => ((), h))
      (Store.does_writeRecord hthere hs.agree gene address record)
  | readBytes | readText | readString | readRecord => exact read_passes hs _
  | call name args => exact call_passes hstore ((enters_call name args).map _)
  | callTyped name type args => exact call_passes hstore ((enters_callTyped name type args).map _)
  | callJson name args => exact call_passes hstore ((enters_callJson name args).map _)

/-! ## Changes -/

theorem change_passes (hs : s.Served) (c : Change) :
    s.store.Passes (s.changeInstants c) (s.change c).store := by
  cases c with
  | host operation => exact perform_passes hs operation
  | grow pages =>
    refine .single ?_
    show s.store.Does .other (s.grow pages).store
    unfold grow
    cases hgrow : s.heap.memory.grow? pages with
    | none => exact (Store.Alike.refl s.store).does
    | some memory => exact Store.does_grow hgrow

theorem served_change (hs : s.Served) (c : Change) : (s.change c).Served := by
  have hpasses := change_passes hs c
  have hsame := s.same_change c
  refine ⟨?_, ?_⟩
  · rw [hpasses.same.1, hsame.manager, hs.agree]
  · rw [Attached, Store.AttachedAt, hsame.manager, hpasses.same.2]
    exact hs.attached

/-- **Runs of changes.** The trace of a run leads from the store before it to the store after. -/
theorem changeAll_passes : ∀ (changes : List Change) {s : Spirit}, s.Served →
    s.store.Passes (changeInstantsAll changes s) (changeAll changes s).store
  | [], s, _ => .refl s.store
  | c :: rest, _, hs => (change_passes hs c).trans (changeAll_passes rest (served_change hs c))

theorem served_changeAll : ∀ (changes : List Change) {s : Spirit}, s.Served →
    (changeAll changes s).Served
  | [], _, hs => hs
  | c :: rest, _, hs => served_changeAll rest (served_change hs c)

/-! ## Moments of changes -/

/-- The moments of a change lead from the heap before it to the heap after, also if code runs. -/
theorem Served.change_reaches (hs : s.Served) (c : Change) :
    s.store.ReachesAt s.manager (s.changeHistory c) (s.change c).store := by
  cases c with
  | host operation => exact perform_reaches hs operation
  | grow pages => exact grow_reaches hs.attached pages

theorem Served.changeAll_reaches : ∀ (changes : List Change) {s : Spirit}, s.Served →
    s.store.ReachesAt s.manager (changeHistoryAll changes s) (changeAll changes s).store
  | [], s, _ => .refl s.store
  | c :: rest, s, hs => by
    have hrest := Served.changeAll_reaches rest (served_change hs c)
    rw [(s.same_change c).manager] at hrest
    exact (hs.change_reaches c).trans hrest

theorem same_changeAll : ∀ (changes : List Change) (s : Spirit), s.Same (changeAll changes s)
  | [], s => .refl s
  | c :: rest, s => (s.same_change c).trans (same_changeAll rest _)

theorem heap_changeAll (changes : List Change) (s : Spirit) :
    (changeAll changes s).heap = (changeAll changes s).store.heapAt s.manager := by
  rw [heap, (same_changeAll changes s).manager]

/-- **Heaps.** A run of changes takes the heap through its moments. -/
theorem Served.heaps_changeAll (hs : s.Served) (changes : List Change) :
    Chained Heap.Moves s.heap (changeHistoryAll changes s) ∧
      ending s.heap (changeHistoryAll changes s) = (changeAll changes s).heap := by
  have hreaches := Served.changeAll_reaches changes hs
  rw [heap_changeAll]
  exact ⟨hreaches.chained, hreaches.ending⟩

end Spirit

end SpiritHost
