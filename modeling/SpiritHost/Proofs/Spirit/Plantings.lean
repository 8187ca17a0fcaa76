import SpiritHost.Proofs.Loa.Plantings
import SpiritHost.Proofs.Spirit.Deeds
import SpiritHost.Proofs.Spirit.Load

/-!
# Planted values of a Spirit

What a Spirit's store holds of planted values, and how many an operation or a load destroys, comes of
the values planted meanwhile. A load that fails destroys every value that was planted for it.
-/

namespace SpiritHost

open Wasm (Instance Machine Value)

namespace Wasm.Machine

variable (inst : Instance) (budget : Budget)

theorem settles_deed (m : Machine) : (m.deed inst).settles = false := by
  unfold deed storeDeed
  split
  · split
    · rfl
    · split <;> rfl
  · rfl

theorem settles_stepInstants (m : Machine) :
    ∀ x ∈ m.stepInstants inst budget, x.deed.settles = false := by
  intro x hx
  unfold stepInstants at hx
  split at hx
  · exact HostCall.settles_instants _ x hx
  · rw [List.mem_singleton.1 hx]
    exact m.settles_deed inst

/-- Running code leaves it to others to account for what is replaced. -/
theorem settles_runInstants : ∀ (steps : Nat) (m : Machine),
    ∀ x ∈ runInstants inst budget steps m, x.deed.settles = false
  | 0, _, x, hx => by cases hx
  | steps + 1, m, x, hx => by
    rw [runInstants] at hx
    rcases List.mem_append.1 hx with hx | hx
    · exact m.settles_stepInstants inst budget x hx
    · split at hx
      · exact settles_runInstants steps _ x hx
      · cases hx

end Wasm.Machine

/-! ## Operations -/

namespace Spirit

variable {s : Spirit}

/-- A reply tells what comes of the values planted in a trace: which the Spirit holds and how many are
destroyed. -/
structure Tells {α : Type} (s : Spirit) (xs : List Instant) (r : Reply Spirit α) : Prop where
  holding : (r.state.store.held, r.destroyed) =
    (plantings xs).foldl Holding.plant (s.store.held, 0)
  settled : r.state.store.replaced = 0

theorem settles_codeInstants (index : Nat) (args : List Value) :
    ∀ x ∈ s.codeInstants index args, x.deed.settles = false := by
  unfold codeInstants
  split
  · exact HostCall.settles_instants _
  · exact Machine.settles_runInstants _ _ _ _

theorem Tells.plain {α : Type} (hs : s.store.replaced = 0) (result : Except Error α) :
    s.Tells [] (.plain result s) := ⟨rfl, hs⟩

theorem Tells.map {α β : Type} {xs : List Instant} {r : Reply Spirit α} (h : s.Tells xs r)
    (f : α → β) : s.Tells xs (r.map f) := ⟨h.holding, h.settled⟩

theorem tells_run (hs : s.store.Attached) (hsettled : s.store.replaced = 0) (index : Nat)
    (args : List Value) : s.Tells (s.callInstants (some (index, args))) (s.run index args) := by
  obtain ⟨t, hpasses, hstore, hdestroyed⟩ := code_passes hs index args
  have hholding := hpasses.holding (settles_codeInstants index args)
  refine ⟨?_, ?_⟩
  · have hnone : plantings [⟨.settle t.replaced, t.settled⟩] = [] := rfl
    rw [callInstants, hstore, hdestroyed, plantings_append, hnone, List.append_nil]
    rw [Store.holding, Store.holding, hsettled] at hholding
    exact hholding
  · rw [hstore]
    rfl

theorem tells_call {α : Type} {entry : Option (Nat × List Value)} {r : Reply Spirit α}
    (hs : s.store.Attached) (hsettled : s.store.replaced = 0) (h : s.Enters entry r) :
    s.Tells (s.callInstants entry) r := by
  unfold Enters at h
  split at h
  · rename_i index args
    obtain ⟨answer, rfl⟩ := h
    exact (tells_run hs hsettled index args).map answer
  · obtain ⟨e, rfl⟩ := h
    exact .plain hsettled _

/-- A request that plants nothing changes nothing about what is held. -/
theorem tells_request {α : Type} (hsettled : s.store.replaced = 0) (deed : Except Error α → Deed)
    (hdeed : ∀ r, (deed r).planted? = none) (request : Heap → Except Error (α × Heap)) :
    s.Tells (s.requestInstants deed request) (s.onHeap request) := by
  have hsame : (s.store.onHeapAt s.manager (request s.heap)).2.holding = s.store.holding := by
    cases request s.heap <;> rfl
  obtain ⟨hheld, hreplaced⟩ := Prod.ext_iff.1 hsame
  refine ⟨?_, rfl⟩
  have hnone : plantings (s.requestInstants deed request) = [] :=
    List.filterMap_cons_none (hdeed _)
  rw [hnone]
  exact Prod.ext hheld (hreplaced.trans hsettled)

/-- **Operations.** -/
theorem tells_perform (hs : s.Served) (hsettled : s.store.replaced = 0) (operation : Operation) :
    s.Tells (s.instants operation) (s.perform operation) := by
  have hstore := hs.store_attached
  cases operation with
  | alloc size =>
    exact (tells_request hsettled (fun _ => .other) (fun _ => rfl) (·.alloc size)).map _
  | allocAligned size align =>
    exact (tells_request hsettled (fun _ => .other) (fun _ => rfl) (·.allocAligned size align)).map _
  | allocRecord gene =>
    exact (tells_request hsettled (fun _ => .other) (fun _ => rfl) (·.allocRecord gene)).map _
  | writeString text =>
    exact (tells_request hsettled _ (Deed.planted?_ofString s.manager text)
      (·.encodeString text)).map _
  | writeBytes address bytes =>
    exact (tells_request hsettled _ (Deed.planted?_ofWrite s.manager address.toNat bytes)
      fun h => (h.writeBytes address bytes).map fun h => ((), h)).map _
  | writeRecord gene address record =>
    exact (tells_request hsettled _ (Deed.planted?_ofRecord s.manager gene address)
      fun h => (h.writeRecord gene address record).map fun h => ((), h)).map _
  | free | reset => exact ⟨rfl, hsettled⟩
  | readBytes | readText | readString | readRecord => exact ⟨rfl, hsettled⟩
  | call name args => exact tells_call hstore hsettled ((enters_call name args).map _)
  | callTyped name type args =>
    exact tells_call hstore hsettled ((enters_callTyped name type args).map _)
  | callJson name args => exact tells_call hstore hsettled ((enters_callJson name args).map _)

end Spirit

end SpiritHost
