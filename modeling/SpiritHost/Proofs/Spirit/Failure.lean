import SpiritHost.Loa.Basic
import SpiritHost.Proofs.Memory.Bytes
import SpiritHost.Proofs.Spirit.Call
import SpiritHost.Proofs.Wasm.Trace

/-!
# Failures that come out of calls

A host function that fails ends the call in which code called it, at whatever depth. If the first
error of the failure is one that hosts raise on behalf of a Spirit, the call fails with just that
error, however it is made; any other failure makes the call trap, and so does a trap of the code.
-/

namespace SpiritHost

open Wasm (FuncType Halt Machine Value)

/-! ## Chains -/

/-- An error is the first in a failure's chain, from the outside in. -/
inductive Failure.First : Failure → Error → Prop where
  | error (e : Error) : First (.error e) e
  | wrap (e : Error) (inner : Failure) : First (.wrap e inner) e
  | context (message : String) {inner : Failure} {e : Error} (h : First inner e) :
      First (.context message inner) e

/-- An error that a host function raises on behalf of the Spirit that called it. -/
inductive Error.OnBehalf : Error → Prop where
  | abort (fault : Abort) : OnBehalf (.abort fault)
  | allocation (requested : UInt32) (needed : Nat) : OnBehalf (.allocation requested needed)
  | memoryAccess (address : UInt32) (len : Nat) : OnBehalf (.memoryAccess address len)

namespace Failure

variable {failure : Failure} {e : Error}

theorem first_iff : ∀ {failure : Failure}, failure.First e ↔ failure.error? = some e
  | .error _ => ⟨fun h => by cases h; rfl, fun h => by cases h; exact .error e⟩
  | .wrap _ inner => ⟨fun h => by cases h; rfl, fun h => by cases h; exact .wrap e inner⟩
  | .text _ => ⟨nofun, nofun⟩
  | .context message inner => by
    rw [error?, ← first_iff]
    exact ⟨fun h => by cases h with | context _ h => exact h, .context message⟩

theorem recover?_of_first (h : failure.First e) (he : e.OnBehalf) : failure.recover? = some e := by
  rw [recover?, first_iff.1 h]
  cases he <;> rfl

theorem recover?_of_others (h : ∀ e, failure.First e → ¬e.OnBehalf) : failure.recover? = none := by
  rw [recover?]
  split
  · rename_i fault hfirst
    exact absurd (.abort fault) (h _ (first_iff.2 hfirst))
  · rename_i requested needed hfirst
    exact absurd (.allocation requested needed) (h _ (first_iff.2 hfirst))
  · rename_i address len hfirst
    exact absurd (.memoryAccess address len) (h _ (first_iff.2 hfirst))
  · rfl

/-- Nothing else is passed on. -/
theorem onBehalf_of_recover? (h : failure.recover? = some e) : e.OnBehalf := by
  unfold recover? at h
  split at h
  · cases h
    exact .abort _
  · cases h
    exact .allocation _ _
  · cases h
    exact .memoryAccess _ _
  · cases h

end Failure

/-! ## Ending a Spirit's life -/

/-- Both texts are read before anything is logged. -/
theorem Loa.run_abort {store : Store} (hs : store.Attached)
    (message messageLen file fileLen line : UInt32) :
    (abort.call [.i32 message, .i32 messageLen, .i32 file, .i32 fileLen, .i32 line]).run store =
      match store.heap.readBytes message messageLen with
      | .error e => (.error (.error e), store)
      | .ok messageBytes => match store.heap.readBytes file fileLen with
        | .error e => (.error (.error e), store)
        | .ok fileBytes =>
          let fault := ⟨Utf8.decodeLossy messageBytes, Utf8.decodeLossy fileBytes, line⟩
          let store := { store with log := store.log.push (.abort fault) }
          (.error (.error (.abort fault)), store) := by
  have hheap := Store.callerHeap_eq hs
  simp only [abort, HostCall.text, HostCall.write, Bind.bind, Pure.pure, HostCall.bind,
    HostCall.run, hheap, Except.bind]
  cases store.heap.readBytes message messageLen with
  | error e => rfl
  | ok messageBytes =>
    simp only [HostCall.orFail, HostCall.bind, HostCall.run, hheap, Bind.bind, Except.bind]
    cases store.heap.readBytes file fileLen <;> rfl

namespace Spirit

variable {s : Spirit} {name : String} {type : FuncType} {args : List Value} {index : Nat}

/-! ## Calls -/

/-- Whichever way the function is called, the call fails with an error and leaves a store. -/
structure CallsFail (s : Spirit) (name : String) (type : FuncType) (args : List Value) (e : Error)
    (store : Store) : Prop where
  call : s.call name args = s.settle (.error e) store
  typed : s.callTyped name type args = s.settle (.error e) store
  json : ∀ json, json.length = type.params.length → convert name 0 type.params json = .ok args →
    s.callJson name json = s.settle (.error e) store

/-- How a failure in the next step of a machine comes out of the call that the machine is part of:
no machine comes after it, and all kinds of calls fail alike. -/
structure Surfaces (s : Spirit) (name : String) (type : FuncType) (args : List Value) (m : Machine)
    (after : List Machine) : Prop where
  /-- What a host function raises on the Spirit's behalf comes out as it is, and nothing else
  does. -/
  host : ∀ {call : HostCall (List Value)} {failure : Failure} {store : Store},
    m.hostCall? s.linked = some call → call.run m.store = (.error failure, store) →
      after = [] ∧
        (∀ e, failure.First e → e.OnBehalf → s.CallsFail name type args e store) ∧
        ((∀ e, failure.First e → ¬e.OnBehalf) →
          s.CallsFail name type args (.trap (.host failure)) store)
  trap : ∀ {t : Wasm.Trap} {store : Store}, m.step s.linked s.budget = .halted (.trap t) store →
    after = [] ∧ s.CallsFail name type args (.trap (.wasm t)) store
  /-- To end a Spirit's life is logged once both texts are read, and not before. Every Spirit that has
  been loaded has the memory to read them from (`Loader.Stages.served`). -/
  abort : s.store.Attached → ∀ {message messageLen file fileLen line : UInt32} {below : List Value},
    m.callee? s.linked = some (.host Loa.abort,
      .i32 line :: .i32 fileLen :: .i32 file :: .i32 messageLen :: .i32 message :: below) →
    let heap := m.store.heap
    let fault := ⟨heap.lossyText message messageLen, heap.lossyText file fileLen, line⟩
    after = [] ∧
      (heap.Has message messageLen → heap.Has file fileLen →
        s.CallsFail name type args (.abort fault)
          { m.store with log := m.store.log.push (.abort fault) }) ∧
      (¬heap.Has message messageLen →
        s.CallsFail name type args (.memoryAccess message messageLen.toNat) m.store) ∧
      (heap.Has message messageLen → ¬heap.Has file fileLen →
        s.CallsFail name type args (.memoryAccess file fileLen.toNat) m.store)

section Surfacing

variable {m : Machine} {before after : List Machine} {code : Wasm.Code} {frame : Nat}
  (hfunction : s.function name = .ok index) (htype : s.source.functionType? index = some type)
  (hcode : s.linked.functions[index]? = some (.code type code frame))
  (hfits : args.map Value.type = type.params)
  (hvisited : Machine.visited s.linked s.budget s.budget.steps (.start index args s.store) =
    before ++ m :: after)
include hfunction htype hcode hfits hvisited

/-- A halt of the code is the failure of the call. -/
theorem callsFail_of_halted {halt : Halt} {store : Store}
    (hstep : m.step s.linked s.budget = .halted halt store) :
    after = [] ∧ s.CallsFail name type args (haltError halt) store := by
  obtain ⟨hlast, hrun⟩ := Machine.run_of_halted hstep hvisited
  have hparams : s.params index = type.params := by
    rw [params, htype]
    rfl
  have hindex : s.callIndex name index args = s.settle (.error (haltError halt)) store := by
    rw [callIndex_of_fits name (hfits.trans hparams.symm), run, hcode]
    dsimp only
    rw [Wasm.Instance.run, hrun]
  refine ⟨hlast, ?_, ?_, fun json hlength hconvert => ?_⟩
  · rw [call, hfunction]
    exact hindex
  · rw [callTyped, hfunction]
    dsimp only
    rw [htype, Option.getD_some, if_pos rfl, hindex]
  · rw [callJson_eq, hfunction]
    dsimp only
    rw [hparams, checkCount_eq_ok_iff.2 hlength, hconvert]
    change (s.callIndex name index args).map resultJson = _
    rw [hindex]
    rfl

/-- What a host function raises on the Spirit's behalf is the failure of the call. -/
theorem callsFail_of_onBehalf {call : HostCall (List Value)} {failure : Failure} {e : Error}
    {store : Store} (hcall : m.hostCall? s.linked = some call)
    (hfails : call.run m.store = (.error failure, store)) (hfirst : failure.First e)
    (he : e.OnBehalf) : after = [] ∧ s.CallsFail name type args e store := by
  have hfail := callsFail_of_halted hfunction htype hcode hfits hvisited
    (Machine.step_of_failure hcall hfails)
  rwa [haltError, Failure.recover?_of_first hfirst he] at hfail

/-- **Failures.** Whatever fails in a call of an exported function of the code, however deep in
blocks and calls, is the last thing that happens there and surfaces as it should. -/
theorem failures_surface : s.Surfaces name type args m after where
  host hcall hfails := by
    obtain ⟨hlast, hfail⟩ := callsFail_of_halted hfunction htype hcode hfits hvisited
      (Machine.step_of_failure hcall hfails)
    refine ⟨hlast, fun e hfirst he => ?_, fun hothers => ?_⟩
    · exact (callsFail_of_onBehalf hfunction htype hcode hfits hvisited hcall hfails hfirst he).2
    · rwa [haltError, Failure.recover?_of_others hothers] at hfail
  trap hstep := callsFail_of_halted hfunction htype hcode hfits hvisited hstep
  abort hs {message messageLen file fileLen line below} hcallee := by
    have hcall : m.hostCall? s.linked = some (Loa.abort.call
        [.i32 message, .i32 messageLen, .i32 file, .i32 fileLen, .i32 line]) := by
      rw [Machine.hostCall?, hcallee]
      rfl
    have hthere : m.store.Attached :=
      Machine.attached_of_visited (m := .start index args s.store) hs m
        (hvisited ▸ List.mem_append_right _ List.mem_cons_self)
    have hrun := Loa.run_abort hthere message messageLen file fileLen line
    by_cases hmessage : m.store.heap.Has message messageLen
    · by_cases hfile : m.store.heap.Has file fileLen
      · rw [Heap.readBytes_of_has hmessage, Heap.readBytes_of_has hfile] at hrun
        obtain ⟨hlast, hfail⟩ := callsFail_of_onBehalf hfunction htype hcode hfits hvisited hcall
          hrun (.error _) (.abort _)
        exact ⟨hlast, fun _ _ => hfail, fun h => absurd hmessage h, fun _ h => absurd hfile h⟩
      · rw [Heap.readBytes_of_has hmessage, Heap.readBytes_of_not_has hfile] at hrun
        obtain ⟨hlast, hfail⟩ := callsFail_of_onBehalf hfunction htype hcode hfits hvisited hcall
          hrun (.error _) (.memoryAccess _ _)
        exact ⟨hlast, fun _ h => absurd h hfile, fun h => absurd hmessage h, fun _ _ => hfail⟩
    · rw [Heap.readBytes_of_not_has hmessage] at hrun
      obtain ⟨hlast, hfail⟩ := callsFail_of_onBehalf hfunction htype hcode hfits hvisited hcall
        hrun (.error _) (.memoryAccess _ _)
      exact ⟨hlast, fun h => absurd h hmessage, fun _ => hfail, fun h => absurd h hmessage⟩

end Surfacing

/-- A Spirit whose code ends its life two calls deep: a function calls another through a table from
inside a block, and the other one calls the host. -/
def doomed : Spirit where
  linked :=
    { source :=
        { types := [⟨[], []⟩, Loa.abort.type]
          imports := [⟨Loa.builtinName, "vudo_abort", .func 1⟩]
          functions := [0, 0]
          exports := [⟨"run", .func 1⟩] }
      functions := #[
        .host Loa.abort,
        .code ⟨[], []⟩ ⟨[], [.block .empty [.const (.i32 0), .callIndirect 0 0], .unreachable]⟩ 16,
        .code ⟨[], []⟩ ⟨[], [.const (.i32 0), .const (.i32 4), .const (.i32 4), .const (.i32 4),
          .const (.i32 7), .call 0]⟩ 16]
      memories := [0] }
  store :=
    let memory := (LinearMemory.create? 1 1).bind (·.write? 0 (Utf8.encode "boommain"))
    { Store.new (memory.getD .absent) 1024 false 0 0 with tables := [⟨1, fun _ => some 2⟩] }
  manager := 0
  budget := ⟨100, 100, fun _ _ _ => 16⟩

/-- The machines of the call that ends its life. -/
def doomedRun : List Machine :=
  Machine.visited doomed.linked doomed.budget doomed.budget.steps (.start 1 [] doomed.store)

-- Nine steps come before the host is called: a call, a block, an index and the call through the
-- table, then five operands.
theorem lt_length_doomedRun : 9 < doomedRun.length := by decide +kernel

/-- The machine that is about to call the host. -/
def doomedLast : Machine := doomedRun.get ⟨9, lt_length_doomedRun⟩

theorem failures_surface_doomed : ∃ before after,
    doomed.function "run" = .ok 1 ∧ doomed.source.functionType? 1 = some ⟨[], []⟩ ∧
      (∃ code frame, doomed.linked.functions[1]? = some (.code ⟨[], []⟩ code frame)) ∧
      doomedRun = before ++ doomedLast :: after ∧
      doomedLast.callee? doomed.linked = some (.host Loa.abort,
        [.i32 7, .i32 4, .i32 4, .i32 4, .i32 0]) ∧
      after = [] ∧
      doomed.CallsFail "run" ⟨[], []⟩ [] (.abort ⟨"boom", "main", 7⟩)
        { doomedLast.store with log := #[.abort ⟨"boom", "main", 7⟩] } := by
  have hvisited : doomedRun = doomedRun.take 9 ++ doomedLast :: doomedRun.drop 10 := by
    rw [doomedLast, List.get_eq_getElem, List.getElem_cons_drop, List.take_append_drop]
  have hcallee : doomedLast.callee? doomed.linked = some (.host Loa.abort,
      [.i32 7, .i32 4, .i32 4, .i32 4, .i32 0]) := rfl
  have hsurfaces : doomed.Surfaces "run" ⟨[], []⟩ [] doomedLast (doomedRun.drop 10) :=
    failures_surface rfl rfl rfl rfl hvisited
  obtain ⟨hlast, hfail, -⟩ := hsurfaces.abort ⟨0, rfl, Nat.zero_lt_one⟩ hcallee
  have hmessage : doomedLast.store.heap.lossyText 0 4 = "boom" := by decide +kernel
  have hfile : doomedLast.store.heap.lossyText 4 4 = "main" := by decide +kernel
  rw [hmessage, hfile] at hfail
  exact ⟨_, _, rfl, rfl, ⟨_, _, rfl⟩, hvisited, hcallee, hlast,
    hfail (show _ ≤ _ by decide +kernel) (show _ ≤ _ by decide +kernel)⟩

end Spirit

end SpiritHost
