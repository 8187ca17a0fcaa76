import SpiritHost.Proofs.Loa.History
import SpiritHost.Wasm.Machine

/-!
# Histories of running code

One step of a machine calls a host function or not. If it does, its moments are those of the call;
if not, bytes change or pages are added at most (`Store.Evolves`). `Machine.run_reaches` puts the
steps of a run together, however it ends.
-/

namespace SpiritHost

/-- What code does to a store by itself: it writes to memories and grows them. -/
structure Store.Evolves (s t : Store) : Prop where
  record? : t.record? = s.record?
  allocator : t.allocator = s.allocator
  length : t.memories.length = s.memories.length
  log : t.log = s.log
  held : t.held = s.held
  replaced : t.replaced = s.replaced
  memory : ∀ address, (s.memory address).Extends (t.memory address)

namespace Store

variable {s t u : Store}

theorem Evolves.refl (s : Store) : s.Evolves s := ⟨rfl, rfl, rfl, rfl, rfl, rfl, fun _ => .refl _⟩

theorem Evolves.trans (hst : s.Evolves t) (htu : t.Evolves u) : s.Evolves u :=
  ⟨htu.record?.trans hst.record?, htu.allocator.trans hst.allocator, htu.length.trans hst.length,
    htu.log.trans hst.log, htu.held.trans hst.held, htu.replaced.trans hst.replaced,
    fun address => (hst.memory address).trans (htu.memory address)⟩

theorem Evolves.setMemory {address : Nat} {m : LinearMemory} (h : (s.memory address).Extends m) :
    s.Evolves (s.setMemory address m) := by
  refine ⟨rfl, rfl, by simp [Store.setMemory], rfl, rfl, rfl, fun other => ?_⟩
  simp only [Store.setMemory, Store.memory, List.getD_eq_getElem?_getD, List.getElem?_set] at h ⊢
  by_cases hsame : address = other
  · subst hsame
    by_cases hlt : address < s.memories.length
    · simpa [hlt] using h
    · simpa [hlt] using LinearMemory.Extends.refl LinearMemory.absent
  · simpa [hsame] using LinearMemory.Extends.refl _

theorem Evolves.reaches (h : s.Evolves t) : s.Reaches [⟨.other, t.heap⟩] t := by
  rw [heap, record_congr h.record?]
  exact .move h.record? h.length (Heap.moves_of_memory (h.memory s.record) h.allocator)

end Store

namespace Wasm

/-- The store that a step leaves. -/
def Step.store : Step → Store
  | running m => m.store
  | finished _ store => store
  | halted _ store => store

namespace Machine

variable (m : Machine) (inst : Instance) (budget : Budget)

/-! ## The host call of a step -/

/-- The function that the next step calls, with the operands it takes its arguments from. -/
def callee? : Option (Callee × List Value) :=
  match m.code, m.operands with
  | .call f :: _, operands => inst.functions[f]?.map (·, operands)
  | .callIndirect table type :: _, .i32 i :: operands =>
    match m.store.tables[table]?, inst.source.types[type]? with
    | some t, some expected =>
      if t.size ≤ i.toNat then none
      else match t.function? i.toNat with
        | none => none
        | some f => match inst.functions[f]? with
          | some callee => if callee.type = expected then some (callee, operands) else none
          | none => none
    | _, _ => none
  | _, _ => none

/-- The call of a host function that the next step makes. -/
def hostCall? : Option (HostCall (List Value)) :=
  match m.callee? inst with
  | some (.host function, operands) =>
    some (function.call (operands.take function.type.params.length).reverse)
  | _ => none

/-- The moments of one step. -/
def stepHistory : List (Moment Heap) :=
  match m.hostCall? inst with
  | some call => call.history m.store
  | none => [⟨.other, (m.step inst budget).store.heap⟩]

/-! ## Steps that stay in the module -/

@[simp] theorem store_unwind : ∀ contexts : List Context, (m.unwind contexts).store = m.store
  | [] => rfl
  | .label .. :: outer => store_unwind outer
  | .frame .. :: _ => rfl

@[simp] theorem store_branch :
    ∀ (n : Nat) (contexts : List Context), (m.branch n contexts).store = m.store
  | 0, [] | _ + 1, [] => rfl
  | 0, .label .. :: _ => rfl
  | 0, .frame .. :: _ => store_unwind m m.contexts
  | n + 1, .label .. :: outer => store_branch n outer
  | _ + 1, .frame .. :: _ => rfl

@[simp] theorem store_leave : m.leave.store = m.store := by
  unfold leave
  split
  · rfl
  · rfl
  · exact store_unwind m m.contexts

@[simp] theorem store_result (rest : List Instr) (operands : List Value)
    (r : Option (Except Trap Value)) : (m.result rest operands r).store = m.store := by
  unfold result
  split <;> rfl

theorem evolves_storeBytes (arg : MemArg) (base : UInt32) (bytes : Bytes) (rest : List Instr)
    (operands : List Value) :
    m.store.Evolves (m.storeBytes inst arg base bytes rest operands).store := by
  unfold storeBytes
  split
  · exact .refl _
  · split
    · exact .refl _
    · rename_i hwrite
      exact .setMemory (LinearMemory.extends_of_write? hwrite)

/-- Calling a function of the module leaves the store alone; calling the host's runs its call. -/
theorem store_invoke (callee : Callee) (rest : List Instr) (operands : List Value) :
    (m.invoke budget callee rest operands).store =
      match callee with
      | .host function =>
        ((function.call (operands.take function.type.params.length).reverse).run m.store).2
      | .code .. => m.store := by
  unfold invoke
  cases callee with
  | host function =>
    simp only [Callee.type]
    split <;> rename_i hrun <;> rw [hrun] <;> rfl
  | code type code size =>
    dsimp only
    split <;> rfl

/-- A step that calls a function is that call. -/
theorem step_of_callee {callee : Callee} {operands : List Value}
    (h : m.callee? inst = some (callee, operands)) :
    m.step inst budget = m.invoke budget callee m.code.tail operands := by
  unfold callee? at h
  split at h
  · rename_i f rest hcode
    obtain ⟨found, hfound, hpair⟩ := Option.map_eq_some_iff.1 h
    cases hpair
    simp [step, hcode, instr, hfound]
  · rename_i table type rest i operands' hcode hoperands
    split at h
    · rename_i t expected htable htype
      split at h
      · cases h
      · rename_i hsize
        split at h
        · cases h
        · rename_i f hplace
          split at h
          · rename_i found hfound
            split at h
            · rename_i hsame
              cases h
              simp [step, hcode, hoperands, instr, htable, htype, hsize, hplace, hfound, hsame]
            · cases h
          · cases h
    · cases h
  · cases h

/-- A step that calls no function writes to memories and grows them at most. -/
theorem evolves_instr {rest : List Instr} {i : Instr} (hcode : m.code = i :: rest)
    (h : m.callee? inst = none) :
    m.store.Evolves (m.instr inst budget rest i m.operands).store := by
  generalize hoperands : m.operands = operands
  fun_cases m.instr inst budget rest i operands
  -- What an instruction does to the stack does not matter here.
  all_goals first
    | exact .refl _
    | exact evolves_storeBytes ..
    | rw [store_branch]; exact .refl _
    | rw [store_unwind]; exact .refl _
    | rw [store_result]; exact .refl _
    | skip
  · rename_i hfound
    simp [callee?, hcode, hfound] at h
  · rename_i htable hsize f hplace found hfound htype
    simp [callee?, hcode, hoperands, htable, htype, hsize, hplace, hfound] at h
  · exact ⟨rfl, rfl, rfl, rfl, rfl, rfl, fun _ => .refl _⟩
  · rename_i hgrow
    exact .setMemory (LinearMemory.extends_of_grow? hgrow)

theorem evolves_step (h : m.callee? inst = none) : m.store.Evolves (m.step inst budget).store := by
  unfold step
  split
  · rw [store_leave]; exact .refl _
  · rename_i hcode
    exact m.evolves_instr inst budget hcode h

/-- **One step.** It makes one call of a host function, or none and then writes to memories and grows
them at most. -/
theorem store_step :
    (∃ call, m.hostCall? inst = some call ∧ (m.step inst budget).store = (call.run m.store).2) ∨
      m.hostCall? inst = none ∧ m.store.Evolves (m.step inst budget).store := by
  unfold hostCall?
  cases hcallee : m.callee? inst with
  | none => exact .inr ⟨rfl, m.evolves_step inst budget hcallee⟩
  | some called =>
    obtain ⟨callee, operands⟩ := called
    rw [m.step_of_callee inst budget hcallee, store_invoke]
    cases callee with
    | host function => exact .inl ⟨_, rfl, rfl⟩
    | code type code size => exact .inr ⟨rfl, .refl m.store⟩

/-- The moments of a step lead from the store before it to the store after. -/
theorem step_reaches (hs : m.store.Attached) :
    m.store.Reaches (m.stepHistory inst budget) (m.step inst budget).store := by
  unfold stepHistory
  rcases m.store_step inst budget with ⟨call, hcall, hstore⟩ | ⟨hcall, hevolves⟩
  · rw [hcall, hstore]
    exact call.reaches hs
  · rw [hcall]
    exact hevolves.reaches

/-- The moments of at most so many steps. -/
def runHistory : Nat → Machine → List (Moment Heap)
  | 0, _ => []
  | steps + 1, m =>
    m.stepHistory inst budget ++
      match m.step inst budget with
      | .running next => runHistory steps next
      | _ => []

/-- **Runs.** The moments of a run lead from the store before it to the store in the end, whether the
code finishes, is halted or runs out of steps. -/
theorem run_reaches : ∀ (steps : Nat) {m : Machine}, m.store.Attached →
    m.store.Reaches (runHistory inst budget steps m) (run inst budget steps m).store
  | 0, m, _ => .refl m.store
  | steps + 1, m, hs => by
    have hstep := m.step_reaches inst budget hs
    rw [runHistory, run]
    cases hnext : m.step inst budget with
    | running next =>
      rw [hnext] at hstep
      exact hstep.trans (run_reaches steps (hstep.attached hs))
    | finished results store =>
      rw [hnext] at hstep
      exact hstep.trans (.refl store)
    | halted halt store =>
      rw [hnext] at hstep
      exact hstep.trans (.refl store)

end Machine

end Wasm

end SpiritHost
