import SpiritHost.Proofs.Wasm.History

/-!
# The machines of a run

The machines that a run steps from (`visited`), and how a run ends early. Nothing catches a halt:
the step it comes from is the last one, however many blocks and calls are under way.
-/

namespace SpiritHost.Wasm.Machine

variable (inst : Instance) (budget : Budget)

/-- The machines that a run steps from, in order. -/
def visited : Nat → Machine → List Machine
  | 0, _ => []
  | steps + 1, m =>
    m :: match m.step inst budget with
      | .running next => visited steps next
      | _ => []

variable {inst budget} {m x : Machine} {halt : Halt} {store : Store}

/-- The memory of record stays in a run, if there is one. -/
theorem attached_of_visited : ∀ {steps : Nat} {m : Machine}, m.store.Attached →
    ∀ x ∈ visited inst budget steps m, x.store.Attached
  | 0, _, _, x, hx => by cases hx
  | steps + 1, m, hs, x, hx => by
    have hstep := (m.step_reaches inst budget hs).attached hs
    rcases List.mem_cons.1 hx with rfl | hx
    · exact hs
    · cases hnext : m.step inst budget with
      | running next =>
        rw [hnext] at hstep hx
        exact attached_of_visited hstep x hx
      | finished | halted =>
        rw [hnext] at hx
        cases hx

/-- **Halting.** A step that halts is the last, and the run ends with its halt. -/
theorem run_of_halted (hhalt : x.step inst budget = .halted halt store) :
    ∀ {steps : Nat} {m : Machine} {before after : List Machine},
      visited inst budget steps m = before ++ x :: after →
        after = [] ∧ run inst budget steps m = .halted halt store
  | 0, _, before, after, hvisited => by
    cases before <;> cases hvisited
  | steps + 1, m, [], after, hvisited => by
    obtain ⟨rfl, hrest⟩ := List.cons.inj hvisited
    rw [hhalt] at hrest
    rw [run, hhalt]
    exact ⟨hrest.symm, rfl⟩
  | steps + 1, m, b :: before, after, hvisited => by
    obtain ⟨rfl, hrest⟩ := List.cons.inj hvisited
    rw [run]
    cases hstep : m.step inst budget with
    | running next =>
      rw [hstep] at hrest
      exact run_of_halted hhalt hrest
    | finished results store =>
      rw [hstep] at hrest
      cases before <;> cases hrest
    | halted halt store =>
      rw [hstep] at hrest
      cases before <;> cases hrest

/-- A host call that fails halts the machine that makes it. -/
theorem step_of_failure {call : HostCall (List Value)} {failure : Failure}
    (hcall : m.hostCall? inst = some call) (hfails : call.run m.store = (.error failure, store)) :
    m.step inst budget = .halted (.host failure) store := by
  unfold hostCall? at hcall
  split at hcall
  · rename_i function operands hcallee
    cases hcall
    rw [m.step_of_callee inst budget hcallee, invoke]
    simp only [Callee.type, hfails]
  · cases hcall

end SpiritHost.Wasm.Machine
