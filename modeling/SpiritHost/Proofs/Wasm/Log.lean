import SpiritHost.Proofs.Loa.Log
import SpiritHost.Proofs.Wasm.History

/-!
# The log of running code

Code has no log of its own: lines come from the host functions that it calls, and they are only ever
added.
-/

namespace SpiritHost

namespace Store

/-- The log has lines added to it. -/
def Logs (s t : Store) : Prop := ∃ lines, t.log.toList = s.log.toList ++ lines

variable {s t u : Store}

theorem Logs.refl (s : Store) : s.Logs s := ⟨[], by simp⟩

theorem Logs.trans (hst : s.Logs t) (htu : t.Logs u) : s.Logs u := by
  obtain ⟨xs, hxs⟩ := hst
  obtain ⟨ys, hys⟩ := htu
  exact ⟨xs ++ ys, by rw [hys, hxs, List.append_assoc]⟩

theorem Evolves.logs (h : s.Evolves t) : s.Logs t := by
  unfold Logs
  rw [h.log]
  exact Logs.refl s

end Store

theorem HostCall.logs {α : Type} (c : HostCall α) (s : Store) : s.Logs (c.run s).2 := by
  have hrun := c.run_withLog s s.log
  rw [Store.withLog_self] at hrun
  rw [hrun]
  exact ⟨(c.run (s.withLog #[])).2.log.toList, Array.toList_append⟩

namespace Wasm

namespace Machine

variable (inst : Instance) (budget : Budget)

theorem step_logs (m : Machine) : m.store.Logs (m.step inst budget).store := by
  rcases m.store_step inst budget with ⟨call, -, hstore⟩ | ⟨-, hevolves⟩
  · rw [hstore]
    exact call.logs m.store
  · exact hevolves.logs

/-- **Runs.** Running code only adds to the log. -/
theorem run_logs : ∀ (steps : Nat) (m : Machine), m.store.Logs (run inst budget steps m).store
  | 0, m => .refl m.store
  | steps + 1, m => by
    have hstep := step_logs inst budget m
    rw [run]
    cases hnext : m.step inst budget with
    | running next =>
      rw [hnext] at hstep
      exact hstep.trans (run_logs steps next)
    | finished results store =>
      rw [hnext] at hstep
      exact hstep
    | halted halt store =>
      rw [hnext] at hstep
      exact hstep

end Machine

end Wasm

end SpiritHost
