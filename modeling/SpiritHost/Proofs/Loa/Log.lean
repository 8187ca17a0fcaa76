import SpiritHost.Spirit.Store

/-!
# The log of a host call

A host call adds lines to the log and never reads it: whatever lines were there before, it does the
same and leaves its own lines behind them.
-/

namespace SpiritHost

namespace Store

/-- The store with its log replaced. -/
def withLog (s : Store) (lines : Array LogLine) : Store := { s with log := lines }

variable (s : Store) (lines : Array LogLine)

@[simp] theorem withLog_withLog (more : Array LogLine) :
    (s.withLog lines).withLog more = s.withLog more := rfl

@[simp] theorem log_withLog : (s.withLog lines).log = lines := rfl

theorem withLog_self : s.withLog s.log = s := rfl

theorem onHeap_withLog {α : Type} (request : Heap → Except Error (α × Heap)) :
    (s.withLog lines).onHeap request =
      ((s.onHeap request).1, (s.onHeap request).2.withLog lines) := by
  have haddress : (s.withLog lines).recordAddress = s.recordAddress := rfl
  have hheap : ∀ address, (s.withLog lines).heapAt address = s.heapAt address := fun _ => rfl
  rw [onHeap, onHeap, haddress]
  cases s.recordAddress with
  | error e => rfl
  | ok address =>
    dsimp only
    rw [hheap]
    cases request (s.heapAt address) <;> rfl

theorem plant_withLog (kind : String) :
    (s.withLog lines).plant kind = (s.plant kind).withLog lines := by
  unfold plant
  rw [withLog]
  split <;> rfl

end Store

namespace HostCall

variable {α : Type}

/-- What a host call does to a store without a log, with other lines put in front of its own. -/
def runBehind (c : HostCall α) (s : Store) (lines : Array LogLine) : Except Failure α × Store :=
  let (result, t) := c.run (s.withLog #[])
  (result, t.withLog (lines ++ t.log))

/-- **Logs.** A host call does not see the lines that are there before it. -/
theorem run_withLog (c : HostCall α) : ∀ (s : Store) (lines : Array LogLine),
    c.run (s.withLog lines) = c.runBehind s lines := by
  induction c with
  | done | fail =>
    intro s lines
    simp [run, runBehind]
  | alloc size align next ih =>
    intro s lines
    simp only [run, runBehind, Store.onHeap_withLog]
    exact ih _ _ lines
  | readBytes address len next ih => exact fun s lines => ih _ s lines
  | writeBytes address bytes next ih =>
    intro s lines
    simp only [run, runBehind, Store.onHeap_withLog]
    exact ih _ _ lines
  | encodeString text next ih =>
    intro s lines
    simp only [run, runBehind, Store.onHeap_withLog]
    exact ih _ _ lines
  | decodeString address next ih => exact fun s lines => ih _ s lines
  | reset next ih =>
    intro s lines
    simp only [run, runBehind, Store.onHeap_withLog]
    exact ih _ _ lines
  | inspect next ih => exact fun s lines => ih _ s lines
  | getState next ih => exact fun s lines => ih _ s lines
  | setState state next ih => exact fun s lines => ih { s with loaState := state } lines
  | plant kind next ih =>
    intro s lines
    simp only [run, runBehind, Store.plant_withLog]
    exact ih _ lines
  | debugFlag next ih => exact fun s lines => ih _ s lines
  | now next ih => exact fun s lines => ih _ s lines
  | random next ih =>
    exact fun s lines => ih _ { s with entropy := Store.advance s.entropy } lines
  | log line next ih =>
    intro s lines
    have hpush : lines.push line = lines ++ #[line] := Array.push_eq_append
    calc (log line next).run (s.withLog lines)
        = next.runBehind s (lines.push line) := ih s (lines.push line)
      _ = (log line next).runBehind s lines := by
        have hline : (log line next).run (s.withLog #[]) = next.runBehind s #[line] := ih s #[line]
        rw [runBehind, runBehind, hline, runBehind, hpush]
        simp

end HostCall

end SpiritHost
