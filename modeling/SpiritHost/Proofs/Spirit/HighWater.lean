import SpiritHost.Loa.Declared
import SpiritHost.Proofs.Spirit.Record

/-!
# Regions issued during a load

Until a Spirit is loaded its regions are issued in the host's memory, and that memory is grown for
them. A Spirit that is served from the host's memory therefore has all of them in its memory. One that
brings its own memory does not: the allocator goes on from where it was, in a memory that was never
grown for what is below the cursor (`not_issued_inside`).
-/

namespace SpiritHost

namespace Heap

variable {h : Heap} {ms : List (Moment Heap)}

/-- No page is lost from a moment to the end of its history. -/
theorem extends_of_mem : ∀ {h : Heap} {ms : List (Moment Heap)}, Chained Moves h ms →
    ∀ m ∈ ms, m.state.memory.Extends (ending h ms).memory
  | _, _ :: _, hms, m, hm => by
    rcases List.mem_cons.1 hm with rfl | hm
    · exact extends_ending hms.2
    · exact extends_of_mem hms.2 m hm

/-- Every region issued in a history lies inside the memory in the end. -/
theorem inside_ending (hms : Chained Moves h ms) :
    ∀ m ∈ ms, ∀ r ∈ m.event.region?, r.finish ≤ (ending h ms).memory.size := by
  intro m hm r hr
  exact Nat.le_trans (inside_of_chained hms m hm r hr) (extends_of_mem hms m hm).size_le

end Heap

namespace Loader

variable {l : Loader} {bytes : Bytes} {o : LoadOptions} {s : Spirit}

/-- **Regions of a load.** Every region issued up to the end of a load lies inside the host's memory,
and so inside the Spirit's if the module brings no memory of its own. -/
theorem issued_inside (hload : (l.load bytes o).result = .ok s) :
    ∃ st : l.Stages bytes o, st.spirit = s ∧
      ∀ m ∈ st.history, ∀ r ∈ m.event.region?,
        r.finish ≤ (s.store.memory hostMemory).size ∧
          (Serves s.source hostMemory → r.finish ≤ s.heap.memory.size) := by
  obtain ⟨st, rfl⟩ := load_eq_ok.1 hload
  refine ⟨st, rfl, fun m hm r hr => ?_⟩
  obtain ⟨hchained, hending⟩ := st.chained
  have hinside := Heap.inside_ending hchained m hm r hr
  have hhost : r.finish ≤ (st.spirit.store.memory hostMemory).size := by
    rw [hending, Store.heap, st.record_started] at hinside
    rw [st.memory_spirit]
    exact hinside
  refine ⟨hhost, fun hserves => ?_⟩
  rw [st.source_spirit] at hserves
  have hmanager : st.spirit.manager = hostMemory := st.serves.unique hserves
  rw [Spirit.heap, hmanager]
  exact hhost

/-- A Loa that allocates a region of more than a page while it is asked for its functions. -/
def arena : Loa :=
  ({ name := "arena", functions := [("arena_base", .preallocated 70000)] } : LoaDeclaration).toLoa

/-- Options that add it. -/
def withArena : LoadOptions := { memory := ⟨1, 2⟩, imports := [arena] }

theorem issued_inside_arena : ∃ s, (shortLoader.load allocatingModule withArena).result = .ok s ∧
    ∃ st : shortLoader.Stages allocatingModule withArena, st.spirit = s ∧
      ∀ m ∈ st.history, ∀ r ∈ m.event.region?,
        r.finish ≤ (s.store.memory hostMemory).size ∧
          (Serves s.source hostMemory → r.finish ≤ s.heap.memory.size) := by
  have hload : (shortLoader.load allocatingModule withArena).result.isOk = true := by
    decide +kernel
  obtain ⟨s, hs⟩ := Except.isOk_iff.1 hload
  exact ⟨s, hs, issued_inside hs⟩

/-- A module that exports a memory of its own, of one page. -/
def ownMemoryModule : Bytes := [
  0x00, 0x61, 0x73, 0x6d, 0x01, 0x00, 0x00, 0x00,
  0x05, 0x03, 0x01, 0x00, 0x01,
  0x07, 0x0a, 0x01, 0x06, 0x6d, 0x65, 0x6d, 0x6f, 0x72, 0x79, 0x02, 0x00]

/-- The moment at which the Loa has its region. -/
theorem exists_moment_arena (st : shortLoader.Stages ownMemoryModule withArena) :
    ∃ m ∈ st.history, m.event = .issued ⟨1024, 70000, 8⟩ := by
  have hasked : ∀ memory, LinearMemory.create? 1 2 = some memory →
      ((Linking.history (shortLoader.loas withArena)
        ⟨shortLoader.freshStore withArena memory, []⟩).any
          fun m => m.event = .issued ⟨1024, 70000, 8⟩) = true := by
    intro memory h
    cases h
    decide +kernel
  obtain ⟨m, hm, hevent⟩ := List.any_eq_true.1 (hasked st.memory (memory_eq_ok.1 st.created))
  exact ⟨m, List.mem_append_left _ hm, of_decide_eq_true hevent⟩

/-- With a memory of its own, a Spirit may have been issued regions that lie outside its memory. -/
theorem not_issued_inside : ∃ s, (shortLoader.load ownMemoryModule withArena).result = .ok s ∧
    ∃ st : shortLoader.Stages ownMemoryModule withArena, st.spirit = s ∧
      ∃ m ∈ st.history, ∃ r ∈ m.event.region?, s.heap.memory.size < r.finish := by
  have hload : ((shortLoader.load ownMemoryModule withArena).result.toOption.map
      (·.heap.memory.size)) = some 65536 := by decide +kernel
  cases hresult : (shortLoader.load ownMemoryModule withArena).result with
  | error e =>
    rw [hresult] at hload
    cases hload
  | ok s =>
    rw [hresult] at hload
    have hsize : s.heap.memory.size = 65536 := Option.some.inj hload
    obtain ⟨st, hst⟩ := load_eq_ok.1 hresult
    obtain ⟨m, hm, hevent⟩ := exists_moment_arena st
    refine ⟨s, rfl, st, hst, m, hm, ⟨1024, 70000, 8⟩, ?_, ?_⟩
    · rw [hevent]
      rfl
    · rw [hsize]
      decide

end Loader

end SpiritHost
