import SpiritHost.Proofs.Spirit.Load

/-!
# The life of a Spirit's heap

What holds of the regions that a Spirit was ever issued, from the first Loa that was asked on its
behalf to the last operation of its holder (`HeapHistory`). The moments before the Spirit was loaded
are those on the host's memory; the memory of record is known from then on, so only the later ones
speak of memory. The allocator is the same all along.
-/

namespace SpiritHost

/-- A region lies at a multiple of the least power of two that is not below its alignment. -/
def Region.Aligned (r : Region) : Prop :=
  ∃ k, max r.align.toNat 1 ≤ 2 ^ k ∧ (∀ j, max r.align.toNat 1 ≤ 2 ^ j → 2 ^ k ≤ 2 ^ j) ∧
    2 ^ k ∣ r.address.toNat

/-- What holds of the moments of a heap that starts at a base: those before a Spirit was loaded with
its heap, and those since. -/
structure HeapHistory (base : UInt32) (early : List (Moment Heap)) (loaded : Heap)
    (late : List (Moment Heap)) (final : Heap) : Prop where
  /-- The moments before the load lead from a fresh allocator to that of the heap. -/
  begins : ending (.new base) (early.map (.map Heap.allocator)) = loaded.allocator
  /-- The moments since lead to the heap in the end. -/
  ends : ending loaded late = final
  /-- Regions of one generation are disjoint and lie in the order of their issue. -/
  disjoint : (early ++ late).Pairwise fun m n =>
    m.state.allocator.generation = n.state.allocator.generation →
      ∀ r ∈ m.event.region?, ∀ q ∈ n.event.region?,
        (∀ address, r.Contains address → ¬q.Contains address) ∧ r.finish ≤ q.address.toNat ∧
          (0 < r.size → r.address < q.address)
  /-- Every region lies above the base, where its alignment asks for. -/
  placed : ∀ m ∈ early ++ late, ∀ r ∈ m.event.region?, base ≤ r.address ∧ r.Aligned
  /-- A region lies inside the memory from its issue on. -/
  inside : ∀ before m after, late = before ++ m :: after →
    ∀ r ∈ m.event.region?, ∀ n ∈ m :: after, r.finish ≤ n.state.memory.size
  /-- The memory is a whole number of pages, at most the limit that it was made with. -/
  bounded : ∀ m ∈ late, Wasm.pageSize ∣ m.state.memory.size ∧
    m.state.memory.size ≤ loaded.memory.limit * Wasm.pageSize
  /-- The memory never shrinks. -/
  grows : (⟨.other, loaded⟩ :: late).Pairwise fun m n => m.state.memory.size ≤ n.state.memory.size
  /-- The cursor never falls between two resets. -/
  rises : (early ++ late).Pairwise fun m n =>
    m.state.allocator.generation = n.state.allocator.generation →
      m.state.allocator.cursor ≤ n.state.allocator.cursor
  /-- The generation is the number of resets so far. -/
  counts : ∀ before m after, early ++ late = before ++ m :: after →
    m.state.allocator.generation = (before ++ [m]).countP (·.isReset)

/-! ## Regions -/

theorem Region.aligned_of_dvd {r : Region} (h : 2 ^ Nat.clog 2 r.align.toNat ∣ r.address.toNat) :
    r.Aligned := by
  refine ⟨Nat.clog 2 r.align.toNat, ?_, fun j hj => ?_, h⟩
  · have hpos := Nat.two_pow_pos (Nat.clog 2 r.align.toNat)
    have hle := Nat.le_pow_clog (b := 2) (by decide) r.align.toNat
    omega
  · exact Nat.pow_le_pow_right (by decide) (Nat.clog_le_of_le_pow (by omega))

theorem Region.not_contains_of_le {r q : Region} (h : r.finish ≤ q.address.toNat) (address : Nat)
    (hr : r.Contains address) : ¬q.Contains address := by
  intro hq
  have := hr.2
  have := hq.1
  omega

theorem Region.lt_of_le {r q : Region} (h : r.finish ≤ q.address.toNat) (hsize : 0 < r.size) :
    r.address < q.address := by
  rw [UInt32.lt_iff_toNat_lt] at hsize ⊢
  have hzero : (0 : UInt32).toNat = 0 := rfl
  unfold finish at h
  omega

/-! ## From chains to histories -/

section

variable {base : UInt32} {early late : List (Moment Heap)} {memory : LinearMemory} {loaded final : Heap}

/-- The allocator that a heap with a fresh one comes to. -/
theorem ending_allocators (base : UInt32) (memory : LinearMemory) (ms : List (Moment Heap)) :
    ending (.new base) (ms.map (.map Heap.allocator)) =
      (ending ⟨memory, .new base⟩ ms).allocator :=
  ending_map Heap.allocator ⟨memory, .new base⟩ ms

/-- The allocator's moments before and after the load are one history. -/
theorem chained_allocators (hearly : Chained Heap.Moves ⟨memory, .new base⟩ early)
    (hsame : (ending ⟨memory, .new base⟩ early).allocator = loaded.allocator)
    (hlate : Chained Heap.Moves loaded late) :
    Chained Allocator.Moves (.new base) ((early ++ late).map (.map Heap.allocator)) := by
  rw [List.map_append, chained_append]
  refine ⟨Heap.chained_allocator hearly, ?_⟩
  rw [ending_allocators base memory, hsame]
  exact Heap.chained_allocator hlate

/-- **Histories.** Moments that chain up before the load and after it, on one allocator, make a
history of the heap. -/
theorem HeapHistory.of_chained (hearly : Chained Heap.Moves ⟨memory, .new base⟩ early)
    (hsame : (ending ⟨memory, .new base⟩ early).allocator = loaded.allocator)
    (hlate : Chained Heap.Moves loaded late) (hfinal : ending loaded late = final) :
    HeapHistory base early loaded late final := by
  have hall := chained_allocators hearly hsame hlate
  refine ⟨?_, hfinal, ?_, ?_, ?_, ?_, ?_, ?_, ?_⟩
  · rw [ending_allocators base memory, hsame]
  · refine (List.pairwise_map.1 (Allocator.pairwise_regions hall)).imp fun hmn hgen r hr q hq => ?_
    have hle := hmn hgen r hr q hq
    exact ⟨Region.not_contains_of_le hle, hle, Region.lt_of_le hle⟩
  · intro m hm r hr
    obtain ⟨hbase, hdvd⟩ := Allocator.issued_of_chained (Allocator.sound_new base) hall
      (m.map Heap.allocator) (List.mem_map_of_mem hm) r hr
    exact ⟨hbase, Region.aligned_of_dvd hdvd⟩
  · rintro before m after rfl r hr n hn
    obtain ⟨-, hmove, hafter⟩ := chained_append.1 hlate
    have hinside := hmove.inside r hr
    rcases List.mem_cons.1 hn with rfl | hn
    · exact hinside
    · exact Nat.le_trans hinside (Heap.extends_of_chained hafter n hn).size_le
  · intro m hm
    refine ⟨Nat.dvd_mul_left _ _, ?_⟩
    rw [← (Heap.extends_of_chained hlate m hm).limit]
    exact m.state.memory.size_le_limit
  · refine .cons (fun m hm => ?_) ?_
    · exact (Heap.extends_of_chained hlate m hm).size_le
    · exact (Heap.pairwise_extends hlate).imp fun hmn => hmn.size_le
  · exact (List.pairwise_map.1 (Allocator.pairwise_precedes hall)).imp
      fun hmn hgen => hmn.cursor hgen.symm
  · intro before m after hsplit
    rw [hsplit, List.map_append, List.map_cons] at hall
    have hcount := Allocator.generation_of_chained hall
    rw [← List.map_singleton, ← List.map_append, List.countP_map] at hcount
    exact hcount.trans (Nat.zero_add _)

end

/-! ## Spirits -/

/-- **The life of a heap.** Whatever a Spirit was loaded from and whatever is then done with it, in
any order and whether it succeeds, its regions are apart, aligned and inside its memory. -/
theorem Loader.heapHistory_of_load {l : Loader} {bytes : Bytes} {o : LoadOptions} {s : Spirit}
    (hload : (l.load bytes o).result = .ok s) (operations : List Operation) :
    ∃ st : l.Stages bytes o, st.spirit = s ∧
      HeapHistory o.heapBase st.history s.heap (s.historyAll operations)
        (s.performAll operations).heap := by
  obtain ⟨st, rfl⟩ := load_eq_ok.1 hload
  obtain ⟨hearly, hend⟩ := st.chained
  have hlate := Spirit.performAll_reaches operations st.served
  have hsame : (ending ⟨st.memory, .new o.heapBase⟩ st.history).allocator =
      st.spirit.heap.allocator := by
    rw [hend, st.allocator_spirit]
    rfl
  refine ⟨st, rfl, .of_chained hearly hsame hlate.chained ?_⟩
  rw [Spirit.heap, Spirit.heap, (Spirit.same_performAll operations st.spirit).manager]
  exact hlate.ending

/-- Allocations on both sides of a call that allocates, and after a reset. -/
def allocations : List Operation :=
  [.alloc 3, .call "f" [], .alloc 0, .reset, .allocAligned 5 17]

theorem heapHistory_allocations : ∃ s, (shortLoader.load allocatingModule {}).result = .ok s ∧
    ∃ st : shortLoader.Stages allocatingModule {}, st.spirit = s ∧
      HeapHistory 1024 st.history s.heap (s.historyAll allocations)
        (s.performAll allocations).heap := by
  have hload : (shortLoader.load allocatingModule {}).result.isOk = true := by decide +kernel
  obtain ⟨s, hs⟩ := Except.isOk_iff.1 hload
  exact ⟨s, hs, Loader.heapHistory_of_load hs allocations⟩

example : ((shortLoader.load allocatingModule {}).result.toOption.map fun s =>
    (s.historyAll allocations).filterMap (·.event.region?)) =
      some [⟨1024, 3, 8⟩, ⟨1032, 5, 8⟩, ⟨1040, 0, 8⟩, ⟨1024, 5, 17⟩] := by
  decide +kernel

end SpiritHost
