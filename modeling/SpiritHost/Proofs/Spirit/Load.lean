import SpiritHost.Proofs.Spirit.Operation
import SpiritHost.Spirit.Loader

/-!
# Stages of a load

A load that succeeds goes through all of its stages (`Loader.Stages`), and the Spirit is what the
last of them left (`Loader.load_eq_ok`). The moments of a load are those of the Loas that were asked,
the filling of the memories, and those of the start function.
-/

namespace SpiritHost

open Wasm (Instance Machine Module)

namespace Loader

/-- The stages of a load that succeeds. -/
structure Stages (l : Loader) (bytes : Bytes) (o : LoadOptions) where
  source : Module
  memory : LinearMemory
  linking : Linking
  inst : Instance
  filled : Store
  started : Store
  compiled : compile bytes = .ok source
  created : Loader.memory o.memory = .ok memory
  merged : Linking.mergeAll (l.loas o) ⟨l.freshStore o memory, []⟩ = (.ok (), linking)
  linked : link l.budget source linking = .ok (inst, filled)
  ran : start l.budget inst filled = (.ok (), started)

variable {l : Loader} {bytes : Bytes} {o : LoadOptions} {s : Spirit}

/-- The Spirit in the end. -/
def Stages.spirit (st : Stages l bytes o) : Spirit :=
  let spirit := serve l.budget st.inst st.started
  { spirit with store := { spirit.store with log := #[], replaced := 0 } }

theorem Stages.linked_spirit (st : Stages l bytes o) : st.spirit.linked = st.inst := by
  unfold spirit serve
  split <;> rfl

theorem Stages.budget_spirit (st : Stages l bytes o) : st.spirit.budget = l.budget := by
  unfold spirit serve
  split <;> rfl

theorem load_of_stages (st : Stages l bytes o) :
    l.load bytes o =
      { result := .ok st.spirit
        state := ()
        log := st.started.log.toList
        destroyed := st.started.replaced } := by
  unfold load
  rw [st.compiled]
  dsimp only
  rw [st.created]
  dsimp only
  rw [st.merged]
  dsimp only
  rw [st.linked]
  dsimp only
  rw [st.ran]
  have hlog : (serve l.budget st.inst st.started).store.log = st.started.log := by
    unfold serve
    split <;> rfl
  have hreplaced : (serve l.budget st.inst st.started).store.replaced = st.started.replaced := by
    unfold serve
    split <;> rfl
  dsimp only [Spirit.settle]
  rw [hlog, hreplaced]
  rfl

/-- **Stages.** A load succeeds exactly if every stage does. -/
theorem load_eq_ok : (l.load bytes o).result = .ok s ↔ ∃ st : Stages l bytes o, st.spirit = s := by
  constructor
  · intro h
    unfold load at h
    split at h
    · cases h
    rename_i m hcompile
    split at h
    · cases h
    rename_i memory hmemory
    split at h
    · cases h
    rename_i linking hmerge
    split at h
    · cases h
    rename_i inst filled hlink
    split at h
    · cases h
    rename_i started hstart
    cases h
    exact ⟨⟨m, memory, linking, inst, filled, started, hcompile, hmemory, hmerge, hlink, hstart⟩,
      rfl⟩
  · rintro ⟨st, rfl⟩
    rw [load_of_stages st]

/-! ## Panics -/

theorem memory_of_lt {m : MemoryOptions} (h : m.maximum < m.initial) :
    Loader.memory m = .error (.load (.initialExceedsMaximum m.initial m.maximum)) := if_pos h

theorem memory_of_large {m : MemoryOptions} (hle : m.initial ≤ m.maximum)
    (hlarge : Wasm.maxPages < m.maximum.toNat) :
    Loader.memory m = .error (.panic (.memoryType m.maximum)) := by
  have hcreate : LinearMemory.create? m.initial.toNat m.maximum.toNat = none :=
    dif_neg fun h => Nat.not_lt.2 h.2 hlarge
  rw [Loader.memory, if_neg (UInt32.not_lt.2 hle), hcreate]

/-- The memory of options, if its bounds are in order and there is such a memory. -/
theorem memory_eq_ok {m : MemoryOptions} {memory : LinearMemory} : Loader.memory m = .ok memory ↔
    LinearMemory.create? m.initial.toNat m.maximum.toNat = some memory := by
  unfold Loader.memory
  by_cases hlt : m.maximum < m.initial
  · have hcreate : LinearMemory.create? m.initial.toNat m.maximum.toNat = none := by
      rw [UInt32.lt_iff_toNat_lt] at hlt
      exact dif_neg fun h => Nat.lt_irrefl _ (Nat.lt_of_lt_of_le hlt h.1)
    rw [if_pos hlt, hcreate]
    exact ⟨nofun, nofun⟩
  · rw [if_neg hlt]
    cases LinearMemory.create? m.initial.toNat m.maximum.toNat with
    | none => exact ⟨nofun, nofun⟩
    | some made => simp

theorem memory_eq_panic_iff {m : MemoryOptions} {cause : Panic} :
    Loader.memory m = .error (.panic cause) ↔ m.initial ≤ m.maximum ∧
      Wasm.maxPages < m.maximum.toNat ∧ cause = .memoryType m.maximum := by
  constructor
  · intro h
    by_cases hlt : m.maximum < m.initial
    · cases (memory_of_lt hlt).symm.trans h
    have hle := UInt32.not_lt.1 hlt
    rcases Nat.lt_or_ge Wasm.maxPages m.maximum.toNat with hlarge | hfits
    · cases (memory_of_large hle hlarge).symm.trans h
      exact ⟨hle, hlarge, rfl⟩
    · cases (memory_eq_ok.2 (dif_pos ⟨UInt32.le_iff_toNat_le.1 hle, hfits⟩)).symm.trans h
  · rintro ⟨hle, hlarge, rfl⟩
    exact memory_of_large hle hlarge

/-- **Panics.** A load panics exactly if the bytes encode a module and the memory for it may grow
beyond the address space. -/
theorem load_eq_panic_iff {cause : Panic} : (l.load bytes o).result = .error (.panic cause) ↔
    (∃ m, compile bytes = .ok m) ∧ o.memory.initial ≤ o.memory.maximum ∧
      Wasm.maxPages < o.memory.maximum.toNat ∧ cause = .memoryType o.memory.maximum := by
  rw [← memory_eq_panic_iff]
  constructor
  · intro h
    unfold load at h
    split at h
    · cases h
    rename_i m hcompile
    split at h
    · rename_i e hmemory
      cases h
      exact ⟨⟨m, hcompile⟩, hmemory⟩
    -- What fails from here on fails with an error.
    · repeat (split at h; · cases h)
      cases h
  · rintro ⟨⟨m, hcompile⟩, hmemory⟩
    unfold load
    rw [hcompile]
    dsimp only
    rw [hmemory]
    rfl

end Loader

/-- A module whose function `f` asks the host for five bytes. -/
def allocatingModule : Bytes := [
  0x00, 0x61, 0x73, 0x6d, 0x01, 0x00, 0x00, 0x00,
  0x01, 0x0a, 0x02, 0x60, 0x01, 0x7f, 0x01, 0x7f, 0x60, 0x00, 0x01, 0x7f,
  0x02, 0x12, 0x01, 0x03, 0x65, 0x6e, 0x76, 0x0a, 0x76, 0x75, 0x64, 0x6f, 0x5f, 0x61, 0x6c, 0x6c,
  0x6f, 0x63, 0x00, 0x00,
  0x03, 0x02, 0x01, 0x01,
  0x07, 0x05, 0x01, 0x01, 0x66, 0x00, 0x01,
  0x0a, 0x08, 0x01, 0x06, 0x00, 0x41, 0x05, 0x10, 0x00, 0x0b]

/-- A loader whose Spirits run at most a hundred instructions a call. -/
def shortLoader : Loader :=
  { budget := { Loader.defaultBudget with steps := 100 }, clock := 0, entropy := 0 }

example : (shortLoader.load allocatingModule {}).result.isOk = true := by decide +kernel

/-! ## Linking -/

namespace Link

theorem memory_extend (m : Module) {s : Store} (hs : s.Attached) :
    (extend m s).memory s.record = s.memory s.record := by
  have hlt : s.record < s.memories.length := hs.there
  simp [extend, Store.memory, List.getD_eq_getElem?_getD, List.getElem?_append_left hlt]

theorem evolves_fillTables : ∀ {segments : List Wasm.ElementSegment} {s t : Store},
    fillTables segments s = .ok t → s.Evolves t
  | [], _, _, h => by cases h; exact .refl _
  | segment :: _, s, _, h => by
    unfold fillTables at h
    dsimp only at h
    split at h
    · rename_i filled _
      have hstep : s.Evolves { s with tables := s.tables.set segment.table filled } :=
        ⟨rfl, rfl, rfl, rfl, rfl, rfl, fun _ => .refl _⟩
      exact hstep.trans (evolves_fillTables h)
    · cases h

theorem evolves_fillMemories {inst : Instance} : ∀ {segments : List Wasm.DataSegment} {s t : Store},
    fillMemories inst segments s = .ok t → s.Evolves t
  | [], _, _, h => by cases h; exact .refl _
  | _ :: _, _, _, h => by
    unfold fillMemories at h
    dsimp only at h
    split at h
    · rename_i hwrite
      exact (Store.Evolves.setMemory (LinearMemory.extends_of_write? hwrite)).trans
        (evolves_fillMemories h)
    · cases h

end Link

namespace Loader

variable {budget : Wasm.Budget} {m : Module} {linking : Linking} {inst : Instance} {filled : Store}

/-- What linking that succeeds goes through. -/
theorem link_eq_ok (h : link budget m linking = .ok (inst, filled)) :
    linking.get? Link.memoryName = none ∧
    ∃ bindings, m.imports.mapM (Link.bind m linking) = .ok bindings ∧
      inst = Link.instantiate budget m bindings linking.store ∧
      (Link.extend m linking.store).Evolves filled := by
  unfold link at h
  split at h
  · cases h
  rename_i hmemory
  obtain ⟨bindings, hbind, h⟩ := Except.bind_eq_ok_iff.1 h
  obtain ⟨tables, htables, h⟩ := Except.bind_eq_ok_iff.1 h
  obtain ⟨memories, hmemories, h⟩ := Except.bind_eq_ok_iff.1 h
  cases h
  exact ⟨by simpa using hmemory, bindings, hbind, rfl,
    (Link.evolves_fillTables htables).trans (Link.evolves_fillMemories hmemories)⟩

/-- Linking changes bytes of the memory of record at most. -/
theorem moves_of_link (hs : linking.store.Attached)
    (h : link budget m linking = .ok (inst, filled)) :
    linking.store.heap.Moves .other filled.heap := by
  obtain ⟨-, bindings, -, -, hfilled⟩ := link_eq_ok h
  refine Heap.moves_of_memory ?_ hfilled.allocator
  have hmemory := hfilled.memory linking.store.record
  rw [Link.memory_extend m hs] at hmemory
  rw [Store.heap, Store.heap, Store.record_congr hfilled.record?]
  exact hmemory

theorem attached_of_link (hs : linking.store.Attached)
    (h : link budget m linking = .ok (inst, filled)) :
    filled.Attached := by
  obtain ⟨-, bindings, -, -, hfilled⟩ := link_eq_ok h
  refine hs.of_same hfilled.record? ?_
  rw [hfilled.length]
  exact (List.length_append ▸ Nat.le_add_right _ _)

/-- An instance exports one of the store's memories. -/
theorem exportedMemory?_lt (hs : linking.store.Attached)
    (h : link budget m linking = .ok (inst, filled)) {address : Nat}
    (hexported : exportedMemory? inst = some address) :
    address < filled.memories.length := by
  obtain ⟨-, bindings, -, rfl, hfilled⟩ := link_eq_ok h
  have hlength : filled.memories.length = linking.store.memories.length + m.memories.length := by
    simp [hfilled.length, Link.extend, Link.ownMemories]
  have hpos : 0 < linking.store.memories.length := Nat.lt_of_le_of_lt (Nat.zero_le _) hs.there
  have hmem : ∀ a ∈ (Link.instantiate budget m bindings linking.store).memories,
      a < linking.store.memories.length + m.memories.length := by
    intro a ha
    rcases List.mem_append.1 ha with hhost | hown
    · obtain ⟨b, -, hb⟩ := List.mem_filterMap.1 hhost
      cases b with
      | function => cases hb
      | memory => cases hb; omega
    · have := (List.mem_range'_1.1 hown).2
      omega
  unfold exportedMemory? at hexported
  rw [hlength]
  split at hexported
  · exact hmem address (List.mem_of_getElem? hexported)
  · cases hexported

end Loader

/-! ## Moments -/

namespace Linking

/-- The moments of asking Loas, up to the first that fails. -/
def history : List Loa → Linking → List (Moment Heap)
  | [], _ => []
  | loa :: rest, l =>
    loa.provides.history l.store ++
      match l.merge loa with
      | (.ok (), merged) => history rest merged
      | (.error _, _) => []

theorem sameHeap_add (l : Linking) (loa name : String) (f : HostFunction) :
    l.store.SameHeap (l.add loa name f).store := by
  unfold add
  split
  · exact ⟨rfl, rfl, rfl⟩
  · exact ⟨rfl, rfl, rfl⟩

theorem reaches_addAll (loa : String) : ∀ (provided : List (String × HostFunction)) (l : Linking),
    l.store.Reaches [] (provided.foldl (fun l (name, f) => l.add loa name f) l).store
  | [], l => .refl l.store
  | (name, f) :: rest, l => by
    simpa using (sameHeap_add l loa name f).reaches.trans (reaches_addAll loa rest (l.add loa name f))

theorem merge_reaches {l : Linking} (hs : l.store.Attached) (loa : Loa) :
    l.store.Reaches (loa.provides.history l.store) (l.merge loa).2.store := by
  have hasked := HostCall.reaches loa.provides hs
  unfold merge
  split
  · rename_i provided store hrun
    rw [hrun] at hasked
    simpa using hasked.trans (reaches_addAll loa.name provided { l with store })
  · rename_i hrun
    rw [hrun] at hasked
    exact hasked

/-- The moments of asking Loas lead from the store before to the store after. -/
theorem mergeAll_reaches : ∀ (loas : List Loa) {l : Linking}, l.store.Attached →
    l.store.Reaches (history loas l) (mergeAll loas l).2.store
  | [], l, _ => .refl l.store
  | loa :: rest, l, hs => by
    have hfirst := merge_reaches hs loa
    rw [history, mergeAll]
    cases hmerge : l.merge loa with
    | mk result merged =>
      rw [hmerge] at hfirst
      cases result with
      | ok => exact hfirst.trans (mergeAll_reaches rest (hfirst.attached hs))
      | error => simpa using hfirst

end Linking

namespace Loader

/-- The moments of the start function of a module. -/
def startHistory (budget : Wasm.Budget) (inst : Instance) (store : Store) : List (Moment Heap) :=
  match inst.source.start with
  | none => []
  | some f => Machine.runHistory inst budget budget.steps (.start f [] store)

theorem start_reaches (budget : Wasm.Budget) (inst : Instance) {store : Store}
    (hs : store.Attached) :
    store.Reaches (startHistory budget inst store) (start budget inst store).2 := by
  unfold startHistory start
  cases inst.source.start with
  | none => exact .refl store
  | some f =>
    have hrun := Machine.run_reaches inst budget budget.steps (m := .start f [] store) hs
    unfold Instance.run
    dsimp only
    split <;> rename_i hend <;> rw [hend] at hrun <;> exact hrun

/-- The moments of a load that succeeds. -/
def Stages.history {l : Loader} {bytes : Bytes} {o : LoadOptions} (st : Stages l bytes o) :
    List (Moment Heap) :=
  Linking.history (l.loas o) ⟨l.freshStore o st.memory, []⟩ ++
    ⟨.other, st.filled.heap⟩ :: startHistory l.budget st.inst st.filled

variable {l : Loader} {bytes : Bytes} {o : LoadOptions}

/-- The stretches of a load: the Loas, the filling, the start function. Each begins where the last
ended. -/
structure Stages.Stretches (st : Stages l bytes o) : Prop where
  asked : (l.freshStore o st.memory).Reaches
    (Linking.history (l.loas o) ⟨l.freshStore o st.memory, []⟩) st.linking.store
  attached : st.linking.store.Attached
  filled : st.linking.store.heap.Moves .other st.filled.heap
  ran : st.filled.Reaches (startHistory l.budget st.inst st.filled) st.started

theorem attached_freshStore (l : Loader) (o : LoadOptions) (memory : LinearMemory) :
    (l.freshStore o memory).Attached := ⟨hostMemory, rfl, Nat.zero_lt_one⟩

theorem Stages.stretches (st : Stages l bytes o) : st.Stretches := by
  have hfresh := l.attached_freshStore o st.memory
  have hasked := Linking.mergeAll_reaches (l.loas o) (l := ⟨l.freshStore o st.memory, []⟩) hfresh
  rw [st.merged] at hasked
  have hlinking := hasked.attached hfresh
  have hstart := start_reaches l.budget st.inst (attached_of_link hlinking st.linked)
  rw [st.ran] at hstart
  exact ⟨hasked, hlinking, moves_of_link hlinking st.linked, hstart⟩

/-- **Loading.** The moments of a load lead from a fresh heap on the host's memory to the heap after
the start function. -/
theorem Stages.chained (st : Stages l bytes o) :
    Chained Heap.Moves ⟨st.memory, .new o.heapBase⟩ st.history ∧
      ending ⟨st.memory, .new o.heapBase⟩ st.history = st.started.heap := by
  obtain ⟨hasked, hlinking, hfill, hstart⟩ := st.stretches
  have hend : ending ⟨st.memory, .new o.heapBase⟩
      (Linking.history (l.loas o) ⟨l.freshStore o st.memory, []⟩) = st.linking.store.heap :=
    hasked.ending_eq
  refine ⟨?_, ?_⟩
  · refine chained_append.2 ⟨hasked.chained, ?_⟩
    rw [hend]
    exact ⟨hfill, hstart.chained⟩
  · rw [Stages.history, ending_append, ending]
    exact hstart.ending_eq

/-- Until the Spirit is served, the memory of record is the host's. -/
theorem Stages.record?_started (st : Stages l bytes o) : st.started.record? = some hostMemory := by
  obtain ⟨hasked, -, -, hstart⟩ := st.stretches
  obtain ⟨-, bindings, -, -, hfilled⟩ := link_eq_ok st.linked
  rw [hstart.record?, hfilled.record?]
  exact hasked.record?

theorem Stages.record_started (st : Stages l bytes o) : st.started.record = hostMemory :=
  Store.record_eq st.record?_started

theorem Stages.allocator_spirit (st : Stages l bytes o) :
    st.spirit.heap.allocator = st.started.allocator := by
  unfold spirit serve
  cases exportedMemory? st.inst <;> rfl

/-- Serving a Spirit leaves the memories as they are. -/
theorem Stages.memory_spirit (st : Stages l bytes o) (address : Nat) :
    st.spirit.store.memory address = st.started.memory address := by
  unfold spirit serve
  split <;> rfl

/-- **Serving.** A Spirit that has been loaded is served by its holder and by the host functions from
one memory, which is there. -/
theorem Stages.served (st : Stages l bytes o) : st.spirit.Served := by
  obtain ⟨-, hlinking, -, hstart⟩ := st.stretches
  have hfilled := attached_of_link hlinking st.linked
  unfold spirit serve
  cases hexported : exportedMemory? st.inst with
  | none =>
    refine ⟨st.record?_started, ?_⟩
    have hthere := (hstart.attached hfilled).there
    rw [st.record_started] at hthere
    exact hthere
  | some address =>
    refine ⟨rfl, ?_⟩
    have hlt := exportedMemory?_lt hlinking st.linked hexported
    rw [← hstart.length] at hlt
    exact hlt

end Loader

end SpiritHost
