import SpiritHost.Proofs.Memory.History
import SpiritHost.Spirit.Store

/-!
# Histories of host calls

The moments of a host call are its requests to the heap, in order, the failed ones included.
`HostCall.reaches`: they lead from the store before the call to the store that it leaves, whether it
returns or fails.
-/

namespace SpiritHost

/-- The event of an allocation, by its outcome. -/
def Event.ofAllocation (size align : UInt32) : Except Error UInt32 → Event
  | .ok address => .issued ⟨address, size, align⟩
  | .error _ => .other

/-- The event of taking back every region, by its outcome. -/
def Event.ofReset : Except Error Unit → Event
  | .ok () => .reset
  | .error _ => .other

namespace Store

/-- The address of the memory of record, if there is one. -/
def record (s : Store) : Nat := s.record?.getD 0

/-- The memory of record with the allocator. -/
def heap (s : Store) : Heap := s.heapAt s.record

/-- There is a memory at the address. -/
def AttachedAt (s : Store) (address : Nat) : Prop := address < s.memories.length

/-- There is a memory of record. -/
def Attached (s : Store) : Prop := ∃ address, s.record? = some address ∧ s.AttachedAt address

/-- A store that comes from another by a history of the heap of the memory at an address. -/
structure ReachesAt (address : Nat) (s : Store) (ms : List (Moment Heap)) (t : Store) : Prop where
  record? : t.record? = s.record?
  length : t.memories.length = s.memories.length
  chained : Chained Heap.Moves (s.heapAt address) ms
  ending : ending (s.heapAt address) ms = t.heapAt address

/-- A store that comes from another by a history of its heap. -/
def Reaches (s : Store) (ms : List (Moment Heap)) (t : Store) : Prop := s.ReachesAt s.record ms t

variable {s t u : Store} {ms ns : List (Moment Heap)} {address : Nat}

/-! ## The memory of record -/

theorem record_eq (h : s.record? = some address) : s.record = address := by
  rw [record, h, Option.getD_some]

theorem record_congr (h : t.record? = s.record?) : t.record = s.record :=
  congrArg (Option.getD · 0) h

theorem Attached.there (hs : s.Attached) : s.AttachedAt s.record := by
  obtain ⟨address, hrecord, hthere⟩ := hs
  rwa [record_eq hrecord]

theorem Attached.record?_eq (hs : s.Attached) : s.record? = some s.record := by
  obtain ⟨address, hrecord, -⟩ := hs
  rw [record_eq hrecord, hrecord]

theorem Attached.of_same (hs : s.Attached) (hrecord : t.record? = s.record?)
    (hlength : s.memories.length ≤ t.memories.length) : t.Attached := by
  obtain ⟨address, hsome, hthere⟩ := hs
  exact ⟨address, hrecord.trans hsome, Nat.lt_of_lt_of_le hthere hlength⟩

/-- With a memory of record host functions are not refused. -/
theorem callerHeap_eq (hs : s.Attached) : s.callerHeap = .ok s.heap := by
  rw [callerHeap, recordAddress, hs.record?_eq]
  rfl

theorem onHeap_eq {α : Type} (hs : s.Attached) (request : Heap → Except Error (α × Heap)) :
    s.onHeap request = s.onHeapAt s.record (request s.heap) := by
  rw [onHeap, recordAddress, hs.record?_eq]
  rfl

/-! ## Histories -/

theorem ReachesAt.attached (h : s.ReachesAt address ms t) (hs : s.AttachedAt address) :
    t.AttachedAt address := by
  unfold AttachedAt
  rw [h.length]
  exact hs

theorem ReachesAt.refl (s : Store) : s.ReachesAt address [] s := ⟨rfl, rfl, trivial, rfl⟩

theorem ReachesAt.trans (hst : s.ReachesAt address ms t) (htu : t.ReachesAt address ns u) :
    s.ReachesAt address (ms ++ ns) u := by
  refine ⟨htu.record?.trans hst.record?, htu.length.trans hst.length, ?_, ?_⟩
  · rw [chained_append, hst.ending]
    exact ⟨hst.chained, htu.chained⟩
  · rw [ending_append, hst.ending, htu.ending]

/-- One move of the heap. -/
theorem ReachesAt.move {e : Event} (hrecord : t.record? = s.record?)
    (hlength : t.memories.length = s.memories.length)
    (hmove : (s.heapAt address).Moves e (t.heapAt address)) :
    s.ReachesAt address [⟨e, t.heapAt address⟩] t :=
  ⟨hrecord, hlength, ⟨hmove, trivial⟩, rfl⟩

theorem Reaches.attached (h : s.Reaches ms t) (hs : s.Attached) : t.Attached :=
  hs.of_same h.record? h.length.ge

theorem Reaches.refl (s : Store) : s.Reaches [] s := ReachesAt.refl s

theorem Reaches.trans (hst : s.Reaches ms t) (htu : t.Reaches ns u) : s.Reaches (ms ++ ns) u := by
  unfold Reaches at htu
  rw [record_congr hst.record?] at htu
  exact ReachesAt.trans hst htu

theorem Reaches.ending_eq (h : s.Reaches ms t) : SpiritHost.ending s.heap ms = t.heap := by
  rw [heap, heap, record_congr h.record?]
  exact ReachesAt.ending h

/-- Stores that differ only in parts in which no heap lies. -/
structure SameHeap (s t : Store) : Prop where
  record? : t.record? = s.record?
  memories : t.memories = s.memories
  allocator : t.allocator = s.allocator

theorem SameHeap.heapAt_eq (h : s.SameHeap t) (address : Nat) :
    t.heapAt address = s.heapAt address := by
  rw [heapAt, heapAt, memory, memory, h.memories, h.allocator]

theorem SameHeap.reachesAt (h : s.SameHeap t) : s.ReachesAt address [] t :=
  ⟨h.record?, h.memories ▸ rfl, trivial, (h.heapAt_eq address).symm⟩

theorem SameHeap.reaches (h : s.SameHeap t) : s.Reaches [] t := h.reachesAt

theorem sameHeap_plant (s : Store) (kind : String) : s.SameHeap (s.plant kind) := by
  unfold plant
  split <;> exact ⟨rfl, rfl, rfl⟩

theorem heapAt_setHeapAt (hs : s.AttachedAt address) (h : Heap) :
    (s.setHeapAt address h).heapAt address = h := by
  unfold AttachedAt at hs
  simp [heapAt, setHeapAt, memory, setMemory, List.getD_eq_getElem?_getD, hs]

@[simp] theorem record?_setHeapAt (s : Store) (address : Nat) (h : Heap) :
    (s.setHeapAt address h).record? = s.record? := rfl

@[simp] theorem length_setHeapAt (s : Store) (address : Nat) (h : Heap) :
    (s.setHeapAt address h).memories.length = s.memories.length := by
  simp [setHeapAt, setMemory]

/-- A request that may change the heap moves it, and not at all if it fails. -/
theorem ReachesAt.onHeapAt {α : Type} (event : Except Error α → Event) (hs : s.AttachedAt address)
    {result : Except Error (α × Heap)} (hfail : ∀ e, event (.error e) = .other)
    (hok : ∀ a h, result = .ok (a, h) → (s.heapAt address).Moves (event (.ok a)) h) :
    s.ReachesAt address [⟨event (s.onHeapAt address result).1,
      (s.onHeapAt address result).2.heapAt address⟩] (s.onHeapAt address result).2 := by
  cases hresult : result with
  | error e =>
    refine .move rfl rfl ?_
    rw [Store.onHeapAt, hfail]
    exact .refl _
  | ok granted =>
    obtain ⟨a, h⟩ := granted
    refine .move (record?_setHeapAt s address h) (length_setHeapAt s address h) ?_
    rw [Store.onHeapAt, heapAt_setHeapAt hs]
    exact hok a h hresult

theorem reaches_allocAligned (hs : s.AttachedAt address) (size align : UInt32) :
    s.ReachesAt address
      [⟨.ofAllocation size align (s.onHeapAt address ((s.heapAt address).allocAligned size align)).1,
        (s.onHeapAt address ((s.heapAt address).allocAligned size align)).2.heapAt address⟩]
      (s.onHeapAt address ((s.heapAt address).allocAligned size align)).2 :=
  .onHeapAt _ hs (fun _ => rfl) fun _ _ hok => Heap.moves_of_allocAligned hok

theorem reaches_encodeString (hs : s.AttachedAt address) (text : String) :
    s.ReachesAt address
      [⟨.ofAllocation (Heap.stringSize text) 4
          (s.onHeapAt address ((s.heapAt address).encodeString text)).1,
        (s.onHeapAt address ((s.heapAt address).encodeString text)).2.heapAt address⟩]
      (s.onHeapAt address ((s.heapAt address).encodeString text)).2 :=
  .onHeapAt _ hs (fun _ => rfl) fun _ _ hok => Heap.moves_of_encodeString hok

/-- A request that only writes. -/
theorem reaches_write (hs : s.AttachedAt address) {written : Except Error Heap}
    (hok : ∀ h, written = .ok h → (s.heapAt address).Moves .other h) :
    s.ReachesAt address
      [⟨.other, (s.onHeapAt address (written.map fun h => ((), h))).2.heapAt address⟩]
      (s.onHeapAt address (written.map fun h => ((), h))).2 := by
  refine .onHeapAt (fun _ => .other) hs (fun _ => rfl) fun _ h hwritten => ?_
  cases written with
  | error e => cases hwritten
  | ok k => cases hwritten; exact hok h rfl

theorem reaches_reset (hs : s.AttachedAt address) :
    s.ReachesAt address
      [⟨.reset, (s.setHeapAt address (s.heapAt address).reset).heapAt address⟩]
      (s.setHeapAt address (s.heapAt address).reset) := by
  refine .move rfl (by simp) ?_
  rw [heapAt_setHeapAt hs]
  exact Heap.moves_reset _

/-- A request of a host function, with a memory of record. -/
theorem Reaches.of_onHeap {α : Type} (event : Except Error α → Event) (hs : s.Attached)
    (request : Heap → Except Error (α × Heap))
    (h : s.ReachesAt s.record [⟨event (s.onHeapAt s.record (request s.heap)).1,
        (s.onHeapAt s.record (request s.heap)).2.heapAt s.record⟩]
      (s.onHeapAt s.record (request s.heap)).2) :
    s.Reaches [⟨event (s.onHeap request).1, (s.onHeap request).2.heap⟩] (s.onHeap request).2 := by
  have hheap : (s.onHeapAt s.record (request s.heap)).2.heap =
      (s.onHeapAt s.record (request s.heap)).2.heapAt s.record := by
    rw [heap, record_congr h.record?]
  rw [onHeap_eq hs, hheap]
  exact h

end Store

namespace HostCall

variable {α : Type}

/-- The moments of a host call. -/
def history : HostCall α → Store → List (Moment Heap)
  | done _, _ => []
  | fail _, _ => []
  | alloc size align next, s =>
    let (r, t) := s.onHeap (·.allocAligned size align)
    ⟨.ofAllocation size align r, t.heap⟩ :: (next r).history t
  | readBytes address len next, s =>
    (next (s.callerHeap >>= (·.readBytes address len))).history s
  | writeBytes address bytes next, s =>
    let (r, t) := s.onHeap fun h => (h.writeBytes address bytes).map fun h => ((), h)
    ⟨.other, t.heap⟩ :: (next r).history t
  | encodeString text next, s =>
    let (r, t) := s.onHeap (·.encodeString text)
    ⟨.ofAllocation (Heap.stringSize text) 4 r, t.heap⟩ :: (next r).history t
  | decodeString address next, s =>
    (next (s.callerHeap >>= (·.decodeString address))).history s
  | reset next, s =>
    let (r, t) := s.onHeap fun h => .ok ((), h.reset)
    ⟨.ofReset r, t.heap⟩ :: (next r).history t
  | inspect next, s => (next s.callerHeap).history s
  | getState next, s => (next s.loaState).history s
  | setState state next, s => next.history { s with loaState := state }
  | plant kind next, s => next.history (s.plant kind)
  | debugFlag next, s => (next s.debug).history s
  | now next, s => (next s.clock).history s
  | random next, s =>
    let state := Store.advance s.entropy
    (next (Store.scramble state)).history { s with entropy := state }
  | log line next, s => next.history { s with log := s.log.push line }

/-- **Host calls.** The moments of a host call lead from the store before it to the store after. -/
theorem reaches (c : HostCall α) : ∀ {s : Store}, s.Attached →
    s.Reaches (c.history s) (c.run s).2 := by
  induction c with
  | done | fail => exact fun _ => .refl _
  | alloc size align next ih =>
    intro s hs
    have hmove := Store.Reaches.of_onHeap (.ofAllocation size align) hs
      (·.allocAligned size align) (Store.reaches_allocAligned hs.there size align)
    exact hmove.trans (ih _ (hmove.attached hs))
  | writeBytes address bytes next ih =>
    intro s hs
    have hmove := Store.Reaches.of_onHeap (fun _ => .other) hs
      (fun h => (h.writeBytes address bytes).map fun h => ((), h))
      (Store.reaches_write hs.there fun h => Heap.moves_of_writeBytes)
    exact hmove.trans (ih _ (hmove.attached hs))
  | encodeString text next ih =>
    intro s hs
    have hmove := Store.Reaches.of_onHeap (.ofAllocation (Heap.stringSize text) 4) hs
      (·.encodeString text) (Store.reaches_encodeString hs.there text)
    exact hmove.trans (ih _ (hmove.attached hs))
  | reset next ih =>
    intro s hs
    have hmove := Store.Reaches.of_onHeap .ofReset hs (fun h => .ok ((), h.reset))
      (Store.reaches_reset hs.there)
    exact hmove.trans (ih _ (hmove.attached hs))
  | readBytes address len next ih => exact fun hs => ih _ hs
  | decodeString address next ih => exact fun hs => ih _ hs
  | inspect next ih | getState next ih | debugFlag next ih | now next ih => exact fun hs => ih _ hs
  -- The other requests touch a part of the store in which no heap lies.
  | setState state next ih =>
    intro s hs
    have hsame : s.SameHeap { s with loaState := state } := ⟨rfl, rfl, rfl⟩
    exact hsame.reaches.trans (ih hs)
  | plant kind next ih =>
    intro s hs
    have hsame := s.sameHeap_plant kind
    exact hsame.reaches.trans (ih (hsame.reaches.attached hs))
  | random next ih =>
    intro s hs
    have hsame : s.SameHeap { s with entropy := Store.advance s.entropy } := ⟨rfl, rfl, rfl⟩
    exact hsame.reaches.trans (ih _ hs)
  | log line next ih =>
    intro s hs
    have hsame : s.SameHeap { s with log := s.log.push line } := ⟨rfl, rfl, rfl⟩
    exact hsame.reaches.trans (ih hs)

end HostCall

end SpiritHost
