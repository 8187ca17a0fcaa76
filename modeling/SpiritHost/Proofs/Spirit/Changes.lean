import SpiritHost.Proofs.Memory.Records
import SpiritHost.Proofs.Memory.Strings
import SpiritHost.Proofs.Spirit.Operation

/-!
# Changes between calls

Between two calls a Spirit's memory changes by what its holder does and by pages that are added. As
long as nothing is reset, such a run issues its regions one behind the other, and it changes no
bytes but those that are overwritten by name and those of strings in regions of their own
(`keeps_changeAll`).
-/

namespace SpiritHost

/-- What can happen to a Spirit's memory between calls. -/
inductive Change where
  /-- The holder does something with the Spirit. -/
  | host (operation : Operation)
  /-- Pages are added to the memory that the holder works on. -/
  | grow (pages : Nat)

/-- The operation neither runs code nor takes regions back. -/
def Operation.isQuiet : Operation → Bool
  | reset | call .. | callTyped .. | callJson .. => false
  | _ => true

/-- The byte at an address is one that an operation is asked to overwrite. -/
def Operation.Overwrites : Operation → Nat → Prop
  | writeBytes address bytes, a => address.toNat ≤ a ∧ a < address.toNat + bytes.length
  | writeRecord gene address _, a => ∃ f ∈ gene.fields, f.Covers address a
  | _, _ => False

namespace Change

/-- The change neither runs code nor takes regions back. -/
def isQuiet : Change → Bool
  | host operation => operation.isQuiet
  | grow _ => true

/-- The byte at an address is one that is to be overwritten. -/
def Overwrites : Change → Nat → Prop
  | host operation, a => operation.Overwrites a
  | grow _, _ => False

end Change

namespace Spirit

/-- The Spirit with pages added to its memory, if the limit allows them. -/
def grow (s : Spirit) (pages : Nat) : Spirit :=
  match s.heap.memory.grow? pages with
  | some memory => { s with store := s.store.setHeapAt s.manager { s.heap with memory } }
  | none => s

/-- The Spirit after a change. -/
def change (s : Spirit) : Change → Spirit
  | .host operation => (s.perform operation).state
  | .grow pages => s.grow pages

/-- The Spirit after a run of changes. -/
def changeAll : List Change → Spirit → Spirit
  | [], s => s
  | c :: rest, s => changeAll rest (s.change c)

/-- The moments of a change. -/
def changeHistory (s : Spirit) : Change → List (Moment Heap)
  | .host operation => s.history operation
  | .grow pages => [⟨.other, (s.grow pages).heap⟩]

/-- The moments of a run of changes. -/
def changeHistoryAll : List Change → Spirit → List (Moment Heap)
  | [], _ => []
  | c :: rest, s => s.changeHistory c ++ changeHistoryAll rest (s.change c)

variable {s : Spirit} {c : Change} {touched : Nat → Prop}

/-! ## Moments -/

theorem grow_reaches (hs : s.Attached) (pages : Nat) :
    s.store.ReachesAt s.manager [⟨.other, (s.grow pages).heap⟩] (s.grow pages).store := by
  unfold grow
  cases hgrow : s.heap.memory.grow? pages with
  | none => exact .move rfl rfl (.refl _)
  | some memory =>
    refine .move (Store.record?_setHeapAt _ _ _) (Store.length_setHeapAt _ _ _) ?_
    rw [Store.heapAt_setHeapAt hs]
    exact Heap.moves_of_memory (LinearMemory.extends_of_grow? hgrow) rfl

theorem same_grow (s : Spirit) (pages : Nat) : s.Same (s.grow pages) := by
  unfold grow
  split
  · exact ⟨rfl, rfl, rfl⟩
  · exact .refl s

/-- No change is one of the module or of the place that the holder works on. -/
theorem same_change (s : Spirit) (c : Change) : s.Same (s.change c) := by
  cases c with
  | host operation => exact s.same_perform operation
  | grow pages => exact s.same_grow pages

theorem change_reaches (hs : s.Attached) (hquiet : c.isQuiet = true) :
    s.store.ReachesAt s.manager (s.changeHistory c) (s.change c).store := by
  cases c with
  | grow pages => exact grow_reaches hs pages
  | host operation =>
    refine perform_reaches_of_quiet hs ?_
    cases operation <;> first | rfl | cases hquiet

theorem attached_change (hs : s.Attached) (hquiet : c.isQuiet = true) : (s.change c).Attached := by
  rw [Attached, (s.same_change c).manager]
  exact (change_reaches hs hquiet).attached hs

theorem changeAll_reaches : ∀ {changes : List Change} {s : Spirit}, s.Attached →
    (∀ c ∈ changes, c.isQuiet = true) →
      s.store.ReachesAt s.manager (changeHistoryAll changes s) (changeAll changes s).store
  | [], s, _, _ => .refl s.store
  | c :: rest, s, hs, hquiet => by
    have hc := hquiet c List.mem_cons_self
    have hrest := changeAll_reaches (attached_change hs hc)
      fun x hx => hquiet x (List.mem_cons_of_mem _ hx)
    rw [(s.same_change c).manager] at hrest
    exact (change_reaches hs hc).trans hrest

/-- An allocation is no reset, whatever its outcome. -/
theorem isReset_allocationHistory {size align : UInt32} {r : Reply Spirit UInt32} :
    ∀ m ∈ allocationHistory size align r, m.isReset = false := by
  intro m hm
  rw [List.mem_singleton.1 hm]
  cases r.result <;> simp [Moment.isReset, Event.ofAllocation]

theorem isReset_changeHistory (hquiet : c.isQuiet = true) :
    ∀ m ∈ s.changeHistory c, m.isReset = false := by
  have hother : ∀ h : Heap, ∀ m ∈ [(⟨.other, h⟩ : Moment Heap)], m.isReset = false := by
    intro h m hm
    rw [List.mem_singleton.1 hm]
    rfl
  cases c with
  | grow pages => exact hother _
  | host operation =>
    cases operation with
    | alloc | allocAligned | allocRecord | writeString => exact isReset_allocationHistory
    | writeBytes | writeRecord => exact hother _
    | reset | call | callTyped | callJson => cases hquiet
    | free | readBytes | readText | readString | readRecord => exact fun m hm => by cases hm

theorem isReset_changeHistoryAll : ∀ {changes : List Change} {s : Spirit},
    (∀ c ∈ changes, c.isQuiet = true) → ∀ m ∈ changeHistoryAll changes s, m.isReset = false
  | [], _, _, m, hm => by cases hm
  | c :: rest, s, hquiet, m, hm => by
    rcases List.mem_append.1 hm with hm | hm
    · exact isReset_changeHistory (hquiet c List.mem_cons_self) m hm
    · exact isReset_changeHistoryAll (fun x hx => hquiet x (List.mem_cons_of_mem _ hx)) m hm

/-! ## Bytes -/

theorem onHeap_of_ok {α : Type} (operation : Heap → Except Error (α × Heap)) {a : α} {k : Heap}
    (hok : operation s.heap = .ok (a, k)) :
    (s.onHeap operation).result = .ok a ∧
      (s.onHeap operation).state.heap = (s.store.setHeapAt s.manager k).heapAt s.manager := by
  unfold onHeap
  rw [hok]
  exact ⟨rfl, rfl⟩

theorem ok_of_onHeap {α : Type} (operation : Heap → Except Error (α × Heap)) {a : α}
    (h : (s.onHeap operation).result = .ok a) : ∃ k, operation s.heap = .ok (a, k) := by
  cases hresult : operation s.heap with
  | error e =>
    unfold onHeap at h
    rw [hresult] at h
    cases h
  | ok granted =>
    rw [(onHeap_of_ok operation hresult).1] at h
    cases h
    exact ⟨granted.2, rfl⟩

/-- A request keeps what its success keeps. -/
theorem keeps_onHeap {α : Type} (hs : s.Attached)
    (operation : Heap → Except Error (α × Heap))
    (hok : ∀ a k, operation s.heap = .ok (a, k) → Heap.Keeps touched s.heap k) :
    Heap.Keeps touched s.heap (s.onHeap operation).state.heap := by
  cases hresult : operation s.heap with
  | error e =>
    unfold onHeap
    rw [hresult]
    exact .refl _ _
  | ok granted =>
    rw [(onHeap_of_ok operation hresult).2, Store.heapAt_setHeapAt hs]
    exact hok granted.1 granted.2 hresult

/-- A request that only writes keeps what its success keeps. -/
theorem keeps_write (hs : s.Attached) (write : Heap → Except Error Heap)
    (hok : ∀ k, write s.heap = .ok k → Heap.Keeps touched s.heap k) :
    Heap.Keeps touched s.heap
      (s.onHeap fun h => (write h).map fun k => ((), k)).state.heap := by
  refine keeps_onHeap hs _ fun _ k hwritten => ?_
  cases hwrite : write s.heap with
  | error e =>
    rw [hwrite] at hwritten
    cases hwritten
  | ok l =>
    rw [hwrite] at hwritten
    cases hwritten
    exact hok k hwrite

theorem keeps_grow (hs : s.Attached) (pages : Nat) :
    Heap.Keeps touched s.heap (s.grow pages).heap := by
  unfold grow
  cases hgrow : s.heap.memory.grow? pages with
  | none => exact .refl _ _
  | some memory =>
    have hheap : (s.store.setHeapAt s.manager { s.heap with memory }).heapAt s.manager =
        { s.heap with memory } := Store.heapAt_setHeapAt hs _
    change Heap.Keeps touched s.heap
      ((s.store.setHeapAt s.manager { s.heap with memory }).heapAt s.manager)
    rw [hheap]
    exact Heap.keeps_of_grow? hgrow

theorem stringRegion_mem_regions {text : String} {address : UInt32} {k : Heap}
    (hok : s.heap.encodeString text = .ok (address, k)) :
    Heap.stringRegion text address ∈ Heap.regions (s.history (.writeString text)) := by
  have hresult : (s.writeString text).result = .ok address :=
    (onHeap_of_ok (·.encodeString text) hok).1
  rw [history, allocationHistory, hresult]
  exact List.mem_singleton_self _

/-- **One change.** It keeps every byte but those it is to overwrite and those of a region that it
issues. -/
theorem keeps_change (hs : s.Attached) (hquiet : c.isQuiet = true)
    (hoverwrites : ∀ a, c.Overwrites a → touched a)
    (hissued : ∀ r ∈ Heap.regions (s.changeHistory c), ∀ a, r.Contains a → touched a) :
    Heap.Keeps touched s.heap (s.change c).heap := by
  cases c with
  | grow pages => exact keeps_grow hs pages
  | host operation =>
    cases operation with
    | alloc size => exact keeps_onHeap hs (·.alloc size) fun _ _ => Heap.keeps_allocAligned
    | allocAligned size align =>
      exact keeps_onHeap hs (·.allocAligned size align) fun _ _ => Heap.keeps_allocAligned
    | allocRecord gene =>
      exact keeps_onHeap hs (·.allocRecord gene) fun _ _ => Heap.keeps_allocAligned
    | writeString text =>
      refine keeps_onHeap hs (·.encodeString text) fun address k hok => ?_
      exact (Heap.holds_encodeString hok).2.mono (hissued _ (stringRegion_mem_regions hok))
    | writeBytes address bytes =>
      exact keeps_write hs (·.writeBytes address bytes) fun k hok =>
        (Heap.writeBytes_eq_ok hok).1.keeps.mono hoverwrites
    | writeRecord gene address record =>
      exact keeps_write hs (·.writeRecord gene address record) fun k hok =>
        (Heap.rewrites_writeRecord hok).keeps.mono hoverwrites
    | reset | call | callTyped | callJson => cases hquiet
    | free | readBytes | readText | readString | readRecord => exact .refl _ _

/-- **A run of changes.** -/
theorem keeps_changeAll : ∀ {changes : List Change} {s : Spirit}, s.Attached →
    (∀ c ∈ changes, c.isQuiet = true) → (∀ c ∈ changes, ∀ a, c.Overwrites a → touched a) →
      (∀ r ∈ Heap.regions (changeHistoryAll changes s), ∀ a, r.Contains a → touched a) →
        Heap.Keeps touched s.heap (changeAll changes s).heap
  | [], s, _, _, _, _ => .refl _ s.heap
  | c :: rest, s, hs, hquiet, hoverwrites, hissued => by
    rw [changeHistoryAll, Heap.regions_append] at hissued
    have hfirst := keeps_change hs (hquiet c List.mem_cons_self)
      (hoverwrites c List.mem_cons_self) fun r hr => hissued r (List.mem_append_left _ hr)
    have hrest := keeps_changeAll (attached_change hs (hquiet c List.mem_cons_self))
      (fun x hx => hquiet x (List.mem_cons_of_mem _ hx))
      (fun x hx => hoverwrites x (List.mem_cons_of_mem _ hx))
      fun r hr => hissued r (List.mem_append_right _ hr)
    exact hfirst.trans hrest

end Spirit

end SpiritHost
