import SpiritHost.Proofs.Loa.History
import SpiritHost.Proofs.Memory.Readings
import SpiritHost.Proofs.Memory.Strings

/-!
# Deeds

What a host function, a Spirit's code or its holder does to a store, one deed at a time: a deed says
what was found or what was left, and which bytes of which memory it may have changed. A trace is a
list of deeds with the stores they left. `HostCall.passes`: a host call is the trace of its requests.
-/

namespace SpiritHost

/-- What is done to a store in one go. Memories are named by their place in the store. -/
inductive Deed where
  /-- A memory is read. -/
  | read (memory : Nat) (reading : Reading) (found : Except Error Finding)
  /-- A memory is looked at as a whole. -/
  | view (memory : Nat) (heap : Heap)
  /-- Bytes are written. -/
  | write (memory address : Nat) (bytes : Bytes)
  /-- A string is put in a region of its own. -/
  | string (memory : Nat) (text : String) (address : UInt32)
  /-- The fields of a gene are written. -/
  | record (memory : Nat) (gene : GeneLayout) (address : UInt32)
  /-- A value is planted, in place of another of its kind or not. -/
  | plant (kind : String) (replaces : Bool)
  /-- The values that gave way to others are accounted for. -/
  | settle (replaced : Nat)
  /-- A host function asks for the memory of record and is refused, as there is none. -/
  | unattached
  | other

/-- A deed with the store that it left. -/
structure Instant where
  deed : Deed
  store : Store

namespace Deed

/-- The memory that host functions or the holder work on, if that is what they do. -/
def memory? : Deed → Option Nat
  | read memory .. | view memory _ | string memory .. | record memory .. => some memory
  | _ => none

/-- The byte at an address of a memory is one that the deed may change. -/
def Covers : Deed → Nat → Nat → Prop
  | write memory address bytes, m, a => memory = m ∧ address ≤ a ∧ a < address + bytes.length
  | string memory text address, m, a =>
    memory = m ∧ (Heap.stringRegion text address).Contains a
  | record memory gene address, m, a => memory = m ∧ ∃ f ∈ gene.fields, f.Covers address a
  | _, _, _ => False

/-- What was found is what is there, and what was written is there. -/
def Outcome : Deed → Store → Prop
  | read memory reading found, t => found = (t.heapAt memory).read reading
  | view memory heap, t => heap = t.heapAt memory
  | write memory address bytes, t =>
    address + bytes.length ≤ (t.memory memory).size ∧
      (t.memory memory).slice address bytes.length = bytes
  | string memory text address, t => (t.heapAt memory).HoldsString text address
  | unattached, t => t.record? = none
  | _, _ => True

/-- What the deed does to planted values. -/
def Plants : Deed → Store → Store → Prop
  | plant kind replaces, s, t =>
    replaces = decide (kind ∈ s.held) ∧ t.held = (s.plant kind).held ∧
      t.replaced = (s.plant kind).replaced
  | settle replaced, s, t => replaced = s.replaced ∧ t.held = s.held ∧ t.replaced = 0
  | _, s, t => t.held = s.held ∧ t.replaced = s.replaced

/-- The deed of a request to write bytes. -/
def ofWrite (memory address : Nat) (bytes : Bytes) : Except Error Unit → Deed
  | .ok () => write memory address bytes
  | .error _ => other

/-- The deed of a request to encode a string. -/
def ofString (memory : Nat) (text : String) : Except Error UInt32 → Deed
  | .ok address => string memory text address
  | .error _ => other

/-- The deed of a request to write a record. -/
def ofRecord (memory : Nat) (gene : GeneLayout) (address : UInt32) : Except Error Unit → Deed
  | .ok () => record memory gene address
  | .error _ => other

end Deed

namespace Store

/-- The deed of a host function that asks for the memory of record. -/
def asked (s : Store) (d : Deed) : Deed :=
  match s.record? with
  | some _ => d
  | none => .unattached

/-- What a deed does to a store. -/
structure Does (s : Store) (d : Deed) (t : Store) : Prop where
  record? : t.record? = s.record?
  length : t.memories.length = s.memories.length
  served : ∀ memory ∈ d.memory?, s.record? = some memory
  keeps : ∀ memory, (s.heapAt memory).Keeps (d.Covers memory) (t.heapAt memory)
  outcome : d.Outcome t
  plants : d.Plants s t

/-- Each deed of a trace is done to the store that the one before it left. -/
def Follows : Store → List Instant → Prop
  | _, [] => True
  | s, x :: rest => s.Does x.deed x.store ∧ x.store.Follows rest

/-- The store after a trace. -/
def after : Store → List Instant → Store
  | s, [] => s
  | _, x :: rest => x.store.after rest

/-- A trace leads from one store to another. -/
structure Passes (s : Store) (xs : List Instant) (t : Store) : Prop where
  follows : s.Follows xs
  ends : s.after xs = t

variable {s t u : Store} {d : Deed} {x : Instant} {xs ys : List Instant} {address : Nat}

/-! ## Traces -/

theorem after_append : ∀ (s : Store) (xs ys : List Instant),
    s.after (xs ++ ys) = (s.after xs).after ys
  | _, [], _ => rfl
  | _, x :: xs, ys => after_append x.store xs ys

theorem follows_append : ∀ {s : Store} {xs ys : List Instant},
    s.Follows (xs ++ ys) ↔ s.Follows xs ∧ (s.after xs).Follows ys
  | _, [], _ => by simp [Follows, after]
  | _, x :: xs, ys => by
    simp only [List.cons_append, Follows, after, follows_append (s := x.store), and_assoc]

theorem Passes.refl (s : Store) : s.Passes [] s := ⟨trivial, rfl⟩

theorem Passes.trans (hst : s.Passes xs t) (htu : t.Passes ys u) : s.Passes (xs ++ ys) u := by
  refine ⟨follows_append.2 ⟨hst.follows, ?_⟩, ?_⟩
  · rw [hst.ends]
    exact htu.follows
  · rw [after_append, hst.ends, htu.ends]

theorem Passes.single (h : s.Does d t) : s.Passes [⟨d, t⟩] t := ⟨⟨h, trivial⟩, rfl⟩

theorem Passes.cons (h : s.Does d t) (hrest : t.Passes xs u) : s.Passes (⟨d, t⟩ :: xs) u :=
  (Passes.single h).trans hrest

/-- Neither the memory of record nor the number of memories changes in a trace. -/
theorem Follows.same : ∀ {s : Store} {xs : List Instant}, s.Follows xs → ∀ x ∈ xs,
    x.store.record? = s.record? ∧ x.store.memories.length = s.memories.length
  | _, [], _, x, hx => by cases hx
  | s, y :: xs, h, x, hx => by
    rcases List.mem_cons.1 hx with rfl | hx
    · exact ⟨h.1.record?, h.1.length⟩
    · obtain ⟨hrecord, hlength⟩ := h.2.same x hx
      exact ⟨hrecord.trans h.1.record?, hlength.trans h.1.length⟩

theorem Passes.same (h : s.Passes xs t) :
    t.record? = s.record? ∧ t.memories.length = s.memories.length := by
  obtain ⟨hfollows, rfl⟩ := h
  induction xs generalizing s with
  | nil => exact ⟨rfl, rfl⟩
  | cons x xs ih =>
    obtain ⟨hrecord, hlength⟩ := ih hfollows.2
    exact ⟨hrecord.trans hfollows.1.record?, hlength.trans hfollows.1.length⟩

theorem Passes.attached (h : s.Passes xs t) (hs : s.Attached) : t.Attached :=
  hs.of_same h.same.1 h.same.2.ge

/-- A trace keeps every byte that none of its deeds may change. -/
theorem Follows.keeps {memory : Nat} : ∀ {s : Store} {xs : List Instant}, s.Follows xs →
    (s.heapAt memory).Keeps (fun a => ∃ x ∈ xs, x.deed.Covers memory a)
      ((s.after xs).heapAt memory)
  | _, [], _ => .refl _ _
  | s, x :: xs, h => by
    refine Heap.Keeps.trans ((h.1.keeps memory).mono fun a ha => ?_)
      ((Follows.keeps h.2).mono fun a ha => ?_)
    · exact ⟨x, List.mem_cons_self, ha⟩
    · exact ha.imp fun y hy => ⟨List.mem_cons_of_mem x hy.1, hy.2⟩

/-- What can be read of a memory before a trace can be read after it, if no deed of the trace may
change the bytes that the reading looks at. -/
theorem Passes.read {memory : Nat} {reading : Reading} {found : Finding} (h : s.Passes xs t)
    (hapart : ∀ x ∈ xs, ∀ a, (s.heapAt memory).Sees reading a → ¬x.deed.Covers memory a)
    (hread : (s.heapAt memory).read reading = .ok found) :
    (t.heapAt memory).read reading = .ok found := by
  rw [← h.ends]
  exact Heap.read_of_keeps h.follows.keeps (fun a ha ⟨x, hx, hcovers⟩ => hapart x hx a ha hcovers)
    hread

/-- A string stays in its place in a trace that changes no byte of it. -/
theorem Passes.holdsString {memory : Nat} {text : String} {place : UInt32} (h : s.Passes xs t)
    (hapart : ∀ x ∈ xs, ∀ a, (Heap.stringRegion text place).Contains a →
      ¬x.deed.Covers memory a)
    (hholds : (s.heapAt memory).HoldsString text place) :
    (t.heapAt memory).HoldsString text place := by
  rw [← h.ends]
  exact hholds.keeps h.follows.keeps fun a ha ⟨x, hx, hcovers⟩ => hapart x hx a ha hcovers

/-- An instant of a trace, with the trace after it. -/
theorem Passes.at (h : s.Passes (xs ++ x :: ys) t) :
    s.Passes (xs ++ [x]) x.store ∧ x.store.Passes ys t ∧ x.deed.Outcome x.store := by
  obtain ⟨hbefore, hdoes, hafter⟩ := follows_append.1 h.follows
  refine ⟨⟨follows_append.2 ⟨hbefore, hdoes, trivial⟩, ?_⟩, ⟨hafter, ?_⟩, hdoes.outcome⟩
  · rw [after_append]
    rfl
  · rw [← h.ends, after_append]
    rfl

/-! ## The memory of record -/

theorem Does.attached (h : s.Does d t) (hs : s.Attached) : t.Attached :=
  hs.of_same h.record? h.length.ge

theorem asked_eq (hs : s.Attached) (d : Deed) : s.asked d = d := by
  rw [asked, hs.record?_eq]

/-- A request of a host function, with a memory of record. -/
theorem Does.of_onHeap {α : Type} (deed : Except Error α → Deed) (hs : s.Attached)
    (request : Heap → Except Error (α × Heap))
    (h : s.Does (deed (s.onHeapAt s.record (request s.heap)).1)
      (s.onHeapAt s.record (request s.heap)).2) :
    s.Does (s.asked (deed (s.onHeap request).1)) (s.onHeap request).2 := by
  rw [asked_eq hs, onHeap_eq hs]
  exact h

/-- With a memory of record no host function is refused it. -/
theorem Does.ne_unattached (h : s.Does d t) (hs : s.Attached) : d ≠ .unattached := by
  rintro rfl
  have hnone : t.record? = none := h.outcome
  rw [h.record?, hs.record?_eq] at hnone
  cases hnone

/-- All through a trace that begins with a memory of record it is there, and nobody is refused it. -/
theorem Follows.served : ∀ {s : Store} {xs : List Instant}, s.Follows xs → s.Attached →
    ∀ x ∈ xs, x.store.Attached ∧ x.deed ≠ .unattached
  | _, [], _, _, x, hx => by cases hx
  | s, y :: xs, h, hs, x, hx => by
    have hfirst := h.1.attached hs
    rcases List.mem_cons.1 hx with rfl | hx
    · exact ⟨hfirst, h.1.ne_unattached hs⟩
    · exact Follows.served h.2 hfirst x hx

/-! ## Single deeds -/

/-- Stores that differ only in parts that no deed is about. -/
structure Alike (s t : Store) : Prop where
  heap : s.SameHeap t
  held : t.held = s.held
  replaced : t.replaced = s.replaced

theorem Alike.refl (s : Store) : s.Alike s := ⟨⟨rfl, rfl, rfl⟩, rfl, rfl⟩

theorem Alike.trans (hst : s.Alike t) (htu : t.Alike u) : s.Alike u :=
  ⟨⟨htu.heap.record?.trans hst.heap.record?, htu.heap.memories.trans hst.heap.memories,
    htu.heap.allocator.trans hst.heap.allocator⟩, htu.held.trans hst.held,
    htu.replaced.trans hst.replaced⟩

theorem Alike.does (h : s.Alike t) : s.Does .other t := by
  refine ⟨h.heap.record?, h.heap.memories ▸ rfl, nofun, fun memory => ?_, trivial, h.held,
    h.replaced⟩
  rw [h.heap.heapAt_eq]
  exact .refl _ _

theorem does_read (haddress : s.record? = some address) (reading : Reading) :
    s.Does (.read address reading ((s.heapAt address).read reading)) s :=
  ⟨rfl, rfl, fun _ h => haddress.trans h, fun _ => .refl _ _, rfl, rfl, rfl⟩

theorem does_view (haddress : s.record? = some address) :
    s.Does (.view address (s.heapAt address)) s :=
  ⟨rfl, rfl, fun _ h => haddress.trans h, fun _ => .refl _ _, rfl, rfl, rfl⟩

theorem does_plant (s : Store) (kind : String) :
    s.Does (.plant kind (kind ∈ s.held)) (s.plant kind) := by
  have hsame := s.sameHeap_plant kind
  refine ⟨hsame.record?, hsame.memories ▸ rfl, nofun, fun memory => ?_, trivial, rfl, rfl, rfl⟩
  rw [hsame.heapAt_eq]
  exact .refl _ _

theorem memory_setHeapAt_of_ne {other : Nat} (h : Heap) (hne : other ≠ address) :
    (s.setHeapAt address h).memory other = s.memory other := by
  simp [setHeapAt, memory, setMemory, List.getD_eq_getElem?_getD, List.getElem?_set_ne hne.symm]

/-- Putting another heap at an address changes the bytes there as the heaps differ, and no bytes of
other memories. -/
theorem keeps_setHeapAt {touched : Nat → Nat → Prop} {h : Heap} (hs : s.AttachedAt address)
    (hkeeps : (s.heapAt address).Keeps (touched address) h) (memory : Nat) :
    (s.heapAt memory).Keeps (touched memory) ((s.setHeapAt address h).heapAt memory) := by
  by_cases hsame : memory = address
  · subst hsame
    rw [heapAt_setHeapAt hs]
    exact hkeeps
  · have hmemory := memory_setHeapAt_of_ne (s := s) h hsame
    refine ⟨Nat.le_of_eq ?_, fun a _ => ?_⟩
    · exact congrArg LinearMemory.size hmemory.symm
    · exact congrArg (LinearMemory.byte · a) hmemory

/-- A deed that puts another heap at an address. -/
theorem does_setHeapAt {h : Heap} (hs : s.AttachedAt address)
    (hserved : ∀ memory ∈ d.memory?, s.record? = some memory)
    (hkeeps : (s.heapAt address).Keeps (d.Covers address) h)
    (houtcome : d.Outcome (s.setHeapAt address h)) (hplants : d.Plants s s) :
    s.Does d (s.setHeapAt address h) := by
  refine ⟨rfl, length_setHeapAt s address h, hserved, keeps_setHeapAt hs hkeeps, houtcome, ?_⟩
  cases d <;> exact hplants

theorem does_alloc (hs : s.AttachedAt address) (size align : UInt32) :
    s.Does .other (s.onHeapAt address ((s.heapAt address).allocAligned size align)).2 := by
  cases hresult : (s.heapAt address).allocAligned size align with
  | error e => exact (Alike.refl s).does
  | ok granted =>
    exact does_setHeapAt hs nofun (Heap.keeps_allocAligned hresult) trivial ⟨rfl, rfl⟩

theorem does_writeBytes (hs : s.AttachedAt address) (place : UInt32) (bytes : Bytes) :
    let r := s.onHeapAt address (((s.heapAt address).writeBytes place bytes).map fun h => ((), h))
    s.Does (.ofWrite address place.toNat bytes r.1) r.2 := by
  cases hresult : (s.heapAt address).writeBytes place bytes with
  | error e => exact (Alike.refl s).does
  | ok h =>
    obtain ⟨hrewrites, hinside, hslice⟩ := Heap.writeBytes_eq_ok hresult
    refine does_setHeapAt hs nofun (hrewrites.keeps.mono fun a ha => ⟨rfl, ha⟩) ?_ ⟨rfl, rfl⟩
    have hmemory := congrArg Heap.memory (heapAt_setHeapAt hs h)
    exact ⟨Nat.le_trans hinside (Nat.le_of_eq (congrArg LinearMemory.size hmemory.symm)),
      (congrArg (LinearMemory.slice · _ _) hmemory).trans hslice⟩

theorem does_writeRecord (hs : s.AttachedAt address) (haddress : s.record? = some address)
    (gene : GeneLayout) (place : UInt32) (record : Record) :
    let r := s.onHeapAt address
      (((s.heapAt address).writeRecord gene place record).map fun h => ((), h))
    s.Does (.ofRecord address gene place r.1) r.2 := by
  cases hresult : (s.heapAt address).writeRecord gene place record with
  | error e => exact (Alike.refl s).does
  | ok h =>
    refine does_setHeapAt hs (fun _ h => haddress.trans h) ?_ trivial ⟨rfl, rfl⟩
    exact (Heap.rewrites_writeRecord hresult).keeps.mono fun a ha => ⟨rfl, ha⟩

theorem does_encodeString (hs : s.AttachedAt address) (haddress : s.record? = some address)
    (text : String) :
    let r := s.onHeapAt address ((s.heapAt address).encodeString text)
    s.Does (.ofString address text r.1) r.2 := by
  cases hresult : (s.heapAt address).encodeString text with
  | error e => exact (Alike.refl s).does
  | ok granted =>
    obtain ⟨hholds, hkeeps⟩ := Heap.holds_encodeString hresult
    refine does_setHeapAt hs (fun _ h => haddress.trans h)
      (hkeeps.mono fun a ha => ⟨rfl, ha⟩) ?_ ⟨rfl, rfl⟩
    show ((s.setHeapAt address granted.2).heapAt address).HoldsString text granted.1
    rwa [heapAt_setHeapAt hs]

theorem does_reset (hs : s.AttachedAt address) :
    s.Does .other (s.setHeapAt address (s.heapAt address).reset) :=
  does_setHeapAt hs nofun ⟨Nat.le_refl _, fun _ _ => rfl⟩ trivial ⟨rfl, rfl⟩

end Store

/-! ## Host calls -/

namespace HostCall

variable {α : Type}

/-- The trace of a host call. -/
def instants : HostCall α → Store → List Instant
  | done _, _ => []
  | fail _, _ => []
  | alloc size align next, s =>
    let (r, t) := s.onHeap (·.allocAligned size align)
    ⟨s.asked .other, t⟩ :: (next r).instants t
  | readBytes address len next, s =>
    ⟨s.asked (.read s.record (.bytes address len) (s.heap.read (.bytes address len))), s⟩ ::
      (next (s.callerHeap >>= (·.readBytes address len))).instants s
  | writeBytes address bytes next, s =>
    let (r, t) := s.onHeap fun h => (h.writeBytes address bytes).map fun h => ((), h)
    ⟨s.asked (.ofWrite s.record address.toNat bytes r), t⟩ :: (next r).instants t
  | encodeString text next, s =>
    let (r, t) := s.onHeap (·.encodeString text)
    ⟨s.asked (.ofString s.record text r), t⟩ :: (next r).instants t
  | decodeString address next, s =>
    ⟨s.asked (.read s.record (.string address) (s.heap.read (.string address))), s⟩ ::
      (next (s.callerHeap >>= (·.decodeString address))).instants s
  | reset next, s =>
    let (r, t) := s.onHeap fun h => .ok ((), h.reset)
    ⟨s.asked .other, t⟩ :: (next r).instants t
  | inspect next, s =>
    ⟨s.asked (.view s.record s.heap), s⟩ :: (next s.callerHeap).instants s
  | getState next, s => (next s.loaState).instants s
  | setState state next, s =>
    let t := { s with loaState := state }
    ⟨.other, t⟩ :: next.instants t
  | plant kind next, s =>
    ⟨.plant kind (kind ∈ s.held), s.plant kind⟩ :: next.instants (s.plant kind)
  | debugFlag next, s => (next s.debug).instants s
  | now next, s => (next s.clock).instants s
  | random next, s =>
    let t := { s with entropy := Store.advance s.entropy }
    ⟨.other, t⟩ :: (next (Store.scramble t.entropy)).instants t
  | log line next, s =>
    let t := { s with log := s.log.push line }
    ⟨.other, t⟩ :: next.instants t

/-- **Host calls.** The trace of a host call leads from the store before it to the store after. -/
theorem passes (c : HostCall α) : ∀ {s : Store}, s.Attached →
    s.Passes (c.instants s) (c.run s).2 := by
  induction c with
  | done | fail => exact fun _ => .refl _
  | getState next ih | debugFlag next ih | now next ih => exact fun hs => ih _ hs
  | alloc size align next ih =>
    intro s hs
    have hdoes := Store.Does.of_onHeap (fun _ => .other) hs (·.allocAligned size align)
      (Store.does_alloc hs.there size align)
    exact .cons hdoes (ih _ (hdoes.attached hs))
  | readBytes address len next ih =>
    intro s hs
    rw [instants, Store.asked_eq hs]
    exact .cons (Store.does_read hs.record?_eq _) (ih _ hs)
  | decodeString address next ih =>
    intro s hs
    rw [instants, Store.asked_eq hs]
    exact .cons (Store.does_read hs.record?_eq _) (ih _ hs)
  | inspect next ih =>
    intro s hs
    rw [instants, Store.asked_eq hs]
    exact .cons (Store.does_view hs.record?_eq) (ih _ hs)
  | writeBytes address bytes next ih =>
    intro s hs
    have hdoes := Store.Does.of_onHeap (.ofWrite s.record address.toNat bytes) hs
      (fun h => (h.writeBytes address bytes).map fun h => ((), h))
      (Store.does_writeBytes hs.there address bytes)
    exact .cons hdoes (ih _ (hdoes.attached hs))
  | encodeString text next ih =>
    intro s hs
    have hdoes := Store.Does.of_onHeap (.ofString s.record text) hs (·.encodeString text)
      (Store.does_encodeString hs.there hs.record?_eq text)
    exact .cons hdoes (ih _ (hdoes.attached hs))
  | reset next ih =>
    intro s hs
    have hdoes := Store.Does.of_onHeap (fun _ => .other) hs (fun h => .ok ((), h.reset))
      (Store.does_reset hs.there)
    exact .cons hdoes (ih _ (hdoes.attached hs))
  | plant kind next ih =>
    intro s hs
    have hdoes := s.does_plant kind
    exact .cons hdoes (ih (hdoes.attached hs))
  -- The other requests touch a part of the store that no deed is about.
  | setState state next ih =>
    exact fun hs => .cons (Store.Alike.does ⟨⟨rfl, rfl, rfl⟩, rfl, rfl⟩) (ih hs)
  | random next ih =>
    exact fun hs => .cons (Store.Alike.does ⟨⟨rfl, rfl, rfl⟩, rfl, rfl⟩) (ih _ hs)
  | log line next ih =>
    exact fun hs => .cons (Store.Alike.does ⟨⟨rfl, rfl, rfl⟩, rfl, rfl⟩) (ih hs)

end HostCall

end SpiritHost
