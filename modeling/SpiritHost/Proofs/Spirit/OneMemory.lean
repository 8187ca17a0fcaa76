import SpiritHost.Loa.Declared
import SpiritHost.Proofs.Spirit.Loading
import SpiritHost.Proofs.Spirit.Record

/-!
# One memory

The holder of a Spirit and the host functions that its module calls work on one memory, at every
instant of the Spirit's life. So whatever one of them leaves there the others find, until somebody
overwrites it.
-/

namespace SpiritHost

open Wasm (Module)

namespace Spirit

variable {s : Spirit} {changes before after : List Change} {earlier later : List Instant}
  {x : Instant} {text : String} {address : UInt32}

/-- The holder of a Spirit and the host functions work on one memory, in every state that the Spirit
gets to and at every instant on the way there. -/
structure OneMemory (s : Spirit) : Prop where
  states : ∀ changes, (changeAll changes s).manager = s.manager ∧
    (changeAll changes s).store.record? = some s.manager ∧ (changeAll changes s).Attached
  /-- No host function is ever refused that memory. -/
  instants : ∀ changes, ∀ x ∈ changeInstantsAll changes s,
    x.store.record? = some s.manager ∧ x.store.AttachedAt s.manager ∧ x.deed ≠ .unattached
  /-- Whoever reads finds what is in that memory. -/
  finds : ∀ changes, ∀ x ∈ changeInstantsAll changes s, ∀ memory reading found,
    x.deed = .read memory reading found →
      memory = s.manager ∧ found = (x.store.heapAt s.manager).read reading
  /-- Whoever looks at the memory as a whole sees that memory. -/
  views : ∀ changes, ∀ x ∈ changeInstantsAll changes s, ∀ memory heap,
    x.deed = .view memory heap → memory = s.manager ∧ heap = x.store.heapAt s.manager
  /-- A string that the holder wrote is decoded by host functions until it is overwritten. -/
  written : ∀ before text address after,
    ((changeAll before s).writeString text).result = .ok address →
      ∀ earlier x later,
        changeInstantsAll after ((changeAll before s).writeString text).state =
            earlier ++ x :: later →
          (∀ y ∈ earlier, ∀ a, (Heap.stringRegion text address).Contains a →
            ¬y.deed.Covers s.manager a) →
            ∀ memory found, x.deed = .read memory (.string address) found →
              found = .ok (.text text)
  /-- A string that a host function encoded is read by the holder until it is overwritten. -/
  encoded : ∀ changes earlier x later,
    changeInstantsAll changes s = earlier ++ x :: later →
      ∀ text address, x.deed = .string s.manager text address →
        (∀ y ∈ later, ∀ a, (Heap.stringRegion text address).Contains a →
          ¬y.deed.Covers s.manager a) →
          (changeAll changes s).readString address = .ok text
  /-- Bytes that a host function or the module wrote are read by the holder until they are
  overwritten. -/
  stored : ∀ changes earlier x later,
    changeInstantsAll changes s = earlier ++ x :: later →
      ∀ place bytes, x.deed = .write s.manager place bytes →
        (∀ y ∈ later, ∀ a, place ≤ a → a < place + bytes.length → ¬y.deed.Covers s.manager a) →
          ∀ address len : UInt32, address.toNat = place → len.toNat = bytes.length →
            (changeAll changes s).heap.readBytes address len = .ok bytes
  /-- Whatever can be read at an instant, bytes, a text, a string or a record, is what the holder
  reads afterwards, until something that the reading looks at is overwritten. -/
  lasts : ∀ changes earlier x later,
    changeInstantsAll changes s = earlier ++ x :: later →
      ∀ reading found, (x.store.heapAt s.manager).read reading = .ok found →
        (∀ y ∈ later, ∀ a, (x.store.heapAt s.manager).Sees reading a →
          ¬y.deed.Covers s.manager a) →
          (changeAll changes s).heap.read reading = .ok found

/-! ## States and instants -/

/-- An instant of a run, with the trace from there to the end. -/
theorem Served.at (hs : s.Served) (h : changeInstantsAll changes s = earlier ++ x :: later) :
    x.store.Passes later (changeAll changes s).store ∧ x.deed.Outcome x.store := by
  have hpasses := changeAll_passes changes hs
  rw [h] at hpasses
  exact hpasses.at.2

theorem Served.instants (hs : s.Served) :
    ∀ x ∈ changeInstantsAll changes s,
      x.store.record? = some s.manager ∧ x.store.AttachedAt s.manager ∧ x.deed ≠ .unattached := by
  intro x hx
  have hfollows := (changeAll_passes changes hs).follows
  have hrecord := (hfollows.same x hx).1.trans hs.agree
  obtain ⟨hattached, hdeed⟩ := hfollows.served hs.store_attached x hx
  exact ⟨hrecord, Store.record_eq hrecord ▸ hattached.there, hdeed⟩

/-- Reading is served from the memory that the holder works on. -/
theorem Served.memory? (hs : s.Served) : ∀ x ∈ changeInstantsAll changes s,
    ∀ memory ∈ x.deed.memory?, memory = s.manager := by
  intro x hx memory hmemory
  obtain ⟨earlier, later, hsplit⟩ := List.append_of_mem hx
  have hpasses := changeAll_passes changes hs
  rw [hsplit] at hpasses
  obtain ⟨-, hdoes, -⟩ := Store.follows_append.1 hpasses.follows
  have hserved := hdoes.served memory hmemory
  rw [← hdoes.record?, (hs.instants x hx).1] at hserved
  exact (Option.some.inj hserved).symm

/-! ## What is left and what is found -/

/-- What can be read at an instant lasts. -/
theorem Served.read (hs : s.Served) (h : changeInstantsAll changes s = earlier ++ x :: later)
    {reading : Reading} {found : Finding}
    (hread : (x.store.heapAt s.manager).read reading = .ok found)
    (hapart : ∀ y ∈ later, ∀ a, (x.store.heapAt s.manager).Sees reading a →
      ¬y.deed.Covers s.manager a) :
    (changeAll changes s).heap.read reading = .ok found := by
  rw [heap_changeAll]
  exact (hs.at h).1.read hapart hread

/-- So do bytes that are written at an instant. -/
theorem Served.readBytes (hs : s.Served) (h : changeInstantsAll changes s = earlier ++ x :: later)
    {place : Nat} {bytes : Bytes} {len : UInt32} (hdeed : x.deed = .write s.manager place bytes)
    (hapart : ∀ y ∈ later, ∀ a, place ≤ a → a < place + bytes.length →
      ¬y.deed.Covers s.manager a)
    (hplace : address.toNat = place) (hlen : len.toNat = bytes.length) :
    (changeAll changes s).heap.readBytes address len = .ok bytes := by
  subst hplace
  have houtcome := (hs.at h).2
  rw [hdeed] at houtcome
  obtain ⟨hinside, hslice⟩ := houtcome
  have hthere : (x.store.heapAt s.manager).read (.bytes address len) = .ok (.bytes bytes) := by
    rw [← hlen] at hinside hslice
    refine Except.map_eq_ok_iff.2 ⟨bytes, ?_, rfl⟩
    rw [Heap.readBytes_eq]
    exact (if_pos hinside).trans (congrArg Except.ok hslice)
  have hlasts := hs.read h hthere fun y hy a hsees => by
    rw [← hlen] at hapart
    exact hapart y hy a hsees.1 hsees.2
  obtain ⟨found, hfound, heq⟩ := Except.map_eq_ok_iff.1 hlasts
  cases heq
  exact hfound

/-- So does a string that is encoded at an instant. -/
theorem Served.readString (hs : s.Served) (h : changeInstantsAll changes s = earlier ++ x :: later)
    (hdeed : x.deed = .string s.manager text address)
    (hapart : ∀ y ∈ later, ∀ a, (Heap.stringRegion text address).Contains a →
      ¬y.deed.Covers s.manager a) :
    (changeAll changes s).readString address = .ok text := by
  obtain ⟨hpasses, houtcome⟩ := hs.at h
  rw [hdeed] at houtcome
  have hholds := hpasses.holdsString hapart houtcome
  rw [← heap_changeAll] at hholds
  exact hholds.decodeString_eq

theorem holdsString_writeString (hs : s.Attached)
    (h : (s.writeString text).result = .ok address) :
    (s.writeString text).state.heap.HoldsString text address := by
  obtain ⟨k, hok⟩ := ok_of_onHeap (·.encodeString text) h
  have hheap : (s.writeString text).state.heap = (s.store.setHeapAt s.manager k).heapAt s.manager :=
    (onHeap_of_ok (·.encodeString text) hok).2
  rw [hheap, Store.heapAt_setHeapAt hs]
  exact (Heap.holds_encodeString hok).1

/-- A string that the holder wrote is decoded by whoever asks for it. -/
theorem Served.decodes (hs : s.Served) (hwrite : (s.writeString text).result = .ok address)
    (h : changeInstantsAll after (s.writeString text).state = earlier ++ x :: later)
    (hapart : ∀ y ∈ earlier, ∀ a, (Heap.stringRegion text address).Contains a →
      ¬y.deed.Covers s.manager a)
    {memory : Nat} {found : Except Error Finding}
    (hdeed : x.deed = .read memory (.string address) found) : found = .ok (.text text) := by
  have hwritten : (s.writeString text).state.Served := served_change hs (.host (.writeString text))
  have hmanager : (s.writeString text).state.manager = s.manager :=
    (s.same_perform (.writeString text)).manager
  have hholds := holdsString_writeString hs.attached hwrite
  have hmemory := hwritten.memory? x (h ▸ List.mem_append_right _ List.mem_cons_self) memory
    (by rw [hdeed]; rfl)
  have hpasses := changeAll_passes after hwritten
  rw [h] at hpasses
  obtain ⟨hbefore, -, houtcome⟩ := hpasses.at
  rw [Spirit.heap, hmanager] at hholds
  have hthere := hbefore.holdsString (fun y hy a ha => ?_) hholds
  · rw [hdeed] at houtcome
    have hfound : found = (x.store.heapAt memory).read (.string address) := houtcome
    rw [hfound, hmemory, hmanager]
    exact Except.map_eq_ok_iff.2 ⟨text, hthere.decodeString_eq, rfl⟩
  · rcases List.mem_append.1 hy with hy | hy
    · exact hapart y hy a ha
    · rw [List.mem_singleton.1 hy, hdeed]
      exact id

/-- **One memory.** A Spirit whose holder works on the memory of record has one memory. -/
theorem Served.oneMemory (hs : s.Served) : s.OneMemory where
  states changes := by
    have hmanager := (same_changeAll changes s).manager
    have hserved := served_changeAll changes hs
    exact ⟨hmanager, hserved.agree.trans (congrArg some hmanager), hserved.attached⟩
  instants changes := hs.instants
  finds changes x hx memory reading found hdeed := by
    obtain ⟨earlier, later, hsplit⟩ := List.append_of_mem hx
    have hmemory := hs.memory? x hx memory (by rw [hdeed]; rfl)
    have houtcome := (hs.at hsplit).2
    rw [hdeed] at houtcome
    subst hmemory
    exact ⟨rfl, houtcome⟩
  views changes x hx memory heap hdeed := by
    obtain ⟨earlier, later, hsplit⟩ := List.append_of_mem hx
    have hmemory := hs.memory? x hx memory (by rw [hdeed]; rfl)
    have houtcome := (hs.at hsplit).2
    rw [hdeed] at houtcome
    subst hmemory
    exact ⟨rfl, houtcome⟩
  written before text address after hwrite earlier x later h hapart memory found hdeed := by
    refine (served_changeAll before hs).decodes hwrite h (fun y hy a ha => ?_) hdeed
    rw [(same_changeAll before s).manager]
    exact hapart y hy a ha
  encoded changes earlier x later h text address := hs.readString h
  stored changes earlier x later h place bytes hdeed hapart address len :=
    hs.readBytes h hdeed hapart
  lasts changes earlier x later h reading found := hs.read h

end Spirit

/-! ## Loading -/

namespace Loader

variable {l : Loader} {bytes : Bytes} {o : LoadOptions}

/-- The memory that the host made is still there, grown or not. -/
theorem Stages.extends_hostMemory (st : Stages l bytes o) :
    st.memory.Extends (st.spirit.store.memory hostMemory) := by
  obtain ⟨hchained, hending⟩ := st.chained
  have hextends := Heap.extends_ending hchained
  rw [hending, Store.heap, st.record_started] at hextends
  rwa [st.memory_spirit]

/-- All through a load the memory of record is the one that the host made, and it is there. -/
theorem places_instants (l : Loader) (bytes : Bytes) (o : LoadOptions) :
    ∀ x ∈ l.instants bytes o, x.store.record? = some hostMemory ∧
      x.store.AttachedAt hostMemory ∧ x.deed ≠ .unattached := by
  intro x hx
  rcases l.load_cases bytes o with ⟨_, -, hnone⟩ | ⟨memory, t, hleads, -⟩
  · rw [hnone] at hx
    cases hx
  · obtain ⟨hrecord, hattached, hdeed⟩ := hleads.places x hx
    have hhost : x.store.record? = some hostMemory := hrecord
    exact ⟨hhost, Store.record_eq hhost ▸ hattached.there, hdeed⟩

/-- **Agreement.** All through a load, whether it succeeds or not, host functions have the memory that
the host made, and none is refused it. From then on they and the holder have one memory: the one that
the module exports under the memory's name, if it exports one, and otherwise the one that the host
made. -/
theorem agree_on_memory (l : Loader) (bytes : Bytes) (o : LoadOptions) :
    (∀ x ∈ l.instants bytes o, x.store.record? = some hostMemory ∧
        x.store.AttachedAt hostMemory ∧ x.deed ≠ .unattached) ∧
      ∀ s, (l.load bytes o).result = .ok s →
        (∃ created, memory o.memory = .ok created ∧
          created.Extends (s.store.memory hostMemory)) ∧
        s.linked.memories = memoryAddresses s.source ∧ Serves s.source s.manager ∧
        s.OneMemory := by
  refine ⟨places_instants l bytes o, fun s hload => ?_⟩
  obtain ⟨st, rfl⟩ := load_eq_ok.1 hload
  refine ⟨⟨st.memory, st.created, st.extends_hostMemory⟩, ?_, ?_, st.served.oneMemory⟩
  · rw [st.linked_spirit, st.source_spirit]
    exact st.addresses_inst
  · rw [st.source_spirit]
    exact st.serves

/-- A module with a memory of its own, which it exports. Its function `f` asks the host for the size
of a string. -/
def measuringModule : Bytes := [
  0x00, 0x61, 0x73, 0x6d, 0x01, 0x00, 0x00, 0x00,
  0x01, 0x06, 0x01, 0x60, 0x01, 0x7f, 0x01, 0x7f,
  0x02, 0x15, 0x01, 0x03, 0x65, 0x6e, 0x76, 0x0d, 0x73, 0x74, 0x72, 0x69, 0x6e, 0x67, 0x5f, 0x6c,
  0x65, 0x6e, 0x67, 0x74, 0x68, 0x00, 0x00,
  0x03, 0x02, 0x01, 0x00,
  0x05, 0x03, 0x01, 0x00, 0x01,
  0x07, 0x0e, 0x02, 0x06, 0x6d, 0x65, 0x6d, 0x6f, 0x72, 0x79, 0x02, 0x00, 0x01, 0x66, 0x00, 0x01,
  0x0a, 0x08, 0x01, 0x06, 0x00, 0x20, 0x00, 0x10, 0x00, 0x0b]

/-- Options that add the function it asks for. -/
def withMeasure : LoadOptions where
  imports := [({ name := "measure", functions := [("string_length", .stringLength)] } :
    LoaDeclaration).toLoa]

/-- What the holder writes into the module's memory, the host function finds there. -/
example : (do
    let s ← (shortLoader.load measuringModule withMeasure).result.toOption
    let written := s.writeString "né"
    let address ← written.result.toOption
    (written.state.call "f" [.i32 address]).result.toOption) = some [.i32 3] := by
  decide +kernel

theorem agree_on_memory_measuring : ∃ s,
    (shortLoader.load measuringModule withMeasure).result = .ok s ∧ s.manager ≠ hostMemory ∧
      (∀ x ∈ shortLoader.instants measuringModule withMeasure,
        x.store.record? = some hostMemory ∧ x.store.AttachedAt hostMemory ∧
          x.deed ≠ .unattached) ∧
      (∃ created, memory withMeasure.memory = .ok created ∧
        created.Extends (s.store.memory hostMemory)) ∧
      s.linked.memories = memoryAddresses s.source ∧ Serves s.source s.manager ∧
      s.OneMemory := by
  have hload : ((shortLoader.load measuringModule withMeasure).result.toOption.map (·.manager)) =
      some 1 := by
    decide +kernel
  obtain ⟨hplaces, hserved⟩ := agree_on_memory shortLoader measuringModule withMeasure
  cases hresult : (shortLoader.load measuringModule withMeasure).result with
  | error e =>
    rw [hresult] at hload
    cases hload
  | ok s =>
    rw [hresult] at hload
    have hmanager : s.manager = 1 := Option.some.inj hload
    exact ⟨s, rfl, by rw [hmanager]; decide, hplaces, hserved s hresult⟩

end Loader

end SpiritHost
