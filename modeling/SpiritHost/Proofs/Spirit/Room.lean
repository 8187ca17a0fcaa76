import SpiritHost.Proofs.Gene.Least
import SpiritHost.Proofs.Spirit.History
import SpiritHost.Proofs.Spirit.Null
import SpiritHost.Proofs.Spirit.Storing

/-!
# Room for records

An allocation for a record makes room for it: the address suits every field, the record can be
stored there at any later time, and storing it spares every other region of its generation
(`Loader.room_of_allocRecord`). Three parts have to fit together for that: the rounding of the
cursor, the padding of the layout, and the check of the range that is written.
-/

namespace SpiritHost

/-- A region lies behind every earlier one of its generation and before every later one. -/
theorem Allocator.beside_of_chained {a : Allocator} {past future : List (Moment Allocator)}
    {x : Moment Allocator} (h : Chained Moves a (past ++ x :: future)) :
    ∀ m ∈ past ++ future, m.state.generation = x.state.generation →
      ∀ p ∈ m.event.region?, ∀ q ∈ x.event.region?,
        p.finish ≤ q.address.toNat ∨ q.finish ≤ p.address.toNat := by
  obtain ⟨-, hrest, hearlier⟩ := List.pairwise_append.1 (pairwise_regions h)
  obtain ⟨hlater, -⟩ := List.pairwise_cons.1 hrest
  intro m hm hgeneration p hp q hq
  rcases List.mem_append.1 hm with hm | hm
  · exact .inl (hearlier m hm x List.mem_cons_self hgeneration p hp q hq)
  · exact .inr (hlater m hm hgeneration.symm q hq p hp)

/-- Storing a record spares the regions beside its own. -/
theorem Heap.byte_of_beside {h k : Heap} {g : GeneLayout} {address : UInt32} {r : Record}
    {q : Region} {a : Nat} (hapart : FieldLayout.Apart g.fields g.size.toNat)
    (hok : h.writeRecord g address r = .ok k)
    (hbeside : q.finish ≤ address.toNat ∨ address.toNat + g.size.toNat ≤ q.address.toNat)
    (ha : q.Contains a) : k.memory.byte a = h.memory.byte a := by
  refine (rewrites_writeRecord hok).byte a ?_
  rintro ⟨f, hf, hlow, hhigh⟩
  have hfinish := hapart.inside f hf
  obtain ⟨hge, hlt⟩ := ha
  omega

namespace Spirit

/-- There is room for a record at an address, whatever happens to the Spirit from now on. The
moments past are those up to the allocation. -/
structure HasRoom (s : Spirit) (past : List (Moment Heap)) (g : GeneLayout) (address : UInt32)
    (r : Record) : Prop where
  /-- Each field has an address, a multiple of its alignment. -/
  aligned : ∀ f ∈ g.fields, address.toNat + f.offset.toNat < UInt32.size ∧
    f.type.alignment.toNat ∣ address.toNat + f.offset.toNat
  /-- The record can be stored, now and later. -/
  stores : ∀ changes, ((changeAll changes s).writeRecord g address r).result = .ok ()
  /-- Storing it changes no byte of any other region of its generation, issued before or since. -/
  spares : ∀ changes, ∀ m ∈ past ++ changeHistoryAll changes s,
    m.state.allocator.generation = s.heap.allocator.generation →
      ∀ q ∈ m.event.region?, ∀ a, q.Contains a →
        ((changeAll changes s).writeRecord g address r).state.heap.memory.byte a =
          (changeAll changes s).heap.memory.byte a

variable {s : Spirit} {base address : UInt32} {past : List (Moment Heap)} {g : GeneLayout}
  {r : Record} {name : String} {declared : List (String × FieldType)}

/-- The heap that an allocation for a record leaves. -/
theorem moves_of_allocRecord (hs : s.Served)
    (halloc : (s.allocRecord g).result = .ok address) :
    s.heap.Moves (.issued ⟨address, g.size, g.alignment⟩) (s.allocRecord g).state.heap := by
  obtain ⟨k, hok⟩ := ok_of_onHeap (·.allocRecord g) halloc
  have hheap : (s.allocRecord g).state.heap = k :=
    heap_of_onHeap (·.allocRecord g) hok fun h => absurd hs.attached h
  rw [hheap]
  exact Heap.moves_of_allocAligned hok

/-- A region that lies inside the memory stays inside. -/
theorem Served.inside_changeAll (hs : s.Served) {size : Nat} (hinside : size ≤ s.heap.memory.size)
    (changes : List Change) : size ≤ (changeAll changes s).heap.memory.size := by
  obtain ⟨hchained, hending⟩ := hs.heaps_changeAll changes
  have hextends := Heap.extends_ending hchained
  rw [hending] at hextends
  exact Nat.le_trans hinside hextends.size_le

/-- A field of a record that was allocated lies in the address space. -/
theorem space_of_allocRecord (hs : s.Served) (hapart : FieldLayout.Apart g.fields g.size.toNat)
    (halloc : (s.allocRecord g).result = .ok address) :
    ∀ f ∈ g.fields, address.toNat + f.offset.toNat < UInt32.size := by
  intro f hf
  have hfinish := hapart.inside f hf
  have hlt := (s.allocRecord g).state.heap.allocator.cursor.toNat_lt
  rw [(moves_of_allocRecord hs halloc).allocator.le_issued.2.2] at hlt
  unfold FieldLayout.finish at hfinish
  unfold Region.finish at hlt
  have hsize : UInt32.size = 2 ^ 32 := rfl
  dsimp only at hlt
  omega

section

variable (hs : s.Served)
  (hpast : Chained Allocator.Moves (.new base) (past.map (.map Heap.allocator)))
  (hending : ending (.new base) (past.map (.map Heap.allocator)) = s.heap.allocator)
  (halloc : (s.allocRecord g).result = .ok address)
include hs hpast hending halloc

/-- The other regions of its generation lie beside that of the record. -/
theorem beside_of_allocRecord (changes : List Change) :
    ∀ m ∈ past ++ changeHistoryAll changes (s.allocRecord g).state,
      m.state.allocator.generation = (s.allocRecord g).state.heap.allocator.generation →
        ∀ q ∈ m.event.region?,
          q.finish ≤ address.toNat ∨ address.toNat + g.size.toNat ≤ q.address.toNat := by
  have hserved : (s.allocRecord g).state.Served := served_change hs (.host (.allocRecord g))
  have hfuture := Heap.chained_allocator (hserved.heaps_changeAll changes).1
  have hmoves := (moves_of_allocRecord hs halloc).allocator
  have hall : Chained Allocator.Moves (.new base) (past.map (.map Heap.allocator) ++
      ⟨.issued ⟨address, g.size, g.alignment⟩, (s.allocRecord g).state.heap.allocator⟩ ::
        (changeHistoryAll changes (s.allocRecord g).state).map (.map Heap.allocator)) := by
    refine chained_append.2 ⟨hpast, ?_⟩
    rw [hending]
    exact ⟨hmoves, hfuture⟩
  intro m hm hgeneration q hq
  refine Allocator.beside_of_chained hall (m.map Heap.allocator) ?_ hgeneration q hq _ rfl
  rw [← List.map_append]
  exact List.mem_map_of_mem hm

/-- **Room.** It is there after an allocation, if the moments past lead from a fresh allocator to
that of the Spirit. -/
theorem hasRoom_of_allocRecord (hlayout : GeneLayout.ofFields name declared = .ok g)
    (hvalues : ∀ f ∈ g.fields, ∃ v, r.get? f.name = some v ∧ v.kind = f.type.takes) :
    (s.allocRecord g).state.HasRoom past g address r := by
  have hlaid := GeneLayout.laid_of_ofFields hlayout
  have hapart := GeneLayout.apart_ofFields hlayout
  have hmoves := moves_of_allocRecord hs halloc
  have hserved : (s.allocRecord g).state.Served := served_change hs (.host (.allocRecord g))
  have hspace := space_of_allocRecord hs hapart halloc
  have hwrite : ∀ changes, ∃ k,
      (changeAll changes (s.allocRecord g).state).heap.writeRecord g address r = .ok k := by
    intro changes
    refine Heap.writeRecord_of_writable hapart (fun f hf => ⟨hvalues f hf, hspace f hf⟩) ?_
    exact hserved.inside_changeAll (hmoves.inside _ rfl) changes
  refine ⟨fun f hf => ⟨hspace f hf, ?_⟩, fun changes => ?_, ?_⟩
  · have hdvd := hmoves.allocator.le_issued.2.1
    exact Nat.dvd_add (Nat.dvd_trans (hlaid.dvd_alignment hf) hdvd) (hlaid.dvd_offset hf)
  · obtain ⟨k, hok⟩ := hwrite changes
    exact (writeRecord_of_ok hapart hok).1
  · intro changes m hm hgeneration q hq a ha
    obtain ⟨k, hok⟩ := hwrite changes
    have hbeside := beside_of_allocRecord hs hpast hending halloc changes m hm hgeneration q hq
    rw [(writeRecord_of_ok hapart hok).2]
    exact Heap.byte_of_beside hapart hok hbeside ha

end

end Spirit

namespace Loader

variable {l : Loader} {bytes : Bytes} {o : LoadOptions} {s : Spirit} {changes : List Change}
  {g : GeneLayout} {address : UInt32} {r : Record} {name : String}
  {declared : List (String × FieldType)}

/-- The moments of a load and of what is done afterwards, seen through the allocator. -/
theorem Stages.allocators (st : l.Stages bytes o) (changes : List Change) :
    Chained Allocator.Moves (.new o.heapBase)
        ((st.history ++ Spirit.changeHistoryAll changes st.spirit).map (.map Heap.allocator)) ∧
      ending (.new o.heapBase)
          ((st.history ++ Spirit.changeHistoryAll changes st.spirit).map (.map Heap.allocator)) =
        (Spirit.changeAll changes st.spirit).heap.allocator := by
  obtain ⟨hearly, hend⟩ := st.chained
  obtain ⟨hlate, hfinal⟩ := st.served.heaps_changeAll changes
  have hsame : (ending ⟨st.memory, .new o.heapBase⟩ st.history).allocator =
      st.spirit.heap.allocator := by
    rw [hend, st.allocator_spirit]
    rfl
  refine ⟨chained_allocators hearly hsame hlate, ?_⟩
  rw [List.map_append, ending_append, ending_allocators o.heapBase st.memory, hsame, ending_map,
    hfinal]

/-- **Room for records.** Whatever a Spirit was loaded from and whatever has been done with it, an
allocation for a record makes room for it. -/
theorem room_of_allocRecord (hload : (l.load bytes o).result = .ok s)
    (hlayout : GeneLayout.ofFields name declared = .ok g)
    (hvalues : ∀ f ∈ g.fields, ∃ v, r.get? f.name = some v ∧ v.kind = f.type.takes)
    (halloc : ((Spirit.changeAll changes s).allocRecord g).result = .ok address) :
    ∃ st : l.Stages bytes o, st.spirit = s ∧
      ((Spirit.changeAll changes s).allocRecord g).state.HasRoom
        (st.history ++ Spirit.changeHistoryAll changes s) g address r := by
  obtain ⟨st, rfl⟩ := load_eq_ok.1 hload
  obtain ⟨hpast, hending⟩ := st.allocators changes
  have hserved := Spirit.served_changeAll changes st.served
  exact ⟨st, rfl,
    Spirit.hasRoom_of_allocRecord hserved hpast hending halloc hlayout hvalues⟩

/-- Allocations by the holder and by code, a reset, and a page more. -/
def busy : List Change :=
  [.host (.alloc 3), .host (.call "f" []), .host .reset, .host (.allocAligned 5 17), .grow 1]

/-- A Spirit, and where a record is allocated after all that. -/
def allocated : Except Error (Spirit × GeneLayout × UInt32) := do
  let g ← GeneLayout.ofFields "Sample" Heap.everyType
  let s ← (shortLoader.load allocatingModule {}).result
  .ok (s, g, ← ((Spirit.changeAll busy s).allocRecord g).result)

theorem room_of_allocRecord_busy : ∃ s g address,
    (shortLoader.load allocatingModule {}).result = .ok s ∧
      GeneLayout.ofFields "Sample" Heap.everyType = .ok g ∧
      (∀ f ∈ g.fields, ∃ v, Heap.everyValue.get? f.name = some v ∧ v.kind = f.type.takes) ∧
      ((Spirit.changeAll busy s).allocRecord g).result = .ok address ∧
      ∃ st : shortLoader.Stages allocatingModule {}, st.spirit = s ∧
        ((Spirit.changeAll busy s).allocRecord g).state.HasRoom
          (st.history ++ Spirit.changeHistoryAll busy s) g address Heap.everyValue := by
  obtain ⟨_, hok⟩ := Except.isOk_iff.1 (show allocated.isOk = true by decide +kernel)
  obtain ⟨g, hlayout, hok⟩ := Except.bind_eq_ok_iff.1 hok
  obtain ⟨s, hload, hok⟩ := Except.bind_eq_ok_iff.1 hok
  obtain ⟨address, halloc, -⟩ := Except.bind_eq_ok_iff.1 hok
  have hgiven : ∀ d ∈ Heap.everyType,
      ∃ v, Heap.everyValue.get? d.1 = some v ∧ v.kind = d.2.takes := by
    intro d hd
    simp only [Heap.everyType, List.mem_cons, List.not_mem_nil, or_false] at hd
    rcases hd with rfl | rfl | rfl | rfl | rfl | rfl | rfl <;> exact ⟨_, rfl, rfl⟩
  have hvalues : ∀ f ∈ g.fields,
      ∃ v, Heap.everyValue.get? f.name = some v ∧ v.kind = f.type.takes := by
    intro f hf
    have hdeclared := (GeneLayout.laid_of_ofFields hlayout).fields
    exact hgiven (f.name, f.type) (hdeclared ▸ List.mem_map_of_mem hf)
  exact ⟨s, g, address, hload, hlayout, hvalues, halloc,
    room_of_allocRecord hload hlayout hvalues halloc⟩

example : allocated.toOption.map (·.2.2) = some 1032 := by
  decide +kernel

end Loader

end SpiritHost
