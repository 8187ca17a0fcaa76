import SpiritHost.Proofs.Memory.Storing
import SpiritHost.Proofs.Spirit.Allocation

/-!
# Records stored by the holder

A record is stored in a Spirit's memory as a whole or not at all (`writeRecord_atomic`). If it is
stored, the bytes of its fields are those of its values and every other byte is what it was, padding
included; if it is refused, the error names the first field at fault, or the range if there is none,
and nothing has changed.
-/

namespace SpiritHost

namespace Heap

variable {h k : Heap} {g : GeneLayout} {address : UInt32} {r : Record}

theorem eq_of_writeRecord (hfields : g.fields = []) (hok : h.writeRecord g address r = .ok k) :
    k = h := by
  obtain ⟨parts, hencode, hwrite⟩ := Except.bind_eq_ok_iff.1 hok
  rw [hfields] at hencode
  cases hencode
  split at hwrite
  · cases hwrite
  · cases hwrite
    rfl

/-- In a memory without bytes there is no room for a field. -/
theorem fields_eq_nil (hapart : FieldLayout.Apart g.fields g.size.toNat)
    (hinside : address.toNat + g.size.toNat ≤ 0) : g.fields = [] := by
  by_contra hfields
  obtain ⟨f, hf⟩ := List.exists_mem_of_ne_nil _ hfields
  have hfinish := hapart.inside f hf
  have hsize : 0 < f.type.size.toNat := by cases f.type <;> decide
  unfold FieldLayout.finish at hfinish
  omega

end Heap

namespace Spirit

variable {s : Spirit} {g : GeneLayout} {address : UInt32} {r : Record}

theorem writeRecord_of_ok {k : Heap} (hapart : FieldLayout.Apart g.fields g.size.toNat)
    (hok : s.heap.writeRecord g address r = .ok k) :
    (s.writeRecord g address r).result = .ok () ∧
      (s.writeRecord g address r).state.heap = k := by
  have hmapped : (s.heap.writeRecord g address r).map (fun k => ((), k)) = .ok ((), k) := by
    rw [hok]
    rfl
  refine ⟨(onHeap_of_ok (fun h => (h.writeRecord g address r).map fun k => ((), k)) hmapped).1,
    heap_of_onHeap (fun h => (h.writeRecord g address r).map fun k => ((), k)) hmapped ?_⟩
  intro hs
  have hinside := ((Heap.exists_writeRecord_iff hapart).1 ⟨k, hok⟩).2
  rw [memory_of_detached hs] at hinside
  rw [Heap.eq_of_writeRecord (Heap.fields_eq_nil hapart hinside) hok]

theorem writeRecord_of_error {e : Error} (herror : s.heap.writeRecord g address r = .error e) :
    (s.writeRecord g address r).result = .error e ∧
      (s.writeRecord g address r).state.heap = s.heap := by
  refine onHeap_of_error (fun h => (h.writeRecord g address r).map fun k => ((), k)) ?_
  rw [herror]
  rfl

/-- What storing a record does. -/
structure WritesRecord (s : Spirit) (g : GeneLayout) (address : UInt32) (r : Record) : Prop where
  /-- It succeeds exactly if every field can be written and the record lies in memory. -/
  ok_iff : (s.writeRecord g address r).result = .ok () ↔
    (∀ f ∈ g.fields, Writable address r f) ∧ address.toNat + g.size.toNat ≤ s.heap.memory.size
  /-- Bytes of fields are replaced and no others. Neither the size of the memory nor the allocator
  changes. -/
  others : (s.writeRecord g address r).result = .ok () →
    Heap.Rewrites (fun a => ∃ f ∈ g.fields, f.Covers address a) s.heap
      (s.writeRecord g address r).state.heap
  /-- Each field has the bytes of its value. -/
  fields : (s.writeRecord g address r).result = .ok () → ∀ f ∈ g.fields, ∃ v bytes,
    r.get? f.name = some v ∧ Heap.fieldBytes? f.type v = some bytes ∧
      bytes.length = f.type.size.toNat ∧
      (s.writeRecord g address r).state.heap.memory.slice (address.toNat + f.offset.toNat)
        f.type.size.toNat = bytes
  /-- If it fails, either a field is at fault, the first of them, or the record does not lie in
  memory. -/
  error_iff : ∀ e, (s.writeRecord g address r).result = .error e ↔
    FirstFault g address r e ∨ (∀ f ∈ g.fields, Writable address r f) ∧
      s.heap.memory.size < address.toNat + g.size.toNat ∧ e = .memoryAccess address g.size.toNat
  /-- Then nothing has changed. -/
  unchanged : ∀ e, (s.writeRecord g address r).result = .error e →
    (s.writeRecord g address r).state.heap = s.heap
  /-- Once the fields are encoded and the record is known to lie in memory, every write of the loop
  succeeds, so nothing fails after the first. -/
  loop : ∀ parts, g.fields.mapM (Heap.encodeField g address r) = .ok parts →
    address.toNat + g.size.toNat ≤ s.heap.memory.size →
      ∀ count, ∃ k, Heap.writeAll (parts.take count) s.heap = .ok k

theorem fields_of_ok {k : Heap} (hapart : FieldLayout.Apart g.fields g.size.toNat)
    (hok : s.heap.writeRecord g address r = .ok k) : ∀ f ∈ g.fields, ∃ v bytes,
      r.get? f.name = some v ∧ Heap.fieldBytes? f.type v = some bytes ∧
        bytes.length = f.type.size.toNat ∧
        k.memory.slice (address.toNat + f.offset.toNat) f.type.size.toNat = bytes := by
  intro f hf
  obtain ⟨v, place, bytes, hget, hplace, hbytes, -, hslice⟩ :=
    Heap.holds_writeRecord hapart.ordered hok f hf
  have hlength := Heap.length_fieldBytes? hbytes
  rw [Heap.fieldAddress_eq_ok hplace, hlength] at hslice
  exact ⟨v, bytes, hget, hbytes, hlength, hslice⟩

/-- **Storing.** A record is stored as a whole or not at all. -/
theorem writeRecord_atomic {name : String} {declared : List (String × FieldType)}
    (hlayout : GeneLayout.ofFields name declared = .ok g)
    (s : Spirit) (address : UInt32) (r : Record) : s.WritesRecord g address r := by
  have hapart := GeneLayout.apart_ofFields hlayout
  have hloop : ∀ parts, g.fields.mapM (Heap.encodeField g address r) = .ok parts →
      address.toNat + g.size.toNat ≤ s.heap.memory.size →
        ∀ count, ∃ k, Heap.writeAll (parts.take count) s.heap = .ok k := by
    intro parts hencode hinside count
    refine Heap.writeAll_of_fits fun part hpart => ?_
    exact Heap.fits_of_encoded hapart hencode hinside part (List.mem_of_mem_take hpart)
  cases hwrite : s.heap.writeRecord g address r with
  | ok k =>
    obtain ⟨hresult, hheap⟩ := writeRecord_of_ok hapart hwrite
    have hwritable := (Heap.exists_writeRecord_iff hapart).1 ⟨k, hwrite⟩
    refine ⟨?_, ?_, ?_, fun e => ?_, ?_, hloop⟩
    · exact ⟨fun _ => hwritable, fun _ => hresult⟩
    · intro _
      rw [hheap]
      exact Heap.rewrites_writeRecord hwrite
    · intro _
      rw [hheap]
      exact fields_of_ok hapart hwrite
    · rw [hresult, ← Heap.writeRecord_eq_error_iff hapart, hwrite]
      simp
    · intro e herror
      rw [hresult] at herror
      cases herror
  | error e =>
    obtain ⟨hresult, hheap⟩ := writeRecord_of_error hwrite
    refine ⟨?_, ?_, ?_, fun e => ?_, fun _ _ => hheap, hloop⟩
    · rw [← Heap.exists_writeRecord_iff hapart, hresult, hwrite]
      simp
    · intro hok
      rw [hresult] at hok
      cases hok
    · intro hok
      rw [hresult] at hok
      cases hok
    · rw [hresult, ← Heap.writeRecord_eq_error_iff hapart, hwrite]
      simp

theorem writeRecord_atomic_everyType : ∃ g,
    GeneLayout.ofFields "Sample" Heap.everyType = .ok g ∧
      codeless.WritesRecord g 1024 Heap.everyValue := by
  obtain ⟨g, hlayout⟩ := Except.isOk_iff.1
    (show (GeneLayout.ofFields "Sample" Heap.everyType).isOk = true by decide +kernel)
  exact ⟨g, hlayout, writeRecord_atomic hlayout codeless 1024 Heap.everyValue⟩

end Spirit

end SpiritHost
