import SpiritHost.Proofs.Memory.Allocation
import SpiritHost.Proofs.Memory.Records

/-!
# Storing records

A record is checked field by field before anything is written. The first field at fault decides the
error (`FirstFault`); if there is none, one check of the whole range is left, and as the fields of a
layout lie inside it, no write after that can fail (`Heap.writeAll_of_fits`). So a record is stored
or refused as a whole, and `Heap.writeRecord_eq_error_iff` says when it is refused and why.
-/

namespace SpiritHost

/-! ## Fields -/

/-- The kind of value that a field of a type is given. -/
def FieldType.takes : FieldType → FieldKind
  | i32 => .i32
  | i64 => .i64
  | f32 => .f32
  | f64 => .f64
  | bool => .bool
  | string => .address

/-- A record has a value for a field, of the kind that it takes, and the field has an address. -/
structure Writable (address : UInt32) (r : Record) (f : FieldLayout) : Prop where
  value : ∃ v, r.get? f.name = some v ∧ v.kind = f.type.takes
  space : address.toNat + f.offset.toNat < UInt32.size

/-- What is wrong with a field. A value that is not there comes before an address that is none, and
that before a value of another kind. -/
inductive Faulty (address : UInt32) (r : Record) (f : FieldLayout) : FieldFault → Prop
  | missing (value : r.get? f.name = none) : Faulty address r f .missing
  | overflow {v : FieldValue} (value : r.get? f.name = some v)
      (space : UInt32.size ≤ address.toNat + f.offset.toNat) :
      Faulty address r f (.overflow address f.offset)
  | mismatch {v : FieldValue} (value : r.get? f.name = some v)
      (space : address.toNat + f.offset.toNat < UInt32.size) (kind : v.kind ≠ f.type.takes) :
      Faulty address r f (.mismatch f.type v.kind)

/-- The error about the first field of a gene, in the order of their declaration, with which
something is wrong. -/
def FirstFault (g : GeneLayout) (address : UInt32) (r : Record) (e : Error) : Prop :=
  ∃ before f after fault, g.fields = before ++ f :: after ∧
    (∀ x ∈ before, Writable address r x) ∧ Faulty address r f fault ∧
    e = .field g.name f.name fault

namespace Heap

variable {h k : Heap} {g : GeneLayout} {address : UInt32} {r : Record} {f : FieldLayout}
  {fault : FieldFault} {fields : List FieldLayout} {parts : List (UInt32 × Bytes)} {e : Error}

theorem isSome_fieldBytes?_iff {t : FieldType} {v : FieldValue} :
    (fieldBytes? t v).isSome = true ↔ v.kind = t.takes := by
  cases t <;> cases v <;> simp [fieldBytes?, FieldValue.kind, FieldType.takes]

theorem fieldAddress_of_lt (hlt : address.toNat + f.offset.toNat < UInt32.size) :
    g.fieldAddress address f = .ok (address + f.offset) := by
  rw [GeneLayout.fieldAddress, if_pos hlt]

theorem fieldAddress_of_le (hle : UInt32.size ≤ address.toNat + f.offset.toNat) :
    g.fieldAddress address f = .error (.field g.name f.name (.overflow address f.offset)) := by
  rw [GeneLayout.fieldAddress, if_neg (Nat.not_lt.2 hle)]

/-- Either a field can be written or something is wrong with it. -/
theorem writable_or_faulty (address : UInt32) (r : Record) (f : FieldLayout) :
    Writable address r f ∨ ∃ fault, Faulty address r f fault := by
  cases hvalue : r.get? f.name with
  | none => exact .inr ⟨_, .missing hvalue⟩
  | some v =>
    by_cases hspace : address.toNat + f.offset.toNat < UInt32.size
    · by_cases hkind : v.kind = f.type.takes
      · exact .inl ⟨⟨v, hvalue, hkind⟩, hspace⟩
      · exact .inr ⟨_, .mismatch hvalue hspace hkind⟩
    · exact .inr ⟨_, .overflow hvalue (Nat.le_of_not_lt hspace)⟩

theorem encodeField_of_writable (hf : Writable address r f) :
    ∃ part, encodeField g address r f = .ok part := by
  obtain ⟨⟨v, hvalue, hkind⟩, hspace⟩ := hf
  obtain ⟨bytes, hbytes⟩ := Option.isSome_iff_exists.1 (isSome_fieldBytes?_iff.2 hkind)
  refine ⟨(address + f.offset, bytes), ?_⟩
  simp [encodeField, hvalue, fieldAddress_of_lt hspace, hbytes, bind, Except.bind]

theorem encodeField_of_faulty (hf : Faulty address r f fault) :
    encodeField g address r f = .error (.field g.name f.name fault) := by
  cases hf with
  | missing hvalue => simp [encodeField, hvalue, bind, Except.bind]
  | overflow hvalue hspace =>
    simp [encodeField, hvalue, fieldAddress_of_le hspace, bind, Except.bind]
  | mismatch hvalue hspace hkind =>
    have hbytes := Option.not_isSome_iff_eq_none.1 (mt isSome_fieldBytes?_iff.1 hkind)
    simp [encodeField, hvalue, fieldAddress_of_lt hspace, hbytes, bind, Except.bind]

/-- **One field.** It is encoded exactly if it can be written, -/
theorem exists_encodeField_iff :
    (∃ part, encodeField g address r f = .ok part) ↔ Writable address r f := by
  refine ⟨?_, encodeField_of_writable⟩
  rintro ⟨part, hpart⟩
  rcases writable_or_faulty address r f with hf | ⟨fault, hf⟩
  · exact hf
  · rw [encodeField_of_faulty hf] at hpart
    cases hpart

/-- and otherwise the error says what is wrong. -/
theorem encodeField_eq_error_iff : encodeField g address r f = .error e ↔
    ∃ fault, Faulty address r f fault ∧ e = .field g.name f.name fault := by
  constructor
  · intro he
    rcases writable_or_faulty address r f with hf | ⟨fault, hf⟩
    · obtain ⟨part, hpart⟩ := encodeField_of_writable (g := g) hf
      rw [hpart] at he
      cases he
    · rw [encodeField_of_faulty hf] at he
      cases he
      exact ⟨fault, hf, rfl⟩
  · rintro ⟨fault, hf, rfl⟩
    exact encodeField_of_faulty hf

/-! ## Records -/

theorem exists_encoded_iff :
    (∃ parts, g.fields.mapM (encodeField g address r) = .ok parts) ↔
      ∀ f ∈ g.fields, Writable address r f := by
  simp only [Except.exists_mapM_eq_ok_iff, exists_encodeField_iff]

theorem encoded_eq_error_iff :
    g.fields.mapM (encodeField g address r) = .error e ↔ FirstFault g address r e := by
  simp only [Except.mapM_eq_error_iff, exists_encodeField_iff, encodeField_eq_error_iff]
  constructor
  · rintro ⟨before, f, after, hfields, hbefore, fault, hfault, rfl⟩
    exact ⟨before, f, after, fault, hfields, hbefore, hfault, rfl⟩
  · rintro ⟨before, f, after, fault, hfields, hbefore, hfault, rfl⟩
    exact ⟨before, f, after, hfields, hbefore, fault, hfault, rfl⟩

/-- **The loop.** Ranges that lie in memory are all written. -/
theorem writeAll_of_fits {parts : List (UInt32 × Bytes)} {h : Heap}
    (hfits : ∀ part ∈ parts, part.1.toNat + part.2.length ≤ h.memory.size) :
    ∃ k, writeAll parts h = .ok k := by
  induction parts generalizing h with
  | nil => exact ⟨h, rfl⟩
  | cons part rest ih =>
    obtain ⟨l, hwrite⟩ := writeBytes_of_le (hfits part List.mem_cons_self)
    -- A write leaves the size, so the ranges that follow still lie in memory.
    have hsize : l.memory.size = h.memory.size := (writeBytes_eq_ok hwrite).1.size
    obtain ⟨k, hrest⟩ := ih fun x hx => by
      rw [hsize]
      exact hfits x (List.mem_cons_of_mem _ hx)
    exact ⟨k, Except.bind_eq_ok_iff.2 ⟨l, hwrite, hrest⟩⟩

/-- The fields of a record that lies in memory lie in memory. -/
theorem fits_of_encodes {bound : Nat} (hencode : Encodes g address r fields parts)
    (hinside : ∀ f ∈ fields, address.toNat + f.finish ≤ bound) :
    ∀ part ∈ parts, part.1.toNat + part.2.length ≤ bound := by
  induction hencode with
  | nil => simp
  | @cons f part fields parts hfirst _ ih =>
    intro x hx
    rcases List.mem_cons.1 hx with rfl | hx
    · obtain ⟨v, -, hplace, hbytes⟩ := encodeField_eq_ok hfirst
      rw [fieldAddress_eq_ok hplace, length_fieldBytes? hbytes, Nat.add_assoc]
      exact hinside f List.mem_cons_self
    · exact ih (fun f hf => hinside f (List.mem_cons_of_mem _ hf)) x hx

section

variable (hapart : FieldLayout.Apart g.fields g.size.toNat)
include hapart

theorem fits_of_encoded (hencode : g.fields.mapM (encodeField g address r) = .ok parts)
    (hinside : address.toNat + g.size.toNat ≤ h.memory.size) :
    ∀ part ∈ parts, part.1.toNat + part.2.length ≤ h.memory.size := by
  refine fits_of_encodes (Except.mapM_eq_ok_iff.1 hencode) fun f hf => ?_
  have := hapart.inside f hf
  omega

/-- **Stored.** -/
theorem writeRecord_of_writable (hall : ∀ f ∈ g.fields, Writable address r f)
    (hinside : address.toNat + g.size.toNat ≤ h.memory.size) :
    ∃ k, h.writeRecord g address r = .ok k := by
  obtain ⟨parts, hencode⟩ := exists_encoded_iff.2 hall
  obtain ⟨k, hwrite⟩ := writeAll_of_fits (fits_of_encoded hapart hencode hinside)
  refine ⟨k, Except.bind_eq_ok_iff.2 ⟨parts, hencode, ?_⟩⟩
  rw [if_neg (Nat.not_lt.2 hinside)]
  exact hwrite

/-- **Refused.** Either a field is at fault, or the record does not lie in memory. -/
theorem writeRecord_eq_error_iff : h.writeRecord g address r = .error e ↔
    FirstFault g address r e ∨ (∀ f ∈ g.fields, Writable address r f) ∧
      h.memory.size < address.toNat + g.size.toNat ∧ e = .memoryAccess address g.size.toNat := by
  rw [writeRecord, Except.bind_eq_error_iff, encoded_eq_error_iff]
  refine or_congr Iff.rfl ⟨?_, ?_⟩
  · rintro ⟨parts, hencode, hrest⟩
    have hall := exists_encoded_iff.1 ⟨parts, hencode⟩
    by_cases hinside : address.toNat + g.size.toNat ≤ h.memory.size
    · obtain ⟨k, hwrite⟩ := writeAll_of_fits (fits_of_encoded hapart hencode hinside)
      rw [if_neg (Nat.not_lt.2 hinside), hwrite] at hrest
      cases hrest
    · rw [if_pos (Nat.lt_of_not_le hinside)] at hrest
      cases hrest
      exact ⟨hall, Nat.lt_of_not_le hinside, rfl⟩
  · rintro ⟨hall, houtside, rfl⟩
    obtain ⟨parts, hencode⟩ := exists_encoded_iff.2 hall
    exact ⟨parts, hencode, if_pos houtside⟩

theorem exists_writeRecord_iff : (∃ k, h.writeRecord g address r = .ok k) ↔
    (∀ f ∈ g.fields, Writable address r f) ∧
      address.toNat + g.size.toNat ≤ h.memory.size := by
  refine ⟨?_, fun ⟨hall, hinside⟩ => writeRecord_of_writable hapart hall hinside⟩
  rintro ⟨k, hwrite⟩
  obtain ⟨parts, hencode, hrest⟩ := Except.bind_eq_ok_iff.1 hwrite
  refine ⟨exists_encoded_iff.1 ⟨parts, hencode⟩, ?_⟩
  by_contra houtside
  rw [if_pos (Nat.lt_of_not_le houtside)] at hrest
  cases hrest

end

end Heap

end SpiritHost
