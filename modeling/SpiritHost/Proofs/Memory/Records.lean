import SpiritHost.Proofs.Except
import SpiritHost.Proofs.Gene.Layout
import SpiritHost.Proofs.Lookup
import SpiritHost.Proofs.Memory.Bytes

/-!
# Records in memory

Writing a record puts the bytes of every field in their place and no other byte anywhere. As the
fields of a layout lie apart, what was written last spoils nothing written before; so reading gives
every value back, save that the string behind a pointer is the one that is there then.
-/

namespace SpiritHost

/-! ## Records as lists -/

namespace Record

theorem insert_eq (name : String) (value : FieldValue) : ∀ r : Record,
    r.insert name value = setKey name value r
  | [] => rfl
  | (n, v) :: rest => by rw [insert, setKey, insert_eq name value rest]

theorem ofList_eq (values : List (String × FieldValue)) : ofList values = setKeys values [] := by
  unfold ofList setKeys
  congr 1
  funext r p
  exact insert_eq p.1 p.2 r

end Record

/-- The byte at an address belongs to a field of the gene at an address. -/
def FieldLayout.Covers (f : FieldLayout) (address : UInt32) (a : Nat) : Prop :=
  address.toNat + f.offset.toNat ≤ a ∧ a < address.toNat + f.finish

namespace Heap

variable {h k : Heap} {g : GeneLayout} {address : UInt32} {r : Record} {f : FieldLayout}
  {fields : List FieldLayout} {parts : List (UInt32 × Bytes)}

/-! ## Writing -/

theorem length_fieldBytes? {t : FieldType} {v : FieldValue} {bytes : Bytes}
    (hbytes : fieldBytes? t v = some bytes) : bytes.length = t.size.toNat := by
  cases t <;> cases v <;> cases hbytes
  all_goals
    first
    | exact Bytes.length_ofUInt32 _
    | exact Bytes.length_ofUInt64 _

theorem fieldAddress_eq_ok {place : UInt32} (hok : g.fieldAddress address f = .ok place) :
    place.toNat = address.toNat + f.offset.toNat := by
  unfold GeneLayout.fieldAddress at hok
  split at hok
  · rename_i hlt
    cases hok
    exact toNat_add_of_lt hlt
  · cases hok

theorem encodeField_eq_ok {part : UInt32 × Bytes} (hok : encodeField g address r f = .ok part) :
    ∃ v, r.get? f.name = some v ∧ g.fieldAddress address f = .ok part.1 ∧
      fieldBytes? f.type v = some part.2 := by
  unfold encodeField at hok
  cases hget : r.get? f.name with
  | none =>
    rw [hget] at hok
    cases hok
  | some v =>
    rw [hget] at hok
    obtain ⟨_, hvalue, hok⟩ := Except.bind_eq_ok_iff.1 hok
    cases hvalue
    obtain ⟨place, hplace, hok⟩ := Except.bind_eq_ok_iff.1 hok
    split at hok
    · rename_i bytes hbytes
      cases hok
      exact ⟨v, rfl, hplace, hbytes⟩
    · cases hok

/-- The fields whose bytes are to be written. -/
abbrev Encodes (g : GeneLayout) (address : UInt32) (r : Record) :
    List FieldLayout → List (UInt32 × Bytes) → Prop :=
  List.Forall₂ fun f part => encodeField g address r f = .ok part

theorem rewrites_writeAll : ∀ {fields : List FieldLayout} {parts : List (UInt32 × Bytes)}
    {h : Heap},
    Encodes g address r fields parts → writeAll parts h = .ok k →
      Rewrites (fun a => ∃ f ∈ fields, f.Covers address a) h k
  | _, _, _, .nil, hok => by
    cases hok
    exact .refl _ _
  | f :: rest, (place, bytes) :: parts, h, .cons hfirst hrest, hok => by
    obtain ⟨l, hwrite, hok⟩ := Except.bind_eq_ok_iff.1 hok
    obtain ⟨v, -, hplace, hbytes⟩ := encodeField_eq_ok hfirst
    have hthis := (writeBytes_eq_ok hwrite).1
    rw [fieldAddress_eq_ok hplace, length_fieldBytes? hbytes] at hthis
    refine (hthis.mono fun a ha => ?_).trans ((rewrites_writeAll hrest hok).mono fun a ha => ?_)
    · refine ⟨f, List.mem_cons_self, ha.1, ?_⟩
      have := ha.2
      unfold FieldLayout.finish
      omega
    · obtain ⟨x, hx, hcovers⟩ := ha
      exact ⟨x, List.mem_cons_of_mem _ hx, hcovers⟩

/-- A field's bytes, those of its value in a record, are in memory. -/
def HoldsField (k : Heap) (g : GeneLayout) (address : UInt32) (r : Record) (f : FieldLayout) :
    Prop :=
  ∃ v place bytes, r.get? f.name = some v ∧ g.fieldAddress address f = .ok place ∧
    fieldBytes? f.type v = some bytes ∧ place.toNat + bytes.length ≤ k.memory.size ∧
    k.memory.slice place.toNat bytes.length = bytes

/-- Fields that lie apart do not spoil one another. -/
theorem holds_writeAll : ∀ {fields : List FieldLayout} {parts : List (UInt32 × Bytes)} {h : Heap},
    Encodes g address r fields parts → (fields.Pairwise fun f g => f.finish ≤ g.offset.toNat) →
      writeAll parts h = .ok k → ∀ f ∈ fields, k.HoldsField g address r f
  | _, _, _, .nil, _, _, f, hf => by simp at hf
  | f :: rest, (place, bytes) :: parts, h, .cons hfirst hrest, hapart, hok, x, hx => by
    obtain ⟨l, hwrite, hok⟩ := Except.bind_eq_ok_iff.1 hok
    obtain ⟨hbehind, hapart⟩ := List.pairwise_cons.1 hapart
    rcases List.mem_cons.1 hx with rfl | hx
    · obtain ⟨v, hget, hplace, hbytes⟩ := encodeField_eq_ok hfirst
      obtain ⟨-, hfits, hslice⟩ := writeBytes_eq_ok hwrite
      have hlater := rewrites_writeAll hrest hok
      have hstart : place.toNat = address.toNat + x.offset.toNat := fieldAddress_eq_ok hplace
      have hlength : bytes.length = x.type.size.toNat := length_fieldBytes? hbytes
      refine ⟨v, place, bytes, hget, hplace, hbytes,
        Nat.le_trans hfits (Nat.le_of_eq hlater.size.symm), ?_⟩
      rw [LinearMemory.slice_congr fun a hle hlt => hlater.byte a ?_, hslice]
      rintro ⟨y, hy, hcovers⟩
      have hle := hbehind y hy
      have := hcovers.1
      unfold FieldLayout.finish at hle
      omega
    · exact holds_writeAll hrest hapart hok x hx

/-- **Writing a record.** Bytes of fields change and no others. -/
theorem rewrites_writeRecord (hok : h.writeRecord g address r = .ok k) :
    Rewrites (fun a => ∃ f ∈ g.fields, f.Covers address a) h k := by
  obtain ⟨parts, hencode, hok⟩ := Except.bind_eq_ok_iff.1 hok
  split at hok
  · cases hok
  · exact rewrites_writeAll (Except.mapM_eq_ok_iff.1 hencode) hok

/-- Every field of a record is there once it was written. -/
theorem holds_writeRecord (hapart : g.fields.Pairwise fun f g => f.finish ≤ g.offset.toNat)
    (hok : h.writeRecord g address r = .ok k) : ∀ f ∈ g.fields, k.HoldsField g address r f := by
  obtain ⟨parts, hencode, hok⟩ := Except.bind_eq_ok_iff.1 hok
  split at hok
  · cases hok
  · exact holds_writeAll (Except.mapM_eq_ok_iff.1 hencode) hapart hok

/-! ## Reading -/

/-- The field as an entry of the record that is read. -/
def readEntry (h : Heap) (g : GeneLayout) (address : UInt32) (f : FieldLayout) :
    Except Error (String × FieldValue) := do
  let value ← h.readField f.type (← g.fieldAddress address f)
  .ok (f.name, value)

theorem readFields_eq (h : Heap) (g : GeneLayout) (address : UInt32) :
    ∀ (fields : List FieldLayout) (r : Record),
      h.readFields g address fields r = do
        let entries ← fields.mapM (h.readEntry g address)
        .ok (setKeys entries r)
  | [], r => rfl
  | f :: rest, r => by
    rw [readFields, List.mapM_cons, readEntry]
    cases g.fieldAddress address f with
    | error e => rfl
    | ok place =>
      dsimp only [bind, Except.bind]
      cases h.readField f.type place with
      | error e => rfl
      | ok value =>
        dsimp only
        rw [readFields_eq h g address rest, Record.insert_eq]
        cases rest.mapM (h.readEntry g address) <;> rfl

/-- A record is read field by field, in the order of their declaration. -/
theorem readRecord_eq (h : Heap) (g : GeneLayout) (address : UInt32) :
    h.readRecord g address = (do
      let entries ← g.fields.mapM (h.readEntry g address)
      .ok (Record.ofList entries)) := by
  simp only [Record.ofList_eq]
  exact readFields_eq h g address g.fields []

/-- What a value reads as once it was written. A string is the one that its address leads to. -/
def readBack (k : Heap) : FieldValue → Except Error FieldValue
  | .address pointer => if pointer = 0 then .ok (.text "") else .text <$> k.decodeString pointer
  | v => .ok v

theorem readBack_eq_error {v : FieldValue} {e : Error} (herror : k.readBack v = .error e) :
    ∃ pointer, v = .address pointer ∧ pointer ≠ 0 ∧ k.decodeString pointer = .error e := by
  unfold readBack at herror
  split at herror
  · rename_i pointer
    split at herror
    · cases herror
    · rename_i hnull
      exact ⟨pointer, rfl, hnull, Except.map_eq_error_iff.1 herror⟩
  · cases herror

/-- Addresses are written to string fields alone. -/
theorem eq_string_of_isSome {t : FieldType} {pointer : UInt32}
    (h : (fieldBytes? t (.address pointer)).isSome) : t = .string := by
  cases t <;> first | rfl | cases h

theorem readField_of_slice {t : FieldType} {v : FieldValue} {bytes : Bytes} {place : UInt32}
    (hbytes : fieldBytes? t v = some bytes) (hfits : place.toNat + bytes.length ≤ k.memory.size)
    (hslice : k.memory.slice place.toNat bytes.length = bytes) :
    k.readField t place = k.readBack v := by
  rw [length_fieldBytes? hbytes] at hfits hslice
  rw [readField, readBytes_eq, if_pos hfits, hslice]
  cases t <;> cases v <;> cases hbytes
  case bool.bool value =>
    cases value <;> rfl
  all_goals
    simp only [bind, Except.bind, Bytes.toUInt32_ofUInt32, Bytes.toUInt64_ofUInt64, readBack]

theorem readEntry_of_holds (hholds : k.HoldsField g address r f) :
    ∃ v, r.get? f.name = some v ∧ (fieldBytes? f.type v).isSome ∧
      k.readEntry g address f = (f.name, ·) <$> k.readBack v := by
  obtain ⟨v, place, bytes, hget, hplace, hbytes, hfits, hslice⟩ := hholds
  refine ⟨v, hget, by rw [hbytes]; rfl, ?_⟩
  rw [readEntry, hplace]
  change (k.readField f.type place >>= fun value => .ok (f.name, value)) = _
  rw [readField_of_slice hbytes hfits hslice]
  cases k.readBack v <;> rfl

theorem keys_of_mapM : ∀ {fields : List FieldLayout} {entries : List (String × FieldValue)},
    fields.mapM (h.readEntry g address) = .ok entries → keys entries = fields.map (·.name)
  | [], _, hok => by
    cases hok
    rfl
  | f :: rest, _, hok => by
    rw [List.mapM_cons] at hok
    obtain ⟨entry, hfirst, hok⟩ := Except.bind_eq_ok_iff.1 hok
    obtain ⟨entries, hrest, hok⟩ := Except.bind_eq_ok_iff.1 hok
    obtain ⟨place, -, hfirst⟩ := Except.bind_eq_ok_iff.1 hfirst
    obtain ⟨value, -, hfirst⟩ := Except.bind_eq_ok_iff.1 hfirst
    cases hok
    cases hfirst
    rw [List.map_cons, ← keys_of_mapM hrest]
    rfl

/-- A record that has a gene's fields and no others, each with what was written to it. -/
structure ReadsBack (k : Heap) (g : GeneLayout) (written read : Record) : Prop where
  ordered : InOrder read
  names : (keys read).Perm (g.fields.map (·.name))
  values : ∀ f ∈ g.fields, ∃ v w, written.get? f.name = some v ∧ (fieldBytes? f.type v).isSome ∧
    k.readBack v = .ok w ∧ read.get? f.name = some w

/-- What reading a record shows on the heap that writing it left. -/
structure RoundTrip (h : Heap) (g : GeneLayout) (address : UInt32) (written : Record) (k : Heap) :
    Prop where
  /-- It is read back, unless the string that a pointer leads to cannot be decoded; the first such
  field decides the error. -/
  reads : (∃ read, k.readRecord g address = .ok read ∧ k.ReadsBack g written read) ∨
    ∃ before f after pointer e, g.fields = before ++ f :: after ∧
      (∀ x ∈ before, ∃ v w, written.get? x.name = some v ∧ k.readBack v = .ok w) ∧
      f.type = .string ∧ written.get? f.name = some (.address pointer) ∧ pointer ≠ 0 ∧
      k.decodeString pointer = .error e ∧ k.readRecord g address = .error e
  /-- A string that shares no byte with the record is what it was. -/
  strings : ∀ pointer, (∀ a, h.InString pointer a → ∀ f ∈ g.fields, ¬f.Covers address a) →
    k.decodeString pointer = h.decodeString pointer

theorem reads_of_holds (hdistinct : (g.fields.map (·.name)).Nodup)
    (hholds : ∀ f ∈ g.fields, k.HoldsField g address r f) {entries : List (String × FieldValue)}
    (hentries : g.fields.mapM (k.readEntry g address) = .ok entries) :
    k.ReadsBack g r (Record.ofList entries) := by
  have hkeys := keys_of_mapM hentries
  have hnodup : (keys entries).Nodup := hkeys ▸ hdistinct
  rw [Record.ofList_eq]
  refine ⟨InOrder.setKeys entries .nil, ?_, fun f hf => ?_⟩
  · have hperm : (keys (setKeys entries [])).Perm (keys entries ++ []) :=
      perm_setKeys hnodup fun _ _ => List.not_mem_nil
    rw [List.append_nil, hkeys] at hperm
    exact hperm
  · obtain ⟨entry, hentry, hread⟩ := Except.exists_of_mapM_eq_ok hentries hf
    obtain ⟨v, hget, htype, hback⟩ := readEntry_of_holds (hholds f hf)
    rw [hback] at hread
    obtain ⟨w, hw, rfl⟩ := Except.map_eq_ok_iff.1 hread
    refine ⟨v, w, hget, htype, hw, ?_⟩
    rw [Record.get?, lookup_setKeys f.name [] hnodup, lookup_of_mem hnodup hentry]
    rfl

/-- **Round trip.** A record that was written is read back, field by field. -/
theorem readRecord_writeRecord {name : String} {declared : List (String × FieldType)}
    (hlayout : GeneLayout.ofFields name declared = .ok g)
    (hwrite : h.writeRecord g address r = .ok k) : h.RoundTrip g address r k := by
  have hapart := GeneLayout.apart_ofFields hlayout
  have hholds := holds_writeRecord hapart.ordered hwrite
  have hrewrites := rewrites_writeRecord hwrite
  refine ⟨?_, fun pointer hstring => ?_⟩
  · rw [readRecord_eq]
    cases hentries : g.fields.mapM (k.readEntry g address) with
    | ok entries => exact .inl ⟨_, rfl, reads_of_holds hapart.distinct hholds hentries⟩
    | error e =>
      obtain ⟨before, f, after, hsplit, hbefore, hfails⟩ := Except.mapM_eq_error hentries
      have hmem : ∀ x ∈ before, x ∈ g.fields := fun x hx => hsplit ▸ List.mem_append_left _ hx
      obtain ⟨v, hget, htype, hback⟩ :=
        readEntry_of_holds (hholds f (hsplit ▸ List.mem_append_right _ List.mem_cons_self))
      rw [hback, Except.map_eq_error_iff] at hfails
      obtain ⟨pointer, rfl, hnull, hdecode⟩ := readBack_eq_error hfails
      refine .inr ⟨before, f, after, pointer, e, hsplit, fun x hx => ?_,
        eq_string_of_isSome htype, hget, hnull, hdecode, rfl⟩
      obtain ⟨entry, hentry⟩ := hbefore x hx
      obtain ⟨v, hget, -, hback⟩ := readEntry_of_holds (hholds x (hmem x hx))
      rw [hback] at hentry
      obtain ⟨w, hw, -⟩ := Except.map_eq_ok_iff.1 hentry
      exact ⟨v, w, hget, hw⟩
  · refine decodeString_congr hrewrites.size fun a ha => hrewrites.byte a ?_
    rintro ⟨f, hf, hcovers⟩
    exact hstring a ha f hf hcovers

/-- A gene with a field of every type. -/
def everyType : List (String × FieldType) :=
  [("level", .i32), ("health", .f64), ("alive", .bool), ("name", .string), ("score", .i64),
    ("speed", .f32), ("title", .string)]

/-- Values for it, with one that it has no field for. The name leads to the first string of a fresh
heap, the title nowhere. -/
def everyValue : Record :=
  [("title", .address 0), ("name", .address 1024), ("extra", .i32 1), ("speed", .f32 0x80000000),
    ("score", .i64 0xFFFFFFFFFFFFFFFF), ("alive", .bool true), ("health", .f64 0x7FF8000000000001),
    ("level", .i32 0x01020304)]

/-- A heap of one page with a string in it, before and after the record is written behind it. -/
def everyWritten : Except Error (GeneLayout × Heap × Heap) := do
  let g ← GeneLayout.ofFields "Sample" everyType
  let (_, h) ← encodeString ⟨(LinearMemory.create? 1 1).getD .absent, .new 1024⟩ "né"
  .ok (g, h, ← h.writeRecord g 2048 everyValue)

theorem readRecord_writeRecord_everyType : ∃ (g : GeneLayout) (h k : Heap),
    GeneLayout.ofFields "Sample" everyType = .ok g ∧ h.writeRecord g 2048 everyValue = .ok k ∧
      h.RoundTrip g 2048 everyValue k := by
  obtain ⟨_, hok⟩ := Except.isOk_iff.1 (show everyWritten.isOk = true by decide +kernel)
  obtain ⟨g, hlayout, hok⟩ := Except.bind_eq_ok_iff.1 hok
  obtain ⟨⟨_, h⟩, -, hok⟩ := Except.bind_eq_ok_iff.1 hok
  obtain ⟨k, hwrite, -⟩ := Except.bind_eq_ok_iff.1 hok
  exact ⟨g, h, k, hlayout, hwrite, readRecord_writeRecord hlayout hwrite⟩

example : (everyWritten.toOption.bind fun (g, _, k) => (k.readRecord g 2048).toOption) =
    some [("alive", .bool true), ("health", .f64 0x7FF8000000000001), ("level", .i32 0x01020304),
      ("name", .text "né"), ("score", .i64 0xFFFFFFFFFFFFFFFF), ("speed", .f32 0x80000000),
      ("title", .text "")] := by
  decide +kernel

end Heap

end SpiritHost
