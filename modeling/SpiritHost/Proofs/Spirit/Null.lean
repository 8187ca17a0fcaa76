import SpiritHost.Proofs.Spirit.Allocation
import SpiritHost.Proofs.Spirit.Deeds
import SpiritHost.Proofs.Spirit.Load

/-!
# Strings and the null address

A string field whose address is 0 reads as empty, so a string at address 0 is lost on whoever reads its
address from a record. No string lies there as long as the heap begins above it; a string written to any
other place is read back (`Loader.reads_stored`). A heap that is made to begin at 0 puts its first
string there (`Loader.first_string_lost`).
-/

namespace SpiritHost

/-! ## Cursors and bases -/

/-- No history takes the cursor below the base, which stays. -/
theorem Allocator.Sound.ending : ∀ {a : Allocator} {ms : List (Moment Allocator)}, a.Sound →
    Chained Moves a ms → (ending a ms).Sound ∧ (ending a ms).base = a.base
  | _, [], ha, _ => ⟨ha, rfl⟩
  | _, _ :: _, ha, h => by
    obtain ⟨hsound, hbase⟩ := Sound.ending (h.1.sound ha) h.2
    exact ⟨hsound, hbase.trans h.1.precedes.base⟩

/-- A heap begins at a base. -/
structure Heap.Begins (h : Heap) (base : UInt32) : Prop where
  base : h.allocator.base = base
  sound : h.allocator.Sound

theorem Heap.Begins.ending {h : Heap} {base : UInt32} {ms : List (Moment Heap)} (hh : h.Begins base)
    (hms : Chained Heap.Moves h ms) : (SpiritHost.ending h ms).Begins base := by
  obtain ⟨hsound, hbase⟩ := hh.sound.ending (Heap.chained_allocator hms)
  rw [ending_map] at hsound hbase
  exact ⟨hbase.trans hh.base, hsound⟩

namespace Spirit

variable {s t : Spirit} {base : UInt32}

/-- **A run of changes.** A heap begins where it began. -/
theorem begins_changeAll (changes : List Change) (hs : s.Served) (h : s.heap.Begins base) :
    (changeAll changes s).heap.Begins base := by
  obtain ⟨hchained, hending⟩ := hs.heaps_changeAll changes
  rw [← hending]
  exact h.ending hchained

end Spirit

/-- The heap of a Spirit that was loaded begins where its options say. -/
theorem Loader.Stages.begins {l : Loader} {bytes : Bytes} {o : LoadOptions} (st : l.Stages bytes o) :
    st.spirit.heap.Begins o.heapBase := by
  obtain ⟨hchained, hending⟩ := st.chained
  have hfresh : Heap.Begins ⟨st.memory, .new o.heapBase⟩ o.heapBase :=
    ⟨rfl, Allocator.sound_new o.heapBase⟩
  have hstarted := hfresh.ending hchained
  rw [hending] at hstarted
  have hallocator : st.spirit.heap.allocator = st.started.heap.allocator := st.allocator_spirit
  exact ⟨hallocator ▸ hstarted.base, hallocator ▸ hstarted.sound⟩

/-! ## Strings in records -/

namespace Heap

variable {h k l m : Heap} {text field : String} {a r : UInt32} {g : GeneLayout} {record : Record}

/-- A record that is allocated after a string shares no byte with it. -/
theorem holds_behind (hencode : h.encodeString text = .ok (a, k))
    (halloc : k.allocRecord g = .ok (r, l)) (hwrite : l.writeRecord g r record = .ok m) :
    m.HoldsString text a := by
  have hstring : (stringRegion text a).finish ≤ r.toNat := by
    have hcursor := (moves_of_encodeString hencode).allocator.le_issued.2.2
    have hbehind := (moves_of_allocAligned halloc).allocator.le_issued.1
    rw [hcursor] at hbehind
    exact hbehind
  have hgrown : Keeps (fun _ => False) k l := keeps_allocAligned halloc
  have hkept := (holds_encodeString hencode).1.keeps hgrown fun _ _ => not_false
  refine hkept.keeps (rewrites_writeRecord hwrite).keeps fun b hb hcovered => ?_
  obtain ⟨f, -, hcovers⟩ := hcovered
  have hbelow := hb.2
  have habove := hcovers.1
  omega

/-- **Reading.** A field with the address of a string reads as the string, unless the address is 0. -/
theorem reads_behind (hapart : FieldLayout.Apart g.fields g.size.toNat)
    (hencode : h.encodeString text = .ok (a, k)) (halloc : k.allocRecord g = .ok (r, l))
    (hwrite : l.writeRecord g r record = .ok m) (hfield : field ∈ g.fields.map (·.name))
    (haddress : record.get? field = some (.address a))
    (hnull : ∀ f ∈ g.fields, f.type = .string → f.name ≠ field →
      record.get? f.name = some (.address 0)) :
    ∃ read, m.readRecord g r = .ok read ∧
      read.get? field = some (.text (if a = 0 then "" else text)) := by
  have hdecode : m.decodeString a = .ok text := (holds_behind hencode halloc hwrite).decodeString_eq
  have hholds := holds_writeRecord hapart.ordered hwrite
  have hback : m.readBack (.address a) = .ok (.text (if a = 0 then "" else text)) := by
    change (if a = 0 then .ok (FieldValue.text "") else FieldValue.text <$> m.decodeString a) = _
    rw [hdecode]
    split <;> rfl
  rw [readRecord_eq]
  cases hentries : g.fields.mapM (m.readEntry g r) with
  | ok entries =>
    obtain ⟨f, hf, rfl⟩ := List.mem_map.1 hfield
    obtain ⟨v, w, hget, -, hw, hread⟩ :=
      (reads_of_holds hapart.distinct hholds hentries).values f hf
    rw [haddress] at hget
    cases hget
    rw [hback] at hw
    cases hw
    exact ⟨_, rfl, hread⟩
  | error e =>
    -- A string that cannot be decoded would have to lie at an address other than 0 and the one stored.
    obtain ⟨before, f, after, hsplit, -, hfails⟩ := Except.mapM_eq_error hentries
    have hf : f ∈ g.fields := hsplit ▸ List.mem_append_right _ List.mem_cons_self
    obtain ⟨v, hget, htype, hentry⟩ := readEntry_of_holds (hholds f hf)
    rw [hentry, Except.map_eq_error_iff] at hfails
    obtain ⟨pointer, rfl, hpointer, hbad⟩ := readBack_eq_error hfails
    by_cases hname : f.name = field
    · rw [hname, haddress] at hget
      cases hget
      rw [hdecode] at hbad
      cases hbad
    · rw [hnull f hf (eq_string_of_isSome htype) hname] at hget
      cases hget
      exact absurd rfl hpointer

end Heap

namespace Spirit

variable {s t : Spirit} {text field : String} {a r : UInt32} {g : GeneLayout} {record : Record}

/-- A Spirit's holder writes a string, allocates a record, and puts the address of the string in one
field of it. Every other string field is null. -/
structure Stores (s : Spirit) (text : String) (a : UInt32) (g : GeneLayout) (r : UInt32)
    (record : Record) (field : String) (t : Spirit) : Prop where
  written : (s.writeString text).result = .ok a
  allocated : ((s.writeString text).state.allocRecord g).result = .ok r
  stored : (((s.writeString text).state.allocRecord g).state.writeRecord g r record).result = .ok ()
  ending : (((s.writeString text).state.allocRecord g).state.writeRecord g r record).state = t
  declared : field ∈ g.fields.map (·.name)
  address : record.get? field = some (.address a)
  null : ∀ f ∈ g.fields, f.type = .string → f.name ≠ field →
    record.get? f.name = some (.address 0)

/-- What it does to the heap. -/
theorem Stores.heaps (h : s.Stores text a g r record field t) :
    ∃ k l, s.heap.encodeString text = .ok (a, k) ∧ k.allocRecord g = .ok (r, l) ∧
      l.writeRecord g r record = .ok t.heap := by
  obtain ⟨hwritten, hallocated, hstored, rfl, -, -, -⟩ := h
  obtain ⟨k, hencode⟩ := ok_of_onHeap (·.encodeString text) hwritten
  have hs := attached_of_encodeString hencode
  have hk : (s.writeString text).state.heap = k :=
    heap_of_onHeap (·.encodeString text) hencode fun h => absurd hs h
  have hs₁ : (s.writeString text).state.Attached :=
    attached_change hs (c := .host (.writeString text)) rfl
  obtain ⟨l, halloc⟩ := ok_of_onHeap (·.allocRecord g) hallocated
  have hl : ((s.writeString text).state.allocRecord g).state.heap = l :=
    heap_of_onHeap (·.allocRecord g) halloc fun h => absurd hs₁ h
  have hs₂ : ((s.writeString text).state.allocRecord g).state.Attached :=
    attached_change hs₁ (c := .host (.allocRecord g)) rfl
  obtain ⟨m, hmapped⟩ :=
    ok_of_onHeap (fun h => (h.writeRecord g r record).map fun m => ((), m)) hstored
  have hm := heap_of_onHeap (fun h => (h.writeRecord g r record).map fun m => ((), m)) hmapped
    fun h => absurd hs₂ h
  obtain ⟨_, hwrite, hpair⟩ := Except.map_eq_ok_iff.1 hmapped
  cases hpair
  refine ⟨k, l, hencode, hk ▸ halloc, ?_⟩
  rw [← hl, hwrite]
  exact congrArg Except.ok hm.symm

end Spirit

namespace Loader

variable {l : Loader} {bytes : Bytes} {o : LoadOptions} {s t : Spirit} {changes : List Change}
  {text field gene : String} {fields : List (String × FieldType)} {a r : UInt32} {g : GeneLayout}
  {record : Record}

/-- **Stored strings.** Whatever a Spirit was loaded from and whatever has been done with it, a string
whose address is put in a field of a new record is read back from there, unless it lies at address 0.
That takes a heap that begins at 0. -/
theorem reads_stored (hload : (l.load bytes o).result = .ok s)
    (hlayout : GeneLayout.ofFields gene fields = .ok g)
    (hstores : (Spirit.changeAll changes s).Stores text a g r record field t) :
    ∃ read, t.heap.readRecord g r = .ok read ∧
      read.get? field = some (.text (if a = 0 then "" else text)) ∧ (a = 0 → o.heapBase = 0) := by
  obtain ⟨st, rfl⟩ := load_eq_ok.1 hload
  have hbegins := Spirit.begins_changeAll changes st.served st.begins
  obtain ⟨k, m, hencode, halloc, hwrite⟩ := hstores.heaps
  have hapart := GeneLayout.apart_ofFields hlayout
  obtain ⟨read, hread, hvalue⟩ := Heap.reads_behind hapart hencode halloc hwrite hstores.declared
    hstores.address hstores.null
  refine ⟨read, hread, hvalue, fun hzero => ?_⟩
  have hcursor := (Heap.moves_of_encodeString hencode).allocator.le_issued.1
  have hbase := hbegins.sound
  rw [Allocator.Sound, hbegins.base] at hbase
  rw [hzero] at hcursor
  exact UInt32.toNat_inj.1 (Nat.le_zero.1 (Nat.le_trans hbase hcursor))

/-- A module without anything. -/
def emptyModule : Bytes := [0x00, 0x61, 0x73, 0x6d, 0x01, 0x00, 0x00, 0x00]

/-- A gene with one string. -/
def labelled : GeneLayout := ⟨"Labelled", [⟨"label", .string, 0⟩], 4, 4⟩

theorem ofFields_labelled : GeneLayout.ofFields "Labelled" [("label", .string)] = .ok labelled := by
  rfl

/-- A label is written and put in a record, and the record is read: the address and what is read. -/
def label (base : UInt32) : Except Error (UInt32 × Record) := do
  let s ← (shortLoader.load emptyModule { heapBase := base }).result
  let a ← (s.writeString "hi").result
  let s := (s.writeString "hi").state
  let r ← (s.allocRecord labelled).result
  let s := (s.allocRecord labelled).state
  (s.writeRecord labelled r [("label", .address a)]).result
  let s := (s.writeRecord labelled r [("label", .address a)]).state
  return (a, ← s.heap.readRecord labelled r)

theorem exists_stores {base a : UInt32} {read : Record}
    (h : (label base).toOption = some (a, read)) :
    ∃ s r t, (shortLoader.load emptyModule { heapBase := base }).result = .ok s ∧
      s.Stores "hi" a labelled r [("label", .address a)] "label" t ∧
      t.heap.readRecord labelled r = .ok read := by
  have hok : label base = .ok (a, read) := by
    cases hlabel : label base with
    | error e =>
      rw [hlabel] at h
      cases h
    | ok found =>
      rw [hlabel] at h
      cases h
      rfl
  obtain ⟨s, hload, hok⟩ := Except.bind_eq_ok_iff.1 hok
  obtain ⟨_, hwritten, hok⟩ := Except.bind_eq_ok_iff.1 hok
  obtain ⟨r, hallocated, hok⟩ := Except.bind_eq_ok_iff.1 hok
  obtain ⟨_, hstored, hok⟩ := Except.bind_eq_ok_iff.1 hok
  obtain ⟨_, hread, hok⟩ := Except.bind_eq_ok_iff.1 hok
  cases hok
  refine ⟨s, r, _, hload, ⟨hwritten, hallocated, hstored, rfl, by decide, rfl, ?_⟩, hread⟩
  intro f hf _ hother
  rw [List.mem_singleton.1 hf] at hother
  exact absurd rfl hother

theorem reads_stored_label : ∃ s a r t,
    (shortLoader.load emptyModule {}).result = .ok s ∧
      GeneLayout.ofFields "Labelled" [("label", .string)] = .ok labelled ∧
      (Spirit.changeAll [] s).Stores "hi" a labelled r [("label", .address a)] "label" t ∧
      ∃ read, t.heap.readRecord labelled r = .ok read ∧
        read.get? "label" = some (.text (if a = 0 then "" else "hi")) ∧
        (a = 0 → ({} : LoadOptions).heapBase = 0) := by
  have hlabel : (label 1024).toOption = some (1024, [("label", .text "hi")]) := by decide +kernel
  obtain ⟨s, r, t, hload, hstored, -⟩ := exists_stores hlabel
  have hstores : (Spirit.changeAll [] s).Stores "hi" 1024 labelled r [("label", .address 1024)]
      "label" t := hstored
  exact ⟨s, 1024, r, t, hload, ofFields_labelled, hstores,
    reads_stored hload ofFields_labelled hstores⟩

/-- On a heap that begins at 0 the first string is lost: its field reads as empty. -/
theorem first_string_lost : ∃ s r t,
    (shortLoader.load emptyModule { heapBase := 0 }).result = .ok s ∧
      s.Stores "hi" 0 labelled r [("label", .address 0)] "label" t ∧
      ∃ read, t.heap.readRecord labelled r = .ok read ∧ read.get? "label" ≠ some (.text "hi") := by
  have hlabel : (label 0).toOption = some (0, [("label", .text "")]) := by decide +kernel
  obtain ⟨s, r, t, hload, hstores, hread⟩ := exists_stores hlabel
  exact ⟨s, r, t, hload, hstores, _, hread, by decide⟩

end Loader

end SpiritHost
