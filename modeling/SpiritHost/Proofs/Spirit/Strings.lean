import SpiritHost.Proofs.Spirit.Changes

/-!
# Strings that persist

A string written into a Spirit's memory is read back at any later time before the next reset, as
long as bytes are overwritten only where they were allocated for something else.
-/

namespace SpiritHost.Spirit

variable {s : Spirit} {c : Change} {text : String} {address : UInt32} {before after : List Change}

/-! ## Memories that are there -/

theorem attached_of_onHeap {α : Type} (operation : Heap → Except Error (α × Heap))
    (h : (s.onHeap operation).state.Attached) : s.Attached := by
  unfold onHeap at h
  cases hresult : operation s.heap with
  | error e =>
    rw [hresult] at h
    exact h
  | ok granted =>
    rw [hresult] at h
    have hlength := Store.length_setHeapAt s.store s.manager granted.2
    exact Nat.lt_of_lt_of_eq h hlength

theorem attached_of_grow {pages : Nat} (h : (s.grow pages).Attached) : s.Attached := by
  unfold grow at h
  split at h
  · exact Nat.lt_of_lt_of_eq h (Store.length_setHeapAt _ _ _)
  · exact h

theorem attached_of_change (hquiet : c.isQuiet = true) (h : (s.change c).Attached) :
    s.Attached := by
  cases c with
  | grow pages => exact attached_of_grow h
  | host operation =>
    cases operation with
    | reset | call | callTyped | callJson => cases hquiet
    | free | readBytes | readText | readString | readRecord => exact h
    | alloc size => exact attached_of_onHeap (·.alloc size) h
    | allocAligned size align => exact attached_of_onHeap (·.allocAligned size align) h
    | allocRecord gene => exact attached_of_onHeap (·.allocRecord gene) h
    | writeString text => exact attached_of_onHeap (·.encodeString text) h
    | writeBytes address bytes =>
      exact attached_of_onHeap (fun h => (h.writeBytes address bytes).map fun k => ((), k)) h
    | writeRecord gene address record =>
      exact attached_of_onHeap (fun h => (h.writeRecord gene address record).map fun k => ((), k)) h

theorem attached_of_changeAll : ∀ {changes : List Change} {s : Spirit},
    (∀ c ∈ changes, c.isQuiet = true) → (changeAll changes s).Attached → s.Attached
  | [], _, _, h => h
  | c :: rest, _, hquiet, h => by
    refine attached_of_change (hquiet c List.mem_cons_self) ?_
    exact attached_of_changeAll (fun x hx => hquiet x (List.mem_cons_of_mem _ hx)) h

/-- Where no memory is, there is a memory without bytes that cannot grow. -/
theorem memory_of_detached (hs : ¬s.Attached) : s.heap.memory = .absent := by
  unfold Attached Store.AttachedAt at hs
  simp [heap, Store.heapAt, Store.memory, List.getD_eq_getElem?_getD, Nat.not_lt.1 hs]

/-- A string is written only where there is a memory. -/
theorem attached_of_encodeString {k : Heap} (hok : s.heap.encodeString text = .ok (address, k)) :
    s.Attached := by
  by_contra hdetached
  have habsent := memory_of_detached hdetached
  have hmoves := Heap.moves_of_encodeString hok
  have hfits := (Heap.encodeString_eq_ok hok).1
  have hinside := hmoves.inside _ rfl
  have hsize := k.memory.size_le_limit
  have hlimit : k.memory.limit = 0 := by
    rw [hmoves.memory.limit, habsent]
    rfl
  rw [Region.finish, Heap.toNat_stringSize hfits] at hinside
  rw [hlimit, Nat.zero_mul] at hsize
  have hprefix : 0 < Heap.lengthSize := by decide
  omega

/-! ## Reading back -/

/-- The regions that a run issues, other than that of a string written in between. -/
def regionsBeside (before : List Change) (text : String) (after : List Change) (s : Spirit) :
    List Region :=
  Heap.regions (changeHistoryAll before s) ++
    Heap.regions (changeHistoryAll after (changeAll (before ++ [.host (.writeString text)]) s))

theorem changeAll_append : ∀ (xs ys : List Change) (s : Spirit),
    changeAll (xs ++ ys) s = changeAll ys (changeAll xs s)
  | [], _, _ => rfl
  | c :: xs, ys, s => changeAll_append xs ys (s.change c)

theorem changeHistoryAll_append : ∀ (xs ys : List Change) (s : Spirit),
    changeHistoryAll (xs ++ ys) s = changeHistoryAll xs s ++ changeHistoryAll ys (changeAll xs s)
  | [], _, _ => rfl
  | c :: xs, ys, s => by
    rw [List.cons_append, changeHistoryAll, changeHistoryAll_append xs ys, changeHistoryAll,
      changeAll, List.append_assoc]

/-- No other region of a run has a byte in common with that of the string. -/
theorem stringRegion_apart {k : Heap} (hs : s.Attached)
    (hquiet : ∀ c ∈ before ++ .host (.writeString text) :: after, c.isQuiet = true)
    (hok : (changeAll before s).heap.encodeString text = .ok (address, k)) :
    ∀ r ∈ regionsBeside before text after s, ∀ a, r.Contains a →
      ¬(Heap.stringRegion text address).Contains a := by
  have hreaches := changeAll_reaches hs hquiet
  have hordered := Heap.pairwise_regions_of_quiet hreaches.chained
    (isReset_changeHistoryAll hquiet)
  have hissued : Heap.regions ((changeAll before s).changeHistory (.host (.writeString text))) =
      [Heap.stringRegion text address] := by
    rw [changeHistory, history, allocationHistory, writeString,
      (onHeap_of_ok (·.encodeString text) hok).1]
    rfl
  rw [changeHistoryAll_append, Heap.regions_append, changeHistoryAll, Heap.regions_append,
    hissued] at hordered
  obtain ⟨-, hrest, hearlier⟩ := List.pairwise_append.1 hordered
  obtain ⟨hlater, -⟩ := List.pairwise_cons.1 hrest
  intro r hr a hra hsa
  unfold regionsBeside at hr
  rw [changeAll_append] at hr
  rcases List.mem_append.1 hr with hr | hr
  · have hle := hearlier r hr _ (List.mem_append_left _ (List.mem_singleton_self _))
    have := hra.2
    have := hsa.1
    omega
  · have hle := hlater r hr
    have := hsa.2
    have := hra.1
    omega

/-- **Persistence.** A string that was written is there in the end, in its place and with its length
in front, and it is read back. -/
theorem readString_of_writeString
    (hquiet : ∀ c ∈ before ++ .host (.writeString text) :: after, c.isQuiet = true)
    (hwrite : ((changeAll before s).writeString text).result = .ok address)
    (hconfined : ∀ c ∈ after, ∀ a, c.Overwrites a →
      ∃ r ∈ regionsBeside before text after s, r.Contains a) :
    (changeAll (before ++ .host (.writeString text) :: after) s).heap.HoldsString text address ∧
      (changeAll (before ++ .host (.writeString text) :: after) s).readString address = .ok text := by
  have hbefore : ∀ c ∈ before, c.isQuiet = true := fun c hc =>
    hquiet c (List.mem_append_left _ hc)
  have hafter : ∀ c ∈ after, c.isQuiet = true := fun c hc =>
    hquiet c (List.mem_append_right _ (List.mem_cons_of_mem _ hc))
  obtain ⟨k, hok⟩ := ok_of_onHeap (·.encodeString text) hwrite
  have hthere := attached_of_encodeString hok
  have hs := attached_of_changeAll hbefore hthere
  have hapart := stringRegion_apart hs hquiet hok
  have hwritten : ((changeAll before s).change (.host (.writeString text))).heap.HoldsString text
      address := by
    have hheap := (onHeap_of_ok (·.encodeString text) hok).2
    rw [Store.heapAt_setHeapAt hthere] at hheap
    change ((changeAll before s).onHeap (·.encodeString text)).state.heap.HoldsString text address
    rw [hheap]
    exact (Heap.holds_encodeString hok).1
  have hkeeps : Heap.Keeps (fun a => ¬(Heap.stringRegion text address).Contains a)
      ((changeAll before s).change (.host (.writeString text))).heap
      (changeAll after ((changeAll before s).change (.host (.writeString text)))).heap := by
    refine keeps_changeAll (attached_change hthere rfl) hafter ?_ ?_
    · intro c hc a ha
      obtain ⟨r, hr, hra⟩ := hconfined c hc a ha
      exact hapart r hr a hra
    · intro r hr
      refine hapart r ?_
      unfold regionsBeside
      rw [changeAll_append]
      exact List.mem_append_right _ hr
  have hholds := hwritten.keeps hkeeps fun a ha => not_not_intro ha
  rw [changeAll_append]
  exact ⟨hholds, hholds.decodeString_eq⟩

/-- A Spirit without code, its memory of one page allowed to grow to three. -/
def codeless : Spirit :=
  ⟨⟨{}, #[], []⟩, .new ((LinearMemory.create? 1 3).getD .absent) 1024 false 0 0, 0,
    ⟨0, 0, fun _ _ _ => 0⟩⟩

/-- What happens before a string is written. -/
def earlier : List Change := [.host (.alloc 5), .host (.writeString "")]

/-- What happens after it: bytes are overwritten in a region from before and in one that is yet to
come. -/
def later : List Change :=
  [.grow 1, .host (.writeBytes 1024 [1, 2, 3]), .host (.writeString "later"), .host (.free 1024),
    .host (.allocAligned 70000 64), .host (.writeBytes 1152 [255])]

/-- What is overwritten later lies in regions of other allocations. -/
theorem confined_later : ∀ c ∈ later, ∀ a, c.Overwrites a →
    ∃ r ∈ regionsBeside earlier "n\x00é😀" later codeless, r.Contains a := by
  intro c hc a ha
  simp only [later, List.mem_cons, List.not_mem_nil, or_false] at hc
  rcases hc with rfl | rfl | rfl | rfl | rfl | rfl
  · cases ha
  · refine ⟨⟨1024, 5, 8⟩, by decide +kernel, ha.1, Nat.lt_trans ha.2 (by decide)⟩
  · cases ha
  · cases ha
  · cases ha
  · refine ⟨⟨1088, 70000, 64⟩, by decide +kernel, Nat.le_trans (by decide) ha.1,
      Nat.lt_trans ha.2 (by decide)⟩

theorem readString_of_writeString_later : ∃ address,
    (∀ c ∈ earlier ++ .host (.writeString "n\x00é😀") :: later, c.isQuiet = true) ∧
      ((changeAll earlier codeless).writeString "n\x00é😀").result = .ok address ∧
      (∀ c ∈ later, ∀ a, c.Overwrites a →
        ∃ r ∈ regionsBeside earlier "n\x00é😀" later codeless, r.Contains a) ∧
      (changeAll (earlier ++ .host (.writeString "n\x00é😀") :: later) codeless).heap.HoldsString
        "n\x00é😀" address ∧
      (changeAll (earlier ++ .host (.writeString "n\x00é😀") :: later) codeless).readString address =
        .ok "n\x00é😀" := by
  have hquiet : ∀ c ∈ earlier ++ .host (.writeString "n\x00é😀") :: later, c.isQuiet = true := by
    decide
  obtain ⟨address, hwrite⟩ := Except.isOk_iff.1
    (show ((changeAll earlier codeless).writeString "n\x00é😀").result.isOk = true by
      decide +kernel)
  exact ⟨address, hquiet, hwrite, confined_later,
    readString_of_writeString hquiet hwrite confined_later⟩

end SpiritHost.Spirit
