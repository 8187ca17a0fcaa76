import SpiritHost.Proofs.Memory.Requests
import SpiritHost.Proofs.Spirit.Allocation
import SpiritHost.Proofs.Spirit.Deeds
import SpiritHost.Proofs.Spirit.Load

/-!
# Replaying requests

After a reset the requests of a Spirit's holder are answered as they were the first time
(`Loader.replays_reset`). Between the requests anything may happen that neither issues regions nor
takes them back, so code may grow the memory in one run and not in the other: what is answered is
decided by the cursor and by the limit of the memory. The second run finds all the pages there that
the first one needed.
-/

namespace SpiritHost

namespace Heap

/-- Where no region is issued and none is taken back, the allocator stays. -/
theorem allocator_ending_of_others : ∀ {h : Heap} {ms : List (Moment Heap)}, Chained Moves h ms →
    (∀ m ∈ ms, m.event = .other) → (ending h ms).allocator = h.allocator
  | _, [], _, _ => rfl
  | h, m :: ms, hms, hothers => by
    have hmove := hms.1.allocator
    rw [hothers m List.mem_cons_self] at hmove
    rw [ending, allocator_ending_of_others hms.2 fun n hn => hothers n (List.mem_cons_of_mem m hn),
      hmove.eq_of_other]

/-- The memory holds every page that the cursor has reached. -/
def Covered (h : Heap) : Prop := wholePages h.allocator.cursor.toNat ≤ h.memory.size

theorem wholePages_mono {a b : Nat} (hab : a ≤ b) : wholePages a ≤ wholePages b :=
  Nat.mul_le_mul_right _ (Nat.div_le_div_right (Nat.add_le_add_right hab _))

end Heap

/-! ## Requests -/

/-- The request to the heap that an operation is, if it asks for a region. -/
def Operation.request? : Operation → Option (Heap → Except Error (UInt32 × Heap))
  | .alloc size => some (·.alloc size)
  | .allocAligned size align => some (·.allocAligned size align)
  | .allocRecord gene => some (·.allocRecord gene)
  | .writeString text => some (·.encodeString text)
  | _ => none

/-- The operation asks for a region. -/
def Operation.isRequest (operation : Operation) : Bool := operation.request?.isSome

/-- The change is a request of the holder for a region. -/
def Change.isRequest : Change → Bool
  | .host operation => operation.isRequest
  | .grow _ => false

variable {operation : Operation} {request : Heap → Except Error (UInt32 × Heap)}

theorem settles_of_request? (h : operation.request? = some request) (heap : Heap) :
    heap.Settles (request heap) := by
  cases operation with
  | alloc size =>
    cases h
    exact heap.settles_allocAligned size _
  | allocAligned size align =>
    cases h
    exact heap.settles_allocAligned size align
  | allocRecord gene =>
    cases h
    exact heap.settles_allocAligned gene.size gene.alignment
  | writeString text =>
    cases h
    exact heap.settles_encodeString text
  | _ => cases h

theorem agrees_of_request? (h : operation.request? = some request) {heap other : Heap}
    (hsame : heap.SameRoom other) : Heap.SameAnswer (request heap) (request other) := by
  cases operation with
  | alloc size =>
    cases h
    exact Heap.allocAligned_agrees hsame size _
  | allocAligned size align =>
    cases h
    exact Heap.allocAligned_agrees hsame size align
  | allocRecord gene =>
    cases h
    exact Heap.allocAligned_agrees hsame gene.size gene.alignment
  | writeString text =>
    cases h
    exact Heap.encodeString_agrees hsame text
  | _ => cases h

namespace Spirit

variable {s t : Spirit}

theorem perform_of_request? (s : Spirit) (h : operation.request? = some request) :
    s.perform operation = (s.onHeap request).map .address := by
  cases operation with
  | alloc | allocAligned | allocRecord | writeString =>
    cases h
    rfl
  | _ => cases h

theorem change_of_request? (s : Spirit) (h : operation.request? = some request) :
    (s.change (.host operation)).heap = (s.onHeap request).state.heap := by
  rw [change, perform_of_request? s h]
  rfl

/-- **What decides.** Spirits with the same cursor and the same limit answer a request alike. -/
theorem result_perform_of_sameRoom (hsame : s.heap.SameRoom t.heap)
    (h : operation.isRequest = true) :
    (t.perform operation).result = (s.perform operation).result := by
  obtain ⟨request, hrequest⟩ := Option.isSome_iff_exists.1 h
  rw [perform_of_request? s hrequest, perform_of_request? t hrequest]
  refine congrArg (Except.map Answer.address) ?_
  rcases (agrees_of_request? hrequest hsame).cases with ⟨e, hs, ht⟩ | ⟨a, k, l, hs, ht, -⟩
  · exact (onHeap_of_error request ht).1.trans (onHeap_of_error request hs).1.symm
  · exact (onHeap_of_ok request ht).1.trans (onHeap_of_ok request hs).1.symm

/-- It leaves them room for the same regions then. -/
theorem sameRoom_request (hs : s.Attached) (ht : t.Attached) (hsame : s.heap.SameRoom t.heap)
    (h : operation.isRequest = true) :
    (s.change (.host operation)).heap.SameRoom (t.change (.host operation)).heap := by
  obtain ⟨request, hrequest⟩ := Option.isSome_iff_exists.1 h
  rw [change_of_request? s hrequest, change_of_request? t hrequest]
  rcases (agrees_of_request? hrequest hsame).cases with ⟨e, hs', ht'⟩ | ⟨a, k, l, hs', ht', hkl⟩
  · rw [(onHeap_of_error request hs').2, (onHeap_of_error request ht').2]
    exact hsame
  · rw [heap_of_onHeap request hs' (absurd hs), heap_of_onHeap request ht' (absurd ht)]
    exact hkl

/-! ## Runs of requests -/

/-- The answer to a change that is a request. -/
def answer? (s : Spirit) : Change → Option (Except Error Answer)
  | .host operation => if operation.isRequest then some (s.perform operation).result else none
  | .grow _ => none

/-- The answers to the requests of a run of changes. -/
def answers : List Change → Spirit → List (Except Error Answer)
  | [], _ => []
  | c :: rest, s => (s.answer? c).toList ++ answers rest (s.change c)

/-- Regions are issued and taken back by the requests of the run alone: whatever else happens, such as
code that grows the memory, changes bytes or adds pages. -/
def Undisturbed : List Change → Spirit → Prop
  | [], _ => True
  | c :: rest, s =>
    (c.isRequest = false → ∀ m ∈ s.changeHistory c, m.event = .other) ∧
      Undisturbed rest (s.change c)

instance decidableUndisturbed : ∀ (changes : List Change) (s : Spirit),
    Decidable (Undisturbed changes s)
  | [], _ => .isTrue trivial
  | c :: rest, s =>
    have := decidableUndisturbed rest (s.change c)
    inferInstanceAs (Decidable (_ ∧ _))

/-- A change that is no request and does not touch the allocator. -/
structure Idle (s : Spirit) (c : Change) : Prop where
  answer : s.answer? c = none
  allocator : (s.change c).heap.allocator = s.heap.allocator
  memory : s.heap.memory.Extends (s.change c).heap.memory

/-- What a change of an undisturbed run comes to. -/
inductive Comes (s : Spirit) (c : Change) : Prop where
  | granted {address : UInt32} (answer : s.answer? c = some (.ok (.address address)))
      (advances : s.heap.Advances (s.change c).heap)
  | refused {requested : UInt32} {needed : Nat}
      (answer : s.answer? c = some (.error (.allocation requested needed)))
      (same : (s.change c).heap = s.heap)
  | idle (idle : s.Idle c)

theorem answer?_of_request? {r : Except Error UInt32} (h : operation.request? = some request)
    (hr : (s.onHeap request).result = r) :
    s.answer? (.host operation) = some (r.map .address) := by
  have hrequest : operation.isRequest = true := Option.isSome_iff_exists.2 ⟨request, h⟩
  rw [answer?, if_pos hrequest, perform_of_request? s h, ← hr]
  rfl

theorem comes_request (hs : s.Attached) (h : operation.isRequest = true) :
    s.Comes (.host operation) := by
  obtain ⟨request, hrequest⟩ := Option.isSome_iff_exists.1 h
  have hheap := change_of_request? s hrequest
  have hsettles := settles_of_request? hrequest s.heap
  cases hresult : request s.heap with
  | error e =>
    obtain ⟨herror, hsame⟩ := onHeap_of_error request hresult
    rw [hresult] at hsettles
    cases hsettles with
    | refused requested needed =>
      exact .refused (answer?_of_request? hrequest herror) (hheap.trans hsame)
  | ok granted =>
    obtain ⟨address, k⟩ := granted
    have hok := (onHeap_of_ok request hresult).1
    rw [heap_of_onHeap request hresult (absurd hs)] at hheap
    rw [hresult] at hsettles
    cases hsettles with
    | granted hadvances =>
      exact .granted (answer?_of_request? hrequest hok) (hheap.symm ▸ hadvances)

theorem idle_change (hs : s.Served) {c : Change} (hrequest : c.isRequest = false)
    (hothers : ∀ m ∈ s.changeHistory c, m.event = .other) : s.Idle c := by
  obtain ⟨hchained, hend⟩ := hs.heaps_changeAll [c]
  rw [changeHistoryAll, changeHistoryAll, List.append_nil] at hchained hend
  have hheap : ending s.heap (s.changeHistory c) = (s.change c).heap := hend
  refine ⟨?_, ?_, ?_⟩
  · cases c with
    | host operation => exact if_neg (Bool.not_eq_true _ ▸ hrequest)
    | grow => rfl
  · rw [← hheap]
    exact Heap.allocator_ending_of_others hchained hothers
  · rw [← hheap]
    exact Heap.extends_ending hchained

/-- **One change.** -/
theorem comes_change (hs : s.Served) {c : Change}
    (hquiet : c.isRequest = false → ∀ m ∈ s.changeHistory c, m.event = .other) : s.Comes c := by
  cases hrequest : c.isRequest with
  | true =>
    cases c with
    | host operation => exact comes_request hs.attached hrequest
    | grow => cases hrequest
  | false => exact .idle (idle_change hs hrequest (hquiet hrequest))

/-! ## Undisturbed runs -/

/-- What an undisturbed run leaves of a heap. -/
structure Carries (h k : Heap) : Prop where
  base : k.allocator.base = h.allocator.base
  generation : k.allocator.generation = h.allocator.generation
  cursor : h.allocator.cursor.toNat ≤ k.allocator.cursor.toNat
  memory : h.memory.size ≤ k.memory.size
  limit : k.memory.limit = h.memory.limit

theorem Carries.refl (h : Heap) : Carries h h := ⟨rfl, rfl, Nat.le_refl _, Nat.le_refl _, rfl⟩

theorem Carries.trans {h k l : Heap} (hhk : Carries h k) (hkl : Carries k l) : Carries h l :=
  ⟨hkl.base.trans hhk.base, hkl.generation.trans hhk.generation, hhk.cursor.trans hkl.cursor,
    hhk.memory.trans hkl.memory, hkl.limit.trans hhk.limit⟩

theorem Comes.carries {c : Change} (h : s.Comes c) : Carries s.heap (s.change c).heap := by
  cases h with
  | granted _ advances =>
    refine ⟨advances.base, advances.generation, advances.cursor, ?_, advances.limit⟩
    rw [advances.size]
    exact Nat.le_max_left _ _
  | refused _ same =>
    rw [same]
    exact .refl _
  | idle hidle =>
    refine ⟨?_, ?_, ?_, hidle.memory.size_le, hidle.memory.limit⟩ <;> rw [hidle.allocator]

theorem carries_changeAll : ∀ {changes : List Change} {s : Spirit}, s.Served →
    Undisturbed changes s → Carries s.heap (changeAll changes s).heap
  | [], s, _, _ => .refl s.heap
  | c :: _, _, hs, hquiet =>
    (comes_change hs hquiet.1).carries.trans (carries_changeAll (served_change hs c) hquiet.2)

theorem Comes.covered {c : Change} (h : s.Comes c)
    (hgranted : s.heap.Covered ∨ ∃ a, s.answer? c = some (.ok a)) : (s.change c).heap.Covered := by
  cases h with
  | granted _ advances =>
    rw [Heap.Covered, advances.size]
    exact Nat.le_max_right _ _
  | refused answer same =>
    rw [same]
    rcases hgranted with hcovered | ⟨a, ha⟩
    · exact hcovered
    · rw [answer] at ha
      cases ha
  | idle hidle =>
    rw [Heap.Covered, hidle.allocator]
    rcases hgranted with hcovered | ⟨a, ha⟩
    · exact Nat.le_trans hcovered hidle.memory.size_le
    · rw [hidle.answer] at ha
      cases ha

/-- Once a region is granted, every page that the cursor reaches is there. -/
theorem covered_changeAll {changes : List Change} (hs : s.Served) (hquiet : Undisturbed changes s)
    (hgranted : s.heap.Covered ∨ ∃ a, .ok a ∈ answers changes s) :
    (changeAll changes s).heap.Covered := by
  induction changes generalizing s with
  | nil =>
    rcases hgranted with hcovered | ⟨a, ha⟩
    · exact hcovered
    · cases ha
  | cons c rest ih =>
    have hcomes := comes_change hs hquiet.1
    refine ih (served_change hs c) hquiet.2 ?_
    rcases hgranted with hcovered | ⟨a, ha⟩
    · exact .inl (hcomes.covered (.inl hcovered))
    · rcases List.mem_append.1 ha with ha | ha
      · exact .inl (hcomes.covered (.inr ⟨a, Option.mem_toList.1 ha⟩))
      · exact .inr ⟨a, ha⟩

/-- A request comes to an address or to an allocation error. -/
theorem answers_settled : ∀ {changes : List Change} {s : Spirit}, s.Served →
    Undisturbed changes s → ∀ x ∈ answers changes s,
      (∃ address, x = .ok (.address address)) ∨
        ∃ requested needed, x = .error (.allocation requested needed)
  | [], _, _, _, x, hx => by cases hx
  | c :: rest, s, hs, hquiet, x, hx => by
    rcases List.mem_append.1 hx with hx | hx
    · have hanswer : s.answer? c = some x := Option.mem_toList.1 hx
      cases comes_change hs hquiet.1 with
      | granted answer _ => exact .inl ⟨_, Option.some.inj (hanswer.symm.trans answer)⟩
      | refused answer _ => exact .inr ⟨_, _, Option.some.inj (hanswer.symm.trans answer)⟩
      | idle hidle =>
        rw [hidle.answer] at hanswer
        cases hanswer
    · exact answers_settled (served_change hs c) hquiet.2 x hx

/-- **Requests alone.** What else happens in an undisturbed run changes no answer. -/
theorem answers_requests : ∀ {changes : List Change} {s t : Spirit}, s.Served → t.Served →
    s.heap.SameRoom t.heap → Undisturbed changes s →
      answers (changes.filter Change.isRequest) t = answers changes s ∧
        (changeAll changes s).heap.SameRoom (changeAll (changes.filter Change.isRequest) t).heap
  | [], _, _, _, _, hsame, _ => ⟨rfl, hsame⟩
  | c :: rest, s, t, hs, ht, hsame, hquiet => by
    cases hrequest : c.isRequest with
    | true =>
      rw [List.filter_cons_of_pos hrequest]
      cases c with
      | grow => cases hrequest
      | host operation =>
        obtain ⟨hrest, hroom⟩ := answers_requests (served_change hs _) (served_change ht _)
          (sameRoom_request hs.attached ht.attached hsame hrequest) hquiet.2
        refine ⟨?_, hroom⟩
        rw [answers, answers, hrest, answer?, answer?, result_perform_of_sameRoom hsame hrequest]
    | false =>
      rw [List.filter_cons_of_neg (by simp [hrequest])]
      have hidle := idle_change hs hrequest (hquiet.1 hrequest)
      have hkept : (s.change c).heap.SameRoom t.heap :=
        ⟨hsame.cursor.trans (hidle.allocator ▸ rfl), hsame.limit.trans hidle.memory.limit.symm⟩
      obtain ⟨hrest, hroom⟩ := answers_requests (served_change hs c) ht hkept hquiet.2
      refine ⟨?_, hroom⟩
      rw [hrest, answers, hidle.answer]
      rfl

theorem undisturbed_append : ∀ {xs ys : List Change} {s : Spirit},
    Undisturbed (xs ++ ys) s ↔ Undisturbed xs s ∧ Undisturbed ys (changeAll xs s)
  | [], _, _ => by simp [Undisturbed, changeAll]
  | c :: xs, ys, s => by
    rw [List.cons_append, Undisturbed, Undisturbed, undisturbed_append, and_assoc]
    rfl

theorem undisturbed_of_requests : ∀ {changes : List Change} {s : Spirit},
    (∀ c ∈ changes, c.isRequest = true) → Undisturbed changes s
  | [], _, _ => trivial
  | c :: rest, s, hrequests =>
    ⟨fun hnot => absurd (hrequests c List.mem_cons_self) (by simp [hnot]),
      undisturbed_of_requests fun x hx => hrequests x (List.mem_cons_of_mem c hx)⟩

theorem mem_answers {before : List Change} {c : Change} {x : Except Error Answer}
    (hx : (changeAll before s).answer? c = some x) (after : List Change) :
    x ∈ answers (before ++ c :: after) s := by
  induction before generalizing s with
  | nil => exact List.mem_append_left _ (Option.mem_toList.2 hx)
  | cons b before ih => exact List.mem_append_right _ (ih hx)

/-! ## After a reset -/

/-- The Spirit after a run and then a reset. -/
def restarted (first : List Change) (s : Spirit) : Spirit := (changeAll first s).reset

theorem heap_reset (hs : s.Attached) : s.reset.heap = s.heap.reset := Store.heapAt_setHeapAt hs _

theorem served_restarted (hs : s.Served) (first : List Change) : (restarted first s).Served :=
  served_change (served_changeAll first hs) (.host .reset)

/-- A run that begins at the base of the heap finds room for the same regions after a reset. -/
theorem sameRoom_restarted (hs : s.Served) {first : List Change} (hquiet : Undisturbed first s)
    (hbase : s.heap.allocator.cursor = s.heap.allocator.base) :
    s.heap.SameRoom (restarted first s).heap := by
  have hcarries := carries_changeAll hs hquiet
  rw [restarted, heap_reset (served_changeAll first hs).attached]
  exact ⟨hcarries.base.trans hbase.symm, hcarries.limit⟩

/-- What a run of requests after a reset has in common with the run before it. -/
structure Replays (s : Spirit) (first again : List Change) : Prop where
  answers : answers again (restarted first s) = answers first s
  settled : ∀ x ∈ Spirit.answers first s, (∃ address, x = .ok (.address address)) ∨
    ∃ requested needed, x = .error (.allocation requested needed)
  cursor : (changeAll again (restarted first s)).heap.allocator.cursor =
    (changeAll first s).heap.allocator.cursor
  /-- The generation is that of the first run, which is that of its beginning, and one more. -/
  generation : (changeAll first s).heap.allocator.generation = s.heap.allocator.generation ∧
    (changeAll again (restarted first s)).heap.allocator.generation =
      s.heap.allocator.generation + 1
  /-- No request of the second run makes the memory grow. -/
  memory : ∀ before operation after, again = before ++ .host operation :: after →
    operation.isRequest = true →
      (changeAll (before ++ [.host operation]) (restarted first s)).heap.memory.size =
        (changeAll before (restarted first s)).heap.memory.size

/-- The pages that the first run needed are there for every request of the second. -/
theorem size_request (hs : s.Served) {first before after : List Change}
    (hfirst : Undisturbed first s)
    (hagain : Undisturbed (before ++ .host operation :: after) (restarted first s))
    (hanswers : answers (before ++ .host operation :: after) (restarted first s) =
      answers first s)
    (hcursor : (changeAll (before ++ .host operation :: after)
      (restarted first s)).heap.allocator.cursor = (changeAll first s).heap.allocator.cursor)
    (hrequest : operation.isRequest = true) :
    (changeAll (before ++ [.host operation]) (restarted first s)).heap.memory.size =
      (changeAll before (restarted first s)).heap.memory.size := by
  obtain ⟨hbefore, hrest⟩ := undisturbed_append.1 hagain
  have hrestarted := served_restarted hs first
  have hthere := served_changeAll before hrestarted
  rw [changeAll_append] at hcursor ⊢
  cases comes_request hthere.attached hrequest with
  | granted answer advances =>
    have hgranted := mem_answers answer after
    rw [hanswers] at hgranted
    have hcovered := covered_changeAll hs hfirst (.inr ⟨_, hgranted⟩)
    have hlater := (carries_changeAll (served_change hthere _) hrest.2).cursor
    have hmore := (carries_changeAll hrestarted hbefore).memory
    rw [restarted, heap_reset (served_changeAll first hs).attached] at hmore
    refine advances.size.trans (Nat.max_eq_left ?_)
    calc
      wholePages _ ≤ wholePages (changeAll first s).heap.allocator.cursor.toNat :=
        Heap.wholePages_mono (hcursor ▸ hlater)
      _ ≤ (changeAll first s).heap.memory.size := hcovered
      _ ≤ (changeAll before (restarted first s)).heap.memory.size := hmore
  | refused _ same => exact congrArg (·.memory.size) same
  | idle hidle =>
    have hanswer := hidle.answer
    rw [answer?, if_pos hrequest] at hanswer
    cases hanswer

/-- **A second run.** -/
theorem Served.replays (hs : s.Served)
    (hbase : s.heap.allocator.cursor = s.heap.allocator.base) {first again : List Change}
    (hfirst : Undisturbed first s) (hagain : Undisturbed again (restarted first s))
    (hsame : again.filter Change.isRequest = first.filter Change.isRequest) :
    s.Replays first again := by
  have hrestarted := served_restarted hs first
  obtain ⟨hanswers, hroom⟩ := answers_requests hs hs (.refl _) hfirst
  obtain ⟨hanswers', hroom'⟩ := answers_requests hrestarted hs
    (sameRoom_restarted hs hfirst hbase).symm hagain
  rw [hsame] at hanswers' hroom'
  have hreplayed := hanswers'.symm.trans hanswers
  have hcursor := (hroom.trans hroom'.symm).cursor
  have honce := (carries_changeAll hs hfirst).generation
  have hagain' := (carries_changeAll hrestarted hagain).generation
  refine ⟨hreplayed, answers_settled hs hfirst, hcursor, ⟨honce, ?_⟩, ?_⟩
  · rw [hagain', restarted, heap_reset (served_changeAll first hs).attached, ← honce]
    rfl
  · rintro before operation after rfl hrequest
    exact size_request hs hfirst hagain hreplayed hcursor hrequest

end Spirit

/-! ## Loaded Spirits -/

namespace Loader

open Spirit

/-- **Replay.** Of a Spirit whose cursor is at the base of its heap, whatever happened to it before, a
run of requests for regions gives the same answers after a reset as before it, and the second run
needs no page that is not there. So it does if code grows the memory at any points of either run: the
cursor and the limit of the memory decide every answer. -/
theorem replays_reset {l : Loader} {bytes : Bytes} {o : LoadOptions} {s : Spirit}
    (hload : (l.load bytes o).result = .ok s) {changes : List Change}
    (hbase : (changeAll changes s).heap.allocator.cursor =
      (changeAll changes s).heap.allocator.base) :
    (∀ requests : List Change, (∀ c ∈ requests, c.isRequest = true) →
      (changeAll changes s).Replays requests requests) ∧
    (∀ first again : List Change, Undisturbed first (changeAll changes s) →
      Undisturbed again (restarted first (changeAll changes s)) →
        again.filter Change.isRequest = first.filter Change.isRequest →
          (changeAll changes s).Replays first again) ∧
    ∀ (operation : Operation) (t u : Spirit), operation.isRequest = true →
      t.heap.SameRoom u.heap → (u.perform operation).result = (t.perform operation).result := by
  obtain ⟨st, rfl⟩ := load_eq_ok.1 hload
  have hserved := served_changeAll changes st.served
  refine ⟨fun requests hrequests => ?_, fun first again hfirst hagain hsame => ?_, ?_⟩
  · exact hserved.replays hbase (undisturbed_of_requests hrequests)
      (undisturbed_of_requests hrequests) rfl
  · exact hserved.replays hbase hfirst hagain hsame
  · exact fun operation t u hrequest hroom => result_perform_of_sameRoom hroom hrequest

/-- A module that exports its memory, of one page and at most three, and a function that adds a page
to it. -/
def growingModule : Bytes := [
  0x00, 0x61, 0x73, 0x6d, 0x01, 0x00, 0x00, 0x00,
  0x01, 0x04, 0x01, 0x60, 0x00, 0x00,
  0x03, 0x02, 0x01, 0x00,
  0x05, 0x04, 0x01, 0x01, 0x01, 0x03,
  0x07, 0x11, 0x02, 0x06, 0x6d, 0x65, 0x6d, 0x6f, 0x72, 0x79, 0x02, 0x00,
  0x04, 0x67, 0x72, 0x6f, 0x77, 0x00, 0x00,
  0x0a, 0x09, 0x01, 0x07, 0x00, 0x41, 0x01, 0x40, 0x00, 0x1a, 0x0b]

/-- Requests, the second of which is refused, with a page added after the first of them, -/
def grownEarly : List Change :=
  [.host (.alloc 65000), .host (.call "grow" []), .host (.alloc 200000), .host (.writeString "x")]

/-- and the same requests with a page added after the second. -/
def grownLate : List Change :=
  [.host (.alloc 65000), .host (.alloc 200000), .host (.call "grow" []), .host (.writeString "x")]

theorem replays_grown : ∃ s, (shortLoader.load growingModule {}).result = .ok s ∧
    (changeAll [] s).heap.allocator.cursor = (changeAll [] s).heap.allocator.base ∧
      Undisturbed grownEarly s ∧ Undisturbed grownLate (restarted grownEarly s) ∧
        grownLate.filter Change.isRequest = grownEarly.filter Change.isRequest ∧
          s.Replays grownEarly grownLate := by
  have hchecked : ((shortLoader.load growingModule {}).result.toOption.map fun s =>
      decide (s.heap.allocator.cursor = s.heap.allocator.base ∧ Undisturbed grownEarly s ∧
        Undisturbed grownLate (restarted grownEarly s))) = some true := by decide +kernel
  cases hload : (shortLoader.load growingModule {}).result with
  | error e =>
    rw [hload] at hchecked
    cases hchecked
  | ok s =>
    rw [hload] at hchecked
    obtain ⟨hbase, hearly, hlate⟩ := of_decide_eq_true (Option.some.inj hchecked)
    have hstart : (changeAll [] s).heap.allocator.cursor = (changeAll [] s).heap.allocator.base :=
      hbase
    have hsame : grownLate.filter Change.isRequest = grownEarly.filter Change.isRequest := rfl
    have hreplays := (replays_reset hload hstart).2.1 _ _ hearly hlate hsame
    exact ⟨s, rfl, hstart, hearly, hlate, hsame, hreplays⟩

end Loader

end SpiritHost
