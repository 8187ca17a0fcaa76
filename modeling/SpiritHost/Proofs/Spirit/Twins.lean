import SpiritHost.Proofs.Spirit.Deeds
import SpiritHost.Proofs.Wasm.Debug

/-!
# Spirits with and without debug output

Two Spirits are twins if they are of one module, linked against the built-in Loa with and without debug
output, on stores that are twins. Whatever is done with both, the replies are the same but for debug
output, and they are twins afterwards (`Spirit.perform_twins`), as long as the imports that run are
called tamely (`Spirit.importCalls`).
-/

namespace SpiritHost

open Wasm (FuncType Machine Outcome Value)

/-! ## Replies -/

/-- The same lines but for debug output, of which there is none without the flag. -/
structure SameButDebug (b b' : Bool) (lines lines' : List LogLine) : Prop where
  same : withoutDebug lines' = withoutDebug lines
  quiet : b = false → ∀ line ∈ lines, line.isDebug = false
  quiet' : b' = false → ∀ line ∈ lines', line.isDebug = false

/-- Two replies are the same but for debug output: the same error or results that are related, related
states, and as much destroyed. -/
structure Reply.Agrees {σ α : Type} (b b' : Bool) (S : σ → σ → Prop) (A : α → α → Prop)
    (r r' : Reply σ α) : Prop where
  result : Except.Agrees A r.result r'.result
  state : S r.state r'.state
  log : SameButDebug b b' r.log r'.log
  destroyed : r'.destroyed = r.destroyed

section

variable {b b' : Bool} {σ α β : Type} {S T : σ → σ → Prop} {A : α → α → Prop} {r r' : Reply σ α}
  {s t : Store}

theorem Store.Twins.sameButDebug (h : s.Twins b b' t) : SameButDebug b b' s.log.toList t.log.toList :=
  ⟨h.log, fun hb line hline => h.quiet hb line (Array.mem_toList_iff.1 hline),
    fun hb line hline => h.quiet' hb line (Array.mem_toList_iff.1 hline)⟩

theorem Reply.Agrees.plain {result result' : Except Error α} {u v : σ}
    (hresult : Except.Agrees A result result') (hstate : S u v) :
    (Reply.plain result u).Agrees b b' S A (.plain result' v) :=
  ⟨hresult, hstate, ⟨rfl, nofun, nofun⟩, rfl⟩

theorem Reply.Agrees.map (h : r.Agrees b b' S Eq r') (f : α → β) :
    (r.map f).Agrees b b' S Eq (r'.map f) := by
  refine ⟨.of_eq ?_, h.state, h.log, h.destroyed⟩
  rw [Reply.map, Reply.map, h.result.eq]

theorem Reply.Agrees.imp (h : r.Agrees b b' S A r') (hstate : ∀ u v, S u v → T u v) :
    r.Agrees b b' T A r' := ⟨h.result, hstate _ _ h.state, h.log, h.destroyed⟩

end

namespace Spirit

/-! ## Calls of imports -/

/-- The calls of imports in the run of a function. An import that is exported is called by the holder
itself. -/
def codeCalls (s : Spirit) (index : Nat) (args : List Value) : List ImportCall :=
  match s.source.importNames[index]? with
  | some name => [⟨name, args, s.store⟩]
  | none => Machine.importCalls s.linked s.budget s.budget.steps (.start index args s.store)

/-- The calls of imports in a call that runs a function, if it does. -/
def entryCalls (s : Spirit) : Option (Nat × List Value) → List ImportCall
  | some (index, args) => s.codeCalls index args
  | none => []

/-- The calls of imports in an operation. -/
def importCalls (s : Spirit) : Operation → List ImportCall
  | .call name args => s.entryCalls (s.entry? name args)
  | .callTyped name type args => s.entryCalls (s.entryTyped? name type args)
  | .callJson name args => s.entryCalls (s.entryJson? name args)
  | _ => []

/-- The calls of imports in a run of operations. -/
def importCallsAll : List Operation → Spirit → List ImportCall
  | [], _ => []
  | operation :: rest, s =>
    s.importCalls operation ++ importCallsAll rest (s.perform operation).state

/-- The replies to a run of operations. -/
def replies : List Operation → Spirit → List (Reply Spirit Answer)
  | [], _ => []
  | operation :: rest, s => s.perform operation :: replies rest (s.perform operation).state

/-! ## Twins -/

/-- Two Spirits differ in debug output at most. -/
structure Twins (b b' : Bool) (s t : Spirit) : Prop where
  linked : s.linked.Twins b b' t.linked
  store : s.store.Twins b b' t.store
  manager : t.manager = s.manager
  budget : t.budget = s.budget

/-- What can be seen of two Spirits is the same: their module and memories, the memory that the holder
works on, and the allocator with its cursor and its generation. -/
structure LooksLike (s t : Spirit) : Prop where
  source : t.source = s.source
  memories : t.store.memories = s.store.memories
  manager : t.manager = s.manager
  allocator : t.store.allocator = s.store.allocator

variable {b b' : Bool} {s t : Spirit} {name : String} {index : Nat} {args : List Value}

theorem Twins.source (h : s.Twins b b' t) : t.source = s.source := h.linked.source

theorem Twins.heap (h : s.Twins b b' t) : t.heap = s.heap := by
  rw [Spirit.heap, Spirit.heap, h.manager, h.store.heapAt]

theorem Twins.looksLike (h : s.Twins b b' t) : s.LooksLike t :=
  ⟨h.source, h.store.memories, h.manager, h.store.allocator⟩

theorem Twins.function (h : s.Twins b b' t) (name : String) : t.function name = s.function name :=
  function_eq_of_source h.source

theorem Twins.params (h : s.Twins b b' t) (index : Nat) : t.params index = s.params index := by
  rw [params_eq_of_source h.source]

theorem settle_twins {α : Type} {u v : Store} (hs : s.Twins b b' t) (h : u.Twins b b' v)
    (result : Except Error α) :
    (s.settle result u).Agrees b b' (Twins b b') Eq (t.settle result v) := by
  refine ⟨.of_eq rfl, ⟨hs.linked, ?_, hs.manager, hs.budget⟩, h.sameButDebug, h.replaced⟩
  exact h.map (fun w => { w with log := #[], replaced := 0 }) fun _ _ => rfl

/-- The reply to a run of code. -/
def conclude (s : Spirit) : Outcome → Reply Spirit (List Value)
  | .finished results store => s.settle (.ok results) store
  | .halted halt store => s.settle (.error (haltError halt)) store
  | .outOfSteps store => s.settle (.error .outOfSteps) store

theorem run_of_own (h : ∀ function, s.linked.functions[index]? ≠ some (.host function)) :
    s.run index args = s.conclude (s.linked.run s.budget index args s.store) := by
  unfold run
  split
  · rename_i function hfound
    exact absurd hfound (h function)
  · cases s.linked.run s.budget index args s.store <;> rfl

/-- **Running a function.** -/
theorem run_twins (hs : s.Twins b b' t) (htame : ∀ c ∈ s.codeCalls index args, c.Tame) :
    (s.run index args).Agrees b b' (Twins b b') Eq (t.run index args) := by
  unfold codeCalls at htame
  cases hname : s.source.importNames[index]? with
  | some name =>
    rw [hname] at htame
    have hcall := Loa.offer_twins (htame _ List.mem_cons_self) hs.store
    unfold run
    rw [(hs.linked.imports hname).1, (hs.linked.imports hname).2]
    dsimp only
    generalize ((Loa.offer b name).call args).run s.store = r at hcall
    generalize ((Loa.offer b' name).call args).run t.store = r' at hcall
    cases hcall with
    | mk result hstore => cases result <;> exact settle_twins hs hstore _
  | none =>
    rw [hname] at htame
    have hend : (s.linked.run s.budget index args s.store).Twins b b'
        (t.linked.run s.budget index args t.store) :=
      Machine.run_twins hs.linked s.budget.steps (m := .start index args s.store) hs.store htame
    obtain ⟨hsame, hown⟩ := hs.linked.own hname
    have hown' : ∀ function, t.linked.functions[index]? ≠ some (.host function) := by
      rw [hsame]
      exact hown
    rw [run_of_own hown, run_of_own hown', hs.budget]
    generalize s.linked.run s.budget index args s.store = o at hend
    generalize t.linked.run s.budget index args t.store = o' at hend
    cases hend with
    | finished h | halted h | outOfSteps h => exact settle_twins hs h _

theorem callIndex_twins (hs : s.Twins b b' t) (hfunction : s.function name = .ok index)
    (htame : ∀ c ∈ s.entryCalls (s.entry? name args), c.Tame) :
    (s.callIndex name index args).Agrees b b' (Twins b b') Eq (t.callIndex name index args) := by
  have hcheck : t.check name index args = s.check name index args := by
    rw [check, check, hs.params]
  rw [callIndex_eq, callIndex_eq, hcheck, hs.params]
  cases hpass : s.check name index args with
  | error e => exact .plain (.error e) hs
  | ok =>
    obtain ⟨_, hcount, -⟩ := Except.bind_eq_ok_iff.1 hpass
    dsimp only
    cases hmisfit : misfit? 0 (s.params index) args with
    | some i => exact .plain (.error _) hs
    | none =>
      have hfits := (misfit?_eq_none_iff _ _ 0 (checkCount_eq_ok_iff.1 hcount)).1 hmisfit
      have hentry : s.entry? name args = some (index, args) := by
        unfold entry?
        rw [hfunction]
        exact if_pos hfits
      rw [hentry] at htame
      exact run_twins hs htame

theorem call_twins (hs : s.Twins b b' t)
    (htame : ∀ c ∈ s.entryCalls (s.entry? name args), c.Tame) :
    (s.call name args).Agrees b b' (Twins b b') Eq (t.call name args) := by
  rw [call, call, hs.function]
  cases hfunction : s.function name with
  | error e => exact .plain (.error e) hs
  | ok index => exact callIndex_twins hs hfunction htame

theorem callTyped_twins (hs : s.Twins b b' t) {type : FuncType}
    (htame : ∀ c ∈ s.entryCalls (s.entryTyped? name type args), c.Tame) :
    (s.callTyped name type args).Agrees b b' (Twins b b') Eq (t.callTyped name type args) := by
  unfold callTyped
  rw [hs.function, hs.source]
  cases hfunction : s.function name with
  | error e => exact .plain (.error e) hs
  | ok index =>
    dsimp only
    by_cases htype : (s.source.functionType? index).getD ⟨[], []⟩ = type
    · rw [if_pos htype, if_pos htype]
      refine callIndex_twins hs hfunction ?_
      simpa [entryTyped?, hfunction, htype] using htame
    · rw [if_neg htype, if_neg htype]
      exact .plain (.error _) hs

theorem callJson_twins (hs : s.Twins b b' t) {args : List Json}
    (htame : ∀ c ∈ s.entryCalls (s.entryJson? name args), c.Tame) :
    (s.callJson name args).Agrees b b' (Twins b b') Eq (t.callJson name args) := by
  rw [callJson_eq, callJson_eq, hs.function]
  cases hfunction : s.function name with
  | error e => exact .plain (.error e) hs
  | ok index =>
    have hcheck : t.checkJson name index args = s.checkJson name index args := by
      rw [checkJson, checkJson, hs.params]
    dsimp only
    rw [← checkJson, ← checkJson, hcheck]
    cases hvalues : s.checkJson name index args with
    | error e => exact .plain (.error e) hs
    | ok values =>
      refine (callIndex_twins hs hfunction ?_).map resultJson
      simpa [entryJson?, hfunction, hvalues] using htame

/-! ## Operations -/

/-- What the holder asks of the heap. -/
theorem onHeap_twins {α : Type} (hs : s.Twins b b' t) (request : Heap → Except Error (α × Heap)) :
    (s.onHeap request).Agrees b b' (Twins b b') Eq (t.onHeap request) := by
  have hresult := hs.store.result (·.onHeapAt s.manager (request s.heap)) fun u x =>
    Store.onHeapAt_recast x _ _
  unfold onHeap
  rw [hs.heap, hs.manager]
  generalize s.store.onHeapAt s.manager (request s.heap) = r at hresult ⊢
  generalize t.store.onHeapAt s.manager (request s.heap) = r' at hresult ⊢
  cases hresult with
  | mk result hstore => exact settle_twins hs hstore result

theorem reset_twins (hs : s.Twins b b' t) : s.reset.Twins b b' t.reset := by
  refine ⟨hs.linked, ?_, hs.manager, hs.budget⟩
  unfold reset
  rw [hs.heap, hs.manager]
  exact hs.store.map (·.setHeapAt s.manager s.heap.reset) fun _ _ => rfl

/-- **Operations.** An operation on twins has the same reply but for debug output, and leaves twins. -/
theorem perform_twins (hs : s.Twins b b' t) (operation : Operation)
    (htame : ∀ c ∈ s.importCalls operation, c.Tame) :
    (s.perform operation).Agrees b b' (Twins b b') Eq (t.perform operation) := by
  have hread : ∀ {α : Type} (read : Heap → Except Error α) (answer : α → Answer),
      (Reply.plain ((read s.heap).map answer) s).Agrees b b' (Twins b b') Eq
        (.plain ((read t.heap).map answer) t) := by
    intro α read answer
    rw [hs.heap]
    exact .plain (.of_eq rfl) hs
  cases operation with
  | alloc size => exact (onHeap_twins hs _).map _
  | allocAligned size align => exact (onHeap_twins hs _).map _
  | allocRecord gene => exact (onHeap_twins hs _).map _
  | writeString text => exact (onHeap_twins hs _).map _
  | free address => exact .plain (.ok rfl) hs
  | reset => exact .plain (.ok rfl) (reset_twins hs)
  | writeBytes address bytes => exact (onHeap_twins hs _).map _
  | writeRecord gene address record => exact (onHeap_twins hs _).map _
  | readBytes address len => exact hread (·.readBytes address len) _
  | readText address len => exact hread (·.readText address len) _
  | readString address => exact hread (·.decodeString address) _
  | readRecord gene address => exact hread (·.readRecord gene address) _
  | call name args => exact (call_twins hs htame).map _
  | callTyped name type args => exact (callTyped_twins hs htame).map _
  | callJson name args => exact (callJson_twins hs htame).map _

/-- **Runs of operations.** Every reply is the same but for debug output. -/
theorem replies_twins : ∀ (operations : List Operation) {s t : Spirit}, s.Twins b b' t →
    (∀ c ∈ importCallsAll operations s, c.Tame) →
      List.Forall₂ (Reply.Agrees b b' LooksLike Eq) (replies operations s) (replies operations t)
  | [], _, _, _, _ => .nil
  | operation :: rest, s, t, hs, htame => by
    have hfirst := perform_twins hs operation fun c hc => htame c (List.mem_append_left _ hc)
    refine .cons (hfirst.imp fun _ _ => Twins.looksLike) ?_
    exact replies_twins rest hfirst.state fun c hc => htame c (List.mem_append_right _ hc)

end Spirit

end SpiritHost
