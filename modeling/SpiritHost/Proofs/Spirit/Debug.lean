import SpiritHost.Proofs.Spirit.Twins

/-!
# The debug flag

A module is loaded twice with the built-in Loa alone, with and without debug output, and the same is
done with both Spirits. As long as every text that it passes on as debug output is there, and as long as
it asks neither for the time nor for random numbers, nothing differs but the lines of debug output
(`Loader.debug_only_logs`).
-/

namespace SpiritHost

open Wasm (Import Instance Machine Module)

variable {b b' : Bool} {s t : Store}

/-! ## Linking -/

/-- The functions of the built-in Loa are all there is to link against. -/
theorem Linking.mergeAll_builtin (s : Store) :
    Linking.mergeAll [Loa.builtin] ⟨s, []⟩ = (.ok (), ⟨s, Loa.offered s.debug⟩) := by
  rfl

namespace Link

/-- An import is bound with and without debug output, or fails alike. -/
theorem bind_agrees (h : s.Twins b b' t) (m : Module) (i : Import) :
    Except.Agrees (fun _ _ => True) (bind m ⟨s, Loa.offered b⟩ i) (bind m ⟨t, Loa.offered b'⟩ i) := by
  have hmemory : t.memory 0 = s.memory 0 := h.congr (·.memory 0) fun _ _ => rfl
  have htypes := Loa.lookup_offered b' b i.name
  unfold bind
  dsimp only [Linking.get?]
  rw [hmemory]
  by_cases hhost : i.namespaceName ≠ namespaceName
  · rw [if_pos hhost, if_pos hhost]
    exact .error _
  rw [if_neg hhost, if_neg hhost]
  by_cases hname : i.name = memoryName
  · rw [if_pos hname, if_pos hname]
    exact .refl (fun _ => trivial) _
  rw [if_neg hname, if_neg hname]
  cases hfound : (Loa.offered b).lookup i.name with
  | none =>
    rw [hfound] at htypes
    rw [Option.map_eq_none_iff.1 htypes]
    exact .error _
  | some f =>
    rw [hfound] at htypes
    obtain ⟨g, hg, htype⟩ := Option.map_eq_some_iff.1 htypes
    rw [hg]
    cases i.kind with
    | func type =>
      dsimp only
      rw [htype]
      by_cases hasked : m.types[type]? = some f.type
      · rw [if_pos hasked, if_pos hasked]
        exact .ok trivial
      · rw [if_neg hasked, if_neg hasked]
        exact .error _
    | _ => exact .error _

theorem fillTables_recast (x : Setting) : ∀ (segments : List Wasm.ElementSegment) (u : Store),
    fillTables segments (u.recast x) = (fillTables segments u).map (Store.recast · x)
  | [], u => rfl
  | segment :: rest, u => by
    have ih := fillTables_recast x rest
    have htables : (u.recast x).tables = u.tables := rfl
    rw [fillTables, fillTables, htables]
    cases (u.tables.getD segment.table (.empty 0)).fill? (offset segment.offset)
        segment.functions with
    | none => rfl
    | some filled => exact ih { u with tables := u.tables.set segment.table filled }

theorem fillMemories_recast (inst : Instance) (x : Setting) :
    ∀ (segments : List Wasm.DataSegment) (u : Store),
      fillMemories inst segments (u.recast x) = (fillMemories inst segments u).map (Store.recast · x)
  | [], u => rfl
  | segment :: rest, u => by
    have ih := fillMemories_recast inst x rest
    have hlength : (u.recast x).memories = u.memories := rfl
    have hmemory : ∀ address, (u.recast x).memory address = u.memory address := fun _ => rfl
    rw [fillMemories, fillMemories, hlength, hmemory]
    cases (u.memory (inst.memories.getD segment.memory u.memories.length)).write?
        (offset segment.offset) segment.bytes with
    | none => rfl
    | some written => exact ih (u.setMemory _ written)

/-- Where segments go is a matter of the memories alone. -/
theorem fillMemories_congr {inst inst' : Instance} (h : inst'.memories = inst.memories) :
    ∀ (segments : List Wasm.DataSegment) (u : Store),
      fillMemories inst' segments u = fillMemories inst segments u
  | [], _ => rfl
  | segment :: rest, u => by
    have ih := fillMemories_congr h rest
    rw [fillMemories, fillMemories, h]
    simp only [ih]

section

variable {budget : Wasm.Budget} {m : Module} {bindings : List Binding} {f : Nat}

/-- The functions that are bound are those of the Loa. -/
theorem functions_of_bound (h : m.imports.mapM (bind m ⟨s, Loa.offered b⟩) = .ok bindings) :
    functions bindings = m.importNames.map (Loa.offer b) := by
  have hbound := forall₂_functions (Except.mapM_eq_ok_iff.1 h)
  have hnames : List.Forall₂ (fun i g => Loa.offer b i.1.name = g)
      (m.imports.filterMap functionImport?) (functions bindings) := by
    refine hbound.imp fun i g hg => ?_
    rw [Loa.offer, show (Loa.offered b).lookup i.1.name = some g from hg.1, Option.getD_some]
  rw [Module.importNames, List.map_map]
  exact (List.forall₂_eq_eq_eq ▸ List.forall₂_map_left_iff.2 hnames).symm

theorem function_of_import (h : m.imports.mapM (bind m ⟨s, Loa.offered b⟩) = .ok bindings)
    {name : String} (hname : m.importNames[f]? = some name) :
    (instantiate budget m bindings s).functions[f]? = some (.host (Loa.offer b name)) := by
  obtain ⟨hlt, hget⟩ := List.getElem?_eq_some_iff.1 hname
  simp [instantiate, functions_of_bound h, List.getElem?_append_left, hlt, hget]

theorem function_of_own (h : m.imports.mapM (bind m ⟨s, Loa.offered b⟩) = .ok bindings)
    (hname : m.importNames[f]? = none) :
    (instantiate budget m bindings s).functions[f]? =
      (ownFunctions budget m)[f - m.importNames.length]? := by
  have hlength := List.getElem?_eq_none_iff.1 hname
  simp [instantiate, functions_of_bound h, List.getElem?_append_right, hlength]

end

theorem instantiate_twins (budget : Wasm.Budget) (h : s.Twins b b' t) {m : Module}
    {bindings bindings' : List Binding}
    (hbind : m.imports.mapM (bind m ⟨s, Loa.offered b⟩) = .ok bindings)
    (hbind' : m.imports.mapM (bind m ⟨t, Loa.offered b'⟩) = .ok bindings') :
    (instantiate budget m bindings s).Twins b b' (instantiate budget m bindings' t) := by
  refine ⟨rfl, ?_, fun hname => ⟨function_of_import hbind hname, function_of_import hbind' hname⟩,
    fun hname => ⟨?_, fun function hfound => ?_⟩⟩
  · rw [instantiate, instantiate, memories_eq (Except.mapM_eq_ok_iff.1 hbind),
      memories_eq (Except.mapM_eq_ok_iff.1 hbind'), h.memories]
  · rw [function_of_own hbind hname, function_of_own hbind' hname]
  · rw [function_of_own hbind hname] at hfound
    exact not_host_ownFunctions (List.mem_of_getElem? hfound)

end Link

namespace Loader

variable {l : Loader} {bytes : Bytes} {o : LoadOptions}

/-- **Linking** fails alike with and without debug output, or makes twins. -/
theorem link_agrees (budget : Wasm.Budget) (h : s.Twins b b' t) (m : Module) :
    Except.Agrees (fun p q => p.1.Twins b b' q.1 ∧ p.2.Twins b b' q.2)
      (link budget m ⟨s, Loa.offered b⟩) (link budget m ⟨t, Loa.offered b'⟩) := by
  have hfree : ∀ (isOn : Bool) (u : Store),
      ¬(Linking.get? ⟨u, Loa.offered isOn⟩ Link.memoryName).isSome = true := by
    intro isOn u
    simp [Linking.get?, Loa.offered, lookup_cons_if, Link.memoryName]
  unfold link
  rw [if_neg (hfree b s), if_neg (hfree b' t)]
  dsimp only
  refine (Except.Agrees.mapM (Link.bind_agrees h m) m.imports).bind ?_
  intro bindings bindings' hbind hbind' _
  have hinst := Link.instantiate_twins budget h hbind hbind'
  have hextended := h.map (Link.extend m) fun _ _ => rfl
  have htables := hextended.agrees _ fun u x => Link.fillTables_recast x m.elements u
  refine htables.bind fun u v _ _ huv => ?_
  rw [Link.fillMemories_congr hinst.memories]
  have hmemories := huv.agrees (Link.fillMemories (Link.instantiate budget m bindings s) m.data)
    fun u x => Link.fillMemories_recast _ x m.data u
  exact hmemories.bind fun u v _ _ huv => .ok ⟨hinst, huv⟩

/-- The calls of imports in the start function. -/
def startCalls (budget : Wasm.Budget) (inst : Instance) (store : Store) : List ImportCall :=
  match inst.source.start with
  | some f => Machine.importCalls inst budget budget.steps (.start f [] store)
  | none => []

/-- The calls of imports in a load. -/
def loadCalls (l : Loader) (bytes : Bytes) (o : LoadOptions) : List ImportCall :=
  match compile bytes, memory o.memory with
  | .ok m, .ok memory =>
    match Linking.mergeAll (l.loas o) ⟨l.freshStore o memory, []⟩ with
    | (.ok (), linking) => match link l.budget m linking with
      | .ok (inst, store) => startCalls l.budget inst store
      | .error _ => []
    | (.error _, _) => []
  | _, _ => []

/-- The calls of imports in a load and a run of operations after it. -/
def importCalls (l : Loader) (bytes : Bytes) (o : LoadOptions) (operations : List Operation) :
    List ImportCall :=
  l.loadCalls bytes o ++
    match (l.load bytes o).result with
    | .ok s => s.importCallsAll operations
    | .error _ => []

theorem start_twins {inst inst' : Instance} (budget : Wasm.Budget) (hinst : inst.Twins b b' inst')
    (h : s.Twins b b' t) (htame : ∀ c ∈ startCalls budget inst s, c.Tame) :
    Store.SameResult b b' (start budget inst s) (start budget inst' t) := by
  unfold startCalls at htame
  unfold start
  rw [hinst.source]
  cases hstart : inst.source.start with
  | none => exact .mk _ h
  | some f =>
    rw [hstart] at htame
    have hrun : (inst.run budget f [] s).Twins b b' (inst'.run budget f [] t) :=
      Machine.run_twins hinst budget.steps (m := .start f [] s) h htame
    dsimp only
    generalize inst.run budget f [] s = o at hrun
    generalize inst'.run budget f [] t = o' at hrun
    cases hrun with
    | finished h | outOfSteps h => exact .mk _ h
    | @halted halt _ _ h => cases halt <;> exact .mk _ h

theorem serve_twins {inst inst' : Instance} (budget : Wasm.Budget) (hinst : inst.Twins b b' inst')
    (h : s.Twins b b' t) : (serve budget inst s).Twins b b' (serve budget inst' t) := by
  have hexported : exportedMemory? inst' = exportedMemory? inst := by
    unfold exportedMemory?
    rw [hinst.source, hinst.memories]
  unfold serve
  rw [hexported]
  cases exportedMemory? inst with
  | none => exact ⟨hinst, h, rfl, rfl⟩
  | some memory =>
    exact ⟨hinst, h.map (fun u => { u with record? := some memory }) fun _ _ => rfl, rfl, rfl⟩

theorem abandon_agrees {S : Spirit → Spirit → Prop} (fault : LoadFault) (h : s.Twins b b' t) :
    (abandon fault s).Agrees b b' Eq S (abandon fault t) :=
  ⟨.error _, rfl, h.sameButDebug, h.congr (·.planted) fun _ _ => rfl⟩

theorem freshStore_twins (l : Loader) (o : LoadOptions) (memory : LinearMemory)
    (clock entropy : UInt64) :
    (l.freshStore { o with debug := b } memory).Twins b b'
      (freshStore { l with clock, entropy } { o with debug := b' } memory) := by
  refine ⟨fun _ => rfl, fun _ => ?_, fun _ => ?_⟩
  · simp [Store.Quiet, freshStore, Store.new, Store.empty, Store.attach]
  · simp [Store.Quiet, freshStore, Store.new, Store.empty, Store.attach]

/-- **Loading.** A load has the same outcome with and without debug output, and makes twins. -/
theorem load_twins (hloas : l.loas o = [Loa.builtin]) (clock entropy : UInt64)
    (htame : ∀ c ∈ l.loadCalls bytes { o with debug := b }, c.Tame) :
    (l.load bytes { o with debug := b }).Agrees b b' Eq (Spirit.Twins b b')
      (load { l with clock, entropy } bytes { o with debug := b' }) := by
  have hloas₁ : l.loas { o with debug := b } = [Loa.builtin] := hloas
  have hloas₂ : loas { l with clock, entropy } { o with debug := b' } = [Loa.builtin] := hloas
  unfold loadCalls at htame
  unfold load
  dsimp only at htame ⊢
  cases hcompile : compile bytes with
  | error fault => exact .plain (.error _) rfl
  | ok m =>
    cases hmemory : memory o.memory with
    | error fault => exact .plain (.error _) rfl
    | ok made =>
      have hfresh : (l.freshStore { o with debug := b } made).Twins b b'
          (freshStore { l with clock, entropy } { o with debug := b' } made) :=
        freshStore_twins l o made clock entropy
      rw [hcompile, hmemory] at htame
      dsimp only at htame ⊢
      rw [hloas₁, Linking.mergeAll_builtin] at htame ⊢
      rw [hloas₂, Linking.mergeAll_builtin]
      have hlink := link_agrees l.budget hfresh m
      have hflag₁ : (l.freshStore { o with debug := b } made).debug = b := rfl
      have hflag₂ : (freshStore { l with clock, entropy } { o with debug := b' } made).debug = b' := rfl
      rw [hflag₁] at htame ⊢
      rw [hflag₂]
      dsimp only at htame ⊢
      revert htame hlink
      generalize link l.budget m ⟨l.freshStore { o with debug := b } made, Loa.offered b⟩ = first
      generalize link l.budget m ⟨freshStore { l with clock, entropy } { o with debug := b' } made,
        Loa.offered b'⟩ = second
      intro htame hlink
      cases hlink with
      | error fault => exact abandon_agrees fault hfresh
      | @ok p q h =>
        obtain ⟨inst, u⟩ := p
        obtain ⟨inst', v⟩ := q
        have hstart := start_twins l.budget h.1 h.2 htame
        dsimp only
        generalize start l.budget inst u = r at hstart
        generalize start l.budget inst' v = r' at hstart
        cases hstart with
        | mk result hstarted =>
          cases result with
          | error fault => exact abandon_agrees fault hstarted
          | ok =>
            have hserved := serve_twins l.budget h.1 hstarted
            have hsettled := Spirit.settle_twins hserved hserved.store (.ok ())
            exact ⟨.ok hsettled.state, rfl, hsettled.log, hsettled.destroyed⟩

/-- **The debug flag.** A module is loaded with the built-in Loa alone, with and without debug output, and
the same is done with both Spirits. If what the first of them asks of its imports is tame, the start
function included, then the load and every operation have the same outcome, and leave the same memories
and the same allocator; the lines are the same but for those of debug output, of which there are none
without the flag. The time and the random numbers need not be the same. -/
theorem debug_only_logs (hloas : l.loas o = [Loa.builtin]) (operations : List Operation)
    (htame : ∀ c ∈ l.importCalls bytes { o with debug := b } operations, c.Tame)
    (clock entropy : UInt64) :
    (l.load bytes { o with debug := b }).Agrees b b' Eq
      (fun s t => s.LooksLike t ∧ List.Forall₂ (Reply.Agrees b b' Spirit.LooksLike Eq)
        (s.replies operations) (t.replies operations))
      (load { l with clock, entropy } bytes { o with debug := b' }) := by
  have hload : (l.load bytes { o with debug := b }).Agrees b b' Eq (Spirit.Twins b b')
      (load { l with clock, entropy } bytes { o with debug := b' }) :=
    load_twins hloas clock entropy fun c hc => htame c (List.mem_append_left _ hc)
  refine ⟨?_, hload.state, hload.log, hload.destroyed⟩
  have hresult := hload.result
  have hrun : ∀ s, (l.load bytes { o with debug := b }).result = .ok s →
      ∀ c ∈ s.importCallsAll operations, c.Tame := by
    intro s hs c hc
    refine htame c (List.mem_append_right _ ?_)
    rw [hs]
    exact hc
  generalize (l.load bytes { o with debug := b }).result = r at hresult hrun ⊢
  generalize (load { l with clock, entropy } bytes { o with debug := b' }).result = r' at hresult ⊢
  cases hresult with
  | error e => exact .error e
  | @ok s t h => exact .ok ⟨h.looksLike, Spirit.replies_twins operations h (hrun s rfl)⟩

/-- A module that passes two bytes at 1028 on as debug output, when it is started and when `f` is
called. -/
def debuggingModule : Bytes := [
  0x00, 0x61, 0x73, 0x6d, 0x01, 0x00, 0x00, 0x00,
  0x01, 0x09, 0x02, 0x60, 0x02, 0x7f, 0x7f, 0x00, 0x60, 0x00, 0x00,
  0x02, 0x12, 0x01, 0x03, 0x65, 0x6e, 0x76, 0x0a, 0x76, 0x75, 0x64, 0x6f, 0x5f, 0x64, 0x65, 0x62,
  0x75, 0x67, 0x00, 0x00,
  0x03, 0x02, 0x01, 0x01,
  0x07, 0x05, 0x01, 0x01, 0x66, 0x00, 0x01,
  0x08, 0x01, 0x01,
  0x0a, 0x0b, 0x01, 0x09, 0x00, 0x41, 0x84, 0x08, 0x41, 0x02, 0x10, 0x00, 0x0b]

/-- What is done with it: a string is written where it reads, `f` is called, and all is reset. -/
def debugging : List Operation := [.writeString "hi", .call "f" [], .reset]

/-- The lines of a load and of the operations after it. -/
def debuggingLog (isOn : Bool) : List LogLine :=
  let r := shortLoader.load debuggingModule { debug := isOn }
  r.log ++ match r.result with
    | .ok s => (s.replies debugging).flatMap (·.log)
    | .error _ => []

theorem debug_only_logs_debugging :
    shortLoader.loas {} = [Loa.builtin] ∧
    (∀ c ∈ shortLoader.importCalls debuggingModule { debug := false } debugging, c.Tame) ∧
    debuggingLog false = [] ∧ debuggingLog true = [.debug "\x00\x00", .debug "hi"] ∧
    (shortLoader.load debuggingModule { debug := false }).Agrees false true Eq
      (fun s t => s.LooksLike t ∧ List.Forall₂ (Reply.Agrees false true Spirit.LooksLike Eq)
        (s.replies debugging) (t.replies debugging))
      (shortLoader.load debuggingModule { debug := true }) := by
  have htame : ∀ c ∈ shortLoader.importCalls debuggingModule { debug := false } debugging,
      c.Tame := by decide +kernel
  exact ⟨rfl, htame, by decide +kernel, by decide +kernel,
    debug_only_logs (o := {}) rfl debugging htame 0 0⟩

end Loader

end SpiritHost
