import SpiritHost.Proofs.Loa.Merge
import SpiritHost.Proofs.Spirit.Load
import SpiritHost.Proofs.Wasm.Log

/-!
# Capabilities

A Spirit can do what its Loas let it do. Its Loas are those of one registry, then those that the
defaults add, then those of the summoning; all are asked, in this order, before anything is linked.
Each function that the module imports is the one of its name declared last, or the load fails.
-/

namespace SpiritHost

open Wasm (Callee Import Machine Module)

/-- The Loas that a summoning links against, in order. -/
def SummonOptions.loas (o : SummonOptions) (l : Loader) (defaults : LoadOptions) : List Loa :=
  ((o.registry.or defaults.registry).getD l.registry).loas ++ defaults.imports ++ o.imports

theorem SummonOptions.loas_apply (o : SummonOptions) (l : Loader) (defaults : LoadOptions) :
    l.loas (o.apply defaults) = o.loas l defaults := by
  unfold Loader.loas apply loas
  rw [List.append_assoc]
  cases o.registry <;> rfl

/-- Summoning without options is loading with the defaults. -/
theorem SummonOptions.apply_unset (defaults : LoadOptions) :
    ({} : SummonOptions).apply defaults = defaults := by
  simp [apply]

/-! ## Imports -/

/-- An import of a function, with the index of its type. -/
def functionImport? (i : Import) : Option (Import × Nat) :=
  match i.kind with
  | .func type => some (i, type)
  | _ => none

/-- An import of a memory. -/
def isMemoryImport (i : Import) : Bool :=
  match i.kind with
  | .memory _ => true
  | _ => false

/-- The function of an import's name that is declared last, of exactly the type asked for. -/
structure BoundTo (asked : List Asked) (m : Module) (i : Import × Nat) (f : HostFunction) : Prop where
  last : ∃ before after, declarations asked = before ++ (i.1.name, f) :: after ∧
    ∀ p ∈ after, p.1 ≠ i.1.name
  type : m.types[i.2]? = some f.type

/-- What a Spirit is linked against, and the log of loading it. -/
structure Capabilities (asked : List Asked) (bound : List HostFunction) (s : Spirit)
    (log : List LogLine) : Prop where
  /-- Everything that is imported is the host's. -/
  namespaces : ∀ i ∈ s.source.imports, i.namespaceName = Link.namespaceName
  /-- Each function import is bound to the function of its name that is declared last. -/
  bindings : List.Forall₂ (BoundTo asked s.source) (s.source.imports.filterMap functionImport?) bound
  /-- The Spirit's functions are those bound and the module's own. -/
  functions : s.linked.functions.toList = bound.map Callee.host ++ Link.ownFunctions s.budget s.source
  /-- Its code calls no host function but those bound. -/
  reachable : ∀ (m : Machine) (call : HostCall (List Wasm.Value)),
    m.hostCall? s.linked = some call → ∃ f ∈ bound, ∃ args, call = f.call args
  /-- No function is named like the memory, and what is imported as the memory is the host's. -/
  unreserved : ∀ p ∈ declarations asked, p.1 ≠ Link.memoryName
  memories : s.linked.memories =
    (s.source.imports.filter isMemoryImport).map (fun _ => 0) ++
      List.range' 1 s.source.memories.length
  /-- The lines of asking and merging come first, then those of the start function. -/
  logged : ∃ started, log = mergeLog [] asked ++ started ∧ (s.source.start = none → started = [])

namespace Link

variable {m : Module} {linking : Linking} {i : Import} {b : Binding}

theorem bind_eq_ok (h : bind m linking i = .ok b) : i.namespaceName = namespaceName ∧
    match b with
    | .function f => linking.get? i.name = some f ∧
        ∃ type, i.kind = .func type ∧ m.types[type]? = some f.type
    | .memory => ∃ limits, i.kind = .memory limits := by
  unfold bind at h
  dsimp only at h
  split at h
  · cases h
  · rename_i hname
    refine ⟨by simpa using hname, ?_⟩
    split at h
    · split at h
      · rename_i limits hkind
        split at h
        · cases h
          exact ⟨limits, hkind⟩
        · cases h
      · cases h
    · split at h
      · cases h
      · rename_i f hget
        split at h
        · rename_i type hkind
          split at h
          · rename_i htype
            cases h
            exact ⟨hget, type, hkind, htype⟩
          · cases h
        · cases h

theorem forall₂_functions : ∀ {imports : List Import} {bindings : List Binding},
    List.Forall₂ (fun i b => bind m linking i = .ok b) imports bindings →
      List.Forall₂ (fun i f => linking.get? i.1.name = some f ∧ m.types[i.2]? = some f.type)
        (imports.filterMap functionImport?) (functions bindings)
  | _, _, .nil => .nil
  | i :: imports, b :: bindings, .cons h rest => by
    have ih := forall₂_functions rest
    obtain ⟨-, hb⟩ := bind_eq_ok h
    cases b with
    | function f =>
      obtain ⟨hget, type, hkind, htype⟩ := hb
      rw [List.filterMap_cons_some (by rw [functionImport?, hkind])]
      exact .cons ⟨hget, htype⟩ ih
    | memory =>
      obtain ⟨limits, hkind⟩ := hb
      rw [List.filterMap_cons_none (by rw [functionImport?, hkind])]
      exact ih

theorem memories_eq : ∀ {imports : List Import} {bindings : List Binding},
    List.Forall₂ (fun i b => bind m linking i = .ok b) imports bindings →
      memories bindings = (imports.filter isMemoryImport).map fun _ => 0
  | _, _, .nil => rfl
  | i :: imports, b :: bindings, .cons h rest => by
    have ih := memories_eq rest
    obtain ⟨-, hb⟩ := bind_eq_ok h
    cases b with
    | function f =>
      obtain ⟨-, type, hkind, -⟩ := hb
      rw [List.filter_cons_of_neg (by simp [isMemoryImport, hkind])]
      exact ih
    | memory =>
      obtain ⟨limits, hkind⟩ := hb
      rw [List.filter_cons_of_pos (by simp [isMemoryImport, hkind]), List.map_cons, ← ih]
      rfl

theorem namespaces_eq : ∀ {imports : List Import} {bindings : List Binding},
    List.Forall₂ (fun i b => bind m linking i = .ok b) imports bindings →
      ∀ i ∈ imports, i.namespaceName = namespaceName
  | _, _, .nil, _, hi => by cases hi
  | _, _, .cons h rest, i, hi => by
    rcases List.mem_cons.1 hi with rfl | hi
    · exact (bind_eq_ok h).1
    · exact namespaces_eq rest i hi

end Link

/-! ## Reachable functions -/

theorem not_host_ownFunctions {budget : Wasm.Budget} {m : Module} {f : HostFunction} :
    Callee.host f ∉ Link.ownFunctions budget m := by
  unfold Link.ownFunctions
  rw [List.mem_map]
  rintro ⟨_, -, h⟩
  cases h

/-- The machine calls functions of its instance alone. -/
theorem Wasm.Machine.mem_of_callee? {m : Machine} {inst : Wasm.Instance} {callee : Callee}
    {operands : List Wasm.Value} (h : m.callee? inst = some (callee, operands)) :
    callee ∈ inst.functions.toList := by
  have hmem : ∀ {f : Nat} {c : Callee}, inst.functions[f]? = some c → c ∈ inst.functions.toList :=
    fun h => Array.mem_toList_iff.2 (Array.mem_of_getElem? h)
  unfold callee? at h
  split at h
  · obtain ⟨c, hc, hpair⟩ := Option.map_eq_some_iff.1 h
    cases hpair
    exact hmem hc
  · split at h
    · split at h
      · cases h
      · split at h
        · cases h
        · split at h
          · rename_i hc
            split at h
            · cases h
              exact hmem hc
            · cases h
          · cases h
    · cases h
  · cases h

theorem Wasm.Machine.hostCall_bound {m : Machine} {inst : Wasm.Instance} {bound : List HostFunction}
    {budget : Wasm.Budget} {source : Module} {call : HostCall (List Wasm.Value)}
    (hfunctions : inst.functions.toList = bound.map Callee.host ++ Link.ownFunctions budget source)
    (h : m.hostCall? inst = some call) : ∃ f ∈ bound, ∃ args, call = f.call args := by
  unfold hostCall? at h
  split at h
  · rename_i f operands hcallee
    cases h
    have hmem := mem_of_callee? hcallee
    rw [hfunctions, List.mem_append] at hmem
    rcases hmem with hmem | hmem
    · obtain ⟨g, hg, heq⟩ := List.mem_map.1 hmem
      cases heq
      exact ⟨f, hg, _, rfl⟩
    · exact absurd hmem not_host_ownFunctions
  · cases h

/-! ## Loading -/

namespace Loader

variable {l : Loader} {bytes : Bytes} {o : LoadOptions} {memory : LinearMemory}

theorem known_fresh (s : Store) : Linking.Known [] ⟨s, []⟩ := by
  intro name
  simp [Linking.get?]

theorem log_of_link {budget : Wasm.Budget} {m : Module} {linking : Linking}
    {inst : Wasm.Instance} {filled : Store} (h : link budget m linking = .ok (inst, filled)) :
    filled.log = linking.store.log := by
  obtain ⟨-, bindings, -, -, hfilled⟩ := link_eq_ok h
  exact hfilled.log

/-- The start function only adds to the log, and only if there is one. -/
theorem start_logs (budget : Wasm.Budget) (inst : Wasm.Instance) (store : Store) :
    ∃ lines, (start budget inst store).2.log.toList = store.log.toList ++ lines ∧
      (inst.source.start = none → lines = []) := by
  unfold start
  split
  · exact ⟨[], (List.append_nil _).symm, fun _ => rfl⟩
  · rename_i f hstart
    obtain ⟨lines, hlines⟩ := Machine.run_logs inst budget budget.steps (.start f [] store)
    refine ⟨lines, ?_, fun hnone => ?_⟩
    · unfold Wasm.Instance.run
      split <;> rename_i hend <;> rw [hend] at hlines <;> exact hlines
    · rw [hstart] at hnone
      cases hnone

theorem load_of_mergeAll_error {m : Module} (hcompile : compile bytes = .ok m)
    (hmemory : Loader.memory o.memory = .ok memory) {fault : LoadFault} {merged : Linking}
    (hmerge : Linking.mergeAll (l.loas o) ⟨l.freshStore o memory, []⟩ = (.error fault, merged)) :
    (l.load bytes o).result = .error (.load fault) := by
  unfold load
  rw [hcompile]
  dsimp only
  rw [hmemory]
  dsimp only
  rw [hmerge]
  rfl

theorem load_of_redefined {m : Module} (hcompile : compile bytes = .ok m)
    (hmemory : Loader.memory o.memory = .ok memory) {merged : Linking}
    (hmerge : Linking.mergeAll (l.loas o) ⟨l.freshStore o memory, []⟩ = (.ok (), merged))
    (hname : (merged.get? Link.memoryName).isSome = true) :
    (l.load bytes o).result = .error (.load .memoryRedefined) := by
  have hlink : link l.budget m merged = .error .memoryRedefined := by
    unfold link
    rw [if_pos hname]
    rfl
  unfold load
  rw [hcompile]
  dsimp only
  rw [hmemory]
  dsimp only
  rw [hmerge]
  dsimp only
  rw [hlink]
  rfl

/-- The functions gathered from Loas that answer are those declared last. -/
theorem merged_of_asked {asked : List Asked}
    (hask : Linking.askAll (l.loas o) (l.freshStore o memory) = .ok asked) :
    ∃ merged, Linking.mergeAll (l.loas o) ⟨l.freshStore o memory, []⟩ = (.ok (), merged) ∧
      merged.store.log.toList = mergeLog [] asked ∧
      ∀ name, merged.get? name = lastOf name (declarations asked) := by
  obtain ⟨merged, hmerge, hlog, hget⟩ :=
    Linking.mergeAll_of_asked (known_fresh (l.freshStore o memory)) hask
  refine ⟨merged, hmerge, hlog, fun name => ?_⟩
  rw [hget, show Linking.get? ⟨l.freshStore o memory, []⟩ name = none from rfl, Option.or_none]

/-- The host's memory is the only one while Loas are asked. -/
theorem length_memories_linking (st : Stages l bytes o) : st.linking.store.memories.length = 1 := by
  have hasked := Linking.mergeAll_reaches (l.loas o) (l := ⟨l.freshStore o st.memory, []⟩)
    (l.attached_freshStore o st.memory)
  rw [st.merged] at hasked
  exact hasked.length

theorem Stages.source_spirit (st : Stages l bytes o) : st.spirit.source = st.source := by
  obtain ⟨-, bindings, -, hinst, -⟩ := link_eq_ok st.linked
  rw [Spirit.source, st.linked_spirit, hinst]
  rfl

theorem Stages.memories_inst (st : Stages l bytes o) : st.inst.memories =
    (st.source.imports.filter isMemoryImport).map (fun _ => 0) ++
      List.range' 1 st.source.memories.length := by
  obtain ⟨-, bindings, hbind, hinst, -⟩ := link_eq_ok st.linked
  have hmemories := Link.memories_eq (Except.mapM_eq_ok_iff.1 hbind)
  rw [hinst, Link.instantiate, hmemories, length_memories_linking]

theorem capabilities_of_stages (st : Stages l bytes o) {asked : List Asked}
    (hask : Linking.askAll (l.loas o) (l.freshStore o st.memory) = .ok asked) :
    ∃ bound, Capabilities asked bound st.spirit st.started.log.toList := by
  obtain ⟨merged, hmerge, hlog, hget⟩ := merged_of_asked hask
  have hlinking : merged = st.linking := (Prod.mk.inj (hmerge.symm.trans st.merged)).2
  subst hlinking
  obtain ⟨hmemory, bindings, hbind, hinst, -⟩ := link_eq_ok st.linked
  have hbind := Except.mapM_eq_ok_iff.1 hbind
  have hsource := st.source_spirit
  have hfunctions : st.spirit.linked.functions.toList =
      (Link.functions bindings).map Callee.host ++ Link.ownFunctions st.spirit.budget st.source := by
    rw [st.linked_spirit, st.budget_spirit, hinst]
    rfl
  obtain ⟨lines, hlines, hnone⟩ := start_logs l.budget st.inst st.filled
  rw [st.ran, log_of_link st.linked, hlog] at hlines
  rw [← st.linked_spirit] at hnone
  refine ⟨Link.functions bindings, ⟨?_, ?_, ?_, ?_, ?_, ?_, ⟨lines, hlines, hnone⟩⟩⟩
  · rw [hsource]
    exact Link.namespaces_eq hbind
  · rw [hsource]
    refine (Link.forall₂_functions hbind).imp fun i f h => ⟨?_, h.2⟩
    rw [hget] at h
    exact lastOf_eq_some_iff.1 h.1
  · rw [hsource]
    exact hfunctions
  · exact fun m call hcall => Machine.hostCall_bound hfunctions hcall
  · rw [hget] at hmemory
    exact lastOf_eq_none_iff.1 hmemory
  · rw [st.linked_spirit, hsource]
    exact st.memories_inst

/-- **Capability linking.** A Spirit that is loaded has each function it imports from the last Loa that
declares one of its name, and no other. If there is a memory to ask the Loas on, the first of them
that fails is named by the error, and a function named like the memory fails the load. -/
theorem load_capabilities (l : Loader) (bytes : Bytes) (defaults : LoadOptions)
    (o : SummonOptions) :
    let options := o.apply defaults
    let made? := LinearMemory.create? options.memory.initial.toNat options.memory.maximum.toNat
    let ask memory := Linking.askAll (o.loas l defaults) (l.freshStore options memory)
    (∀ s, (l.load bytes options).result = .ok s → ∃ memory asked bound,
      compile bytes = .ok s.source ∧ made? = some memory ∧ ask memory = .ok asked ∧
        Capabilities asked bound s (l.load bytes options).log) ∧
    ∀ m, compile bytes = .ok m → options.memory.initial ≤ options.memory.maximum →
      options.memory.maximum.toNat ≤ Wasm.maxPages → ∃ memory, made? = some memory ∧
        (∀ loa failure, ask memory = .error (loa, failure) →
          (l.load bytes options).result = .error (.load (.providing loa failure))) ∧
        ∀ asked, ask memory = .ok asked → (∃ p ∈ declarations asked, p.1 = Link.memoryName) →
          (l.load bytes options).result = .error (.load .memoryRedefined) := by
  intro options made? ask
  have hloas : o.loas l defaults = l.loas options := (o.loas_apply l defaults).symm
  refine ⟨fun s hs => ?_, fun m hcompile hinitial hmaximum => ?_⟩
  · obtain ⟨st, rfl⟩ := load_eq_ok.1 hs
    cases hask : Linking.askAll (l.loas options) (l.freshStore options st.memory) with
    | error fault =>
      obtain ⟨merged, hmerge⟩ := Linking.mergeAll_of_failure (known_fresh _) hask
      have hsame := hmerge.symm.trans st.merged
      cases hsame
    | ok asked =>
      obtain ⟨bound, hcapabilities⟩ := capabilities_of_stages st hask
      rw [← hloas] at hask
      rw [load_of_stages st, st.source_spirit]
      exact ⟨st.memory, asked, bound, st.compiled, memory_eq_ok.1 st.created, hask, hcapabilities⟩
  · obtain ⟨memory, hmade⟩ : ∃ memory, made? = some memory :=
      ⟨_, dif_pos ⟨UInt32.le_iff_toNat_le.1 hinitial, hmaximum⟩⟩
    have hmemory : Loader.memory options.memory = .ok memory := memory_eq_ok.2 hmade
    refine ⟨memory, hmade, fun loa failure hask => ?_, fun asked hask hreserved => ?_⟩
    · obtain ⟨merged, hmerge⟩ := Linking.mergeAll_of_failure (known_fresh _) hask
      rw [hloas] at hmerge
      exact load_of_mergeAll_error hcompile hmemory hmerge
    · dsimp only [ask] at hask
      rw [hloas] at hask
      obtain ⟨merged, hmerge, -, hget⟩ := merged_of_asked hask
      refine load_of_redefined hcompile hmemory hmerge ?_
      rw [hget, Option.isSome_iff_ne_none]
      intro hnone
      obtain ⟨p, hp, hname⟩ := hreserved
      exact lastOf_eq_none_iff.1 hnone p hp hname

/-- A Loa that has nothing to provide. -/
def brokenLoa : Loa := ⟨"broken", "1.0.0", [], .fail (.text "out of order")⟩

/-- A Loa with one function, which always gives zero. -/
def zeroLoa (function : String) : Loa :=
  ⟨"zero", "1.0.0", [], .done [(function, ⟨⟨[.i32], [.i32]⟩, fun _ => .done [.i32 0]⟩)]⟩

/-- The options that add a Loa. -/
def adding (loa : Loa) : SummonOptions := { imports := [loa] }

theorem load_capabilities_adding :
    (∃ s asked bound,
      (shortLoader.load allocatingModule ((adding (zeroLoa "vudo_alloc")).apply {})).result = .ok s ∧
      Capabilities asked bound s
        (shortLoader.load allocatingModule ((adding (zeroLoa "vudo_alloc")).apply {})).log) ∧
    (shortLoader.load allocatingModule ((adding brokenLoa).apply {})).result =
      .error (.load (.providing "broken" (.text "out of order"))) ∧
    (shortLoader.load allocatingModule ((adding (zeroLoa "memory")).apply {})).result =
      .error (.load .memoryRedefined) := by
  have hcompile : (compile allocatingModule).isOk = true := by decide +kernel
  obtain ⟨m, hm⟩ := Except.isOk_iff.1 hcompile
  refine ⟨?_, ?_, ?_⟩
  · have hload : (shortLoader.load allocatingModule
        ((adding (zeroLoa "vudo_alloc")).apply {})).result.isOk = true := by decide +kernel
    obtain ⟨s, hs⟩ := Except.isOk_iff.1 hload
    obtain ⟨_, asked, bound, -, -, -, hcapabilities⟩ :=
      (load_capabilities shortLoader allocatingModule {} (adding (zeroLoa "vudo_alloc"))).1 s hs
    exact ⟨s, asked, bound, hs, hcapabilities⟩
  · obtain ⟨memory, -, hfails, -⟩ :=
      (load_capabilities shortLoader allocatingModule {} (adding brokenLoa)).2 m hm (by decide)
        (by decide)
    exact hfails "broken" _ rfl
  · obtain ⟨memory, -, -, hreserved⟩ :=
      (load_capabilities shortLoader allocatingModule {} (adding (zeroLoa "memory"))).2 m hm
        (by decide) (by decide)
    exact hreserved _ rfl ⟨_, List.mem_append_right _ List.mem_cons_self, rfl⟩

/-- The options that add a Loa and let the memory grow beyond the address space. -/
def addingLarge (loa : Loa) : SummonOptions := { imports := [loa], maximumPages := some 70000 }

/-- A Loa that fails is not named if it is not asked: there is no memory to ask it on. -/
theorem not_named_of_large :
    (∃ m, compile allocatingModule = .ok m) ∧
    ((addingLarge brokenLoa).apply {}).memory.initial ≤
      ((addingLarge brokenLoa).apply {}).memory.maximum ∧
    (∀ store, Linking.askAll ((addingLarge brokenLoa).loas shortLoader {}) store =
      .error ("broken", .text "out of order")) ∧
    (shortLoader.load allocatingModule ((addingLarge brokenLoa).apply {})).result =
      .error (.panic (.memoryType 70000)) := by
  have hcompile : (compile allocatingModule).isOk = true := by decide +kernel
  have hm := Except.isOk_iff.1 hcompile
  refine ⟨hm, by decide, fun store => rfl, ?_⟩
  exact load_eq_panic_iff.2 ⟨hm, by decide, by decide, rfl⟩

end Loader

end SpiritHost
