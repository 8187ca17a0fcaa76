import SpiritHost.Proofs.Spirit.Deeds
import SpiritHost.Proofs.Spirit.Record
import SpiritHost.Proofs.Spirit.Refusal
import SpiritHost.Proofs.Wasm.Preservation

/-!
# Spirits in checked code

A module that is accepted is well typed, and linking it against honest Loas gives an instance whose
functions keep to their types. From then on nothing that happens to a Spirit spoils the types of its
variables, and what its functions give are values of their result types.
-/

namespace SpiritHost

open Wasm (Callee Code FuncType GlobalType Import Instance Module Scope Value ValType)

namespace Wasm.Module

variable {m : Module}

/-- What the check of a module establishes about its functions, variables and exports. -/
structure WellTyped (m : Module) : Prop where
  functions : ∀ type ∈ m.functionTypes, type < m.types.length
  globals : ∀ g ∈ m.globals, g.init.type? = some g.type.value
  exports : ∀ e ∈ m.exports, (m.exportType? e.kind).isSome = true
  /-- No two exports share a name. -/
  names : (m.exports.map (·.name)).Nodup
  /-- The start function neither takes nor gives values. -/
  start : ∀ f, m.start = some f → m.functionType? f = some ⟨[], []⟩
  code : ∀ p ∈ m.functions.zip m.code, (m.checkCode p.1 p.2).isSome = true

theorem repeated?_eq_none_iff : ∀ {names : List String}, repeated? names = none ↔ names.Nodup
  | [] => by simp [repeated?]
  | name :: rest => by
    have ih : repeated? rest = none ↔ rest.Nodup := repeated?_eq_none_iff
    unfold repeated?
    split
    · rename_i hmem
      exact iff_of_false nofun fun h => (List.nodup_cons.1 h).1 hmem
    · rename_i hmem
      rw [ih, List.nodup_cons]
      exact ⟨fun h => ⟨hmem, h⟩, fun h => h.2⟩

theorem wellTyped_of_check (h : m.check = .ok ()) : m.WellTyped := by
  have hexports := exports_of_check h
  unfold check at h
  obtain ⟨_, -, h⟩ := Except.bind_eq_ok_iff.1 h
  obtain ⟨_, hfunctions, h⟩ := Except.bind_eq_ok_iff.1 h
  obtain ⟨_, -, h⟩ := Except.bind_eq_ok_iff.1 h
  obtain ⟨_, -, h⟩ := Except.bind_eq_ok_iff.1 h
  obtain ⟨_, hglobals, h⟩ := Except.bind_eq_ok_iff.1 h
  obtain ⟨_, -, h⟩ := Except.bind_eq_ok_iff.1 h
  dsimp only at h
  split at h
  · cases h
  rename_i hnames
  -- What follows the start function is the same for every kind of it.
  have hstart : (∀ f, m.start = some f → m.functionType? f = some ⟨[], []⟩) ∧
      ∀ p ∈ (m.functions.zip m.code).zipIdx m.importedFunctions.length,
        ensure (m.checkCode p.1.1 p.1.2).isSome (.codeType p.2) = .ok () := by
    split at h
    · rename_i hnone
      obtain ⟨_, -, h⟩ := Except.bind_eq_ok_iff.1 h
      obtain ⟨_, -, h⟩ := Except.bind_eq_ok_iff.1 h
      exact ⟨by simp [hnone], Except.forM_eq_ok_iff.1 h⟩
    · rename_i f hsome
      split at h
      · cases h
      · rename_i t htype
        obtain ⟨_, hplain, h⟩ := Except.bind_eq_ok_iff.1 h
        obtain ⟨_, -, h⟩ := Except.bind_eq_ok_iff.1 h
        obtain ⟨_, -, h⟩ := Except.bind_eq_ok_iff.1 h
        have hplain : t = ⟨[], []⟩ := by simpa using ensure_eq_ok.1 hplain
        refine ⟨fun g hg => ?_, Except.forM_eq_ok_iff.1 h⟩
        rw [hsome] at hg
        cases hg
        rw [htype, hplain]
  refine ⟨?_, ?_, hexports, repeated?_eq_none_iff.1 hnames, hstart.1, fun p hp => ?_⟩
  · simpa using ensure_eq_ok.1 hfunctions
  · simpa using ensure_eq_ok.1 hglobals
  · rw [← List.zipIdx_map_fst m.importedFunctions.length (m.functions.zip m.code)] at hp
    obtain ⟨q, hq, rfl⟩ := List.mem_map.1 hp
    exact ensure_eq_ok.1 (hstart.2 q hq)

/-- Code that is accepted for a type is checked from its parameters to its results. -/
theorem checks_of_checkCode {type : Nat} {code : Code} (h : (m.checkCode type code).isSome = true) :
    ∃ t, m.types[type]? = some t ∧
      Scope.Checks ⟨m, t.params ++ code.locals, t.results⟩ [t.results] code.body (.closed [])
        t.results := by
  obtain ⟨_, h⟩ := Option.isSome_iff_exists.1 h
  unfold checkCode at h
  obtain ⟨t, htype, h⟩ := Option.bind_eq_some_iff.1 h
  dsimp only at h
  split at h
  · cases h
  · obtain ⟨after, hafter, hend⟩ := Option.bind_eq_some_iff.1 h
    exact ⟨t, htype, after, hafter, hend⟩

end Wasm.Module

/-! ## Linking -/

namespace Link

variable {m : Module} {linking : Linking} {bindings : List Binding} {s : Store}

/-- What is imported is a function or a memory, and so no variable. -/
theorem importedGlobals_eq_nil : ∀ {imports : List Import} {bindings : List Binding},
    List.Forall₂ (fun i b => bind m linking i = .ok b) imports bindings →
      (imports.filterMap fun i => match i.kind with | .global t => some t | _ => none) = []
  | _, _, .nil => rfl
  | i :: imports, b :: bindings, .cons h rest => by
    have ih := importedGlobals_eq_nil rest
    obtain ⟨-, hb⟩ := bind_eq_ok h
    cases b with
    | function f =>
      obtain ⟨-, type, hkind, -⟩ := hb
      rw [List.filterMap_cons_none (by rw [hkind]), ih]
    | memory =>
      obtain ⟨limits, hkind⟩ := hb
      rw [List.filterMap_cons_none (by rw [hkind]), ih]

theorem importedFunctions_eq (m : Module) :
    m.importedFunctions = (m.imports.filterMap functionImport?).map (·.2) := by
  rw [Module.importedFunctions, List.map_filterMap]
  refine congrArg (m.imports.filterMap ·) (funext fun i => ?_)
  cases hkind : i.kind <;> simp [functionImport?, hkind]

/-- Functions that are bound have the types that the imports ask for. -/
theorem types_functions (h : m.imports.mapM (bind m linking) = .ok bindings) :
    m.importedFunctions.map (m.types[·]?) = (functions bindings).map fun f => some f.type := by
  have hbound := forall₂_functions (Except.mapM_eq_ok_iff.1 h)
  rw [importedFunctions_eq, List.map_map, ← List.forall₂_eq_eq_eq, List.forall₂_map_left_iff,
    List.forall₂_map_right_iff]
  exact hbound.imp fun _ _ hf => hf.2

theorem honest_functions (h : m.imports.mapM (bind m linking) = .ok bindings)
    (hlinking : linking.Honest) : ∀ f ∈ functions bindings, f.Honest := by
  have hbound := forall₂_functions (Except.mapM_eq_ok_iff.1 h)
  generalize functions bindings = bound at hbound
  generalize m.imports.filterMap functionImport? = asked at hbound
  induction hbound with
  | nil => simp
  | cons hf _ ih => exact List.forall_mem_cons.2 ⟨hlinking _ _ hf.1, ih⟩

/-- A function of an instance is bound to an import or the module's own. -/
theorem function_cases {budget : Wasm.Budget} {f : Nat} {callee : Callee}
    (hf : (instantiate budget m bindings s).functions[f]? = some callee) :
    (∃ function, (functions bindings)[f]? = some function ∧ callee = .host function) ∨
      ∃ i index code, f = (functions bindings).length + i ∧ m.functions[i]? = some index ∧
        (index, code) ∈ m.functions.zip m.code ∧
        callee = .code (m.types.getD index ⟨[], []⟩) code
          (budget.frame m (m.types.getD index ⟨[], []⟩) code) := by
  rw [instantiate, List.getElem?_toArray, List.getElem?_append] at hf
  split at hf
  · rw [List.getElem?_map] at hf
    obtain ⟨function, hfunction, rfl⟩ := Option.map_eq_some_iff.1 hf
    exact .inl ⟨function, hfunction, rfl⟩
  · rename_i hlt
    rw [List.length_map] at hlt hf
    rw [ownFunctions, List.getElem?_map] at hf
    obtain ⟨⟨index, code⟩, hown, rfl⟩ := Option.map_eq_some_iff.1 hf
    have hfirst := (List.getElem?_zip_eq_some.1 hown).1
    refine .inr ⟨_, index, code, ?_, hfirst, List.mem_of_getElem? hown, rfl⟩
    omega

/-- A function of a module by what stands behind its import. -/
theorem functionType?_of_bound (h : m.imports.mapM (bind m linking) = .ok bindings) {f : Nat}
    {function : HostFunction} (hf : (functions bindings)[f]? = some function) :
    m.functionType? f = some function.type := by
  have htype := congrArg (·[f]?) (types_functions h)
  simp only [List.getElem?_map, hf, Option.map_some] at htype
  obtain ⟨type, hindex, htype⟩ := Option.map_eq_some_iff.1 htype
  have hfound : m.functionTypes[f]? = some type := by
    obtain ⟨hlt, -⟩ := List.getElem?_eq_some_iff.1 hindex
    rw [Module.functionTypes, List.getElem?_append_left hlt, hindex]
  rw [Module.functionType?, hfound]
  exact htype

/-- A function of a module by its own code. -/
theorem functionType?_of_own (h : m.imports.mapM (bind m linking) = .ok bindings) {i index : Nat}
    (hi : m.functions[i]? = some index) :
    m.functionType? ((functions bindings).length + i) = m.types[index]? := by
  have hlength := congrArg List.length (types_functions h)
  rw [List.length_map, List.length_map] at hlength
  have hfound : m.functionTypes[(functions bindings).length + i]? = some index := by
    rw [← hlength, Module.functionTypes, List.getElem?_append_right (Nat.le_add_right _ _),
      Nat.add_sub_cancel_left, hi]
  rw [Module.functionType?, hfound]
  rfl

/-- **Linking.** A well-typed module linked against honest functions is sound. -/
theorem sound_instantiate (hm : m.WellTyped) (hlinking : linking.Honest)
    (h : m.imports.mapM (bind m linking) = .ok bindings) (budget : Wasm.Budget) (s : Store) :
    (instantiate budget m bindings s).Sound := by
  -- The code of a function is checked for the type that its index leads to.
  have hown : ∀ {i index : Nat} {code : Code}, m.functions[i]? = some index →
      (index, code) ∈ m.functions.zip m.code → ∃ t, m.types[index]? = some t ∧
        m.types.getD index ⟨[], []⟩ = t ∧
        Scope.Checks ⟨m, t.params ++ code.locals, t.results⟩ [t.results] code.body (.closed [])
          t.results := by
    intro i index code hi hcode
    obtain ⟨t, htype, hchecks⟩ := Module.checks_of_checkCode (hm.code _ hcode)
    exact ⟨t, htype, by rw [List.getD_eq_getElem?_getD, htype, Option.getD_some], hchecks⟩
  constructor
  case types =>
    intro f callee hf
    obtain ⟨function, hfunction, rfl⟩ | ⟨i, index, code, rfl, hi, hcode, rfl⟩ := function_cases hf
    · exact functionType?_of_bound h hfunction
    · obtain ⟨t, htype, hget, -⟩ := hown hi hcode
      rw [hget]
      exact (functionType?_of_own h hi).trans htype
  case honest =>
    intro f function hf
    obtain ⟨_, hfunction, hsame⟩ | ⟨i, index, code, -, -, -, hsame⟩ := function_cases hf
    · cases hsame
      exact honest_functions h hlinking _ (List.mem_of_getElem? hfunction)
    · cases hsame
  case checked =>
    intro f type code size hf
    obtain ⟨_, -, hsame⟩ | ⟨i, index, _, -, hi, hcode, hsame⟩ := function_cases hf
    · cases hsame
    · cases hsame
      obtain ⟨t, -, hget, hchecks⟩ := hown hi hcode
      rw [hget]
      exact hchecks

/-- The variables of a module begin with values of their types. -/
theorem typedFor_extend (hm : m.WellTyped) (h : m.imports.mapM (bind m linking) = .ok bindings)
    (s : Store) : (extend m s).TypedFor m := by
  have himported : m.importedGlobals = [] := importedGlobals_eq_nil (Except.mapM_eq_ok_iff.1 h)
  rw [Store.TypedFor, Module.globalTypes, himported, List.nil_append, extend, List.map_map,
    List.map_map]
  refine List.map_congr_left fun g hg => ?_
  have htype := hm.globals g hg
  rw [Wasm.ConstExpr.type?] at htype
  obtain ⟨value, hvalue, htype⟩ := Option.map_eq_some_iff.1 htype
  rw [Function.comp_apply, hvalue]
  exact htype

theorem globals_fillTables : ∀ {segments : List Wasm.ElementSegment} {s t : Store},
    fillTables segments s = .ok t → t.globals = s.globals
  | [], _, _, h => by cases h; rfl
  | _ :: _, s, _, h => by
    unfold fillTables at h
    dsimp only at h
    split at h
    · exact (globals_fillTables h).trans rfl
    · cases h

theorem globals_fillMemories {inst : Instance} : ∀ {segments : List Wasm.DataSegment}
    {s t : Store}, fillMemories inst segments s = .ok t → t.globals = s.globals
  | [], _, _, h => by cases h; rfl
  | _ :: _, _, _, h => by
    unfold fillMemories at h
    dsimp only at h
    split at h
    · exact (globals_fillMemories h).trans rfl
    · cases h

end Link

/-! ## Loading -/

/-- A Spirit whose module is well typed, whose functions keep to their types and whose variables
hold values of theirs. -/
structure Spirit.Sound (s : Spirit) : Prop where
  source : s.source.WellTyped
  linked : s.linked.Sound
  store : s.store.TypedFor s.source

namespace Loader

variable {l : Loader} {bytes : Bytes} {o : LoadOptions}

theorem sound_of_link {budget : Wasm.Budget} {m : Module} {linking : Linking} {inst : Instance}
    {filled : Store} (hm : m.WellTyped) (hlinking : linking.Honest)
    (h : link budget m linking = .ok (inst, filled)) :
    inst.Sound ∧ inst.source = m ∧ filled.TypedFor m := by
  unfold link at h
  split at h
  · cases h
  obtain ⟨bindings, hbind, h⟩ := Except.bind_eq_ok_iff.1 h
  obtain ⟨tables, htables, h⟩ := Except.bind_eq_ok_iff.1 h
  obtain ⟨memories, hmemories, h⟩ := Except.bind_eq_ok_iff.1 h
  cases h
  have hglobals := (Link.globals_fillMemories hmemories).trans (Link.globals_fillTables htables)
  refine ⟨Link.sound_instantiate hm hlinking hbind _ _, rfl, ?_⟩
  exact (congrArg _ hglobals).trans (Link.typedFor_extend hm hbind linking.store)

theorem typedFor_start (budget : Wasm.Budget) {inst : Instance} {store : Store}
    (hinst : inst.Sound) (hm : inst.source.WellTyped) (hstore : store.TypedFor inst.source) :
    (start budget inst store).2.TypedFor inst.source := by
  unfold start
  split
  · exact hstore
  · rename_i f hf
    have hnone : ([] : List Value).map Value.type = [] := rfl
    have hrun := (Instance.typed_run hinst budget (hm.start f hf) hnone hstore).store
    split
    all_goals
      rename_i hends
      rw [hends] at hrun
      exact hrun

/-- **Loading.** A Spirit that is loaded with honest Loas is sound. -/
theorem Stages.sound (st : Stages l bytes o) (h : ∀ loa ∈ l.loas o, loa.Honest) :
    st.spirit.Sound := by
  have hm := Module.wellTyped_of_check (check_of_compile st.compiled)
  have hempty : (⟨l.freshStore o st.memory, []⟩ : Linking).Honest := by
    intro name f hget
    cases hget
  have hlinking := hempty.mergeAll h st.merged
  obtain ⟨hinst, hsource, hfilled⟩ := sound_of_link hm hlinking st.linked
  have hstarted := typedFor_start l.budget hinst (hsource ▸ hm) (hsource ▸ hfilled)
  rw [st.ran] at hstarted
  refine ⟨st.source_spirit ▸ hm, st.linked_spirit ▸ hinst, ?_⟩
  have hglobals : st.spirit.store.globals = st.started.globals := by
    unfold spirit serve
    split <;> rfl
  rw [Store.TypedFor, hglobals, st.source_spirit, ← hsource]
  exact hstarted

end Loader

/-! ## Changes -/

namespace Spirit

variable {s t : Spirit}

theorem Sound.of_globals (hs : s.Sound) (hlinked : t.linked = s.linked)
    (hglobals : t.store.globals = s.store.globals) : t.Sound := by
  have hsource : t.source = s.source := congrArg Wasm.Instance.source hlinked
  refine ⟨hsource ▸ hs.source, hlinked ▸ hs.linked, ?_⟩
  rw [Store.TypedFor, hsource, hglobals]
  exact hs.store

theorem Sound.settle {α : Type} (hs : s.Sound) (result : Except Error α) {store : Store}
    (hstore : store.TypedFor s.source) : (s.settle result store).state.Sound :=
  ⟨hs.source, hs.linked, hstore⟩

/-- An exported function of a well-typed module has a type. -/
theorem exists_type_of_function (hs : s.source.WellTyped) {name : String} {index : Nat}
    (h : s.function name = .ok index) : ∃ type, s.source.functionType? index = some type := by
  have htype := hs.exports _ (List.mem_of_find?_eq_some (function_eq_ok_iff.1 h))
  rwa [Module.exportType?, Option.isSome_map, Option.isSome_iff_exists] at htype

theorem params_eq {index : Nat} {type : FuncType} (h : s.source.functionType? index = some type) :
    s.params index = type.params := by
  rw [params, h, Option.getD_some]

/-- **Running.** A function that runs with arguments of its parameter types gives values of its
result types, if it gives anything, and leaves the Spirit sound. -/
theorem Sound.run (hs : s.Sound) {index : Nat} {args : List Value} {type : FuncType}
    (htype : s.source.functionType? index = some type) (hargs : args.map Value.type = type.params) :
    (s.run index args).state.Sound ∧ ∀ results, (s.run index args).result = .ok results →
      results.map Value.type = type.results := by
  unfold Spirit.run
  split
  · rename_i function hfunction
    have hsame := (hs.linked.types hfunction).symm.trans htype
    cases hsame
    have hglobals := HostCall.globals_run (function.call args) s.store
    split
    · rename_i results store hrun
      rw [hrun] at hglobals
      refine ⟨hs.settle _ ((congrArg _ hglobals).trans hs.store), ?_⟩
      rintro _ ⟨⟩
      exact hs.linked.honest hfunction hargs hrun
    · rename_i failure store hrun
      rw [hrun] at hglobals
      exact ⟨hs.settle _ ((congrArg _ hglobals).trans hs.store), nofun⟩
  · have hrun := Instance.typed_run hs.linked s.budget htype hargs hs.store
    split
    all_goals
      rename_i hends
      rw [hends] at hrun
    · refine ⟨hs.settle _ hrun.2, ?_⟩
      rintro _ ⟨⟩
      exact hrun.1
    · exact ⟨hs.settle _ hrun, nofun⟩
    · exact ⟨hs.settle _ hrun, nofun⟩

/-- What a call that is not refused runs are exported functions, with arguments that fit. -/
theorem fits_of_entry? {name : String} {args values : List Value} {index : Nat}
    (h : s.entry? name args = some (index, values)) :
    s.function name = .ok index ∧ values.map Value.type = s.params index := by
  unfold entry? at h
  split at h
  · rename_i hfunction
    split at h
    · rename_i hfits
      cases h
      exact ⟨hfunction, hfits⟩
    · cases h
  · cases h

theorem Sound.enters {α : Type} (hs : s.Sound) {entry : Option (Nat × List Value)}
    {r : Reply Spirit α} (h : s.Enters entry r)
    (hentry : ∀ index values, entry = some (index, values) →
      ∃ name args, s.entry? name args = some (index, values)) : r.state.Sound := by
  unfold Enters at h
  split at h
  · rename_i index values
    obtain ⟨answer, rfl⟩ := h
    obtain ⟨name, args, hentry⟩ := hentry index values rfl
    obtain ⟨hfunction, hfits⟩ := fits_of_entry? hentry
    obtain ⟨type, htype⟩ := exists_type_of_function hs.source hfunction
    rw [params_eq htype] at hfits
    exact (hs.run htype hfits).1
  · obtain ⟨e, rfl⟩ := h
    exact hs

theorem Sound.onHeap {α : Type} (hs : s.Sound) (request : Heap → Except Error (α × Heap)) :
    (s.onHeap request).state.Sound := by
  refine hs.of_globals rfl ?_
  unfold Spirit.onHeap
  change (s.store.onHeapAt s.manager (request s.heap)).2.globals = s.store.globals
  unfold Store.onHeapAt
  split <;> rfl

theorem Sound.perform (hs : s.Sound) (operation : Operation) :
    (s.perform operation).state.Sound := by
  cases operation with
  | alloc size => exact hs.onHeap (·.alloc size)
  | allocAligned size align => exact hs.onHeap (·.allocAligned size align)
  | allocRecord gene => exact hs.onHeap (·.allocRecord gene)
  | writeString text => exact hs.onHeap (·.encodeString text)
  | writeBytes address bytes =>
    exact hs.onHeap fun h => (h.writeBytes address bytes).map fun h => ((), h)
  | writeRecord gene address record =>
    exact hs.onHeap fun h => (h.writeRecord gene address record).map fun h => ((), h)
  | free | readBytes | readText | readString | readRecord => exact hs
  | reset => exact hs.of_globals rfl rfl
  | call name args =>
    exact hs.enters ((s.enters_call name args).map _) fun _ _ h => ⟨name, args, h⟩
  | callTyped name type args =>
    refine hs.enters ((s.enters_callTyped name type args).map _) fun _ _ h => ⟨name, args, ?_⟩
    unfold entryTyped? at h
    split at h
    · split at h
      · exact h
      · cases h
    · cases h
  | callJson name args =>
    refine hs.enters ((s.enters_callJson name args).map _) fun _ _ h => ?_
    unfold entryJson? at h
    split at h
    · split at h
      · exact ⟨name, _, h⟩
      · cases h
    · cases h

theorem Sound.change (hs : s.Sound) (c : Change) : (s.change c).Sound := by
  cases c with
  | host operation => exact hs.perform operation
  | grow pages =>
    change (s.grow pages).Sound
    unfold grow
    split
    · exact hs.of_globals rfl rfl
    · exact hs

/-- **Changes.** Whatever happens to a Spirit, it stays sound. -/
theorem Sound.changeAll : ∀ (changes : List Change) {s : Spirit}, s.Sound →
    (changeAll changes s).Sound
  | [], _, hs => hs
  | c :: rest, _, hs => Sound.changeAll rest (hs.change c)

end Spirit

end SpiritHost
