import Mathlib.Data.List.Nodup
import SpiritHost.Proofs.Spirit.Soundness

/-!
# Introspection and calls

A Spirit can be asked what functions it exports, and it can be asked to call one. The answers come
from different tables, the module's exports in their order and the export found under a name, and
agree because a module is refused unless all of its export names differ. The type that is told of a
function is the one that calls check their arguments against, and the one that its results have.
-/

namespace SpiritHost

open Wasm (Export ExportKind ExternType FuncType Module Value ValType)

/-- The export is a function. -/
def Wasm.ExportKind.isFunction : ExportKind → Bool
  | .func _ => true
  | _ => false

/-- There is no function to be called under a name, or something else under it. -/
inductive Error.IsUnknown : Error → Prop where
  | functionNotFound (name : String) : IsUnknown (.functionNotFound name)
  | notCallable (name : String) : IsUnknown (.notCallable name)

/-! ## Exports -/

/-- Where all names differ, every export is found under its own. -/
theorem Wasm.Module.export?_of_mem {m : Module} (hm : m.WellTyped) {e : Export}
    (he : e ∈ m.exports) : m.export? e.name = some e := by
  unfold export?
  cases hfound : m.exports.find? (·.name == e.name) with
  | none => exact absurd (List.find?_eq_none.1 hfound e he) (by simp)
  | some x =>
    have hname : x.name = e.name := by simpa using List.find?_some hfound
    rw [List.inj_on_of_nodup_map hm.names (List.mem_of_find?_eq_some hfound) he hname]

namespace Spirit

variable {s : Spirit} {name : String} {index : Nat} {t : FuncType}

theorem lookup_exports {type? : ExportKind → Option ExternType} : ∀ {exports : List Export},
    (∀ e ∈ exports, (type? e.kind).isSome = true) →
      (exports.filterMap fun e => (type? e.kind).map fun t => (e.name, t)).lookup name =
        (exports.find? (·.name == name)).bind fun e => type? e.kind
  | [], _ => rfl
  | e :: rest, h => by
    obtain ⟨he, hrest⟩ := List.forall_mem_cons.1 h
    obtain ⟨t, ht⟩ := Option.isSome_iff_exists.1 he
    rw [List.filterMap_cons_some (by rw [ht, Option.map_some]), List.lookup_cons, List.find?_cons,
      lookup_exports hrest, Bool.beq_comm]
    cases e.name == name
    · rfl
    · exact ht.symm

/-- The type told of a function is that of the function that calls find. -/
theorem functionType?_eq_some_iff (hs : s.source.WellTyped) : s.functionType? name = some t ↔
    ∃ index, s.function name = .ok index ∧ s.source.functionType? index = some t := by
  have hexport : s.export? name =
      (s.source.export? name).bind fun e => s.source.exportType? e.kind :=
    lookup_exports hs.exports
  rw [functionType?, hexport]
  simp only [Option.bind_eq_bind, Option.bind_eq_some_iff, function_eq_ok_iff]
  constructor
  · rintro ⟨type, ⟨⟨x, kind⟩, hfound, htype⟩, hfunc⟩
    obtain rfl : x = name := by simpa using List.find?_some hfound
    cases kind with
    | func index =>
      obtain ⟨_, hindex, rfl⟩ := Option.map_eq_some_iff.1 htype
      cases hfunc
      exact ⟨index, hfound, hindex⟩
    | table | memory | global =>
      obtain ⟨_, -, rfl⟩ := Option.map_eq_some_iff.1 htype
      cases hfunc
  · rintro ⟨index, hfound, htype⟩
    exact ⟨.func t, ⟨_, hfound, by rw [Module.exportType?, htype, Option.map_some]⟩, rfl⟩

theorem hasFunction_iff : s.hasFunction name = true ↔ ∃ t, s.functionType? name = some t :=
  Option.isSome_iff_exists

/-- A function is there exactly if calls find one. -/
theorem hasFunction_iff_function (hs : s.source.WellTyped) :
    s.hasFunction name = true ↔ ∃ index, s.function name = .ok index := by
  simp only [hasFunction_iff, functionType?_eq_some_iff hs]
  constructor
  · rintro ⟨t, index, hfunction, -⟩
    exact ⟨index, hfunction⟩
  · rintro ⟨index, hfunction⟩
    obtain ⟨t, htype⟩ := exists_type_of_function hs hfunction
    exact ⟨t, index, hfunction, htype⟩

theorem isSome_func? {m : Module} {kind : ExportKind} {type : ExternType}
    (h : m.exportType? kind = some type) : type.func?.isSome = kind.isFunction := by
  cases kind <;> obtain ⟨_, -, rfl⟩ := Option.map_eq_some_iff.1 h <;> rfl

/-- The functions are the exports that are functions, in the order of the exports. -/
theorem functions_eq (hs : s.source.WellTyped) :
    s.functions = (s.source.exports.filter (·.kind.isFunction)).map (·.name) := by
  have hexports := hs.exports
  unfold functions exports
  generalize s.source.exports = exports at hexports
  induction exports with
  | nil => rfl
  | cons e rest ih =>
    obtain ⟨he, hrest⟩ := List.forall_mem_cons.1 hexports
    obtain ⟨type, htype⟩ := Option.isSome_iff_exists.1 he
    have hfunc := isSome_func? htype
    rw [List.filterMap_cons_some (by rw [htype, Option.map_some]), List.filterMap_cons,
      List.filter_cons, ih hrest]
    cases hfunc? : type.func? with
    | none =>
      rw [hfunc?] at hfunc
      simp [hfunc?, ← hfunc]
    | some t =>
      rw [hfunc?] at hfunc
      simp [hfunc?, ← hfunc]

theorem mem_functions_iff (hs : s.source.WellTyped) :
    name ∈ s.functions ↔ s.hasFunction name = true := by
  rw [functions_eq hs, hasFunction_iff_function hs]
  simp only [function_eq_ok_iff, List.mem_map, List.mem_filter]
  constructor
  · rintro ⟨⟨x, kind⟩, ⟨hmem, hkind⟩, rfl⟩
    cases kind with
    | func index => exact ⟨index, Module.export?_of_mem hs hmem⟩
    | _ => cases hkind
  · rintro ⟨index, hfound⟩
    exact ⟨_, ⟨List.mem_of_find?_eq_some hfound, rfl⟩, rfl⟩

theorem nodup_functions (hs : s.source.WellTyped) : s.functions.Nodup := by
  rw [functions_eq hs]
  exact (List.filter_sublist.map _).nodup hs.names

/-! ## Calls -/

/-- Under another name, calls of every kind fail alike. -/
theorem exists_unknown (h : ∀ index, s.function name ≠ .ok index) : ∃ e, e.IsUnknown ∧
    (∀ args, s.call name args = .plain (.error e) s) ∧
    (∀ asked args, s.callTyped name asked args = .plain (.error e) s) ∧
    ∀ args, s.callJson name args = .plain (.error e) s := by
  cases hfunction : s.function name with
  | ok index => exact absurd hfunction (h index)
  | error e =>
    refine ⟨e, ?_, fun args => ?_, fun asked args => ?_, fun args => ?_⟩
    · rcases function_eq_error_iff.1 hfunction with ⟨rfl, -⟩ | ⟨rfl, -⟩
      · exact .functionNotFound name
      · exact .notCallable name
    · rw [call, hfunction]
    · rw [callTyped, hfunction]
    · rw [callJson_eq, hfunction]

/-- A call of a function that is there does not say that it is not. -/
theorem not_unknown_of_refusals {α β : Type} {args : List β} {fits : ValType → β → Prop}
    {fault : Nat → ValType → β → SignatureFault → Prop} {call : Spirit → Reply Spirit α}
    {answer : List Value → α} (h : s.Refusals name args fits fault call answer)
    (hfunction : s.function name = .ok index) {e : Error} (he : e.IsUnknown) :
    (call s).result ≠ .error e := by
  have hfound := function_eq_ok_iff.1 hfunction
  intro hresult
  cases he with
  | functionNotFound n =>
    obtain ⟨-, habsent⟩ := (h.functionNotFound n).1 hresult
    exact habsent _ (List.mem_of_find?_eq_some hfound) rfl
  | notCallable n =>
    obtain ⟨-, x, hother, hkind⟩ := (h.notCallable n).1 hresult
    rw [hfound] at hother
    cases hother
    exact hkind index rfl

theorem callTyped_eq (hs : s.source.WellTyped) (htype : s.functionType? name = some t)
    (asked : FuncType) (args : List Value) :
    s.callTyped name asked args =
      if asked = t then s.call name args
      else .plain (.error (.signature name (.typed asked t))) s := by
  obtain ⟨index, hfunction, hindex⟩ := (functionType?_eq_some_iff hs).1 htype
  rw [callTyped, call, hfunction]
  dsimp only
  rw [hindex, Option.getD_some]
  by_cases h : asked = t
  · rw [if_pos h, if_pos h.symm]
  · rw [if_neg h, if_neg (Ne.symm h)]

/-- A call with JSON arguments that are converted is the call with the values. -/
theorem callJson_of_checkJson (hfunction : s.function name = .ok index) {args : List Json}
    {values : List Value} (h : s.checkJson name index args = .ok values) :
    s.callJson name args = (s.call name values).map resultJson := by
  rw [callJson_eq, call_of_function hfunction, hfunction]
  dsimp only
  rw [← checkJson, h]

/-- Calls of a function check their arguments against a type. -/
structure ChecksBy (s : Spirit) (name : String) (t : FuncType) : Prop where
  /-- The number of arguments is blamed first, then the first number that is of another type. -/
  call : ∀ args n f, (s.call name args).result = .error (.signature n f) ↔
    n = name ∧ Blames Fits Fault t.params args f
  callJson : ∀ args n f, (s.callJson name args).result = .error (.signature n f) ↔
    n = name ∧ Blames JsonFits JsonFault t.params args f
  /-- A call with a type of its own must have this one, and then it is the same call. -/
  callTyped : ∀ asked args, s.callTyped name asked args =
    if asked = t then s.call name args else .plain (.error (.signature name (.typed asked t))) s
  /-- The function runs if the types of the arguments are those of the parameters, -/
  runs : ∀ args, args.map Value.type = t.params → ∃ index,
    s.source.export? name = some ⟨name, .func index⟩ ∧ s.call name args = s.run index args
  /-- and otherwise nothing happens. -/
  refuses : ∀ args, args.map Value.type ≠ t.params → ∃ e, s.call name args = .plain (.error e) s
  /-- JSON arguments that fit become values of the parameter types. -/
  runsJson : ∀ args, args.length = t.params.length → (∀ p ∈ t.params.zip args, JsonFits p.1 p.2) →
    ∃ values, values.map Value.type = t.params ∧
      s.callJson name args = (s.call name values).map resultJson

theorem blames_iff {β : Type} {args : List β} {fits : ValType → β → Prop}
    {fault : Nat → ValType → β → SignatureFault → Prop} {f : SignatureFault}
    (hfunction : s.function name = .ok index) (hindex : s.source.functionType? index = some t) :
    (∃ i, s.source.export? name = some ⟨name, .func i⟩ ∧ Blames fits fault (s.params i) args f) ↔
      Blames fits fault t.params args f := by
  simp only [← function_eq_ok_iff, hfunction, Except.ok.injEq, exists_eq_left', params_eq hindex]

theorem checksBy_of_functionType? (hs : s.source.WellTyped)
    (htype : s.functionType? name = some t) :
    s.ChecksBy name t := by
  obtain ⟨index, hfunction, hindex⟩ := (functionType?_eq_some_iff hs).1 htype
  have hfound := function_eq_ok_iff.1 hfunction
  have hparams := params_eq hindex
  constructor
  case call =>
    intro args n f
    rw [(refusals_call s name args).signature, blames_iff hfunction hindex]
  case callJson =>
    intro args n f
    rw [(refusals_callJson s name args).signature, blames_iff hfunction hindex]
  case callTyped => exact callTyped_eq hs htype
  case runs =>
    intro args hargs
    refine ⟨index, hfound, ?_⟩
    rw [call_of_function hfunction, callIndex_of_fits name (hargs.trans hparams.symm)]
  case refuses =>
    intro args hargs
    rw [call_of_function hfunction]
    exact callIndex_of_misfits name (hparams ▸ hargs)
  case runsJson =>
    intro args hcount hfits
    cases hcheck : s.checkJson name index args with
    | error e =>
      obtain ⟨f, hblames, -⟩ := checkJson_eq_error_iff.1 hcheck
      rw [hparams] at hblames
      cases hblames with
      | count hbad => exact absurd hcount hbad
      | misfit _ first _ => exact absurd (hfits _ (List.mem_of_getElem? first.here)) first.misfits
    | ok values =>
      obtain ⟨_, -, hconvert⟩ := Except.bind_eq_ok_iff.1 hcheck
      have htypes := types_convert (hparams ▸ hcount) hconvert
      refine ⟨values, htypes.trans hparams, ?_⟩
      exact callJson_of_checkJson hfunction hcheck

/-- What a Spirit tells of its functions, and what its calls do. -/
structure Introspects (s : Spirit) : Prop where
  /-- A function that is there has a type, -/
  typed : ∀ name, s.hasFunction name = true ↔ ∃ t, s.functionType? name = some t
  /-- it is listed, -/
  listed : ∀ name, s.hasFunction name = true ↔ name ∈ s.functions
  /-- and calls find it, whatever the arguments. -/
  found : ∀ name args, s.hasFunction name = true ↔
    ∀ e, e.IsUnknown → (s.call name args).result ≠ .error e
  foundTyped : ∀ name asked args, s.hasFunction name = true ↔
    ∀ e, e.IsUnknown → (s.callTyped name asked args).result ≠ .error e
  foundJson : ∀ name args, s.hasFunction name = true ↔
    ∀ e, e.IsUnknown → (s.callJson name args).result ≠ .error e
  /-- Its calls check their arguments against its type. -/
  checks : ∀ name t, s.functionType? name = some t → s.ChecksBy name t
  /-- Functions are listed in the order of the exports, -/
  ordered : s.functions = (s.source.exports.filter (·.kind.isFunction)).map (·.name)
  /-- each once. -/
  distinct : s.functions.Nodup
  /-- There is an entry unless there is no function at all. -/
  entry_none : s.defaultEntry? = none ↔ ∀ e ∈ s.source.exports, e.kind.isFunction = false
  entry_main : mainName ∈ s.functions → s.defaultEntry? = some mainName
  /-- An export `main` that is no function is passed over. -/
  entry_first : mainName ∉ s.functions → s.defaultEntry? = s.functions.head?
  /-- The entry is a function that calls find. -/
  entry_found : ∀ name, s.defaultEntry? = some name →
    name ∈ s.functions ∧ ∀ args e, e.IsUnknown → (s.call name args).result ≠ .error e

/-- Calls of a kind find what is there, if they fail where there is no function, and do not say so
where there is one. -/
theorem found_iff {α : Type} (hs : s.source.WellTyped) {r : Reply Spirit α}
    (hfound : ∀ index, s.function name = .ok index → ∀ e, e.IsUnknown → r.result ≠ .error e)
    (hunknown : (∀ index, s.function name ≠ .ok index) →
      ∃ e, e.IsUnknown ∧ r = .plain (.error e) s) :
    s.hasFunction name = true ↔ ∀ e, e.IsUnknown → r.result ≠ .error e := by
  rw [hasFunction_iff_function hs]
  constructor
  · rintro ⟨index, hfunction⟩
    exact hfound index hfunction
  · intro h
    by_contra hnone
    obtain ⟨e, he, rfl⟩ := hunknown fun index hfunction => hnone ⟨index, hfunction⟩
    exact h e he rfl

theorem found_call (hs : s.source.WellTyped) (name : String) (args : List Value) :
    s.hasFunction name = true ↔ ∀ e, e.IsUnknown → (s.call name args).result ≠ .error e := by
  refine found_iff hs
    (fun _ h _ => not_unknown_of_refusals (refusals_call s name args) h) fun h => ?_
  obtain ⟨e, he, hcall, -⟩ := exists_unknown h
  exact ⟨e, he, hcall args⟩

theorem defaultEntry?_mem (hs : s.source.WellTyped) (h : s.defaultEntry? = some name) :
    name ∈ s.functions := by
  unfold defaultEntry? at h
  split at h
  · rename_i hmain
    cases h
    exact (mem_functions_iff hs).2 hmain
  · exact List.mem_of_head? h

theorem defaultEntry?_eq_none_iff (hs : s.source.WellTyped) :
    s.defaultEntry? = none ↔ s.functions = [] := by
  unfold defaultEntry?
  split
  · rename_i hmain
    refine iff_of_false nofun fun hempty => ?_
    have hmem := (mem_functions_iff hs).2 hmain
    rw [hempty] at hmem
    cases hmem
  · exact List.head?_eq_none_iff

theorem introspects_of_wellTyped (hs : s.source.WellTyped) : s.Introspects := by
  constructor
  case typed => exact fun _ => hasFunction_iff
  case listed => exact fun _ => (mem_functions_iff hs).symm
  case found => exact found_call hs
  case foundTyped =>
    intro name asked args
    refine found_iff hs (fun index hfunction e he => ?_) fun h => ?_
    · obtain ⟨t, htype⟩ := hasFunction_iff.1 ((hasFunction_iff_function hs).2 ⟨index, hfunction⟩)
      rw [callTyped_eq hs htype]
      split
      · exact not_unknown_of_refusals (refusals_call s name args) hfunction he
      · rintro ⟨⟩
        cases he
    · obtain ⟨e, he, -, hcall, -⟩ := exists_unknown h
      exact ⟨e, he, hcall asked args⟩
  case foundJson =>
    intro name args
    refine found_iff hs
      (fun _ h _ => not_unknown_of_refusals (refusals_callJson s name args) h) fun h => ?_
    obtain ⟨e, he, -, -, hcall⟩ := exists_unknown h
    exact ⟨e, he, hcall args⟩
  case checks => exact fun _ _ => checksBy_of_functionType? hs
  case ordered => exact functions_eq hs
  case distinct => exact nodup_functions hs
  case entry_none =>
    rw [defaultEntry?_eq_none_iff hs, functions_eq hs, List.map_eq_nil_iff, List.filter_eq_nil_iff]
    simp
  case entry_main =>
    intro h
    unfold defaultEntry?
    exact if_pos ((mem_functions_iff hs).1 h)
  case entry_first =>
    intro h
    unfold defaultEntry?
    exact if_neg fun hmain => h ((mem_functions_iff hs).2 hmain)
  case entry_found =>
    intro name h
    have hmem := defaultEntry?_mem hs h
    exact ⟨hmem, fun args => (found_call hs name args).1 ((mem_functions_iff hs).1 hmem)⟩

/-- Calls give values of the types that are told of. -/
structure ResultsTyped (s : Spirit) : Prop where
  call : ∀ name t args results, s.functionType? name = some t →
    (s.call name args).result = .ok results → results.map Value.type = t.results
  callTyped : ∀ name asked args results, (s.callTyped name asked args).result = .ok results →
    s.functionType? name = some asked ∧ results.map Value.type = asked.results
  callJson : ∀ name t args json, s.functionType? name = some t →
    (s.callJson name args).result = .ok json →
      ∃ results, results.map Value.type = t.results ∧ json = resultJson results

theorem Sound.types_call (hs : s.Sound) {args results : List Value}
    (htype : s.functionType? name = some t) (h : (s.call name args).result = .ok results) :
    results.map Value.type = t.results := by
  obtain ⟨index, hfunction, hindex⟩ := (functionType?_eq_some_iff hs.source).1 htype
  have hchecks := checksBy_of_functionType? hs.source htype
  by_cases hargs : args.map Value.type = t.params
  · have hfits := hargs.trans (params_eq hindex).symm
    rw [call_of_function hfunction, callIndex_of_fits name hfits] at h
    exact (hs.run hindex hargs).2 results h
  · obtain ⟨e, hrefused⟩ := hchecks.refuses args hargs
    rw [hrefused] at h
    cases h

theorem Sound.resultsTyped (hs : s.Sound) : s.ResultsTyped := by
  constructor
  case call => exact fun _ _ _ _ => hs.types_call
  case callTyped =>
    intro name asked args results h
    by_cases htype : ∃ t, s.functionType? name = some t
    · obtain ⟨t, htype⟩ := htype
      rw [callTyped_eq hs.source htype] at h
      split at h
      · rename_i hasked
        rw [hasked]
        exact ⟨htype, hs.types_call htype h⟩
      · cases h
    · rw [← hasFunction_iff, hasFunction_iff_function hs.source] at htype
      obtain ⟨e, -, -, hcall, -⟩ := exists_unknown fun index hfunction => htype ⟨index, hfunction⟩
      rw [hcall] at h
      cases h
  case callJson =>
    intro name t args json htype h
    obtain ⟨index, hfunction, hindex⟩ := (functionType?_eq_some_iff hs.source).1 htype
    cases hcheck : s.checkJson name index args with
    | error e =>
      rw [callJson_eq, hfunction] at h
      dsimp only at h
      rw [← checkJson, hcheck] at h
      cases h
    | ok values =>
      rw [callJson_of_checkJson hfunction hcheck] at h
      obtain ⟨results, hresults, hjson⟩ := Except.map_eq_ok_iff.1 h
      exact ⟨results, hs.types_call htype hresults, hjson.symm⟩

end Spirit

/-- **Introspection.** At any time in the life of a Spirit that was loaded, what it tells of its
functions agrees with its calls, and if all Loas are honest, results have the types told. -/
theorem Loader.introspection_agrees {l : Loader} {bytes : Bytes} {o : LoadOptions} {s : Spirit}
    (h : (l.load bytes o).result = .ok s) (changes : List Change) :
    (Spirit.changeAll changes s).Introspects ∧
      ((∀ loa ∈ l.loas o, loa.Honest) → (Spirit.changeAll changes s).ResultsTyped) := by
  obtain ⟨st, rfl⟩ := load_eq_ok.1 h
  have hm := Module.wellTyped_of_check (check_of_compile st.compiled)
  have hsource : (Spirit.changeAll changes st.spirit).source = st.source :=
    (congrArg Wasm.Instance.source (Spirit.same_changeAll changes st.spirit).linked).trans
      st.source_spirit
  refine ⟨Spirit.introspects_of_wellTyped (hsource ▸ hm), fun hloas => ?_⟩
  exact ((st.sound hloas).changeAll changes).resultsTyped

/-- A module that exports its memory as `main`, and a function `f` that gives 5. -/
def memoryMainModule : Bytes := [
  0x00, 0x61, 0x73, 0x6d, 0x01, 0x00, 0x00, 0x00,
  0x01, 0x05, 0x01, 0x60, 0x00, 0x01, 0x7f,
  0x03, 0x02, 0x01, 0x00,
  0x05, 0x03, 0x01, 0x00, 0x01,
  0x07, 0x0c, 0x02, 0x04, 0x6d, 0x61, 0x69, 0x6e, 0x02, 0x00, 0x01, 0x66, 0x00, 0x00,
  0x0a, 0x06, 0x01, 0x04, 0x00, 0x41, 0x05, 0x0b]

/-- A Spirit of it, after a call. The memory is not taken for an entry. -/
theorem Loader.introspection_agrees_memoryMain :
    ∃ s, (shortLoader.load memoryMainModule {}).result = .ok s ∧
      s.defaultEntry? = some "f" ∧
      (Spirit.changeAll [.host (.call "f" [])] s).Introspects ∧
      (Spirit.changeAll [.host (.call "f" [])] s).ResultsTyped := by
  have hok : (shortLoader.load memoryMainModule {}).result.isOk = true := by decide +kernel
  have hentry : (shortLoader.load memoryMainModule {}).result.toOption.bind Spirit.defaultEntry? =
      some "f" := by decide +kernel
  obtain ⟨s, hs⟩ := Except.isOk_iff.1 hok
  rw [hs] at hentry
  obtain ⟨hintrospects, hresults⟩ := introspection_agrees hs [.host (.call "f" [])]
  refine ⟨s, hs, hentry, hintrospects, hresults fun loa hloa => ?_⟩
  obtain rfl : loa = Loa.builtin := List.mem_singleton.1 hloa
  exact Loa.honest_builtin

end SpiritHost
