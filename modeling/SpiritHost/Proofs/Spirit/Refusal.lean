import SpiritHost.Proofs.Spirit.Arguments
import SpiritHost.Proofs.Spirit.Failure

/-!
# Refused calls

A call is refused before any code runs if no function of the name is exported, if the number of
arguments is not that of the parameters, or else by the first argument that does not fit. Each
reason has an error of its own, and nothing that happens once the code runs comes out as one of
them: a host function may raise such an error, but the call then traps.
-/

namespace SpiritHost

open Wasm (Value ValType)

/-- An error about a call that is not begun. -/
inductive Error.IsRefusal : Error → Prop where
  | functionNotFound (name : String) : IsRefusal (.functionNotFound name)
  | notCallable (name : String) : IsRefusal (.notCallable name)
  | signature (function : String) (fault : SignatureFault) : IsRefusal (.signature function fault)

namespace Spirit

variable {s : Spirit} {name : String} {index : Nat} {e : Error}

/-! ## Lookup -/

theorem function_eq_ok_iff :
    s.function name = .ok index ↔ s.source.export? name = some ⟨name, .func index⟩ := by
  unfold function
  split
  · rename_i x i h
    obtain rfl : x = name := by simpa [Wasm.Module.export?] using List.find?_some h
    simp [h]
  · rename_i x hkind h
    refine ⟨nofun, fun heq => ?_⟩
    rw [h] at heq
    cases heq
    exact absurd rfl (hkind name index)
  · rename_i h
    simp [h]

theorem function_eq_error_iff : s.function name = .error e ↔
    (e = .functionNotFound name ∧ ∀ x ∈ s.source.exports, x.name ≠ name) ∨
      (e = .notCallable name ∧ ∃ x, s.source.export? name = some x ∧
        ∀ i, x.kind ≠ .func i) := by
  have habsent : s.source.export? name = none ↔ ∀ x ∈ s.source.exports, x.name ≠ name := by
    simp [Wasm.Module.export?]
  rw [← habsent]
  unfold function
  cases hexport : s.source.export? name with
  | none => simp [eq_comm]
  | some x =>
    obtain ⟨xname, kind⟩ := x
    cases kind <;> simp [eq_comm]

/-! ## After the checks -/

/-- What stops the code of a call is never said to be a refusal. -/
theorem not_isRefusal_haltError (halt : Wasm.Halt) : ¬(haltError halt).IsRefusal := by
  intro h
  cases halt with
  | trap t => cases h
  | stuck => cases h
  | host failure =>
    rw [haltError] at h
    cases hrecover : failure.recover? with
    | none =>
      rw [hrecover] at h
      cases h
    | some raised =>
      rw [hrecover, Option.getD_some] at h
      cases Failure.onBehalf_of_recover? hrecover <;> cases h

/-- Once a function runs, nothing that comes out of it is a refusal, whatever host functions
raise. -/
theorem not_isRefusal_run (s : Spirit) (index : Nat) (args : List Value)
    (h : (s.run index args).result = .error e) : ¬e.IsRefusal := by
  unfold run at h
  split at h
  · split at h
    · cases h
    · cases h
      exact nofun
  · split at h
    · cases h
    · cases h
      exact not_isRefusal_haltError _
    · cases h
      exact nofun

/-! ## Calls -/

/-- How calls of a kind are refused, and that nothing else looks like it. Arguments of the kind fit
parameters or do not, and each that does not has a fault of its own. -/
structure Refusals {α β : Type} (s : Spirit) (name : String) (args : List β)
    (fits : ValType → β → Prop) (fault : Nat → ValType → β → SignatureFault → Prop)
    (call : Spirit → Reply Spirit α) (answer : List Value → α) : Prop where
  functionNotFound : ∀ n, (call s).result = .error (.functionNotFound n) ↔
    n = name ∧ ∀ x ∈ s.source.exports, x.name ≠ name
  notCallable : ∀ n, (call s).result = .error (.notCallable n) ↔
    n = name ∧ ∃ x, s.source.export? name = some x ∧ ∀ index, x.kind ≠ .func index
  /-- The number of arguments is blamed first, then the first argument that does not fit. -/
  signature : ∀ n f, (call s).result = .error (.signature n f) ↔
    n = name ∧ ∃ index, s.source.export? name = some ⟨name, .func index⟩ ∧
      Blames fits fault (s.params index) args f
  /-- One of them is blamed whenever there is reason to. -/
  unfit : (∃ f, (call s).result = .error (.signature name f)) ↔
    ∃ index, s.source.export? name = some ⟨name, .func index⟩ ∧
      (args.length ≠ (s.params index).length ∨
        ∃ p ∈ (s.params index).zip args, ¬fits p.1 p.2)
  /-- A refused call leaves the Spirit as it was. It is refused because of the module alone, whatever
  code stands behind the exports, whatever budget it has and whatever the Spirit's state. -/
  untouched : ∀ e, e.IsRefusal → (call s).result = .error e →
    ∀ t : Spirit, t.source = s.source → call t = .plain (.error e) t
  /-- A call that is not refused fails on a reference or runs a function, and nothing that comes out
  of the function is a refusal. -/
  begun : (∃ e, e.IsRefusal ∧ (call s).result = .error e) ∨
    (∃ i, call s = .plain (.error (.trap (.reference i))) s) ∨
    ∃ index values, call s = (s.run index values).map answer ∧
      ∀ e, (call s).result = .error e → ¬e.IsRefusal

section

variable {α β γ : Type} {args : List β} {fits : ValType → β → Prop}
  {fault : Nat → ValType → β → SignatureFault → Prop}

/-- Arguments are blamed if their number is wrong or one of them does not fit. -/
theorem exists_blames_iff (hfault : ∀ i type arg, ¬fits type arg → ∃ f, fault i type arg f)
    (types : List ValType) :
    (∃ f, Blames fits fault types args f) ↔
      args.length ≠ types.length ∨ ∃ p ∈ types.zip args, ¬fits p.1 p.2 := by
  rw [← exists_firstMisfit_iff]
  constructor
  · rintro ⟨_, hblames⟩
    cases hblames with
    | count h => exact .inl h
    | misfit _ first => exact .inr ⟨_, _, _, first⟩
  · intro h
    by_cases hcount : args.length = types.length
    · obtain ⟨i, type, arg, first⟩ := h.resolve_left (not_not_intro hcount)
      obtain ⟨f, hf⟩ := hfault i type arg first.misfits
      exact ⟨f, .misfit hcount first hf⟩
    · exact ⟨_, .count hcount⟩

/-- Calls are refused as they should be if they go by the lookup of the function and then by checks
that blame the arguments. -/
theorem refusals_of_checks {call : Spirit → Reply Spirit α} {answer : List Value → α}
    (check : Nat → Except Error γ)
    (hfault : ∀ i type arg, ¬fits type arg → ∃ f, fault i type arg f)
    (hcheck : ∀ index e, check index = .error e ↔
      ∃ f, Blames fits fault (s.params index) args f ∧ e = .signature name f)
    (hlookup : ∀ e, s.function name = .error e →
      ∀ t : Spirit, t.source = s.source → call t = .plain (.error e) t)
    (hchecks : ∀ index e, s.function name = .ok index → check index = .error e →
      ∀ t : Spirit, t.source = s.source → call t = .plain (.error e) t)
    (hruns : ∀ index c, s.function name = .ok index → check index = .ok c →
      (∃ i, call s = .plain (.error (.trap (.reference i))) s) ∨
        ∃ index values, call s = (s.run index values).map answer) :
    s.Refusals name args fits fault call answer := by
  have hrefused : ∀ e, s.function name >>= check = .error e →
      ∀ t : Spirit, t.source = s.source → call t = .plain (.error e) t := by
    intro e h
    rcases Except.bind_eq_error_iff.1 h with h | ⟨index, h, hcheck⟩
    · exact hlookup e h
    · exact hchecks index e h hcheck
  have hbegun : ∀ c, s.function name >>= check = .ok c →
      (∃ i, call s = .plain (.error (.trap (.reference i))) s) ∨
        ∃ index values, call s = (s.run index values).map answer := by
    intro c h
    obtain ⟨index, h, hcheck⟩ := Except.bind_eq_ok_iff.1 h
    exact hruns index c h hcheck
  have hafter : ∀ c, s.function name >>= check = .ok c →
      ∀ e, (call s).result = .error e → ¬e.IsRefusal := by
    intro c hc e he
    rcases hbegun c hc with ⟨i, hcall⟩ | ⟨index, values, hcall⟩
    · rw [hcall] at he
      cases he
      exact nofun
    · rw [hcall] at he
      exact not_isRefusal_run s index values (Except.map_eq_error_iff.1 he)
  -- The lookup and the checks decide whether a refusal comes out, and which.
  have hdecides : ∀ e, e.IsRefusal →
      ((call s).result = .error e ↔ s.function name >>= check = .error e) := by
    intro e he
    cases hverdict : s.function name >>= check with
    | error e' =>
      rw [hrefused e' hverdict s rfl]
      simp [Reply.plain]
    | ok c =>
      refine ⟨fun h => absurd he (hafter c hverdict e h), nofun⟩
  have hverdict : ∀ e, s.function name >>= check = .error e ↔ s.function name = .error e ∨
      ∃ index, s.source.export? name = some ⟨name, .func index⟩ ∧
        ∃ f, Blames fits fault (s.params index) args f ∧ e = .signature name f := by
    intro e
    simp only [Except.bind_eq_error_iff, function_eq_ok_iff, hcheck]
  have hsignature : ∀ n f, (call s).result = .error (.signature n f) ↔
      n = name ∧ ∃ index, s.source.export? name = some ⟨name, .func index⟩ ∧
        Blames fits fault (s.params index) args f := by
    intro n f
    rw [hdecides _ (.signature n f), hverdict, function_eq_error_iff]
    constructor
    · rintro ((⟨h, -⟩ | ⟨h, -⟩) | ⟨index, hexport, _, hblames, h⟩)
      · cases h
      · cases h
      · cases h
        exact ⟨rfl, index, hexport, hblames⟩
    · rintro ⟨rfl, index, hexport, hblames⟩
      exact .inr ⟨index, hexport, f, hblames, rfl⟩
  constructor
  case functionNotFound =>
    intro n
    rw [hdecides _ (.functionNotFound n), hverdict, function_eq_error_iff]
    simp
  case notCallable =>
    intro n
    rw [hdecides _ (.notCallable n), hverdict, function_eq_error_iff]
    simp
  case signature => exact hsignature
  case unfit =>
    simp only [hsignature, true_and, ← exists_blames_iff hfault]
    exact exists_comm.trans (exists_congr fun index => exists_and_left)
  case untouched =>
    intro e he h
    exact hrefused e ((hdecides e he).1 h)
  case begun =>
    cases hverdict' : s.function name >>= check with
    | error e =>
      have he : e.IsRefusal := by
        rcases (hverdict e).1 hverdict' with h | ⟨_, _, f, _, rfl⟩
        · rcases function_eq_error_iff.1 h with ⟨rfl, -⟩ | ⟨rfl, -⟩
          · exact .functionNotFound name
          · exact .notCallable name
        · exact .signature name f
      exact .inl ⟨e, he, (hdecides e he).2 hverdict'⟩
    | ok c =>
      rcases hbegun c hverdict' with hreference | ⟨index, values, hcall⟩
      · exact .inr (.inl hreference)
      · exact .inr (.inr ⟨index, values, hcall, hafter c hverdict'⟩)

end

theorem refusals_call (s : Spirit) (name : String) (args : List Value) :
    s.Refusals name args Fits Fault (·.call name args) id := by
  refine refusals_of_checks (fun index => s.check name index args) (fun i type arg _ => ⟨_, rfl⟩)
    (fun index e => check_eq_error_iff) ?lookup ?checks ?runs
  case lookup =>
    intro e h t ht
    rw [call, function_eq_of_source ht, h]
  case checks =>
    intro index e h hcheck t ht
    have hcheck' : t.check name index args = .error e := by
      rwa [check, params_eq_of_source ht]
    rw [call, function_eq_of_source ht, h]
    dsimp only
    rw [callIndex_eq, hcheck']
  case runs =>
    intro index _ h hcheck
    rw [call, h]
    dsimp only
    rw [callIndex_eq, hcheck]
    dsimp only
    cases misfit? 0 (s.params index) args with
    | some i => exact .inl ⟨i, rfl⟩
    | none => exact .inr ⟨index, args, (Reply.map_id _).symm⟩

theorem refusals_callJson (s : Spirit) (name : String) (args : List Json) :
    s.Refusals name args JsonFits JsonFault (·.callJson name args) resultJson := by
  refine refusals_of_checks (fun index => s.checkJson name index args) (fun i type json h => ?fault)
    (fun index e => checkJson_eq_error_iff) ?lookup ?checks ?runs
  case fault =>
    obtain ⟨fault, hfault⟩ := (ofJson_isError_iff type json).2 h
    exact ⟨_, fault, hfault, rfl⟩
  case lookup =>
    intro e h t ht
    rw [callJson_eq, function_eq_of_source ht, h]
  case checks =>
    intro index e h hcheck t ht
    have hcheck' : t.checkJson name index args = .error e := by
      rwa [checkJson, params_eq_of_source ht]
    rw [callJson_eq, function_eq_of_source ht, h]
    dsimp only
    rw [← checkJson, hcheck']
  case runs =>
    intro index values h hcheck
    obtain ⟨_, hcount, hconvert⟩ := Except.bind_eq_ok_iff.1 hcheck
    have htypes : values.map Value.type = s.params index :=
      types_convert (checkCount_eq_ok_iff.1 hcount) hconvert
    refine .inr ⟨index, values, ?_⟩
    rw [callJson_eq, h]
    dsimp only
    rw [← checkJson, hcheck]
    dsimp only
    rw [callIndex_of_fits name htypes]

/-- **Refused calls.** Calls with values and calls with JSON are refused as they should be, in every
state of a Spirit and for all arguments; for a reference no JSON will do. -/
theorem calls_refused (s : Spirit) (name : String) :
    (∀ args, s.Refusals name args Fits Fault (·.call name args) id) ∧
      (∀ args, s.Refusals name args JsonFits JsonFault (·.callJson name args) resultJson) ∧
      ∀ type json, type.isNumeric = false → ¬JsonFits type json := by
  refine ⟨refusals_call s name, refusals_callJson s name, fun type json htype h => ?_⟩
  cases h <;> cases htype

end Spirit

end SpiritHost
