import SpiritHost.Proofs.Except
import SpiritHost.Spirit.Basic

/-!
# Calls that are refused and calls that run

A call either fits an exported function and is then the run of that function, or it is refused and
leaves the Spirit as it was. The checks on the way say the same as a comparison of types.
-/

namespace SpiritHost

open Wasm (FuncType Value ValType)

namespace Spirit

variable {s : Spirit} {name : String} {args : List Value} {index : Nat}

/-- The types of the parameters of a function. -/
def params (s : Spirit) (index : Nat) : List ValType :=
  ((s.source.functionType? index).getD ⟨[], []⟩).params

/-- The call fits an exported function, so that the function runs. -/
def ReachesCode (s : Spirit) (name : String) (args : List Value) : Prop :=
  ∃ index, s.function name = .ok index ∧ args.map Value.type = s.params index

/-- The call with JSON arguments fits an exported function once they are converted. -/
def ReachesCodeJson (s : Spirit) (name : String) (args : List Json) : Prop :=
  ∃ index values, s.function name = .ok index ∧ args.length = (s.params index).length ∧
    convert name 0 (s.params index) args = .ok values

/-- Calls of a Spirit with the same module are looked up and checked alike. -/
theorem function_eq_of_source {t : Spirit} (h : t.source = s.source) :
    t.function name = s.function name := by
  unfold function
  rw [h]

theorem params_eq_of_source {t : Spirit} (h : t.source = s.source) : t.params = s.params := by
  unfold params
  rw [h]

/-! ## Checks -/

theorem checkCount_eq_ok_iff {expected found : Nat} :
    checkCount name expected found = .ok () ↔ found = expected := by
  unfold checkCount
  by_cases h : found = expected
  · rw [if_pos h]
    exact ⟨fun _ => h, fun _ => rfl⟩
  · rw [if_neg h]
    exact ⟨nofun, fun heq => absurd heq h⟩

theorem checkTypes_of_fits : ∀ {types : List ValType} {args : List Value} (i : Nat),
    args.map Value.type = types → checkTypes name i types args = .ok ()
  | [], [], _, _ => rfl
  | type :: types, arg :: args, i, h => by
    obtain ⟨hfirst, hrest⟩ := List.cons.inj h
    rw [checkTypes, if_neg fun hbad => hbad.2 hfirst, checkTypes_of_fits (i + 1) hrest]

theorem misfit?_eq_none_iff : ∀ (types : List ValType) (args : List Value) (i : Nat),
    args.length = types.length → (misfit? i types args = none ↔ args.map Value.type = types)
  | [], [], _, _ => by simp [misfit?]
  | type :: types, arg :: args, i, h => by
    have ih := misfit?_eq_none_iff types args (i + 1) (Nat.succ.inj h)
    rw [misfit?, List.map_cons, List.cons.injEq]
    by_cases htype : arg.type = type
    · rw [if_neg (not_not_intro htype), ih]
      simp [htype]
    · simp [htype]

/-- The checks of a call, whose outcome decides whether it runs. -/
def check (s : Spirit) (name : String) (index : Nat) (args : List Value) : Except Error Unit := do
  checkCount name (s.params index).length args.length
  checkTypes name 0 (s.params index) args

theorem callIndex_eq (s : Spirit) (name : String) (index : Nat) (args : List Value) :
    s.callIndex name index args =
      match s.check name index args with
      | .error e => .plain (.error e) s
      | .ok () => match misfit? 0 (s.params index) args with
        | some i => .plain (.error (.trap (.reference i))) s
        | none => s.run index args := rfl

/-- A call of a function is its run if the arguments are of its parameters' types. -/
theorem callIndex_of_fits (name : String) (h : args.map Value.type = s.params index) :
    s.callIndex name index args = s.run index args := by
  have hcount : args.length = (s.params index).length := by
    rw [← h, List.length_map]
  have hcheck : s.check name index args = .ok () := by
    rw [check, checkCount_eq_ok_iff.2 hcount]
    exact checkTypes_of_fits 0 h
  rw [callIndex_eq, hcheck]
  dsimp only
  rw [(misfit?_eq_none_iff _ _ 0 hcount).2 h]

/-- Otherwise it is refused. -/
theorem callIndex_of_misfits (name : String) (h : args.map Value.type ≠ s.params index) :
    ∃ e, s.callIndex name index args = .plain (.error e) s := by
  rw [callIndex_eq]
  cases hcheck : s.check name index args with
  | error e => exact ⟨e, rfl⟩
  | ok =>
    obtain ⟨_, hcount, -⟩ := Except.bind_eq_ok_iff.1 hcheck
    dsimp only
    cases hmisfit : misfit? 0 (s.params index) args with
    | some i => exact ⟨_, rfl⟩
    | none => exact absurd ((misfit?_eq_none_iff _ _ 0 (checkCount_eq_ok_iff.1 hcount)).1 hmisfit) h

/-! ## Calls -/

/-- A call that does not reach the code leaves the Spirit as it was. -/
theorem call_of_refused (h : ¬s.ReachesCode name args) :
    ∃ e, s.call name args = .plain (.error e) s := by
  unfold call
  cases hfunction : s.function name with
  | error e => exact ⟨e, rfl⟩
  | ok index => exact callIndex_of_misfits name fun hfits => h ⟨index, hfunction, hfits⟩

theorem callJson_eq (s : Spirit) (name : String) (args : List Json) :
    s.callJson name args =
      match s.function name with
      | .error e => .plain (.error e) s
      | .ok index =>
        match (do
          checkCount name (s.params index).length args.length
          convert name 0 (s.params index) args) with
        | .error e => .plain (.error e) s
        | .ok values => (s.callIndex name index values).map resultJson := rfl

theorem callJson_of_refused {args : List Json} (h : ¬s.ReachesCodeJson name args) :
    ∃ e, s.callJson name args = .plain (.error e) s := by
  rw [callJson_eq]
  cases hfunction : s.function name with
  | error e => exact ⟨e, rfl⟩
  | ok index =>
    dsimp only
    cases hconvert : (do
      checkCount name (s.params index).length args.length
      convert name 0 (s.params index) args) with
    | error e => exact ⟨e, rfl⟩
    | ok values =>
      obtain ⟨_, hcount, hconvert⟩ := Except.bind_eq_ok_iff.1 hconvert
      exact absurd ⟨index, values, hfunction, checkCount_eq_ok_iff.1 hcount, hconvert⟩ h

end Spirit

end SpiritHost
