import SpiritHost.Proofs.Loa.Honest
import SpiritHost.Proofs.Wasm.Judgement
import SpiritHost.Wasm.Machine

/-!
# Preservation

A machine that runs checked code stays in checked code. Its operands have the types that the checker
found at that point, its variables those that were declared, and each of its contexts goes on with
code that was checked for what comes out of it. So what a function finally gives are values of its
result types. Whether it gives anything is another matter: code may trap, fail in the host or run
out of steps.
-/

namespace SpiritHost

/-- The global variables in the store hold values of the types that a module declares. -/
def Store.TypedFor (s : Store) (m : Wasm.Module) : Prop :=
  s.globals.map Wasm.Value.type = m.globalTypes.map (·.value)

namespace Wasm

open Operands (closed)

/-! ## Values of known types -/

theorem getD_mem_cons {α : Type} (xs : List α) (i : Nat) (a : α) : xs.getD i a ∈ a :: xs := by
  rw [List.getD_eq_getElem?_getD]
  cases h : xs[i]? with
  | none => exact List.mem_cons_self
  | some x => exact List.mem_cons_of_mem _ (List.mem_of_getElem? h)

section

variable {values : List Value} {us ts : List ValType} {t : ValType}

theorem exists_i32_of_types (h : values.map Value.type = .i32 :: ts) :
    ∃ word rest, values = .i32 word :: rest ∧ rest.map Value.type = ts := by
  obtain ⟨value, rest, rfl, htype, hrest⟩ := List.map_eq_cons_iff.1 h
  cases value with
  | i32 word => exact ⟨word, rest, rfl, hrest⟩
  | _ => cases htype

theorem types_take (h : values.map Value.type = us.reverse ++ ts) :
    (values.take us.length).map Value.type = us.reverse := by
  rw [List.map_take, h, List.take_left' (List.length_reverse)]

theorem types_drop (h : values.map Value.type = us.reverse ++ ts) :
    (values.drop us.length).map Value.type = ts := by
  rw [List.map_drop, h, List.drop_left' (List.length_reverse)]

theorem types_zero (ts : List ValType) : (ts.map Value.zero).map Value.type = ts := by
  simp [Function.comp_def]

theorem type_of_getElem? {i : Nat} {value : Value} (h : values.map Value.type = ts)
    (hi : ts[i]? = some t) (hvalue : values[i]? = some value) : value.type = t := by
  rw [← h, List.getElem?_map, hvalue] at hi
  exact Option.some.inj hi

/-- Setting a variable to a value of its type. -/
theorem types_set {i : Nat} {value : Value} (h : values.map Value.type = ts)
    (hi : ts[i]? = some value.type) : (values.set i value).map Value.type = ts := by
  obtain ⟨hlt, hget⟩ := List.getElem?_eq_some_iff.1 hi
  rw [List.map_set, h, ← hget, List.set_getElem_self]

theorem type_of_map_bits? {t : NumType} {op : BitVec t.width → Except Trap Value} {u : ValType}
    {a value : Value} (hop : ∀ bits r, op bits = .ok r → r.type = u)
    (h : (t.bits? a).map op = some (.ok value)) : value.type = u := by
  obtain ⟨bits, -, hresult⟩ := Option.map_eq_some_iff.1 h
  exact hop bits value hresult

theorem type_of_lift {t : NumType} {op : BitVec t.width → BitVec t.width → Except Trap Value}
    {u : ValType} {a b value : Value} (hop : ∀ x y r, op x y = .ok r → r.type = u)
    (h : t.lift a b op = some (.ok value)) : value.type = u := by
  unfold NumType.lift at h
  split at h
  · exact hop _ _ value (Option.some.inj h)
  · cases h

theorem type_of_map_value {t : NumType} {result : Except Trap (BitVec t.width)} {value : Value}
    (h : result.map t.value = .ok value) : value.type = t.valType := by
  obtain ⟨bits, -, rfl⟩ := Except.map_eq_ok_iff.1 h
  exact t.type_value bits

theorem UnaryOp.type_eval {op : UnaryOp} {a value : Value} (h : op.eval a = some (.ok value)) :
    value.type = op.signature.2 := by
  cases op with
  | truncate => exact type_of_map_bits? (fun _ _ => type_of_map_value) h
  | eqz => exact type_of_map_bits? (fun _ _ hvalue => by cases hvalue; exact type_flag _) h
  | _ =>
    refine type_of_map_bits? (fun _ _ hvalue => ?_) h
    cases hvalue
    exact NumType.type_value _ _

theorem BinaryOp.type_eval {op : BinaryOp} {a b value : Value}
    (h : op.eval a b = some (.ok value)) : value.type = op.signature.2 := by
  cases op with
  | int => exact type_of_lift (fun _ _ _ => type_of_map_value) h
  | intTest | floatTest =>
    exact type_of_lift (fun _ _ _ hvalue => by cases hvalue; exact type_flag _) h
  | float =>
    exact type_of_lift (fun _ _ _ hvalue => by cases hvalue; exact NumType.type_value _ _) h

end

/-- The functions of an instance are of the types that its module gives them. Those of the host are
honest, and the code of the others is checked. -/
structure Instance.Sound (inst : Instance) : Prop where
  types : ∀ {f : Nat} {callee : Callee}, inst.functions[f]? = some callee →
    inst.source.functionType? f = some callee.type
  honest : ∀ {f : Nat} {function : HostFunction}, inst.functions[f]? = some (.host function) →
    function.Honest
  checked : ∀ {f : Nat} {type : FuncType} {code : Code} {size : Nat},
    inst.functions[f]? = some (.code type code size) →
      Scope.Checks ⟨inst.source, type.params ++ code.locals, type.results⟩ [type.results] code.body
        (closed []) type.results

/-- Contexts go on as they should with what comes out of the code at hand: results, or what a branch
to one of the labels carries. In the end they give values of the final types. -/
inductive Continues (final : List ValType) :
    Scope → List (List ValType) → List ValType → List Context → Prop where
  | done {s : Scope} : Continues final s [] final []
  | label {s : Scope} {labels : List (List ValType)} {carried results outcome : List ValType}
      {below : List Value} {target rest : List Instr} {contexts : List Context}
      (target_checks :
        s.Checks labels target (closed (carried.reverse ++ below.map Value.type)) outcome)
      (rest_checks :
        s.Checks labels rest (closed (results.reverse ++ below.map Value.type)) outcome)
      (outer : Continues final s labels outcome contexts) :
      Continues final s (carried :: labels) results
        (.label carried.length below target rest :: contexts)
  | frame {s caller : Scope} {labels : List (List ValType)} {outcome : List ValType}
      {below locals : List Value} {rest : List Instr} {contexts : List Context} {size : Nat}
      (source : caller.source = s.source) (locals_typed : locals.map Value.type = caller.locals)
      (rest_checks :
        caller.Checks labels rest (closed (s.results.reverse ++ below.map Value.type)) outcome)
      (outer : Continues final caller labels outcome contexts) :
      Continues final s [s.results] s.results
        (.frame s.results.length size below locals rest :: contexts)

/-- A machine in checked code. -/
structure Machine.Follows (inst : Instance) (final : List ValType) (m : Machine) (s : Scope)
    (labels : List (List ValType)) (results : List ValType) : Prop where
  source : s.source = inst.source
  locals : m.locals.map Value.type = s.locals
  code : s.Checks labels m.code (closed (m.operands.map Value.type)) results
  contexts : Continues final s labels results m.contexts
  store : m.store.TypedFor inst.source

/-- A machine in checked code of some kind, which will give values of the final types. -/
def Machine.Typed (inst : Instance) (final : List ValType) (m : Machine) : Prop :=
  ∃ s labels results, m.Follows inst final s labels results

/-- A step to a machine in checked code, or to results of the final types, or a halt. -/
def Step.Typed (inst : Instance) (final : List ValType) : Step → Prop
  | running m => m.Typed inst final
  | finished results store => results.map Value.type = final ∧ store.TypedFor inst.source
  | halted _ store => store.TypedFor inst.source

namespace Machine

variable {inst : Instance} {final : List ValType} {m : Machine} {s : Scope}
  {labels : List (List ValType)} {results : List ValType} {contexts : List Context}

/-! ## Leaving code -/

theorem typed_unwind {below : List ValType} (hsource : s.source = inst.source)
    (hstore : m.store.TypedFor inst.source)
    (hoperands : m.operands.map Value.type = s.results.reverse ++ below)
    (h : Continues final s labels results contexts) : (m.unwind contexts).Typed inst final := by
  induction h with
  | done => exact hstore
  | label _ _ _ ih => exact ih hsource hoperands
  | @frame s caller labels outcome _ _ _ _ _ hcaller hlocals hrest houter _ =>
    refine ⟨caller, labels, outcome, hcaller.trans hsource, hlocals, ?_, houter, hstore⟩
    rw [List.map_append, types_take hoperands]
    exact hrest

theorem typed_branch (hsource : s.source = inst.source)
    (hlocals : m.locals.map Value.type = s.locals) (hstore : m.store.TypedFor inst.source)
    {all : List (List ValType)} {outcome : List ValType}
    (hall : Continues final s all outcome m.contexts)
    (h : Continues final s labels results contexts) {n : Nat} {carried below : List ValType}
    (htarget : labels[n]? = some carried)
    (hoperands : m.operands.map Value.type = carried.reverse ++ below) :
    (m.branch n contexts).Typed inst final := by
  induction h generalizing n with
  | done => cases htarget
  | @label s labels _ _ outcome _ _ _ _ hcode _ houter ih =>
    cases n with
    | zero =>
      cases htarget
      refine ⟨s, labels, outcome, hsource, hlocals, ?_, houter, hstore⟩
      rw [List.map_append, types_take hoperands]
      exact hcode
    | succ n => exact ih hsource hlocals hall htarget
  | frame =>
    cases n with
    | zero =>
      cases htarget
      exact typed_unwind hsource hstore hoperands hall
    | succ n => cases htarget

theorem typed_leave (h : m.Follows inst final s labels results) (hcode : m.code = []) :
    m.leave.Typed inst final := by
  have hoperands := Scope.checks_nil.1 (hcode ▸ h.code)
  have hcontexts := h.contexts
  unfold leave
  split
  · rename_i hdone
    rw [hdone] at hcontexts
    cases hcontexts
    refine ⟨?_, h.store⟩
    rw [List.map_reverse, hoperands, List.reverse_reverse]
  · rename_i hlabel
    rw [hlabel] at hcontexts
    cases hcontexts with
    | label _ hrest houter =>
      refine ⟨s, _, _, h.source, h.locals, ?_, houter, h.store⟩
      rw [List.map_append, hoperands]
      exact hrest
  · rename_i hframe
    have hreturned : m.operands.map Value.type = s.results.reverse ++ [] := by
      rw [hframe] at hcontexts
      cases hcontexts
      rw [hoperands, List.append_nil]
    exact typed_unwind h.source h.store hreturned h.contexts

/-! ## Entering code -/

theorem typed_enter (h : m.Follows inst final s labels results)
    {params carried outcome below : List ValType} {body target rest : List Instr}
    {operands : List Value} (hoperands : operands.map Value.type = params.reverse ++ below)
    (hbody : s.Checks (carried :: labels) body (closed params.reverse) outcome)
    (htarget : s.Checks labels target (closed (carried.reverse ++ below)) results)
    (hrest : s.Checks labels rest (closed (outcome.reverse ++ below)) results) :
    (m.enter params.length carried.length body target rest operands).Typed inst final := by
  have hbelow := types_drop hoperands
  refine ⟨s, carried :: labels, outcome, h.source, h.locals, ?_, ?_, h.store⟩
  · rw [types_take hoperands]
    exact hbody
  · exact .label (hbelow ▸ htarget) (hbelow ▸ hrest) h.contexts

/-- A call of a host function keeps to the function's type. -/
theorem typed_invoke_host (h : m.Follows inst final s labels results) {function : HostFunction}
    (hhonest : function.Honest) {budget : Budget} {below : List ValType} {rest : List Instr}
    {operands : List Value}
    (hoperands : operands.map Value.type = function.type.params.reverse ++ below)
    (hrest : s.Checks labels rest (closed (function.type.results.reverse ++ below)) results) :
    (m.invoke budget (.host function) rest operands).Typed inst final := by
  have hargs : (operands.take function.type.params.length).reverse.map Value.type =
      function.type.params := by
    rw [List.map_reverse, types_take hoperands, List.reverse_reverse]
  have hglobals := HostCall.globals_run
    (function.call (operands.take function.type.params.length).reverse) m.store
  simp only [invoke, Callee.type]
  cases hrun : (function.call (operands.take function.type.params.length).reverse).run m.store with
  | mk result store =>
    rw [hrun] at hglobals
    have hstore : store.TypedFor inst.source := (congrArg _ hglobals).trans h.store
    cases result with
    | error failure => exact hstore
    | ok given =>
      refine ⟨s, labels, results, h.source, h.locals, ?_, h.contexts, hstore⟩
      rw [List.map_append, List.map_reverse, hhonest hargs hrun, types_drop hoperands]
      exact hrest

theorem typed_invoke (hinst : inst.Sound) (h : m.Follows inst final s labels results)
    {budget : Budget} {f : Nat} {callee : Callee} (hf : inst.functions[f]? = some callee)
    {below : List ValType} {rest : List Instr} {operands : List Value}
    (hoperands : operands.map Value.type = callee.type.params.reverse ++ below)
    (hrest : s.Checks labels rest (closed (callee.type.results.reverse ++ below)) results) :
    (m.invoke budget callee rest operands).Typed inst final := by
  cases callee with
  | host function => exact typed_invoke_host h (hinst.honest hf) hoperands hrest
  | code type code size =>
    simp only [Callee.type] at hoperands hrest
    simp only [invoke, Callee.type]
    split
    · exact h.store
    · refine ⟨⟨inst.source, type.params ++ code.locals, type.results⟩, [type.results], type.results,
        rfl, ?_, hinst.checked hf, ?_, h.store⟩
      · rw [List.map_append, List.map_reverse, types_take hoperands, List.reverse_reverse,
          types_zero]
      · have hbelow := types_drop hoperands
        exact .frame h.source h.locals (hbelow ▸ hrest) h.contexts

/-! ## Steps -/

theorem typed_next (h : m.Follows inst final s labels results) {ts : List ValType}
    {rest : List Instr} {operands : List Value} (hoperands : operands.map Value.type = ts)
    (hrest : s.Checks labels rest (closed ts) results) :
    (m.next rest operands).Typed inst final := by
  refine ⟨s, labels, results, h.source, h.locals, ?_, h.contexts, h.store⟩
  exact hoperands ▸ hrest

theorem typed_push (h : m.Follows inst final s labels results) {ts : List ValType}
    {rest : List Instr} {value : Value} {operands : List Value}
    (hoperands : operands.map Value.type = ts)
    (hrest : s.Checks labels rest (closed (value.type :: ts)) results) :
    (m.next rest (value :: operands)).Typed inst final :=
  typed_next h (by rw [List.map_cons, hoperands]) hrest

/-- Jumps from the operands at hand. -/
theorem typed_jump (h : m.Follows inst final s labels results) {n : Nat}
    {carried below : List ValType} {operands : List Value} (htarget : labels[n]? = some carried)
    (hoperands : operands.map Value.type = carried.reverse ++ below) :
    (Machine.branch { m with operands } n m.contexts).Typed inst final :=
  typed_branch (m := { m with operands }) h.source h.locals h.store h.contexts h.contexts htarget
    hoperands

theorem typed_result (h : m.Follows inst final s labels results) {t : ValType} {ts : List ValType}
    {rest : List Instr} {operands : List Value} {evaluated : Option (Except Trap Value)}
    (hevaluated : ∀ value, evaluated = some (.ok value) → value.type = t)
    (hoperands : operands.map Value.type = ts)
    (hrest : s.Checks labels rest (closed (t :: ts)) results) :
    (m.result rest operands evaluated).Typed inst final := by
  unfold result
  split
  · exact typed_push h hoperands (hevaluated _ rfl ▸ hrest)
  · exact h.store
  · exact h.store

theorem typed_storeBytes (h : m.Follows inst final s labels results) {arg : MemArg} {base : UInt32}
    {bytes : Bytes} {ts : List ValType} {rest : List Instr} {operands : List Value}
    (hoperands : operands.map Value.type = ts)
    (hrest : s.Checks labels rest (closed ts) results) :
    (m.storeBytes inst arg base bytes rest operands).Typed inst final := by
  unfold storeBytes
  split
  · exact h.store
  · split
    · exact h.store
    · exact ⟨s, labels, results, h.source, h.locals, hoperands ▸ hrest, h.contexts, h.store⟩

/-- An instruction leads to checked code: one case for each rule of the judgement. -/
theorem typed_instr (hinst : inst.Sound) (budget : Budget)
    (h : m.Follows inst final s labels results) {i : Instr} {rest : List Instr}
    {operands : List Value} {ts : List ValType}
    (hoperands : operands.map Value.type = ts)
    (hcode : s.Checks labels (i :: rest) (closed ts) results) :
    (m.instr inst budget rest i operands).Typed inst final := by
  obtain ⟨after, hi, hrest⟩ := Scope.checks_cons.1 hcode
  cases Scope.takes_of_instr hi with
  | unreachable => exact h.store
  | nop => exact typed_next h hoperands hrest
  | block htype hbody =>
    rw [h.source] at htype
    simp only [instr, htype]
    exact typed_enter h hoperands hbody hrest hrest
  | loop htype hbody =>
    rw [h.source] at htype
    simp only [instr, htype]
    exact typed_enter h hoperands hbody hcode hrest
  | ifElse htype hfirst hsecond =>
    obtain ⟨c, below, rfl, hbelow⟩ := exists_i32_of_types hoperands
    rw [h.source] at htype
    simp only [instr, htype]
    refine typed_enter h hbelow ?_ hrest hrest
    split
    · exact hsecond
    · exact hfirst
  | br htarget => exact typed_jump h htarget hoperands
  | brIf htarget =>
    obtain ⟨c, below, rfl, hbelow⟩ := exists_i32_of_types hoperands
    simp only [instr]
    split
    · exact typed_next h hbelow hrest
    · exact typed_jump h htarget hbelow
  | brTable heach =>
    obtain ⟨c, below, rfl, rfl⟩ := exists_i32_of_types hoperands
    obtain ⟨carried, _, htarget, hcarried⟩ := heach _ (getD_mem_cons _ c.toNat _)
    exact typed_jump h htarget hcarried
  | ret => exact typed_unwind (m := { m with operands }) h.source h.store hoperands h.contexts
  | call htype =>
    simp only [instr]
    split
    · rename_i callee hf
      rw [h.source, hinst.types hf] at htype
      cases htype
      exact typed_invoke hinst h hf hoperands hrest
    · exact h.store
  | callIndirect hexpected =>
    obtain ⟨c, below, rfl, hbelow⟩ := exists_i32_of_types hoperands
    rw [h.source] at hexpected
    simp only [instr, hexpected]
    split
    · rename_i hexpected'
      cases hexpected'
      split
      · exact h.store
      · split
        · exact h.store
        · split
          · rename_i callee hf
            split
            · rename_i htype
              exact typed_invoke hinst h hf (htype ▸ hbelow) (htype ▸ hrest)
            · exact h.store
          · exact h.store
    · exact h.store
  | drop =>
    obtain ⟨_, below, rfl, -, hbelow⟩ := List.map_eq_cons_iff.1 hoperands
    exact typed_next h hbelow hrest
  | select =>
    obtain ⟨c, _, rfl, hchosen⟩ := exists_i32_of_types hoperands
    obtain ⟨second, _, rfl, hsecond, hfirst⟩ := List.map_eq_cons_iff.1 hchosen
    obtain ⟨first, below, rfl, hsame, hbelow⟩ := List.map_eq_cons_iff.1 hfirst
    refine typed_push h hbelow ?_
    split
    · rwa [hsecond]
    · rwa [hsame]
  | localGet htype =>
    simp only [instr]
    split
    · rename_i value hvalue
      exact typed_push h hoperands (type_of_getElem? h.locals htype hvalue ▸ hrest)
    · exact h.store
  | localSet htype =>
    obtain ⟨value, below, rfl, rfl, hbelow⟩ := List.map_eq_cons_iff.1 hoperands
    refine ⟨s, labels, results, h.source, types_set h.locals htype, ?_, h.contexts, h.store⟩
    exact hbelow ▸ hrest
  | localTee htype =>
    obtain ⟨value, below, rfl, rfl, hbelow⟩ := List.map_eq_cons_iff.1 hoperands
    refine ⟨s, labels, results, h.source, types_set h.locals htype, ?_, h.contexts, h.store⟩
    rw [List.map_cons, hbelow]
    exact hrest
  | @globalGet i g _ htype =>
    simp only [instr]
    split
    · rename_i value hvalue
      have htype' : (inst.source.globalTypes.map (·.value))[i]? = some g.value := by
        rw [List.getElem?_map, ← h.source, htype]
        rfl
      exact typed_push h hoperands (type_of_getElem? h.store htype' hvalue ▸ hrest)
    · exact h.store
  | globalSet htype =>
    obtain ⟨value, below, rfl, hvalue, hbelow⟩ := List.map_eq_cons_iff.1 hoperands
    refine ⟨s, labels, results, h.source, h.locals, hbelow ▸ hrest, h.contexts, ?_⟩
    refine types_set h.store ?_
    rw [List.getElem?_map, ← h.source, htype, hvalue]
    rfl
  | load =>
    obtain ⟨base, below, rfl, hbelow⟩ := exists_i32_of_types hoperands
    simp only [instr]
    split
    · exact h.store
    · split
      · exact h.store
      · exact typed_push h hbelow (by rwa [LoadOp.type_value])
  | store =>
    obtain ⟨value, _, rfl, -, hvalue⟩ := List.map_eq_cons_iff.1 hoperands
    obtain ⟨base, below, rfl, hbelow⟩ := exists_i32_of_types hvalue
    simp only [instr]
    split
    · exact h.store
    · exact typed_storeBytes h hbelow hrest
  | memorySize =>
    simp only [instr]
    split
    · exact typed_push h hoperands hrest
    · exact h.store
  | memoryGrow =>
    obtain ⟨more, below, rfl, hbelow⟩ := exists_i32_of_types hoperands
    simp only [instr]
    split
    · split
      · refine ⟨s, labels, results, h.source, h.locals, ?_, h.contexts, h.store⟩
        rw [List.map_cons, hbelow]
        exact hrest
      · exact typed_push h hbelow hrest
    · exact h.store
  | const => exact typed_push h hoperands hrest
  | refIsNull =>
    obtain ⟨value, below, rfl, hvalue, hbelow⟩ := List.map_eq_cons_iff.1 hoperands
    cases value with
    | null t => exact typed_push h hbelow hrest
    | _ => cases hvalue
  | unary =>
    obtain ⟨_, below, rfl, -, hbelow⟩ := List.map_eq_cons_iff.1 hoperands
    exact typed_result h (fun _ => UnaryOp.type_eval) hbelow hrest
  | binary =>
    obtain ⟨_, _, rfl, -, hfirst⟩ := List.map_eq_cons_iff.1 hoperands
    obtain ⟨_, below, rfl, -, hbelow⟩ := List.map_eq_cons_iff.1 hfirst
    exact typed_result h (fun _ => BinaryOp.type_eval) hbelow hrest

/-- **One step.** From checked code a step leads to checked code, to results of the final types, or
to a halt. -/
theorem typed_step (hinst : inst.Sound) (budget : Budget) (h : m.Typed inst final) :
    (m.step inst budget).Typed inst final := by
  obtain ⟨s, labels, results, h⟩ := h
  unfold step
  split
  · rename_i hcode
    exact typed_leave h hcode
  · rename_i hcode
    exact typed_instr hinst budget h rfl (hcode ▸ h.code)

end Machine

/-- How running checked code may end: with results of the final types, or without results. -/
def Outcome.Typed (inst : Instance) (final : List ValType) : Outcome → Prop
  | finished results store => results.map Value.type = final ∧ store.TypedFor inst.source
  | halted _ store => store.TypedFor inst.source
  | outOfSteps store => store.TypedFor inst.source

variable {inst : Instance} {final : List ValType}

theorem Outcome.Typed.store {outcome : Outcome} (h : outcome.Typed inst final) :
    outcome.store.TypedFor inst.source := by
  cases outcome with
  | finished => exact h.2
  | halted => exact h
  | outOfSteps => exact h

/-- **Runs.** However many steps it may take, a run of checked code ends with results of the final
types or without results. -/
theorem Machine.typed_run (hinst : inst.Sound) (budget : Budget) : ∀ (steps : Nat) {m : Machine},
    m.Typed inst final → (run inst budget steps m).Typed inst final
  | 0, _, ⟨_, _, _, h⟩ => h.store
  | steps + 1, m, h => by
    have hstep := typed_step hinst budget h
    rw [run]
    cases hnext : m.step inst budget with
    | running next =>
      rw [hnext] at hstep
      exact typed_run hinst budget steps hstep
    | finished => rw [hnext] at hstep; exact hstep
    | halted => rw [hnext] at hstep; exact hstep

/-- **Calls.** A function that is called with arguments of its parameter types gives values of its
result types, if it gives anything. -/
theorem Instance.typed_run (hinst : inst.Sound) (budget : Budget) {f : Nat} {t : FuncType}
    {args : List Value} {store : Store} (htype : inst.source.functionType? f = some t)
    (hargs : args.map Value.type = t.params) (hstore : store.TypedFor inst.source) :
    (inst.run budget f args store).Typed inst t.results := by
  refine Machine.typed_run hinst budget _
    ⟨⟨inst.source, [], []⟩, [], t.results, rfl, rfl, ?_, .done, hstore⟩
  refine Scope.checks_cons.2 ⟨closed t.results.reverse, ?_, Scope.checks_nil.2 rfl⟩
  have hpop : (closed t.params.reverse).popAll t.params = some (closed []) :=
    Operands.popAll_closed.2 ⟨[], by simp⟩
  simp [Machine.start, Scope.instr, htype, hargs, hpop]

end Wasm

end SpiritHost
