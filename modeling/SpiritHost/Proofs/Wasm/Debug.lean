import SpiritHost.Proofs.Loa.Debug
import SpiritHost.Proofs.Spirit.Capabilities
import SpiritHost.Proofs.Wasm.Trace

/-!
# Debug output of running code

Code that is linked against the built-in Loa with and without debug output. A step that calls no
function of the Loa does not depend on what the store is set up with; one that does is left to
`Loa.offer_twins`. `Machine.run_twins`: as long as the calls of a run are tame, the run with debug
output and the run without it stay twins, and end alike.
-/

namespace SpiritHost.Wasm

/-- The names that a module imports functions under, in the order of the functions. -/
def Module.importNames (m : Module) : List String :=
  (m.imports.filterMap functionImport?).map (·.1.name)

/-- A module is linked against the built-in Loa twice, with and without debug output. -/
structure Instance.Twins (b b' : Bool) (inst inst' : Instance) : Prop where
  source : inst'.source = inst.source
  memories : inst'.memories = inst.memories
  /-- What is imported is a function of the Loa. -/
  imports : ∀ {f : Nat} {name : String}, inst.source.importNames[f]? = some name →
    inst.functions[f]? = some (.host (Loa.offer b name)) ∧
      inst'.functions[f]? = some (.host (Loa.offer b' name))
  /-- Every other function is the module's own. -/
  own : ∀ {f : Nat}, inst.source.importNames[f]? = none →
    inst'.functions[f]? = inst.functions[f]? ∧
      ∀ function : HostFunction, inst.functions[f]? ≠ some (.host function)

namespace Machine

variable (m : Machine) (inst : Instance) (budget : Budget)

/-- The index of the function that the next step calls, with the operands it takes its arguments
from. -/
def called? : Option (Nat × List Value) :=
  match m.code, m.operands with
  | .call f :: _, operands => some (f, operands)
  | .callIndirect table type :: _, .i32 i :: operands =>
    match m.store.tables[table]?, inst.source.types[type]? with
    | some t, some expected =>
      if t.size ≤ i.toNat then none
      else match t.function? i.toNat with
        | none => none
        | some f =>
          if inst.functions[f]?.map Callee.type = some expected then some (f, operands) else none
    | _, _ => none
  | _, _ => none

/-- The call of an imported function that the next step makes. -/
def importCall? : Option ImportCall := do
  let (f, operands) ← m.called? inst
  let name ← inst.source.importNames[f]?
  let callee ← inst.functions[f]?
  return ⟨name, (operands.take callee.type.params.length).reverse, m.store⟩

/-- The calls of imported functions in a run of at most so many steps. -/
def importCalls (steps : Nat) (m : Machine) : List ImportCall :=
  (visited inst budget steps m).filterMap (importCall? · inst)

/-- The function called is the one of its index. -/
theorem callee?_eq : m.callee? inst =
    (m.called? inst).bind fun (f, operands) => inst.functions[f]?.map (·, operands) := by
  fun_cases m.called? inst with
  | case4 table type rest i operands hoperands hcode t expected htype htable hin f hplace hf =>
    obtain ⟨callee, hcallee, hsame⟩ := Option.map_eq_some_iff.1 hf
    simp [callee?, hcode, hoperands, htable, htype, hin, hplace, hcallee, hsame]
  | case5 table type rest i operands hoperands hcode t expected htype htable hin f hplace hf =>
    cases hcallee : inst.functions[f]? with
    | none => simp [callee?, hcode, hoperands, htable, htype, hin, hplace, hcallee]
    | some callee =>
      have hother : callee.type ≠ expected := by simpa [hcallee] using hf
      simp [callee?, hcode, hoperands, htable, htype, hin, hplace, hcallee, hother]
  | _ => simp_all [callee?]

end Machine

namespace Instance.Twins

variable {b b' : Bool} {inst inst' : Instance} {f : Nat}

theorem symm (h : inst.Twins b b' inst') : inst'.Twins b' b inst := by
  refine ⟨h.source.symm, h.memories.symm, ?_, ?_⟩
  · intro f name hname
    rw [h.source] at hname
    exact (h.imports hname).symm
  · intro f hname
    rw [h.source] at hname
    obtain ⟨hsame, hown⟩ := h.own hname
    refine ⟨hsame.symm, ?_⟩
    rw [hsame]
    exact hown

theorem left (h : inst.Twins b b' inst') : inst.Twins b b inst :=
  ⟨rfl, rfl, fun hname => ⟨(h.imports hname).1, (h.imports hname).1⟩,
    fun hname => ⟨rfl, (h.own hname).2⟩⟩

theorem types (h : inst.Twins b b' inst') (f : Nat) :
    inst'.functions[f]?.map Callee.type = inst.functions[f]?.map Callee.type := by
  cases hname : inst.source.importNames[f]? with
  | none => rw [(h.own hname).1]
  | some name =>
    rw [(h.imports hname).1, (h.imports hname).2]
    exact congrArg some (Loa.type_offer b' b name)

theorem functions_none (h : inst.Twins b b' inst') (hf : inst.functions[f]? = none) :
    inst'.functions[f]? = none := by
  have htypes := h.types f
  rw [hf] at htypes
  exact Option.map_eq_none_iff.1 htypes

theorem functions_some (h : inst.Twins b b' inst') {callee : Callee}
    (hf : inst.functions[f]? = some callee) :
    ∃ other, inst'.functions[f]? = some other ∧ other.type = callee.type := by
  have htypes := h.types f
  rw [hf] at htypes
  exact Option.map_eq_some_iff.1 htypes

end Instance.Twins

/-! ## Steps without calls -/

/-- The machine on its store set up otherwise. -/
def Machine.recast (m : Machine) (x : Setting) : Machine := { m with store := m.store.recast x }

/-- What a step leads to, on the store set up otherwise. -/
def Step.recast (x : Setting) : Step → Step
  | running m => running (m.recast x)
  | finished results store => finished results (store.recast x)
  | halted halt store => halted halt (store.recast x)

namespace Machine

variable {m : Machine} {inst inst' : Instance} {budget : Budget} {b b' : Bool}

@[simp] theorem locals_recast (m : Machine) (x : Setting) : (m.recast x).locals = m.locals := rfl

@[simp] theorem globals_recast (m : Machine) (x : Setting) :
    (m.recast x).store.globals = m.store.globals := rfl

@[simp] theorem tables_recast (m : Machine) (x : Setting) :
    (m.recast x).store.tables = m.store.tables := rfl

@[simp] theorem memory_recast (m : Machine) (x : Setting) (address : Nat) :
    (m.recast x).store.memory address = m.store.memory address := rfl

theorem unwind_recast (m : Machine) (x : Setting) : ∀ contexts : List Context,
    (m.recast x).unwind contexts = (m.unwind contexts).recast x
  | [] => rfl
  | .label .. :: outer => unwind_recast m x outer
  | .frame .. :: _ => rfl

theorem branch_recast (m : Machine) (x : Setting) : ∀ (n : Nat) (contexts : List Context),
    (m.recast x).branch n contexts = (m.branch n contexts).recast x
  | 0, [] | _ + 1, [] => rfl
  | 0, .label .. :: _ => rfl
  | 0, .frame .. :: _ => unwind_recast m x m.contexts
  | n + 1, .label .. :: outer => branch_recast m x n outer
  | _ + 1, .frame .. :: _ => rfl

theorem leave_recast (m : Machine) (x : Setting) : (m.recast x).leave = m.leave.recast x := by
  obtain ⟨code, operands, locals, contexts, stack, store⟩ := m
  rcases contexts with _ | ⟨_ | _, outer⟩
  · rfl
  · rfl
  · exact unwind_recast ⟨code, operands, locals, _, stack, store⟩ x _

theorem result_recast (m : Machine) (x : Setting) (rest : List Instr) (operands : List Value)
    (r : Option (Except Trap Value)) :
    (m.recast x).result rest operands r = (m.result rest operands r).recast x := by
  rcases r with _ | _ | _ <;> rfl

theorem reach?_eq (hmemories : inst'.memories = inst.memories) : reach? inst' = reach? inst := by
  unfold reach?
  rw [hmemories]

/-- A load reads the place that it reaches. -/
theorem load_of_reach {arg : MemArg} {base : UInt32} {memory address : Nat}
    (h : reach? inst arg base = some (memory, address)) (op : LoadOp) (rest : List Instr)
    (operands : List Value) :
    m.instr inst budget rest (.load op arg) (.i32 base :: operands) =
      ((m.store.memory memory).read? address op.extent.bytes).elim (m.trap .memoryOutOfBounds)
        fun bytes => m.next rest (op.value bytes :: operands) := by
  -- Reading has a name here: unfolded, it makes the kernel count the bytes of a page.
  obtain ⟨read, hread⟩ : ∃ read, read = LinearMemory.read? := ⟨_, rfl⟩
  rw [instr, h, ← hread]
  dsimp only
  cases read (m.store.memory memory) address op.extent.bytes <;> rfl

theorem storeBytes_recast (hmemories : inst'.memories = inst.memories) (m : Machine) (x : Setting)
    (arg : MemArg) (base : UInt32) (bytes : Bytes) (rest : List Instr) (operands : List Value) :
    (m.recast x).storeBytes inst' arg base bytes rest operands =
      (m.storeBytes inst arg base bytes rest operands).recast x := by
  unfold storeBytes
  rw [reach?_eq hmemories]
  cases reach? inst arg base with
  | none => rfl
  | some place =>
    obtain ⟨memory, address⟩ := place
    have hmemory : (m.recast x).store.memory memory = m.store.memory memory := rfl
    dsimp only
    rw [hmemory]
    cases (m.store.memory memory).write? address bytes with
    | none => rfl
    | some written => rfl

/-- **One instruction** that calls no function does not depend on what the store is set up with, nor
on what the host's functions do. -/
theorem instr_recast (hinst : inst.Twins b b' inst') (x : Setting) {rest : List Instr} {i : Instr}
    (hcode : m.code = i :: rest) (h : m.callee? inst = none) :
    (m.recast x).instr inst' budget rest i m.operands =
      (m.instr inst budget rest i m.operands).recast x := by
  generalize hoperands : m.operands = operands
  fun_cases m.instr inst budget rest i operands
  -- What the instruction reads is the same of both stores, and it decides the case.
  all_goals first
    | rfl
    | exact result_recast ..
    | exact unwind_recast { m with operands := _ } x _
    | exact branch_recast { m with operands := _ } x _ _
    | exact storeBytes_recast hinst.memories ..
    | simp only [instr, hinst.source, locals_recast, globals_recast, tables_recast, *]; rfl
    | skip
  -- A branch that is taken, calls, and what reads a memory are left.
  · rename_i hc
    simp only [instr, if_neg hc]
    exact branch_recast { m with operands := _ } x _ _
  · rename_i hfound
    simp [callee?, hcode, hfound] at h
  · rename_i hfound
    simp only [instr, hinst.functions_none hfound]
    rfl
  · rename_i htable hsize f hplace found hfound htype
    simp [callee?, hcode, hoperands, htable, htype, hsize, hplace, hfound] at h
  · rename_i htype htable hsize f hplace found hfound hother
    obtain ⟨other, hfound', hsame⟩ := hinst.functions_some hfound
    simp only [instr, tables_recast, hinst.source, htable, htype, if_neg hsize, hplace, hfound', hsame,
      if_neg hother]
    rfl
  · rename_i htype htable hsize f hplace hfound
    simp only [instr, tables_recast, hinst.source, htable, htype, if_neg hsize, hplace,
      hinst.functions_none hfound]
    rfl
  · rename_i hreach
    simp only [instr, reach?_eq hinst.memories, hreach]
    rfl
  · rename_i hreach hread
    rw [← reach?_eq hinst.memories] at hreach
    rw [load_of_reach hreach, memory_recast, hread]
    rfl
  · rename_i hreach bytes hread
    rw [← reach?_eq hinst.memories] at hreach
    rw [load_of_reach hreach, memory_recast, hread]
    rfl
  · rename_i hbytes
    simp only [instr, hbytes]
    exact storeBytes_recast hinst.memories ..
  · rename_i hmemory
    rw [instr, hinst.memories]
    split
    · rename_i hsome
      cases hmemory.symm.trans hsome
      rw [memory_recast]
      rfl
    · rename_i hnone
      cases hmemory.symm.trans hnone
  · rename_i hmemory
    simp only [instr, hinst.memories, hmemory]
    rfl
  · rename_i hmemory old grown hgrow
    dsimp only [old] at hgrow
    simp only [instr, memory_recast, hinst.memories, hmemory, hgrow]
    rfl
  · rename_i hmemory old hgrow
    dsimp only [old] at hgrow
    simp only [instr, memory_recast, hinst.memories, hmemory, hgrow]
    rfl
  · rename_i hmemory
    simp only [instr, hinst.memories, hmemory]
    rfl

theorem called?_recast (hinst : inst.Twins b b' inst') (m : Machine) (x : Setting) :
    (m.recast x).called? inst' = m.called? inst := by
  unfold called?
  simp only [hinst.source, hinst.types, tables_recast]
  rfl

theorem called?_of_callee? {callee : Callee} {operands : List Value}
    (h : m.callee? inst = some (callee, operands)) :
    ∃ f, m.called? inst = some (f, operands) ∧ inst.functions[f]? = some callee := by
  rw [callee?_eq] at h
  obtain ⟨⟨f, operands'⟩, hcalled, h⟩ := Option.bind_eq_some_iff.1 h
  obtain ⟨found, hfound, hpair⟩ := Option.map_eq_some_iff.1 h
  cases hpair
  exact ⟨f, hcalled, hfound⟩

theorem callee?_of_called? {callee : Callee} {operands : List Value} {f : Nat}
    (hcalled : m.called? inst = some (f, operands)) (hfound : inst.functions[f]? = some callee) :
    m.callee? inst = some (callee, operands) := by
  rw [callee?_eq, hcalled, Option.bind_some]
  exact congrArg (Option.map (·, operands)) hfound

/-- A call that is not one of an import is one of the module's own functions. -/
theorem callee?_of_own (hinst : inst.Twins b b' inst') {callee : Callee} {operands : List Value}
    (h : m.importCall? inst = none) (hcallee : m.callee? inst = some (callee, operands)) (x : Setting) :
    (m.recast x).callee? inst' = some (callee, operands) ∧
      ∃ type code size, callee = .code type code size := by
  obtain ⟨f, hcalled, hfound⟩ := called?_of_callee? hcallee
  cases hname : inst.source.importNames[f]? with
  | some name => simp [importCall?, hcalled, hname, hfound] at h
  | none =>
    obtain ⟨hsame, hown⟩ := hinst.own hname
    refine ⟨callee?_of_called? ((called?_recast hinst m x).trans hcalled) (hsame.trans hfound), ?_⟩
    cases callee with
    | host function => exact absurd hfound (hown function)
    | code type code size => exact ⟨type, code, size, rfl⟩

theorem invoke_recast (m : Machine) (x : Setting) (type : FuncType) (code : Code) (size : Nat)
    (rest : List Instr) (operands : List Value) :
    (m.recast x).invoke budget (.code type code size) rest operands =
      (m.invoke budget (.code type code size) rest operands).recast x := by
  have hstack : (m.recast x).stack = m.stack := rfl
  unfold invoke
  dsimp only
  rw [hstack]
  split <;> rfl

/-- **One step** that calls no import. -/
theorem step_recast (hinst : inst.Twins b b' inst') (m : Machine) (x : Setting)
    (h : m.importCall? inst = none) :
    (m.recast x).step inst' budget = (m.step inst budget).recast x := by
  cases hcallee : m.callee? inst with
  | none =>
    have hsame : (m.recast x).code = m.code := rfl
    unfold step
    rw [hsame]
    cases hcode : m.code with
    | nil => exact leave_recast m x
    | cons i rest => exact instr_recast hinst x hcode hcallee
  | some called =>
    obtain ⟨callee, operands⟩ := called
    obtain ⟨hcallee', type, code, size, rfl⟩ := callee?_of_own hinst h hcallee x
    rw [step_of_callee _ _ _ hcallee, step_of_callee _ _ _ hcallee']
    exact invoke_recast m x type code size _ operands

end Machine

/-! ## Twins -/

/-- Two steps lead to the same, on twins. -/
inductive Step.Twins (b b' : Bool) : Step → Step → Prop
  | running {m : Machine} {t : Store} (h : m.store.Twins b b' t) :
      Twins b b' (.running m) (.running { m with store := t })
  | finished {results : List Value} {s t : Store} (h : s.Twins b b' t) :
      Twins b b' (.finished results s) (.finished results t)
  | halted {halt : Halt} {s t : Store} (h : s.Twins b b' t) :
      Twins b b' (.halted halt s) (.halted halt t)

/-- Two runs end alike, on twins. -/
inductive Outcome.Twins (b b' : Bool) : Outcome → Outcome → Prop
  | finished {results : List Value} {s t : Store} (h : s.Twins b b' t) :
      Twins b b' (.finished results s) (.finished results t)
  | halted {halt : Halt} {s t : Store} (h : s.Twins b b' t) :
      Twins b b' (.halted halt s) (.halted halt t)
  | outOfSteps {s t : Store} (h : s.Twins b b' t) : Twins b b' (.outOfSteps s) (.outOfSteps t)

variable {b b' : Bool} {inst inst' : Instance} {budget : Budget} {m : Machine} {s t : Store}

theorem Step.store_recast (p : Step) (x : Setting) : (p.recast x).store = p.store.recast x := by
  cases p <;> rfl

/-- Steps that differ in the setting at most are twins. -/
theorem Step.twins_of_recast {p q : Step} (hsame : ∀ x, p.recast x = q.recast x)
    (hquiet : b = false → p.store.Quiet) (hquiet' : b' = false → q.store.Quiet) :
    p.Twins b b' q := by
  have hstore : p.store.Twins b b' q.store := by
    refine ⟨fun x => ?_, hquiet, hquiet'⟩
    rw [← p.store_recast, ← q.store_recast, hsame]
  have hsame := hsame p.store.setting
  cases p with
  | running m =>
    cases q with
    | running m' =>
      obtain ⟨code, operands, locals, contexts, stack, s⟩ := m
      obtain ⟨code', operands', locals', contexts', stack', t⟩ := m'
      simp only [recast, Machine.recast, running.injEq, Machine.mk.injEq] at hsame
      obtain ⟨rfl, rfl, rfl, rfl, rfl, -⟩ := hsame
      exact .running hstore
    | finished | halted => cases hsame
  | finished results s =>
    cases q with
    | finished =>
      simp only [recast, finished.injEq] at hsame
      obtain ⟨rfl, -⟩ := hsame
      exact .finished hstore
    | running | halted => cases hsame
  | halted halt s =>
    cases q with
    | halted =>
      simp only [recast, halted.injEq] at hsame
      obtain ⟨rfl, -⟩ := hsame
      exact .halted hstore
    | running | finished => cases hsame

namespace Machine

/-- A step that calls no import leaves no debug output. -/
theorem quiet_step (hinst : inst.Twins b b inst) (hm : m.store.Quiet)
    (h : m.importCall? inst = none) : (m.step inst budget).store.Quiet := by
  have hsame : m.recast m.store.setting = m :=
    congrArg (fun s => { m with store := s }) (Store.recast_setting hm)
  have hstep : (m.recast m.store.setting).step inst budget = _ := step_recast hinst m _ h
  rw [hsame] at hstep
  refine Store.quiet_of_recast (x := m.store.setting) ?_
  rw [← Step.store_recast, ← hstep]

theorem recast_of_twins (h : m.store.Twins b b' t) (x : Setting) :
    m.recast x = recast { m with store := t } x :=
  congrArg (fun s => { m with store := s }) (h.same x)

theorem called?_twins (hinst : inst.Twins b b' inst') (h : m.store.Twins b b' t) :
    called? { m with store := t } inst' = m.called? inst := by
  rw [← called?_recast hinst.symm.left _ m.store.setting, ← recast_of_twins h, called?_recast hinst]

/-- Twins call the same imports. -/
theorem importCall?_twins (hinst : inst.Twins b b' inst') (h : m.store.Twins b b' t) :
    importCall? { m with store := t } inst' =
      (m.importCall? inst).map fun c => { c with store := t } := by
  unfold importCall?
  rw [called?_twins hinst h, hinst.source]
  cases m.called? inst with
  | none => rfl
  | some called =>
    obtain ⟨f, operands⟩ := called
    cases hname : inst.source.importNames[f]? with
    | none => simp [hname]
    | some name =>
      obtain ⟨hfound, hfound'⟩ := hinst.imports hname
      simp [hname, hfound, hfound', Callee.type, Loa.type_offer b' b]

/-- A step that calls an import calls that function of the Loa. -/
theorem step_of_importCall (budget : Budget) (hinst : inst.Twins b b' inst') {c : ImportCall}
    (h : m.importCall? inst = some c) : ∃ f name operands,
      m.called? inst = some (f, operands) ∧ inst.source.importNames[f]? = some name ∧
        c = ⟨name, (operands.take (Loa.offer b name).type.params.length).reverse, m.store⟩ ∧
        m.step inst budget = m.invoke budget (.host (Loa.offer b name)) m.code.tail operands := by
  obtain ⟨⟨f, operands⟩, hcalled, h⟩ := Option.bind_eq_some_iff.1 h
  obtain ⟨name, hname, h⟩ := Option.bind_eq_some_iff.1 h
  obtain ⟨callee, hfound, h⟩ := Option.bind_eq_some_iff.1 h
  cases h
  have hcallee : callee = .host (Loa.offer b name) :=
    Option.some.inj (hfound.symm.trans (hinst.imports hname).1)
  subst hcallee
  exact ⟨f, name, operands, hcalled, hname, rfl,
    step_of_callee m inst budget (callee?_of_called? hcalled hfound)⟩

theorem invoke_twins (h : m.store.Twins b b' t) {name : String} {operands : List Value}
    (htame : ImportCall.Tame
      ⟨name, (operands.take (Loa.offer b name).type.params.length).reverse, m.store⟩)
    (rest : List Instr) :
    (m.invoke budget (.host (Loa.offer b name)) rest operands).Twins b b'
      (invoke { m with store := t } budget (.host (Loa.offer b' name)) rest operands) := by
  have hcall := Loa.offer_twins htame h
  unfold invoke
  simp only [Callee.type, Loa.type_offer b' b]
  generalize ((Loa.offer b name).call _).run m.store = r at hcall ⊢
  generalize ((Loa.offer b' name).call _).run t = r' at hcall ⊢
  cases hcall with
  | mk result hstore =>
    cases result with
    | ok results => exact .running hstore
    | error failure => exact .halted hstore

/-- **One step.** Where a call of an import is tame, a step leads to the same with and without debug
output. -/
theorem step_twins (hinst : inst.Twins b b' inst') (h : m.store.Twins b b' t)
    (htame : ∀ c, m.importCall? inst = some c → c.Tame) :
    (m.step inst budget).Twins b b' (step { m with store := t } inst' budget) := by
  have hcalls := importCall?_twins hinst h
  cases hcall : m.importCall? inst with
  | none =>
    rw [hcall] at hcalls
    refine Step.twins_of_recast (fun x => ?_) (fun hb => ?_) fun hb => ?_
    · rw [← step_recast hinst m x hcall, ← step_recast hinst.symm.left _ x hcalls, recast_of_twins h]
    · exact quiet_step hinst.left (h.quiet hb) hcall
    · exact quiet_step hinst.symm.left (h.quiet' hb) hcalls
  | some c =>
    have htame := htame c hcall
    obtain ⟨f, name, operands, hcalled, hname, rfl, hstep⟩ := step_of_importCall budget hinst hcall
    have hcalled' := (called?_twins hinst h).trans hcalled
    have hcallee' := callee?_of_called? hcalled' (hinst.imports hname).2
    rw [hstep, step_of_callee _ _ _ hcallee']
    exact invoke_twins h htame _

/-- **Runs.** As long as the calls of imports are tame, twins run alike and end alike. -/
theorem run_twins (hinst : inst.Twins b b' inst') : ∀ (steps : Nat) {m : Machine} {t : Store},
    m.store.Twins b b' t → (∀ c ∈ importCalls inst budget steps m, c.Tame) →
      (run inst budget steps m).Twins b b' (run inst' budget steps { m with store := t })
  | 0, _, _, h, _ => .outOfSteps h
  | steps + 1, m, t, h, htame => by
    have hstep : (m.step inst budget).Twins b b' (step { m with store := t } inst' budget) :=
      step_twins hinst h fun c hc => htame c (List.mem_filterMap.2 ⟨m, List.mem_cons_self, hc⟩)
    rw [run, run]
    cases hnext : m.step inst budget with
    | running next =>
      have hrest : ∀ c ∈ importCalls inst budget steps next, c.Tame := by
        intro c hc
        obtain ⟨y, hy, hc⟩ := List.mem_filterMap.1 hc
        refine htame c (List.mem_filterMap.2 ⟨y, ?_, hc⟩)
        rw [visited, hnext]
        exact List.mem_cons_of_mem _ hy
      rw [hnext] at hstep
      generalize step { m with store := t } inst' budget = q at hstep
      cases hstep with
      | running hnext => exact run_twins hinst steps hnext hrest
    | finished results store =>
      rw [hnext] at hstep
      generalize step { m with store := t } inst' budget = q at hstep
      cases hstep with
      | finished h => exact .finished h
    | halted halt store =>
      rw [hnext] at hstep
      generalize step { m with store := t } inst' budget = q at hstep
      cases hstep with
      | halted h => exact .halted h

end Machine

end SpiritHost.Wasm
