import SpiritHost.Proofs.Except
import SpiritHost.Wasm.Typing

/-!
# A judgement for running code

The checker follows code that may never be reached, with operands that are open below. Code that
runs has all of its operands at hand (`Operands.closed`), and there the checker comes down to a
judgement with one rule for each instruction (`Scope.Takes`).
-/

namespace SpiritHost.Wasm

namespace Operands

/-- Known operands and nothing below them. -/
def closed (ts : List ValType) : Operands := ⟨ts, false⟩

variable {ts us : List ValType} {t : ValType} {t? : Option ValType} {after : Operands}

@[simp] theorem pushAll_closed : (closed ts).pushAll us = closed (us.reverse ++ ts) := rfl

theorem pushAll_nil : Operands.pushAll ⟨[], false⟩ ts = closed ts.reverse := by
  simp [closed, pushAll]

theorem pop_closed :
    (closed ts).pop t = some after ↔ ∃ rest, ts = t :: rest ∧ after = closed rest := by
  cases ts with
  | nil => simp [closed, pop]
  | cons top rest =>
    by_cases h : top = t
    · simp [closed, pop, h, eq_comm]
    · simp [closed, pop, h]

theorem popAll_closed : (closed ts).popAll us = some after ↔
    ∃ rest, ts = us.reverse ++ rest ∧ after = closed rest := by
  unfold popAll
  induction us.reverse generalizing ts with
  | nil => simp [eq_comm]
  | cons u us ih =>
    simp only [List.foldlM_cons, Option.bind_eq_bind, Option.bind_eq_some_iff, pop_closed]
    constructor
    · rintro ⟨_, ⟨rest, rfl, rfl⟩, h⟩
      obtain ⟨below, rfl, rfl⟩ := ih.1 h
      exact ⟨below, rfl, rfl⟩
    · rintro ⟨below, rfl, rfl⟩
      exact ⟨_, ⟨_, rfl, rfl⟩, ih.2 ⟨below, rfl, rfl⟩⟩

theorem popAny_closed : (closed ts).popAny = some (t?, after) ↔
    ∃ t rest, ts = t :: rest ∧ t? = some t ∧ after = closed rest := by
  cases ts with
  | nil => simp [closed, popAny]
  | cons top rest =>
    simp only [closed, popAny, Option.some.injEq, Prod.mk.injEq, List.cons.injEq]
    constructor
    · rintro ⟨rfl, rfl⟩
      exact ⟨top, rest, ⟨rfl, rfl⟩, rfl, rfl⟩
    · rintro ⟨_, _, ⟨rfl, rfl⟩, rfl, rfl⟩
      exact ⟨rfl, rfl⟩

theorem choose_closed {type : Option ValType} (h : (closed ts).choose type = some after) :
    ∃ t rest, ts = .i32 :: t :: t :: rest ∧ after = closed (t :: rest) := by
  unfold choose at h
  cases type with
  | some t =>
    simp only [Option.bind_eq_bind, Option.bind_eq_some_iff] at h
    obtain ⟨_, hcondition, _, hsecond, _, hfirst, h⟩ := h
    obtain ⟨_, rfl, rfl⟩ := pop_closed.1 hcondition
    obtain ⟨_, rfl, rfl⟩ := pop_closed.1 hsecond
    obtain ⟨rest, rfl, rfl⟩ := pop_closed.1 hfirst
    cases h
    exact ⟨t, rest, rfl, rfl⟩
  | none =>
    simp only [Option.bind_eq_bind, Option.bind_eq_some_iff] at h
    obtain ⟨_, hcondition, ⟨second?, _⟩, hsecond, ⟨first?, _⟩, hfirst, h⟩ := h
    obtain ⟨_, rfl, rfl⟩ := pop_closed.1 hcondition
    obtain ⟨t, _, rfl, rfl, rfl⟩ := popAny_closed.1 hsecond
    obtain ⟨u, rest, rfl, rfl, rfl⟩ := popAny_closed.1 hfirst
    rw [Option.some_or] at h
    obtain ⟨⟨-, -, hsame⟩, hafter⟩ := Option.ite_none_right_eq_some.1 h
    obtain rfl : t = u := by simpa using hsame
    cases hafter
    exact ⟨t, rest, rfl, rfl⟩

theorem exactly_closed : (closed ts).exactly us = some () ↔ ts = us.reverse := by
  simp only [exactly, Option.bind_eq_bind, Option.bind_eq_some_iff, popAll_closed]
  constructor
  · rintro ⟨_, ⟨rest, rfl, rfl⟩, h⟩
    obtain ⟨hrest, -⟩ := Option.ite_none_right_eq_some.1 h
    obtain rfl : rest = [] := hrest
    rw [List.append_nil]
  · rintro rfl
    exact ⟨closed [], ⟨[], by simp, rfl⟩, rfl⟩

end Operands

open Operands (closed)

namespace Scope

/-- Code takes operands to results of the given types, or never comes to its end. -/
def Checks (s : Scope) (labels : List (List ValType)) (code : List Instr) (stack : Operands)
    (results : List ValType) : Prop :=
  ∃ after, s.sequence labels stack code = some after ∧ after.exactly results = some ()

variable {s : Scope} {labels : List (List ValType)} {ts results : List ValType} {after : Operands}

theorem checks_nil : s.Checks labels [] (closed ts) results ↔ ts = results.reverse := by
  simp [Checks, sequence, Operands.exactly_closed]

theorem checks_cons {i : Instr} {rest : List Instr} {stack : Operands} :
    s.Checks labels (i :: rest) stack results ↔
      ∃ after, s.instr labels stack i = some after ∧ s.Checks labels rest after results := by
  simp only [Checks, sequence, Option.bind_eq_bind, Option.bind_eq_some_iff]
  constructor
  · rintro ⟨_, ⟨after, hfirst, hrest⟩, hend⟩
    exact ⟨after, hfirst, _, hrest, hend⟩
  · rintro ⟨after, hfirst, _, hrest, hend⟩
    exact ⟨_, ⟨after, hfirst, hrest⟩, hend⟩

/-- What an instruction makes of operands that are all known, topmost first. After a jump there may
be anything. -/
inductive Takes (s : Scope) (labels : List (List ValType)) :
    Instr → List ValType → Operands → Prop where
  | unreachable {ts : List ValType} {after : Operands} : Takes s labels .unreachable ts after
  | nop {ts : List ValType} : Takes s labels .nop ts (closed ts)
  | block {bt : BlockType} {t : FuncType} {body : List Instr} {ts : List ValType}
      (type : s.source.blockType? bt = some t)
      (body_checks : s.Checks (t.results :: labels) body (closed t.params.reverse) t.results) :
      Takes s labels (.block bt body) (t.params.reverse ++ ts) (closed (t.results.reverse ++ ts))
  /-- A branch to a loop carries the loop's parameters. -/
  | loop {bt : BlockType} {t : FuncType} {body : List Instr} {ts : List ValType}
      (type : s.source.blockType? bt = some t)
      (body_checks : s.Checks (t.params :: labels) body (closed t.params.reverse) t.results) :
      Takes s labels (.loop bt body) (t.params.reverse ++ ts) (closed (t.results.reverse ++ ts))
  | ifElse {bt : BlockType} {t : FuncType} {whenTrue whenFalse : List Instr} {ts : List ValType}
      (type : s.source.blockType? bt = some t)
      (first : s.Checks (t.results :: labels) whenTrue (closed t.params.reverse) t.results)
      (second : s.Checks (t.results :: labels) whenFalse (closed t.params.reverse) t.results) :
      Takes s labels (.ifElse bt whenTrue whenFalse) (.i32 :: (t.params.reverse ++ ts))
        (closed (t.results.reverse ++ ts))
  | br {label : Nat} {carried ts : List ValType} {after : Operands}
      (target : labels[label]? = some carried) :
      Takes s labels (.br label) (carried.reverse ++ ts) after
  | brIf {label : Nat} {carried ts : List ValType} (target : labels[label]? = some carried) :
      Takes s labels (.brIf label) (.i32 :: (carried.reverse ++ ts))
        (closed (carried.reverse ++ ts))
  | brTable {targets : List Nat} {otherwise : Nat} {ts : List ValType} {after : Operands}
      (each : ∀ label ∈ otherwise :: targets, ∃ carried rest,
        labels[label]? = some carried ∧ ts = carried.reverse ++ rest) :
      Takes s labels (.brTable targets otherwise) (.i32 :: ts) after
  | ret {ts : List ValType} {after : Operands} :
      Takes s labels .ret (s.results.reverse ++ ts) after
  | call {f : Nat} {t : FuncType} {ts : List ValType}
      (type : s.source.functionType? f = some t) :
      Takes s labels (.call f) (t.params.reverse ++ ts) (closed (t.results.reverse ++ ts))
  | callIndirect {table type : Nat} {t : FuncType} {ts : List ValType}
      (expected : s.source.types[type]? = some t) :
      Takes s labels (.callIndirect table type) (.i32 :: (t.params.reverse ++ ts))
        (closed (t.results.reverse ++ ts))
  | drop {t : ValType} {ts : List ValType} : Takes s labels .drop (t :: ts) (closed ts)
  | select {t : ValType} {type : Option ValType} {ts : List ValType} :
      Takes s labels (.select type) (.i32 :: t :: t :: ts) (closed (t :: ts))
  | localGet {i : Nat} {t : ValType} {ts : List ValType} (type : s.locals[i]? = some t) :
      Takes s labels (.localGet i) ts (closed (t :: ts))
  | localSet {i : Nat} {t : ValType} {ts : List ValType} (type : s.locals[i]? = some t) :
      Takes s labels (.localSet i) (t :: ts) (closed ts)
  | localTee {i : Nat} {t : ValType} {ts : List ValType} (type : s.locals[i]? = some t) :
      Takes s labels (.localTee i) (t :: ts) (closed (t :: ts))
  | globalGet {i : Nat} {g : GlobalType} {ts : List ValType}
      (type : s.source.globalTypes[i]? = some g) :
      Takes s labels (.globalGet i) ts (closed (g.value :: ts))
  | globalSet {i : Nat} {g : GlobalType} {ts : List ValType}
      (type : s.source.globalTypes[i]? = some g) :
      Takes s labels (.globalSet i) (g.value :: ts) (closed ts)
  | load {op : LoadOp} {arg : MemArg} {ts : List ValType} :
      Takes s labels (.load op arg) (.i32 :: ts) (closed (op.type.valType :: ts))
  | store {op : StoreOp} {arg : MemArg} {ts : List ValType} :
      Takes s labels (.store op arg) (op.type.valType :: .i32 :: ts) (closed ts)
  | memorySize {memory : Nat} {ts : List ValType} :
      Takes s labels (.memorySize memory) ts (closed (.i32 :: ts))
  | memoryGrow {memory : Nat} {ts : List ValType} :
      Takes s labels (.memoryGrow memory) (.i32 :: ts) (closed (.i32 :: ts))
  | const {value : Value} {ts : List ValType} :
      Takes s labels (.const value) ts (closed (value.type :: ts))
  | refIsNull {t : RefType} {ts : List ValType} :
      Takes s labels .refIsNull (.ref t :: ts) (closed (.i32 :: ts))
  | unary {op : UnaryOp} {ts : List ValType} :
      Takes s labels (.unary op) (op.signature.1 :: ts) (closed (op.signature.2 :: ts))
  | binary {op : BinaryOp} {ts : List ValType} :
      Takes s labels (.binary op) (op.signature.1 :: op.signature.1 :: ts)
        (closed (op.signature.2 :: ts))

/-- **Checking.** Where all operands are known, the checker goes by the judgement. -/
theorem takes_of_instr {i : Instr} (h : s.instr labels (closed ts) i = some after) :
    s.Takes labels i ts after := by
  cases i <;>
    simp only [instr, Option.bind_eq_bind, Option.bind_eq_some_iff, Operands.pop_closed,
      Operands.popAll_closed, Operands.pushAll_nil, Option.some.injEq] at h
  case unreachable => exact .unreachable
  case nop =>
    subst h
    exact .nop
  case block =>
    obtain ⟨t, htype, _, ⟨rest, rfl, rfl⟩, inner, hinner, _, hend, rfl⟩ := h
    exact .block htype ⟨inner, hinner, hend⟩
  case loop =>
    obtain ⟨t, htype, _, ⟨rest, rfl, rfl⟩, inner, hinner, _, hend, rfl⟩ := h
    exact .loop htype ⟨inner, hinner, hend⟩
  case ifElse =>
    obtain ⟨t, htype, _, ⟨_, rfl, rfl⟩, h⟩ := h
    simp only [Operands.popAll_closed] at h
    obtain ⟨_, ⟨rest, rfl, rfl⟩, first, hfirst, _, hend, second, hsecond, _, hend', rfl⟩ := h
    exact .ifElse htype ⟨first, hfirst, hend⟩ ⟨second, hsecond, hend'⟩
  case br =>
    obtain ⟨carried, htarget, _, ⟨rest, rfl, rfl⟩, rfl⟩ := h
    exact .br htarget
  case brIf =>
    obtain ⟨carried, htarget, _, ⟨_, rfl, rfl⟩, h⟩ := h
    simp only [Operands.popAll_closed] at h
    obtain ⟨_, ⟨rest, rfl, rfl⟩, rfl⟩ := h
    exact .brIf htarget
  case brTable =>
    obtain ⟨carried, hotherwise, _, ⟨rest, rfl, rfl⟩, _, htargets, _, hpop, rfl⟩ := h
    obtain ⟨below, hbelow, -⟩ := Operands.popAll_closed.1 hpop
    refine .brTable fun label hlabel => ?_
    rcases List.mem_cons.1 hlabel with rfl | hlabel
    · exact ⟨carried, below, hotherwise, hbelow⟩
    · have htarget := Option.forM_eq_some_iff.1 htargets label hlabel
      obtain ⟨other, hother, htarget⟩ := Option.bind_eq_some_iff.1 htarget
      obtain ⟨-, htarget⟩ := Option.ite_none_right_eq_some.1 htarget
      obtain ⟨_, hpop, -⟩ := Option.bind_eq_some_iff.1 htarget
      obtain ⟨below, hbelow, -⟩ := Operands.popAll_closed.1 hpop
      exact ⟨other, below, hother, hbelow⟩
  case ret =>
    obtain ⟨_, ⟨rest, rfl, rfl⟩, rfl⟩ := h
    exact .ret
  case call =>
    obtain ⟨t, htype, _, ⟨rest, rfl, rfl⟩, rfl⟩ := h
    exact .call htype
  case callIndirect =>
    obtain ⟨tableType, -, h⟩ := h
    split at h
    · cases h
    · simp only [Option.bind_eq_some_iff, Operands.pop_closed] at h
      obtain ⟨t, htype, _, ⟨_, rfl, rfl⟩, h⟩ := h
      simp only [Operands.popAll_closed] at h
      obtain ⟨_, ⟨rest, rfl, rfl⟩, h⟩ := h
      cases h
      exact .callIndirect htype
  case drop =>
    obtain ⟨⟨t?, _⟩, hpop, rfl⟩ := h
    obtain ⟨t, rest, rfl, -, rfl⟩ := Operands.popAny_closed.1 hpop
    exact .drop
  case select =>
    obtain ⟨t, rest, rfl, rfl⟩ := Operands.choose_closed h
    exact .select
  case localGet =>
    obtain ⟨t, htype, rfl⟩ := h
    exact .localGet htype
  case localSet =>
    obtain ⟨t, htype, rest, rfl, rfl⟩ := h
    exact .localSet htype
  case localTee =>
    obtain ⟨t, htype, _, ⟨rest, rfl, rfl⟩, rfl⟩ := h
    exact .localTee htype
  case globalGet =>
    obtain ⟨g, htype, rfl⟩ := h
    exact .globalGet htype
  case globalSet =>
    obtain ⟨g, htype, h⟩ := h
    obtain ⟨-, h⟩ := Option.ite_none_right_eq_some.1 h
    obtain ⟨rest, rfl, rfl⟩ := Operands.pop_closed.1 h
    exact .globalSet htype
  case load =>
    obtain ⟨_, -, _, ⟨rest, rfl, rfl⟩, rfl⟩ := h
    exact .load
  case store =>
    obtain ⟨_, -, _, ⟨_, rfl, rfl⟩, h⟩ := h
    obtain ⟨rest, rfl, rfl⟩ := Operands.pop_closed.1 h
    exact .store
  case memorySize =>
    obtain ⟨_, -, rfl⟩ := h
    exact .memorySize
  case memoryGrow =>
    obtain ⟨_, -, _, ⟨rest, rfl, rfl⟩, rfl⟩ := h
    exact .memoryGrow
  case const =>
    subst h
    exact .const
  case refIsNull =>
    obtain ⟨⟨t?, _⟩, hpop, h⟩ := h
    obtain ⟨t, rest, rfl, rfl, rfl⟩ := Operands.popAny_closed.1 hpop
    cases t with
    | ref t =>
      cases h
      exact .refIsNull
    | _ => cases h
  case unary =>
    obtain ⟨_, ⟨rest, rfl, rfl⟩, rfl⟩ := h
    exact .unary
  case binary =>
    obtain ⟨_, ⟨_, rfl, rfl⟩, h⟩ := h
    simp only [Operands.pop_closed] at h
    obtain ⟨_, ⟨rest, rfl, rfl⟩, rfl⟩ := h
    exact .binary

end Scope

end SpiritHost.Wasm
