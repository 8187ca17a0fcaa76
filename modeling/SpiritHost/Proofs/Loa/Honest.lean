import SpiritHost.Loa.Registry
import SpiritHost.Proofs.Loa.Merge

/-!
# Honest functions

A host function is honest if it keeps to its type: what it gives for arguments of its parameter
types are values of its result types. The built-in Loa has honest functions only, and linking
gathers no others if all Loas provide honest ones. Host calls leave a module's variables alone.
-/

namespace SpiritHost

open Wasm (Value)

/-- Results of the function are of its result types, for arguments of its parameter types and
whatever store it works on. -/
def HostFunction.Honest (f : HostFunction) : Prop :=
  ∀ {args results : List Value} {s t : Store}, args.map Value.type = f.type.params →
    (f.call args).run s = (.ok results, t) → results.map Value.type = f.type.results

/-- The functions that the Loa provides are honest, whatever store it is asked on. -/
def Loa.Honest (loa : Loa) : Prop :=
  ∀ {provided : List (String × HostFunction)} {s t : Store},
    loa.provides.run s = (.ok provided, t) → ∀ p ∈ provided, p.2.Honest

/-! ## Host calls -/

theorem Store.globals_onHeap {α : Type} (s : Store)
    (request : Heap → Except Error (α × Heap)) : (s.onHeap request).2.globals = s.globals := by
  unfold onHeap
  split
  · unfold onHeapAt
    split <;> rfl
  · rfl

theorem Store.globals_plant (s : Store) (kind : String) : (s.plant kind).globals = s.globals := by
  unfold plant
  split <;> rfl

namespace HostCall

variable {α β : Type} {P : α → Prop} {Q : β → Prop}

/-- No host call changes a module's variables. -/
theorem globals_run (c : HostCall α) : ∀ s : Store, (c.run s).2.globals = s.globals := by
  induction c with
  | done | fail => exact fun _ => rfl
  | alloc _ _ next ih | encodeString _ next ih | writeBytes _ _ next ih | reset next ih =>
    intro s
    simp only [run, ih, Store.globals_onHeap]
  | readBytes _ _ next ih | decodeString _ next ih | inspect next ih | getState next ih
  | debugFlag next ih | now next ih => exact fun s => ih _ s
  | setState _ next ih | log _ next ih => exact fun s => ih _
  | plant kind next ih => exact fun s => (ih _).trans (s.globals_plant kind)
  | random next ih => exact fun s => ih _ _

/-- Whatever answers the call gets, what it ends in satisfies a condition, if it does not fail. -/
def Gives (P : α → Prop) : HostCall α → Prop
  | done result => P result
  | fail _ => True
  | alloc _ _ next | encodeString _ next => ∀ r, (next r).Gives P
  | readBytes _ _ next => ∀ r, (next r).Gives P
  | writeBytes _ _ next | reset next => ∀ r, (next r).Gives P
  | decodeString _ next => ∀ r, (next r).Gives P
  | inspect next => ∀ r, (next r).Gives P
  | getState next => ∀ r, (next r).Gives P
  | setState _ next | plant _ next | log _ next => next.Gives P
  | debugFlag next => ∀ r, (next r).Gives P
  | now next | random next => ∀ r, (next r).Gives P

theorem gives_bind {c : HostCall α} {next : α → HostCall β} (h : ∀ a, (next a).Gives Q) :
    (c.bind next).Gives Q := by
  induction c with
  | done result => exact h result
  | fail => trivial
  | alloc _ _ _ ih | encodeString _ _ ih | readBytes _ _ _ ih | writeBytes _ _ _ ih | reset _ ih
  | decodeString _ _ ih | inspect _ ih | getState _ ih | debugFlag _ ih | now _ ih | random _ ih =>
    exact ih
  | setState _ _ ih | plant _ _ ih | log _ _ ih => exact ih

theorem Gives.run {c : HostCall α} (hc : c.Gives P) : ∀ {s t : Store} {a : α},
    c.run s = (.ok a, t) → P a := by
  induction c with
  | done result =>
    intro s t a h
    cases h
    exact hc
  | fail => exact fun h => nomatch h
  | alloc _ _ _ ih | encodeString _ _ ih | readBytes _ _ _ ih | writeBytes _ _ _ ih | reset _ ih
  | decodeString _ _ ih | inspect _ ih | getState _ ih | debugFlag _ ih | now _ ih | random _ ih =>
    exact ih _ (hc _)
  | setState _ _ ih | plant _ _ ih | log _ _ ih => exact ih hc

end HostCall

theorem HostFunction.honest_of_gives {f : HostFunction}
    (h : ∀ args, (f.call args).Gives fun results => results.map Value.type = f.type.results) :
    f.Honest :=
  fun _ hrun => (h _).run hrun

/-! ## The built-in Loa -/

namespace Loa

theorem honest_print : print.Honest := by
  refine HostFunction.honest_of_gives fun args => ?_
  unfold print
  dsimp only
  split
  · exact HostCall.gives_bind fun _ => HostCall.gives_bind fun _ => rfl
  · trivial

theorem honest_alloc : alloc.Honest := by
  refine HostFunction.honest_of_gives fun args => ?_
  unfold alloc
  dsimp only
  split
  · exact HostCall.gives_bind fun _ => rfl
  · trivial

theorem honest_now : now.Honest := by
  refine HostFunction.honest_of_gives fun args => ?_
  exact fun _ => rfl

theorem honest_random : random.Honest := by
  refine HostFunction.honest_of_gives fun args => ?_
  exact fun _ => rfl

theorem honest_emitEffect : emitEffect.Honest := by
  refine HostFunction.honest_of_gives fun args => ?_
  unfold emitEffect
  dsimp only
  split
  · exact HostCall.gives_bind fun _ => rfl
  · trivial

theorem honest_debug (isOn : Bool) : (debug isOn).Honest := by
  refine HostFunction.honest_of_gives fun args => ?_
  unfold debug
  dsimp only
  split
  · cases isOn with
    | true => exact HostCall.gives_bind fun _ => HostCall.gives_bind fun _ => rfl
    | false => rfl
  · trivial

theorem honest_abort : abort.Honest := by
  refine HostFunction.honest_of_gives fun args => ?_
  unfold abort
  dsimp only
  split
  · exact HostCall.gives_bind fun _ => HostCall.gives_bind fun _ => HostCall.gives_bind fun _ =>
      trivial
  · trivial

/-- The built-in Loa is honest. -/
theorem honest_builtin : builtin.Honest := by
  intro provided s t h p hp
  cases h
  simp only [List.mem_cons, List.not_mem_nil, or_false] at hp
  rcases hp with rfl | rfl | rfl | rfl | rfl | rfl | rfl
  · exact honest_print
  · exact honest_alloc
  · exact honest_now
  · exact honest_random
  · exact honest_emitEffect
  · exact honest_debug _
  · exact honest_abort

end Loa

/-! ## Linking -/

namespace Linking

/-- The functions gathered so far are honest. -/
def Honest (l : Linking) : Prop := ∀ name f, l.get? name = some f → f.Honest

variable {l : Linking}

theorem Honest.add (h : l.Honest) (loa name : String) {f : HostFunction} (hf : f.Honest) :
    (l.add loa name f).Honest := by
  intro other g hget
  rw [get?_add] at hget
  split at hget
  · cases hget
    exact hf
  · exact h other g hget

theorem Honest.addAll (loa : String) : ∀ (provided : List (String × HostFunction)) {l : Linking},
    l.Honest → (∀ p ∈ provided, p.2.Honest) → (l.addAll loa provided).Honest
  | [], _, h, _ => h
  | (name, _) :: rest, _, h, hprovided =>
    have ⟨hf, hrest⟩ := List.forall_mem_cons.1 hprovided
    Honest.addAll loa rest (h.add loa name hf) hrest

/-- Honest Loas give an honest namespace. -/
theorem Honest.mergeAll : ∀ {loas : List Loa} {l merged : Linking}, l.Honest →
    (∀ loa ∈ loas, loa.Honest) → mergeAll loas l = (.ok (), merged) → merged.Honest
  | [], _, _, h, _, hmerge => by cases hmerge; exact h
  | loa :: rest, l, merged, h, hloas, hmerge => by
    obtain ⟨hloa, hrest⟩ := List.forall_mem_cons.1 hloas
    rw [Linking.mergeAll] at hmerge
    cases hrun : loa.provides.run l.store with
    | mk result store =>
      cases result with
      | ok provided =>
        rw [merge, hrun] at hmerge
        have hadded : ({ l with store } : Linking).Honest := h
        exact Honest.mergeAll (hadded.addAll loa.name provided (hloa hrun)) hrest hmerge
      | error failure =>
        rw [merge, hrun] at hmerge
        cases hmerge

end Linking

end SpiritHost
