import SpiritHost.Loa.Basic
import SpiritHost.Proofs.Except
import SpiritHost.Proofs.Loa.History
import SpiritHost.Proofs.Lookup
import SpiritHost.Proofs.Memory.Bytes

/-!
# Debug output

Whether debug output is passed on is a matter of the log alone. Two stores are twins if they differ at
most in the debug flag, the clock, the state of the random numbers and the lines of debug output
(`Store.Twins`). A function of the built-in Loa does the same to twins, unless it is asked for the time
or for a random number, or is to pass on a text that is not there (`Loa.offer_twins`).
-/

namespace SpiritHost

open Wasm (Value)

/-- The line is one of debug output. -/
def LogLine.isDebug : LogLine → Bool
  | debug _ => true
  | _ => false

/-- The lines that are no debug output. -/
def withoutDebug (lines : List LogLine) : List LogLine := lines.filter (!·.isDebug)

/-! ## Twins -/

/-- What a store is set up with that is neither memory nor state. -/
structure Setting where
  debug : Bool
  clock : UInt64
  entropy : UInt64

namespace Store

/-- What the store is set up with. -/
def setting (s : Store) : Setting := ⟨s.debug, s.clock, s.entropy⟩

/-- The store set up otherwise, without the lines of debug output. -/
def recast (s : Store) (x : Setting) : Store :=
  { s with
    debug := x.debug
    clock := x.clock
    entropy := x.entropy
    log := s.log.filter (!·.isDebug) }

/-- There is no debug output in the log. -/
def Quiet (s : Store) : Prop := ∀ line ∈ s.log, line.isDebug = false

/-- Two stores differ at most in what they are set up with and in debug output, of which there is none
without the flag. -/
structure Twins (b b' : Bool) (s t : Store) : Prop where
  same : ∀ x, s.recast x = t.recast x
  quiet : b = false → s.Quiet
  quiet' : b' = false → t.Quiet

/-- The same result, on twins. -/
inductive SameResult {α : Type} (b b' : Bool) : α × Store → α × Store → Prop
  | mk (result : α) {s t : Store} (h : s.Twins b b' t) : SameResult b b' (result, s) (result, t)

variable {b b' : Bool} {s t : Store}

theorem quiet_iff : s.Quiet ↔ s.log.filter (!·.isDebug) = s.log := by
  rw [Array.filter_eq_self]
  simp [Quiet]

/-- Without debug output nothing is left out. -/
theorem recast_setting (hs : s.Quiet) : s.recast s.setting = s := by
  unfold recast
  rw [quiet_iff.1 hs]
  rfl

theorem quiet_of_recast {x : Setting} (h : s.recast x = s) : s.Quiet :=
  quiet_iff.2 (congrArg Store.log h)

/-- What does not depend on the setting or the log is the same of twins. -/
theorem Twins.congr {α : Type} (h : s.Twins b b' t) (f : Store → α)
    (hf : ∀ u x, f (recast u x) = f u) : f t = f s := by
  rw [← hf t s.setting, ← h.same, hf]

/-- What does not depend on the setting makes twins of twins. -/
theorem Twins.map (h : s.Twins b b' t) (f : Store → Store)
    (hf : ∀ u x, f (recast u x) = (f u).recast x) : (f s).Twins b b' (f t) := by
  have hquiet : ∀ u : Store, u.Quiet → (f u).Quiet := by
    intro u hu
    refine quiet_of_recast (x := u.setting) ?_
    rw [← hf, recast_setting hu]
  refine ⟨fun x => ?_, fun hb => hquiet s (h.quiet hb), fun hb => hquiet t (h.quiet' hb)⟩
  rw [← hf, ← hf, h.same]

/-- The same for what gives a result. -/
theorem Twins.result {α : Type} (h : s.Twins b b' t) (f : Store → α × Store)
    (hf : ∀ u x, f (recast u x) = ((f u).1, (f u).2.recast x)) : SameResult b b' (f s) (f t) := by
  have hresult := h.congr (fun u => (f u).1) fun u x => by rw [hf]
  have hstore := h.map (fun u => (f u).2) fun u x => by rw [hf]
  rw [← Prod.eta (f t), hresult]
  exact .mk _ hstore

/-- The same for what may fail. -/
theorem Twins.agrees {ε : Type} (h : s.Twins b b' t) (f : Store → Except ε Store)
    (hf : ∀ u x, f (recast u x) = (f u).map (recast · x)) :
    Except.Agrees (Twins b b') (f s) (f t) := by
  have hquiet : ∀ u v : Store, u.Quiet → f u = .ok v → v.Quiet := by
    intro u v hu hv
    have hsame := hf u u.setting
    rw [recast_setting hu, hv] at hsame
    exact quiet_of_recast (Except.ok.inj hsame).symm
  have hsame : ∀ x, (f s).map (recast · x) = (f t).map (recast · x) := by
    intro x
    rw [← hf, ← hf, h.same]
  cases hs : f s with
  | error e =>
    cases ht : f t with
    | error e' =>
      have he := hsame s.setting
      rw [hs, ht] at he
      cases he
      exact .error e
    | ok v =>
      have he := hsame s.setting
      rw [hs, ht] at he
      cases he
  | ok u =>
    cases ht : f t with
    | error e =>
      have he := hsame s.setting
      rw [hs, ht] at he
      cases he
    | ok v =>
      refine .ok ⟨fun x => ?_, fun hb => hquiet s u (h.quiet hb) hs,
        fun hb => hquiet t v (h.quiet' hb) ht⟩
      have he := hsame x
      rw [hs, ht] at he
      exact Except.ok.inj he

theorem Twins.memories (h : s.Twins b b' t) : t.memories = s.memories :=
  h.congr (·.memories) fun _ _ => rfl

theorem Twins.allocator (h : s.Twins b b' t) : t.allocator = s.allocator :=
  h.congr (·.allocator) fun _ _ => rfl

theorem Twins.replaced (h : s.Twins b b' t) : t.replaced = s.replaced :=
  h.congr (·.replaced) fun _ _ => rfl

theorem Twins.callerHeap (h : s.Twins b b' t) : t.callerHeap = s.callerHeap :=
  h.congr (·.callerHeap) fun _ _ => rfl

theorem Twins.heapAt (h : s.Twins b b' t) (address : Nat) : t.heapAt address = s.heapAt address :=
  h.congr (·.heapAt address) fun _ _ => rfl

theorem Twins.log (h : s.Twins b b' t) : withoutDebug t.log.toList = withoutDebug s.log.toList := by
  have hlog := congrArg (fun u : Store => u.log.toList) (h.same s.setting)
  simpa [recast, withoutDebug] using hlog.symm

theorem onHeapAt_recast {α : Type} (x : Setting) (address : Nat) (result : Except Error (α × Heap)) :
    (s.recast x).onHeapAt address result =
      ((s.onHeapAt address result).1, (s.onHeapAt address result).2.recast x) := by
  cases result <;> rfl

theorem onHeap_recast {α : Type} (x : Setting) (request : Heap → Except Error (α × Heap)) :
    (s.recast x).onHeap request = ((s.onHeap request).1, (s.onHeap request).2.recast x) := by
  have haddress : (s.recast x).recordAddress = s.recordAddress := rfl
  rw [onHeap, onHeap, haddress]
  cases s.recordAddress with
  | error e => rfl
  | ok address => exact onHeapAt_recast x address _

theorem recast_push {line : LogLine} (x : Setting) (hline : line.isDebug = false) :
    ({ s with log := s.log.push line } : Store).recast x =
      { s.recast x with log := (s.recast x).log.push line } := by
  have hfilter : (s.log.push line).filter (!·.isDebug) = (s.log.filter (!·.isDebug)).push line :=
    Array.filter_push_of_pos (by rw [hline]; rfl) (Array.size_push line)
  unfold recast
  rw [hfilter]

theorem recast_push_debug (x : Setting) (text : String) :
    ({ s with log := s.log.push (.debug text) } : Store).recast x = s.recast x := by
  have hfilter : (s.log.push (.debug text)).filter (!·.isDebug) = s.log.filter (!·.isDebug) :=
    Array.filter_push_of_neg Bool.false_ne_true (Array.size_push _)
  unfold recast
  rw [hfilter]

theorem plant_recast (x : Setting) (kind : String) :
    (s.recast x).plant kind = (s.plant kind).recast x := by
  unfold plant
  rw [recast]
  split <;> rfl

end Store

/-! ## Host calls -/

namespace HostCall

variable {α β : Type}

/-- The call asks for nothing that a store is set up with, and leaves no debug output. -/
def Blind : HostCall α → Prop
  | done _ | fail _ => True
  | alloc _ _ next | encodeString _ next => ∀ r, (next r).Blind
  | readBytes _ _ next => ∀ r, (next r).Blind
  | writeBytes _ _ next | reset next => ∀ r, (next r).Blind
  | decodeString _ next => ∀ r, (next r).Blind
  | inspect next => ∀ r, (next r).Blind
  | getState next => ∀ r, (next r).Blind
  | setState _ next | plant _ next => next.Blind
  | debugFlag _ | now _ | random _ => False
  | log line next => line.isDebug = false ∧ next.Blind

theorem Blind.bind : ∀ {c : HostCall α} {next : α → HostCall β}, c.Blind → (∀ a, (next a).Blind) →
    (c.bind next).Blind := by
  intro c next hc hnext
  induction c with
  | done result => exact hnext result
  | fail => trivial
  | alloc _ _ k ih | encodeString _ k ih | readBytes _ _ k ih | writeBytes _ _ k ih | reset k ih
  | decodeString _ k ih | inspect k ih | getState k ih => exact fun r => ih r (hc r)
  | setState _ k ih | plant _ k ih => exact ih hc
  | debugFlag | now | random => exact hc.elim
  | log line k ih => exact ⟨hc.1, ih hc.2⟩

theorem blind_orFail (r : Except Error α) : (orFail r).Blind := by
  cases r <;> trivial

theorem blind_text (address len : UInt32) : (text address len).Blind :=
  Blind.bind (c := readBytes address len orFail) blind_orFail fun _ => trivial

theorem blind_write {line : LogLine} (h : line.isDebug = false) : (write line).Blind := ⟨h, trivial⟩

/-- **Blind calls.** What a store is set up with changes nothing about such a call. -/
theorem Blind.run_recast {c : HostCall α} : c.Blind → ∀ (s : Store) (x : Setting),
    c.run (s.recast x) = ((c.run s).1, (c.run s).2.recast x) := by
  intro hc
  induction c with
  | done | fail => exact fun _ _ => rfl
  | alloc _ _ next ih | encodeString _ next ih | writeBytes _ _ next ih | reset next ih =>
    intro s x
    simp only [run, Store.onHeap_recast]
    exact ih _ (hc _) _ x
  | readBytes _ _ next ih | decodeString _ next ih | inspect next ih | getState next ih =>
    exact fun s x => ih _ (hc _) s x
  | setState state next ih => exact fun s x => ih hc { s with loaState := state } x
  | plant kind next ih =>
    intro s x
    simp only [run, Store.plant_recast]
    exact ih hc _ x
  | debugFlag | now | random => exact hc.elim
  | log line next ih =>
    exact fun s x => (congrArg next.run (Store.recast_push x hc.1).symm).trans (ih hc.2 _ x)

variable {b b' : Bool} {s t : Store}

/-- Such a call does the same to twins. -/
theorem Blind.run_twins {c : HostCall α} (hc : c.Blind) (h : s.Twins b b' t) :
    Store.SameResult b b' (c.run s) (c.run t) := h.result c.run hc.run_recast

end HostCall

/-! ## The built-in Loa -/

namespace Loa

/-- The functions of the built-in Loa, with or without debug output. -/
def offered (isOn : Bool) : List (String × HostFunction) := [
  ("vudo_print", print),
  ("vudo_alloc", alloc),
  ("vudo_now", now),
  ("vudo_random", random),
  ("vudo_emit_effect", emitEffect),
  ("vudo_debug", debug isOn),
  ("vudo_abort", abort)]

/-- The function of a name, and of any other name one that nothing can be asked of. -/
def offer (isOn : Bool) (name : String) : HostFunction :=
  ((offered isOn).lookup name).getD ⟨⟨[], []⟩, fun _ => wrongArguments⟩

/-- The functions have their types with and without debug output. -/
theorem lookup_offered (isOn isOn' : Bool) (name : String) :
    ((offered isOn).lookup name).map (·.type) = ((offered isOn').lookup name).map (·.type) := by
  simp only [offered, lookup_cons_if]
  split_ifs <;> rfl

theorem type_offer (isOn isOn' : Bool) (name : String) :
    (offer isOn name).type = (offer isOn' name).type := by
  rw [offer, offer, ← Option.getD_map HostFunction.type, ← Option.getD_map HostFunction.type,
    lookup_offered isOn isOn']

theorem blind_print (args : List Value) : (print.call args).Blind := by
  unfold print
  dsimp only
  split
  · exact (HostCall.blind_text _ _).bind fun _ => (HostCall.blind_write rfl).bind fun _ => trivial
  · trivial

theorem blind_alloc (args : List Value) : (alloc.call args).Blind := by
  unfold alloc
  dsimp only
  split
  · exact HostCall.Blind.bind (c := HostCall.region _) HostCall.blind_orFail fun _ => trivial
  · trivial

theorem blind_emitEffect (args : List Value) : (emitEffect.call args).Blind := by
  unfold emitEffect
  dsimp only
  split
  · exact (HostCall.blind_write rfl).bind fun _ => trivial
  · trivial

theorem blind_abort (args : List Value) : (abort.call args).Blind := by
  unfold abort
  dsimp only
  split
  · exact (HostCall.blind_text _ _).bind fun _ => (HostCall.blind_text _ _).bind fun _ =>
      (HostCall.blind_write rfl).bind fun _ => trivial
  · trivial

/-- All functions but three are the same with and without debug output, and ask for nothing that a
store is set up with. -/
theorem offer_cases (name : String) :
    (∃ f, (∀ isOn, offer isOn name = f) ∧ ∀ args, (f.call args).Blind) ∨
      name = "vudo_now" ∨ name = "vudo_random" ∨
        name = "vudo_debug" ∧ ∀ isOn, offer isOn name = debug isOn := by
  by_cases hprint : name = "vudo_print"
  · exact .inl ⟨print, fun _ => by rw [hprint]; rfl, blind_print⟩
  by_cases halloc : name = "vudo_alloc"
  · exact .inl ⟨alloc, fun _ => by rw [halloc]; rfl, blind_alloc⟩
  by_cases hnow : name = "vudo_now"
  · exact .inr (.inl hnow)
  by_cases hrandom : name = "vudo_random"
  · exact .inr (.inr (.inl hrandom))
  by_cases heffect : name = "vudo_emit_effect"
  · exact .inl ⟨emitEffect, fun _ => by rw [heffect]; rfl, blind_emitEffect⟩
  by_cases hdebug : name = "vudo_debug"
  · exact .inr (.inr (.inr ⟨hdebug, fun _ => by rw [hdebug]; rfl⟩))
  by_cases habort : name = "vudo_abort"
  · exact .inl ⟨abort, fun _ => by rw [habort]; rfl, blind_abort⟩
  · refine .inl ⟨⟨⟨[], []⟩, fun _ => wrongArguments⟩, fun isOn => ?_, fun _ => trivial⟩
    simp [offer, offered, lookup_cons_if, hprint, halloc, hnow, hrandom, heffect, hdebug, habort]

/-- Debug output that names a range of the memory of record leaves a line, or nothing. -/
theorem run_debug {s : Store} {h : Heap} {address len : UInt32} (isOn : Bool)
    (hheap : s.callerHeap = .ok h) (hhas : h.Has address len) :
    ((debug isOn).call [.i32 address, .i32 len]).run s =
      (.ok [], if isOn then { s with log := s.log.push (.debug (h.lossyText address len)) } else s) := by
  cases isOn with
  | false => rfl
  | true =>
    simp only [debug, HostCall.text, HostCall.write, Bind.bind, Pure.pure, HostCall.bind,
      HostCall.run, hheap, Except.bind, Heap.readBytes_of_has hhas, if_pos, HostCall.orFail]
    rfl

end Loa

/-! ## Calls of imports -/

/-- A call of an imported function: its name, its arguments, and the store that it is made on. -/
structure ImportCall where
  name : String
  args : List Value
  store : Store

namespace ImportCall

/-- The arguments name a range that is inside the memory of record at that moment. -/
def namesRange (c : ImportCall) : Bool :=
  match c.args, c.store.callerHeap with
  | [.i32 address, .i32 len], .ok h => address.toNat + len.toNat ≤ h.memory.size
  | _, _ => false

/-- The call asks neither for the time nor for a random number, and debug output names a range that is
inside the memory of record. -/
structure Tame (c : ImportCall) : Prop where
  time : c.name ≠ "vudo_now"
  chance : c.name ≠ "vudo_random"
  inside : c.name = "vudo_debug" → c.namesRange = true

instance (c : ImportCall) : Decidable c.Tame :=
  decidable_of_iff
    (c.name ≠ "vudo_now" ∧ c.name ≠ "vudo_random" ∧ (c.name = "vudo_debug" → c.namesRange = true))
    ⟨fun h => ⟨h.1, h.2.1, h.2.2⟩, fun h => ⟨h.time, h.chance, h.inside⟩⟩

theorem exists_of_namesRange {c : ImportCall} (h : c.namesRange = true) : ∃ k address len,
    c.args = [.i32 address, .i32 len] ∧ c.store.callerHeap = .ok k ∧ k.Has address len := by
  unfold namesRange at h
  split at h
  · rename_i address len k hargs hheap
    exact ⟨k, address, len, hargs, hheap, of_decide_eq_true (p := _ ≤ _) h⟩
  · cases h

end ImportCall

/-- **The built-in Loa.** With and without debug output a function does the same to twins. -/
theorem Loa.offer_twins {b b' : Bool} {name : String} {args : List Value} {s t : Store}
    (htame : ImportCall.Tame ⟨name, args, s⟩) (h : s.Twins b b' t) :
    Store.SameResult b b' (((offer b name).call args).run s) (((offer b' name).call args).run t) := by
  rcases offer_cases name with ⟨f, hf, hblind⟩ | hnow | hrandom | ⟨hdebug, hf⟩
  · rw [hf b, hf b']
    exact (hblind args).run_twins h
  · exact absurd hnow htame.time
  · exact absurd hrandom htame.chance
  · obtain ⟨k, address, len, hargs, hheap, hhas⟩ :=
      ImportCall.exists_of_namesRange (htame.inside hdebug)
    obtain rfl : args = [.i32 address, .i32 len] := hargs
    rw [hf b, hf b', run_debug b hheap hhas, run_debug b' (h.callerHeap.trans hheap) hhas]
    have hline : ∀ (isOn : Bool) (u : Store) (x : Setting), (if isOn then
        { u with log := u.log.push (.debug (k.lossyText address len)) } else u).recast x =
          u.recast x := by
      intro isOn u x
      cases isOn with
      | false => rfl
      | true => exact Store.recast_push_debug x _
    refine .mk _ ⟨fun x => ?_, fun hb => ?_, fun hb => ?_⟩
    · rw [hline, hline, h.same]
    · rw [hb]
      exact h.quiet hb
    · rw [hb]
      exact h.quiet' hb

end SpiritHost
