import SpiritHost.Proofs.Memory.Moves

/-!
# Histories

A history is the list of moments of a run, each with what happened and the state afterwards. What a
single move keeps, a history keeps between any two of its moments: regions of one generation come
one after the other, the cursor falls only with a reset, and no page is lost.
-/

namespace SpiritHost

/-- An event with the state that it left. -/
structure Moment (σ : Type) where
  event : Event
  state : σ

/-- The moment as seen through a part of the state. -/
def Moment.map {σ τ : Type} (f : σ → τ) (m : Moment σ) : Moment τ := ⟨m.event, f m.state⟩

/-- The event took every region back. -/
def Moment.isReset {σ : Type} (m : Moment σ) : Bool := m.event = .reset

/-- Each moment of a history comes from the state before it by a move. -/
def Chained {σ : Type} (moves : σ → Event → σ → Prop) : σ → List (Moment σ) → Prop
  | _, [] => True
  | s, m :: rest => moves s m.event m.state ∧ Chained moves m.state rest

/-- The state after a history. -/
def ending {σ : Type} : σ → List (Moment σ) → σ
  | s, [] => s
  | _, m :: rest => ending m.state rest

section

variable {σ τ : Type} {moves : σ → Event → σ → Prop} {moves' : τ → Event → τ → Prop}

theorem ending_append : ∀ (s : σ) (xs ys : List (Moment σ)),
    ending s (xs ++ ys) = ending (ending s xs) ys
  | _, [], _ => rfl
  | _, m :: xs, ys => ending_append m.state xs ys

theorem chained_append : ∀ {s : σ} {xs ys : List (Moment σ)},
    Chained moves s (xs ++ ys) ↔ Chained moves s xs ∧ Chained moves (ending s xs) ys
  | _, [], _ => by simp [Chained, ending]
  | _, m :: xs, ys => by
    simp only [List.cons_append, Chained, ending, chained_append (s := m.state), and_assoc]

theorem ending_map (f : σ → τ) : ∀ (s : σ) (ms : List (Moment σ)),
    ending (f s) (ms.map (Moment.map f)) = f (ending s ms)
  | _, [] => rfl
  | _, m :: ms => ending_map f m.state ms

/-- A history seen through a part of the state is a history of that part. -/
theorem Chained.map (f : σ → τ) (hf : ∀ s e t, moves s e t → moves' (f s) e (f t)) :
    ∀ {s : σ} {ms : List (Moment σ)}, Chained moves s ms →
      Chained moves' (f s) (ms.map (Moment.map f))
  | _, [], _ => trivial
  | _, m :: _, h => ⟨hf _ _ _ h.1, Chained.map f hf (s := m.state) h.2⟩

end

/-! ## Allocators -/

namespace Allocator

/-- An allocator later in its life: the base stays, and the cursor falls only with a reset. -/
structure Precedes (a b : Allocator) : Prop where
  base : b.base = a.base
  generation : a.generation ≤ b.generation
  cursor : b.generation = a.generation → a.cursor.toNat ≤ b.cursor.toNat

variable {a b c : Allocator} {e : Event} {ms : List (Moment Allocator)}

theorem Precedes.trans (hab : a.Precedes b) (hbc : b.Precedes c) : a.Precedes c := by
  refine ⟨hbc.base.trans hab.base, Nat.le_trans hab.generation hbc.generation, fun h => ?_⟩
  have h₁ := hab.generation
  have h₂ := hbc.generation
  exact Nat.le_trans (hab.cursor (by omega)) (hbc.cursor (by omega))

theorem Moves.precedes (h : a.Moves e b) : a.Precedes b := by
  cases h with
  | @issued _ r place finish base generation =>
    refine ⟨base, Nat.le_of_eq generation.symm, fun _ => ?_⟩
    have := a.cursor_le_place r.align
    rw [finish, Region.finish, place]
    omega
  | reset => exact ⟨rfl, Nat.le_succ _, fun h => absurd h (by simp [Allocator.reset])⟩
  | other => exact ⟨rfl, Nat.le_refl _, fun _ => Nat.le_refl _⟩

theorem Moves.le_issued {r : Region} (h : a.Moves (.issued r) b) :
    a.cursor.toNat ≤ r.address.toNat ∧ 2 ^ Nat.clog 2 r.align.toNat ∣ r.address.toNat ∧
      b.cursor.toNat = r.finish := by
  cases h with
  | issued place finish => exact ⟨place ▸ a.cursor_le_place _, place ▸ a.dvd_place _, finish⟩

theorem Moves.generation_eq (h : a.Moves e b) :
    b.generation = a.generation + if e = .reset then 1 else 0 := by
  cases h with
  | issued _ _ _ generation => simpa using generation
  | reset => simp [Allocator.reset]
  | other => simp

theorem precedes_of_chained : ∀ {a : Allocator} {ms : List (Moment Allocator)},
    Chained Moves a ms → ∀ m ∈ ms, a.Precedes m.state
  | _, [], _, m, hm => by simp at hm
  | a, m₀ :: ms, h, m, hm => by
    rcases List.mem_cons.1 hm with rfl | hm
    · exact h.1.precedes
    · exact h.1.precedes.trans (precedes_of_chained h.2 m hm)

/-- Between two resets a region lies behind every earlier cursor. -/
theorem cursor_le_of_chained : ∀ {a : Allocator} {ms : List (Moment Allocator)},
    Chained Moves a ms → ∀ m ∈ ms, m.state.generation = a.generation →
      ∀ r ∈ m.event.region?, a.cursor.toNat ≤ r.address.toNat
  | _, [], _, m, hm, _, _, _ => by simp at hm
  | a, ⟨e, s⟩ :: ms, h, m, hm, hgen, r, hr => by
    rcases List.mem_cons.1 hm with rfl | hm
    · cases e <;> simp only [Event.region?, Option.mem_def, Option.some.injEq, reduceCtorEq] at hr
      subst hr
      exact h.1.le_issued.1
    · have hfirst := h.1.precedes
      have hlater := precedes_of_chained h.2 m hm
      have h₁ := hfirst.generation
      have h₂ := hlater.generation
      dsimp only at h₁ h₂
      exact Nat.le_trans (hfirst.cursor (by dsimp only; omega))
        (cursor_le_of_chained h.2 m hm (by dsimp only; omega) r hr)

/-- **Issue order.** Of two regions of one generation the later lies behind the earlier. -/
theorem pairwise_regions : ∀ {a : Allocator} {ms : List (Moment Allocator)}, Chained Moves a ms →
    ms.Pairwise fun m n => m.state.generation = n.state.generation →
      ∀ r ∈ m.event.region?, ∀ q ∈ n.event.region?, r.finish ≤ q.address.toNat
  | _, [], _ => .nil
  | a, ⟨e, s⟩ :: ms, h => by
    refine .cons (fun n hn hgen r hr q hq => ?_) (pairwise_regions h.2)
    cases e <;> simp only [Event.region?, Option.mem_def, Option.some.injEq, reduceCtorEq] at hr
    subst hr
    rw [← h.1.le_issued.2.2]
    exact cursor_le_of_chained h.2 n hn hgen.symm q hq

/-- Between two resets the cursor never falls. -/
theorem pairwise_precedes : ∀ {a : Allocator} {ms : List (Moment Allocator)}, Chained Moves a ms →
    ms.Pairwise fun m n => m.state.Precedes n.state
  | _, [], _ => .nil
  | _, _ :: _, h => .cons (precedes_of_chained h.2) (pairwise_precedes h.2)

/-- The cursor is never below the base. -/
def Sound (a : Allocator) : Prop := a.base.toNat ≤ a.cursor.toNat

theorem sound_new (base : UInt32) : (new base).Sound := Nat.le_refl _

theorem Moves.sound (h : a.Moves e b) (ha : a.Sound) : b.Sound := by
  cases h with
  | @issued _ r place finish base _ =>
    have := a.cursor_le_place r.align
    unfold Sound at ha ⊢
    rw [base, finish, Region.finish, place]
    omega
  | reset => exact Nat.le_refl _
  | other => exact ha

/-- Every region lies at or above the base, and where its alignment asks for. -/
theorem issued_of_chained : ∀ {a : Allocator} {ms : List (Moment Allocator)}, a.Sound →
    Chained Moves a ms → ∀ m ∈ ms, ∀ r ∈ m.event.region?,
      a.base.toNat ≤ r.address.toNat ∧ 2 ^ Nat.clog 2 r.align.toNat ∣ r.address.toNat
  | _, [], _, _, m, hm, _, _ => by simp at hm
  | a, ⟨e, s⟩ :: ms, ha, h, m, hm, r, hr => by
    rcases List.mem_cons.1 hm with rfl | hm
    · cases e <;> simp only [Event.region?, Option.mem_def, Option.some.injEq, reduceCtorEq] at hr
      subst hr
      have hissued := h.1.le_issued
      exact ⟨Nat.le_trans ha hissued.1, hissued.2.1⟩
    · rw [← h.1.precedes.base]
      exact issued_of_chained (h.1.sound ha) h.2 m hm r hr

/-- The generation counts the resets. -/
theorem generation_ending : ∀ {a : Allocator} {ms : List (Moment Allocator)}, Chained Moves a ms →
    (ending a ms).generation = a.generation + ms.countP (·.isReset)
  | _, [], _ => rfl
  | a, m :: ms, h => by
    rw [ending, generation_ending h.2, h.1.generation_eq, List.countP_cons, Moment.isReset]
    by_cases hreset : m.event = .reset
    · simp [hreset]; omega
    · simp [hreset]

theorem generation_of_chained {before after : List (Moment Allocator)} {m : Moment Allocator}
    (h : Chained Moves a (before ++ m :: after)) :
    m.state.generation = a.generation + (before ++ [m]).countP (·.isReset) := by
  rw [List.append_cons, chained_append] at h
  rw [← generation_ending h.1, ending_append]
  rfl

/-- Without a reset the generation stays. -/
theorem generation_eq_of_quiet : ∀ {a : Allocator} {ms : List (Moment Allocator)},
    Chained Moves a ms → (∀ m ∈ ms, m.isReset = false) →
      ∀ m ∈ ms, m.state.generation = a.generation
  | _, [], _, _, m, hm => by simp at hm
  | a, m₀ :: ms, h, hquiet, m, hm => by
    have hfirst : m₀.state.generation = a.generation := by
      have hevent : m₀.event ≠ .reset := by
        simpa [Moment.isReset] using hquiet m₀ List.mem_cons_self
      rw [h.1.generation_eq, if_neg hevent, Nat.add_zero]
    rcases List.mem_cons.1 hm with rfl | hm
    · exact hfirst
    · rw [← hfirst]
      exact generation_eq_of_quiet h.2 (fun n hn => hquiet n (List.mem_cons_of_mem _ hn)) m hm

end Allocator

/-! ## Memories -/

namespace Heap

theorem extends_of_chained : ∀ {h : Heap} {ms : List (Moment Heap)}, Chained Moves h ms →
    ∀ m ∈ ms, h.memory.Extends m.state.memory
  | _, [], _, m, hm => by simp at hm
  | _, _ :: ms, h, m, hm => by
    rcases List.mem_cons.1 hm with rfl | hm
    · exact h.1.memory
    · exact h.1.memory.trans (extends_of_chained h.2 m hm)

/-- No page is lost in a history. -/
theorem extends_ending : ∀ {h : Heap} {ms : List (Moment Heap)}, Chained Moves h ms →
    h.memory.Extends (ending h ms).memory
  | h, [], _ => .refl h.memory
  | _, _ :: _, hms => hms.1.memory.trans (extends_ending hms.2)

theorem pairwise_extends : ∀ {h : Heap} {ms : List (Moment Heap)}, Chained Moves h ms →
    ms.Pairwise fun m n => m.state.memory.Extends n.state.memory
  | _, [], _ => .nil
  | _, _ :: _, h => .cons (extends_of_chained h.2) (pairwise_extends h.2)

/-- Every region lies inside the memory when it is issued. -/
theorem inside_of_chained : ∀ {h : Heap} {ms : List (Moment Heap)}, Chained Moves h ms →
    ∀ m ∈ ms, ∀ r ∈ m.event.region?, r.finish ≤ m.state.memory.size
  | _, [], _, m, hm, _, _ => by simp at hm
  | _, _ :: ms, h, m, hm, r, hr => by
    rcases List.mem_cons.1 hm with rfl | hm
    · exact h.1.inside r hr
    · exact inside_of_chained h.2 m hm r hr

/-- The allocator's part of a heap's history. -/
theorem chained_allocator {h : Heap} {ms : List (Moment Heap)} (hms : Chained Moves h ms) :
    Chained Allocator.Moves h.allocator (ms.map (Moment.map Heap.allocator)) :=
  hms.map _ fun _ _ _ hmove => hmove.allocator

/-- The regions that a history issues, in order. -/
def regions (ms : List (Moment Heap)) : List Region := ms.filterMap (·.event.region?)

theorem regions_append (ms ns : List (Moment Heap)) :
    regions (ms ++ ns) = regions ms ++ regions ns :=
  List.filterMap_append

/-- Without a reset every region lies behind all earlier ones. -/
theorem pairwise_regions_of_quiet {h : Heap} {ms : List (Moment Heap)} (hms : Chained Moves h ms)
    (hquiet : ∀ m ∈ ms, m.isReset = false) :
    (regions ms).Pairwise fun r q => r.finish ≤ q.address.toNat := by
  have hchained := chained_allocator hms
  have hgeneration : ∀ m ∈ ms, m.state.allocator.generation = h.allocator.generation := by
    intro m hm
    refine Allocator.generation_eq_of_quiet hchained (fun n hn => ?_) (m.map Heap.allocator)
      (List.mem_map_of_mem hm)
    obtain ⟨x, hx, rfl⟩ := List.mem_map.1 hn
    exact hquiet x hx
  have hordered := List.pairwise_map.1 (Allocator.pairwise_regions hchained)
  refine List.pairwise_filterMap.2 (hordered.imp_of_mem fun hm hn hmn r hr q hq => ?_)
  exact hmn ((hgeneration _ hm).trans (hgeneration _ hn).symm) r hr q hq

end Heap

end SpiritHost
