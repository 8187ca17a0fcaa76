import Mathlib.Data.List.Forall2

/-!
# Computations that may fail

How a sequence of computations comes to its result: each step before the last gave one.
-/

namespace Except

variable {ε α β : Type}

theorem bind_eq_ok_iff {x : Except ε α} {f : α → Except ε β} {b : β} :
    x >>= f = .ok b ↔ ∃ a, x = .ok a ∧ f a = .ok b := by
  cases x with
  | error e => exact ⟨nofun, nofun⟩
  | ok a =>
    constructor
    · intro h
      exact ⟨a, rfl, h⟩
    · rintro ⟨_, ha, h⟩
      cases ha
      exact h

theorem bind_eq_error_iff {x : Except ε α} {f : α → Except ε β} {e : ε} :
    x >>= f = .error e ↔ x = .error e ∨ ∃ a, x = .ok a ∧ f a = .error e := by
  cases x with
  | error e' =>
    constructor
    · intro h
      exact .inl (congrArg Except.error (Except.error.inj h))
    · rintro (h | ⟨_, ha, -⟩)
      · exact congrArg Except.error (Except.error.inj h)
      · cases ha
  | ok a =>
    constructor
    · intro h
      exact .inr ⟨a, rfl, h⟩
    · rintro (h | ⟨_, ha, h⟩)
      · cases h
      · cases ha
        exact h

theorem map_eq_ok_iff {x : Except ε α} {f : α → β} {b : β} :
    f <$> x = .ok b ↔ ∃ a, x = .ok a ∧ f a = b := by
  cases x with
  | error e => exact ⟨nofun, nofun⟩
  | ok a =>
    constructor
    · intro h
      exact ⟨a, rfl, Except.ok.inj h⟩
    · rintro ⟨_, ha, h⟩
      cases ha
      exact congrArg Except.ok h

theorem map_eq_error_iff {x : Except ε α} {f : α → β} {e : ε} :
    f <$> x = .error e ↔ x = .error e := by
  cases x with
  | error e' =>
    constructor
    · intro h
      exact congrArg Except.error (Except.error.inj h)
    · intro h
      exact congrArg Except.error (Except.error.inj h)
  | ok a => exact ⟨nofun, nofun⟩

theorem mapError_eq_error_iff {ε' : Type} {x : Except ε α} {f : ε → ε'} {e : ε'} :
    x.mapError f = .error e ↔ ∃ fault, x = .error fault ∧ f fault = e := by
  cases x with
  | error fault =>
    constructor
    · intro h
      exact ⟨fault, rfl, Except.error.inj h⟩
    · rintro ⟨_, hfault, h⟩
      cases hfault
      exact congrArg Except.error h
  | ok a => exact ⟨nofun, nofun⟩

theorem isOk_iff {x : Except ε α} : x.isOk = true ↔ ∃ a, x = .ok a := by
  cases x with
  | error e => exact ⟨nofun, nofun⟩
  | ok a => exact ⟨fun _ => ⟨a, rfl⟩, fun _ => rfl⟩

/-- A list of computations succeeds if each of them does. -/
theorem mapM_eq_ok_iff {f : α → Except ε β} : ∀ {xs : List α} {ys : List β},
    xs.mapM f = .ok ys ↔ List.Forall₂ (fun x y => f x = .ok y) xs ys
  | [], ys => by
    rw [List.mapM_nil, List.forall₂_nil_left_iff]
    exact ⟨fun h => (Except.ok.inj h).symm, fun h => congrArg Except.ok h.symm⟩
  | x :: xs, ys => by
    rw [List.mapM_cons, bind_eq_ok_iff, List.forall₂_cons_left_iff]
    constructor
    · rintro ⟨y, hy, h⟩
      obtain ⟨rest, hrest, h⟩ := bind_eq_ok_iff.1 h
      exact ⟨y, rest, hy, mapM_eq_ok_iff.1 hrest, (Except.ok.inj h).symm⟩
    · rintro ⟨y, rest, hy, hrest, rfl⟩
      exact ⟨y, hy, bind_eq_ok_iff.2 ⟨rest, mapM_eq_ok_iff.2 hrest, rfl⟩⟩

theorem forM_eq_ok_iff {f : α → Except ε Unit} : ∀ {xs : List α},
    xs.forM f = .ok () ↔ ∀ x ∈ xs, f x = .ok ()
  | [] => ⟨fun _ _ hx => absurd hx List.not_mem_nil, fun _ => rfl⟩
  | x :: xs => by
    change (f x >>= fun _ => xs.forM f) = .ok () ↔ _
    rw [bind_eq_ok_iff, List.forall_mem_cons]
    constructor
    · rintro ⟨_, hx, hxs⟩
      exact ⟨hx, forM_eq_ok_iff.1 hxs⟩
    · rintro ⟨hx, hxs⟩
      exact ⟨(), hx, forM_eq_ok_iff.2 hxs⟩

/-- A list of computations that succeeds does so for others that succeed wherever it does. -/
theorem mapM_eq_ok_of_forall {f g : α → Except ε β} : ∀ {xs : List α} {ys : List β},
    xs.mapM f = .ok ys → (∀ x ∈ xs, ∀ y, f x = .ok y → g x = .ok y) → xs.mapM g = .ok ys
  | [], _, h, _ => h
  | x :: xs, _, h, hfg => by
    rw [List.mapM_cons] at h ⊢
    obtain ⟨y, hy, h⟩ := bind_eq_ok_iff.1 h
    obtain ⟨rest, hrest, h⟩ := bind_eq_ok_iff.1 h
    have htail := mapM_eq_ok_of_forall hrest fun z hz => hfg z (List.mem_cons_of_mem _ hz)
    exact bind_eq_ok_iff.2 ⟨y, hfg x List.mem_cons_self y hy, bind_eq_ok_iff.2 ⟨rest, htail, h⟩⟩

theorem mapM_congr {f g : α → Except ε β} : ∀ {xs : List α}, (∀ x ∈ xs, f x = g x) →
    xs.mapM f = xs.mapM g
  | [], _ => rfl
  | x :: xs, h => by
    rw [List.mapM_cons, List.mapM_cons, h x List.mem_cons_self,
      mapM_congr fun y hy => h y (List.mem_cons_of_mem _ hy)]

theorem exists_of_mapM_eq_ok {f : α → Except ε β} {x : α} : ∀ {xs : List α} {ys : List β},
    xs.mapM f = .ok ys → x ∈ xs → ∃ y ∈ ys, f x = .ok y
  | [], _, _, hx => by simp at hx
  | z :: xs, _, h, hx => by
    rw [List.mapM_cons] at h
    obtain ⟨y, hy, h⟩ := bind_eq_ok_iff.1 h
    obtain ⟨rest, hrest, h⟩ := bind_eq_ok_iff.1 h
    cases h
    rcases List.mem_cons.1 hx with rfl | hx
    · exact ⟨y, List.mem_cons_self, hy⟩
    · obtain ⟨w, hw, hfx⟩ := exists_of_mapM_eq_ok hrest hx
      exact ⟨w, List.mem_cons_of_mem _ hw, hfx⟩

/-- A list of computations fails with the first of them that does. -/
theorem mapM_eq_error {f : α → Except ε β} {e : ε} : ∀ {xs : List α}, xs.mapM f = .error e →
    ∃ before x after, xs = before ++ x :: after ∧ (∀ y ∈ before, ∃ b, f y = .ok b) ∧
      f x = .error e
  | [], h => by cases h
  | x :: xs, h => by
    rw [List.mapM_cons] at h
    cases hx : f x with
    | error e' =>
      rw [hx] at h
      cases h
      exact ⟨[], x, xs, rfl, by simp, hx⟩
    | ok y =>
      cases hrest : xs.mapM f with
      | ok ys =>
        rw [hx, hrest] at h
        cases h
      | error e' =>
        rw [hx, hrest] at h
        cases h
        obtain ⟨before, z, after, rfl, hbefore, hz⟩ := mapM_eq_error hrest
        refine ⟨x :: before, z, after, rfl, fun w hw => ?_, hz⟩
        rcases List.mem_cons.1 hw with rfl | hw
        · exact ⟨y, hx⟩
        · exact hbefore w hw

/-- It fails exactly if there is a first of them that does, and with the error of that one. -/
theorem mapM_eq_error_iff {f : α → Except ε β} {e : ε} {xs : List α} :
    xs.mapM f = .error e ↔ ∃ before x after, xs = before ++ x :: after ∧
      (∀ y ∈ before, ∃ b, f y = .ok b) ∧ f x = .error e := by
  refine ⟨mapM_eq_error, ?_⟩
  rintro ⟨before, x, after, rfl, hbefore, hx⟩
  induction before with
  | nil =>
    rw [List.nil_append, List.mapM_cons]
    exact bind_eq_error_iff.2 (.inl hx)
  | cons y before ih =>
    obtain ⟨b, hy⟩ := hbefore y List.mem_cons_self
    have hrest := ih fun z hz => hbefore z (List.mem_cons_of_mem _ hz)
    rw [List.cons_append, List.mapM_cons]
    exact bind_eq_error_iff.2 (.inr ⟨b, hy, bind_eq_error_iff.2 (.inl hrest)⟩)

/-- It succeeds exactly if there is none. -/
theorem exists_mapM_eq_ok_iff {f : α → Except ε β} {xs : List α} :
    (∃ ys, xs.mapM f = .ok ys) ↔ ∀ x ∈ xs, ∃ y, f x = .ok y := by
  constructor
  · rintro ⟨ys, h⟩ x hx
    obtain ⟨y, -, hy⟩ := exists_of_mapM_eq_ok h hx
    exact ⟨y, hy⟩
  · intro h
    cases hxs : xs.mapM f with
    | ok ys => exact ⟨ys, rfl⟩
    | error e =>
      obtain ⟨before, x, after, rfl, -, hx⟩ := mapM_eq_error hxs
      obtain ⟨y, hy⟩ := h x (List.mem_append_right _ List.mem_cons_self)
      rw [hx] at hy
      cases hy

/-! ## Agreement -/

variable {γ δ : Type} {R : α → β → Prop}

/-- Two computations come to the same error, or to results that are related. -/
inductive Agrees (R : α → β → Prop) : Except ε α → Except ε β → Prop
  | error (e : ε) : Agrees R (.error e) (.error e)
  | ok {a : α} {b : β} (h : R a b) : Agrees R (.ok a) (.ok b)

theorem Agrees.refl {S : α → α → Prop} (h : ∀ a, S a a) : ∀ x : Except ε α, Agrees S x x
  | .error e => .error e
  | .ok a => .ok (h a)

theorem Agrees.of_eq {x y : Except ε α} (h : y = x) : Agrees Eq x y := h ▸ .refl (fun _ => rfl) y

theorem Agrees.eq {x y : Except ε α} (h : Agrees Eq x y) : y = x := by
  cases h with
  | error e => rfl
  | ok h => exact congrArg Except.ok h.symm

theorem Agrees.bind {S : γ → δ → Prop} {x : Except ε α} {y : Except ε β} {f : α → Except ε γ}
    {g : β → Except ε δ} (h : Agrees R x y)
    (hrest : ∀ a b, x = .ok a → y = .ok b → R a b → Agrees S (f a) (g b)) :
    Agrees S (x >>= f) (y >>= g) := by
  cases h with
  | error e => exact .error e
  | ok h => exact hrest _ _ rfl rfl h

/-- Lists of computations that agree one by one agree. -/
theorem Agrees.mapM {f : γ → Except ε α} {g : γ → Except ε β} (h : ∀ x, Agrees R (f x) (g x)) :
    ∀ xs : List γ, Agrees (List.Forall₂ R) (xs.mapM f) (xs.mapM g)
  | [] => .ok .nil
  | x :: xs => by
    rw [List.mapM_cons, List.mapM_cons]
    refine (h x).bind fun a b _ _ hab => ?_
    exact (Agrees.mapM h xs).bind fun as bs _ _ hrest => .ok (.cons hab hrest)

end Except

namespace Option

variable {α : Type}

theorem forM_eq_some_iff {f : α → Option Unit} : ∀ {xs : List α},
    xs.forM f = some () ↔ ∀ x ∈ xs, f x = some ()
  | [] => ⟨fun _ _ hx => absurd hx List.not_mem_nil, fun _ => rfl⟩
  | x :: xs => by
    change (f x).bind (fun _ => xs.forM f) = some () ↔ _
    rw [Option.bind_eq_some_iff, List.forall_mem_cons]
    constructor
    · rintro ⟨_, hx, hxs⟩
      exact ⟨hx, forM_eq_some_iff.1 hxs⟩
    · rintro ⟨hx, hxs⟩
      exact ⟨(), hx, forM_eq_some_iff.2 hxs⟩

end Option
