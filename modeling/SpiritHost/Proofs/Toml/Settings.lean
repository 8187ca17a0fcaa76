import SpiritHost.Proofs.Toml.Keys
import Mathlib.Logic.Relator

/-!
# Settings taken up one by one

Many tables are read by a fold that takes up one setting after the other. Such a fold succeeds if
each setting can be taken up (`exists_foldlM_iff`); since no key is there twice, a field that one key
alone sets comes out as looking that key up says (`field_of_foldlM`), and one that is open at first
stays open exactly if its key is missing (`rel_of_foldlM`).
-/

namespace SpiritHost.Toml

/-! ## Settings one by one -/

section Settings

variable {σ α : Type} {step : σ → String × Value → Option σ}

/-- All settings are taken up if each of them can be. -/
theorem exists_foldlM_iff {S : String × Value → Prop} :
    ∀ {entries : List (String × Value)} {s : σ},
      (∀ p ∈ entries, ∀ s, (∃ t, step s p = some t) ↔ S p) →
        ((∃ t, entries.foldlM step s = some t) ↔ ∀ p ∈ entries, S p)
  | [], s, _ => by
    constructor
    · rintro - p hp
      cases hp
    · exact fun _ => ⟨s, rfl⟩
  | p :: rest, s, hstep => by
    have ih : ∀ {s : σ}, (∃ t, rest.foldlM step s = some t) ↔ ∀ q ∈ rest, S q :=
      exists_foldlM_iff fun q hq => hstep q (List.mem_cons_of_mem p hq)
    rw [List.forall_mem_cons, ← hstep p List.mem_cons_self s]
    constructor
    · rintro ⟨t, h⟩
      rw [List.foldlM_cons] at h
      obtain ⟨next, hnext, h⟩ := Option.bind_eq_some_iff.1 h
      exact ⟨⟨next, hnext⟩, ih.1 ⟨t, h⟩⟩
    · rintro ⟨⟨next, hnext⟩, hrest⟩
      obtain ⟨t, h⟩ := ih.2 hrest
      refine ⟨t, ?_⟩
      rw [List.foldlM_cons]
      exact Option.bind_eq_some_iff.2 ⟨next, hnext, h⟩

/-- What no setting changes stays. -/
theorem get_of_foldlM (get : σ → α) (hother : ∀ {s p t}, step s p = some t → get t = get s) :
    ∀ {entries : List (String × Value)} {s t : σ},
      entries.foldlM step s = some t → get t = get s
  | [], _, _, h => by
    cases h
    rfl
  | _ :: _, _, _, h => by
    rw [List.foldlM_cons] at h
    obtain ⟨next, hnext, h⟩ := Option.bind_eq_some_iff.1 h
    exact (get_of_foldlM get hother h).trans (hother hnext)

/-- What one key alone sets is as its value says, or as before if the key is missing. -/
theorem field_of_foldlM (get : σ → α) {key : String} {R : Value → α → Prop}
    (hset : ∀ {s v t}, step s (key, v) = some t → R v (get t))
    (hother : ∀ {s k v t}, k ≠ key → step s (k, v) = some t → get t = get s) :
    ∀ {entries : List (String × Value)} {s t : σ}, (keys entries).Nodup →
      entries.foldlM step s = some t →
        (∃ v, entries.lookup key = some v ∧ R v (get t)) ∨
          entries.lookup key = none ∧ get t = get s
  | [], _, _, _, h => by
    cases h
    exact .inr ⟨rfl, rfl⟩
  | (k, v) :: rest, s, t, hnodup, h => by
    obtain ⟨hnew, hnodup⟩ := List.nodup_cons.1 hnodup
    rw [List.foldlM_cons] at h
    obtain ⟨next, hnext, h⟩ := Option.bind_eq_some_iff.1 h
    rw [lookup_cons_if]
    have ih := field_of_foldlM get hset hother hnodup h
    by_cases hkey : key = k
    · subst hkey
      rw [if_pos rfl]
      rcases ih with ⟨w, hw, -⟩ | ⟨-, hget⟩
      · exact absurd (isSome_lookup.1 (by rw [hw]; rfl)) hnew
      · exact .inl ⟨v, rfl, hget ▸ hset hnext⟩
    · rw [if_neg hkey]
      rcases ih with hfound | ⟨hnone, hget⟩
      · exact .inl hfound
      · exact .inr ⟨hnone, hget.trans (hother (Ne.symm hkey) hnext)⟩

/-- The same of a setting that is open at first. -/
theorem rel_of_foldlM (get : σ → Option α) {key : String} {R : Value → α → Prop}
    (hset : ∀ {s v t}, step s (key, v) = some t → ∃ a, get t = some a ∧ R v a)
    (hother : ∀ {s k v t}, k ≠ key → step s (k, v) = some t → get t = get s)
    {entries : List (String × Value)} {s t : σ} (hnodup : (keys entries).Nodup)
    (hopen : get s = none) (h : entries.foldlM step s = some t) :
    Option.Rel R (entries.lookup key) (get t) := by
  rcases field_of_foldlM (R := fun v o => ∃ a, o = some a ∧ R v a) get hset hother hnodup h with
    ⟨v, hv, a, ha, hR⟩ | ⟨hnone, hget⟩
  · rw [hv, ha]
    exact .some hR
  · rw [hnone, hget, hopen]
    exact .none

/-- A value is taken up in a setting if it is of the setting's form. -/
theorem taken_iff {β : Type} {o : Option α} {f : α → β} {R : α → Prop} {t : β}
    (hR : ∀ a, o = some a ↔ R a) : (do some (f (← o))) = some t ↔ ∃ a, R a ∧ t = f a := by
  refine Option.bind_eq_some_iff.trans (exists_congr fun a => ?_)
  rw [hR, Option.some.injEq, eq_comm]

end Settings

section Rel

variable {α β : Type} {R S : α → β → Prop} {o : Option α}

theorem rightUnique_rel (h : Relator.RightUnique R) : Relator.RightUnique (Option.Rel R) := by
  rintro o a b (hab | _) hac
  · cases hac with
    | some hac => exact congrArg some (h hab hac)
  · cases hac
    rfl

theorem exists_of_rel {a : α} {b : Option β} (h : Option.Rel R o b) (ho : o = some a) :
    ∃ c, R a c := by
  cases h with
  | some hR =>
    cases ho
    exact ⟨_, hR⟩
  | none => cases ho

theorem rel_of_imp {b : Option β} (h : Option.Rel R o b) (himp : ∀ a c, o = some a → R a c → S a c) :
    Option.Rel S o b := by
  cases h with
  | some hR => exact .some (himp _ _ rfl hR)
  | none => exact .none

end Rel

end SpiritHost.Toml
