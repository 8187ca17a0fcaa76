import Mathlib.Data.List.Nodup
import SpiritHost.Proofs.Spirit.Plantings

/-!
# A ledger of planted values

A ledger tells planted values apart: it numbers them as they are planted and keeps which of them are
alive and which have been destroyed, in the store of which Spirit. Every value that was ever planted is
in one of the two lists, once (`Ledger.accounts_enterAll`), and what a store holds is what the ledger
says is alive there (`Ledger.Shows`).
-/

namespace SpiritHost

/-- A value in the store of a Spirit. Values are numbered in the order in which they are planted. -/
structure Planted where
  spirit : String
  kind : String
  number : Nat
deriving DecidableEq, Repr

/-- The place of a value. -/
def Planted.place (v : Planted) : String × String := (v.spirit, v.kind)

/-- What becomes of planted values. -/
inductive Fate where
  /-- A value is planted in the store of a Spirit, in place of the one of its kind there. -/
  | planted (spirit kind : String)
  /-- The store of a Spirit is dropped, and everything in it with it. -/
  | dropped (spirit : String)
deriving DecidableEq, Repr

namespace Fate

/-- Whose store it is about. -/
def spirit : Fate → String
  | planted spirit _ => spirit
  | dropped spirit => spirit

/-- The value at a place comes to its end. -/
def ends : Fate → String × String → Bool
  | planted spirit kind, place => place == (spirit, kind)
  | dropped spirit, place => place.1 == spirit

/-- The value that is planted, with its number. -/
def begins (number : Nat) : Fate → List Planted
  | planted spirit kind => [⟨spirit, kind, number⟩]
  | dropped _ => []

end Fate

/-- The values that are alive, and those that have been destroyed, of all that were planted. -/
structure Ledger where
  count : Nat := 0
  alive : List Planted := []
  destroyed : List Planted := []

namespace Ledger

/-- Enters what becomes of values. -/
def enter (l : Ledger) (f : Fate) : Ledger where
  count := l.count + (f.begins l.count).length
  alive := l.alive.filter (fun v => !f.ends v.place) ++ f.begins l.count
  destroyed := l.destroyed ++ l.alive.filter (f.ends ·.place)

/-- Enters a run of fates. -/
def enterAll (l : Ledger) (fates : List Fate) : Ledger := fates.foldl enter l

/-- The places of the values that are alive. -/
def places (l : Ledger) : List (String × String) := l.alive.map Planted.place

/-- Every value that was planted is alive or has been destroyed, and not both, and once. -/
def Accounts (l : Ledger) : Prop :=
  ((l.alive ++ l.destroyed).map Planted.number).Perm (List.range l.count)

variable {l : Ledger} {f : Fate} {fates : List Fate} {spirit kind : String}
  {others : List (String × String)}

theorem enterAll_append (l : Ledger) (xs ys : List Fate) :
    l.enterAll (xs ++ ys) = (l.enterAll xs).enterAll ys := List.foldl_append

/-! ## Accounts -/

theorem accounts_enter (h : l.Accounts) (f : Fate) : (l.enter f).Accounts := by
  have hsplit : ((l.enter f).alive ++ (l.enter f).destroyed).Perm
      ((l.alive ++ l.destroyed) ++ f.begins l.count) := by
    rw [List.perm_iff_count]
    intro v
    have hcount := (List.filter_append_perm (fun v : Planted => f.ends v.place) l.alive).count_eq v
    simp only [enter, List.count_append] at hcount ⊢
    omega
  have hrange : List.range (l.enter f).count =
      List.range l.count ++ (f.begins l.count).map Planted.number := by
    cases f with
    | planted => exact List.range_succ
    | dropped => exact (List.append_nil _).symm
  unfold Accounts at h ⊢
  rw [hrange]
  refine (hsplit.map Planted.number).trans ?_
  rw [List.map_append]
  exact h.append_right _

/-- **Accounts.** No value is lost and none is destroyed twice, whatever becomes of them. -/
theorem accounts_enterAll : ∀ (fates : List Fate) {l : Ledger}, l.Accounts →
    (l.enterAll fates).Accounts
  | [], _, h => h
  | f :: rest, _, h => accounts_enterAll rest (accounts_enter h f)

theorem Accounts.length (h : l.Accounts) : l.count = l.alive.length + l.destroyed.length := by
  simpa using h.length_eq.symm

/-! ## Places -/

theorem places_enter (l : Ledger) (f : Fate) : (l.enter f).places =
    l.places.filter (fun place => !f.ends place) ++ (f.begins l.count).map Planted.place := by
  rw [places, enter, List.map_append, places, List.filter_map]
  rfl

theorem length_destroyed_enter (l : Ledger) (f : Fate) :
    (l.enter f).destroyed.length = l.destroyed.length + l.places.countP f.ends := by
  rw [enter, List.length_append, places, List.countP_map, List.countP_eq_length_filter]
  rfl

/-- A store holds one value of a kind at most. -/
theorem nodup_enter (h : l.places.Nodup) (f : Fate) : (l.enter f).places.Nodup := by
  have hrest := h.filter fun place => !f.ends place
  rw [places_enter]
  cases f with
  | dropped spirit =>
    rw [Fate.begins, List.map_nil, List.append_nil]
    exact hrest
  | planted spirit kind =>
    refine List.nodup_append.2 ⟨hrest, List.nodup_singleton _, fun place hplace other hother => ?_⟩
    rw [List.mem_singleton.1 hother]
    rintro rfl
    simpa [Fate.ends, Planted.place] using (List.mem_filter.1 hplace).2

/-- The ledger says of a Spirit's store what it holds, beside the values of others. -/
structure Shows (l : Ledger) (spirit : String) (others : List (String × String))
    (held : List String) : Prop where
  nodup : l.places.Nodup
  apart : ∀ place ∈ others, place.1 ≠ spirit
  places : l.places.Perm (others ++ held.map (Prod.mk spirit))

/-- What is planted is alive from then on, in place of the one of its kind. -/
theorem Shows.plant {h : Holding} (hl : l.Shows spirit others h.1) (kind : String) :
    (l.enter (.planted spirit kind)).Shows spirit others (h.plant kind).1 ∧
      (l.enter (.planted spirit kind)).destroyed.length + h.2 =
        l.destroyed.length + (h.plant kind).2 := by
  obtain ⟨hnodup, hapart, hplaces⟩ := hl
  have hmem : (spirit, kind) ∈ l.places ↔ kind ∈ h.1 := by
    rw [hplaces.mem_iff, List.mem_append]
    constructor
    · rintro (hother | hown)
      · exact absurd rfl (hapart _ hother)
      · obtain ⟨k, hk, heq⟩ := List.mem_map.1 hown
        cases heq
        exact hk
    · exact fun hk => .inr (List.mem_map_of_mem hk)
  have hcount : l.places.countP (Fate.ends (.planted spirit kind)) =
      l.places.count (spirit, kind) := rfl
  have herase : l.places.filter (fun place => !Fate.ends (.planted spirit kind) place) =
      l.places.erase (spirit, kind) := (hnodup.erase_eq_filter _).symm
  have hbegins : (Fate.begins l.count (.planted spirit kind)).map Planted.place =
      [(spirit, kind)] := rfl
  refine ⟨⟨nodup_enter hnodup _, hapart, ?_⟩, ?_⟩
  · rw [places_enter, herase, hbegins, Holding.plant]
    by_cases hkind : kind ∈ h.1
    · rw [if_pos hkind]
      have hperm := List.perm_cons_erase (hmem.2 hkind)
      exact ((List.perm_append_singleton _ _).trans hperm.symm).trans hplaces
    · rw [if_neg hkind, List.erase_of_not_mem (mt hmem.1 hkind), List.map_append,
        ← List.append_assoc]
      exact hplaces.append_right _
  · rw [length_destroyed_enter, hcount, Holding.plant]
    by_cases hkind : kind ∈ h.1
    · rw [if_pos hkind, List.count_eq_one_of_mem hnodup (hmem.2 hkind)]
      omega
    · rw [if_neg hkind, List.count_eq_zero_of_not_mem (mt hmem.1 hkind)]
      rfl

/-- The fates of values that are planted for a Spirit, in order. -/
def fatesOf (spirit : String) (kinds : List String) : List Fate := kinds.map (.planted spirit)

theorem Shows.plantAll : ∀ (kinds : List String) {l : Ledger} {h : Holding},
    l.Shows spirit others h.1 →
      (l.enterAll (fatesOf spirit kinds)).Shows spirit others (kinds.foldl Holding.plant h).1 ∧
        (l.enterAll (fatesOf spirit kinds)).destroyed.length + h.2 =
          l.destroyed.length + (kinds.foldl Holding.plant h).2
  | [], _, _, hl => ⟨hl, rfl⟩
  | kind :: rest, l, h, hl => by
    obtain ⟨hfirst, hone⟩ := hl.plant kind
    obtain ⟨hrest, hmore⟩ := Shows.plantAll rest hfirst
    refine ⟨hrest, ?_⟩
    rw [List.foldl_cons]
    have hsplit : l.enterAll (fatesOf spirit (kind :: rest)) =
        (l.enter (.planted spirit kind)).enterAll (fatesOf spirit rest) := rfl
    rw [hsplit]
    omega

/-- With its store everything of a Spirit is gone. -/
theorem Shows.drop {held : List String} (hl : l.Shows spirit others held) :
    (l.enter (.dropped spirit)).Shows spirit others [] ∧
      (l.enter (.dropped spirit)).destroyed.length = l.destroyed.length + held.length := by
  obtain ⟨hnodup, hapart, hplaces⟩ := hl
  have hothers : others.filter (fun place => !Fate.ends (.dropped spirit) place) = others :=
    List.filter_eq_self.2 fun place hplace => by simpa [Fate.ends] using hapart place hplace
  have hnone : others.countP (Fate.ends (.dropped spirit)) = 0 :=
    List.countP_eq_zero.2 fun place hplace => by simpa [Fate.ends] using hapart place hplace
  refine ⟨⟨nodup_enter hnodup _, hapart, ?_⟩, ?_⟩
  · rw [places_enter]
    have hrest := hplaces.filter fun place => !Fate.ends (.dropped spirit) place
    rw [List.filter_append, hothers] at hrest
    simpa [Fate.begins, Fate.ends, List.filter_map, Function.comp_def] using hrest
  · rw [length_destroyed_enter, hplaces.countP_eq, List.countP_append, hnone]
    simp [Fate.ends, List.countP_map, Function.comp_def]

/-! ## Values that nothing is said about -/

/-- What becomes of some Spirits' values leaves those of the others. -/
theorem filter_alive_enter {p : String → Bool} (hf : p f.spirit = false) :
    (l.enter f).alive.filter (p ·.spirit) = l.alive.filter (p ·.spirit) := by
  rw [enter, List.filter_append, List.filter_filter]
  have hbegins : (f.begins l.count).filter (p ·.spirit) = [] := by
    cases f <;> simp_all [Fate.begins, Fate.spirit]
  rw [hbegins, List.append_nil]
  refine List.filter_congr fun v _ => ?_
  cases hp : p v.spirit with
  | false => rfl
  | true =>
    have hne : v.spirit ≠ f.spirit := by
      rintro heq
      rw [heq, hf] at hp
      cases hp
    cases f <;> simp_all [Fate.ends, Fate.spirit, Planted.place]

theorem filter_alive_enterAll {p : String → Bool} : ∀ {fates : List Fate} {l : Ledger},
    (∀ f ∈ fates, p f.spirit = false) →
      (l.enterAll fates).alive.filter (p ·.spirit) = l.alive.filter (p ·.spirit)
  | [], _, _ => rfl
  | f :: rest, l, h => by
    have hrest := filter_alive_enterAll (l := l.enter f) fun g hg => h g (List.mem_cons_of_mem f hg)
    exact hrest.trans (filter_alive_enter (h f List.mem_cons_self))

end Ledger

end SpiritHost
