import SpiritHost.Proofs.Loa.Deeds

/-!
# Planted values

What a store holds of planted values, and how many have given way to others, is settled by the kinds
of the values planted in it, in order. `Store.Passes.holding`: so it is after a trace.
-/

namespace SpiritHost

namespace Deed

/-- The kind of the value that is planted, if one is. -/
def planted? : Deed → Option String
  | plant kind _ => some kind
  | _ => none

/-- What was replaced is accounted for. -/
def settles : Deed → Bool
  | settle _ => true
  | _ => false

theorem settles_ofWrite (memory address : Nat) (bytes : Bytes) (r : Except Error Unit) :
    (ofWrite memory address bytes r).settles = false := by
  cases r <;> rfl

theorem settles_ofString (memory : Nat) (text : String) (r : Except Error UInt32) :
    (ofString memory text r).settles = false := by
  cases r <;> rfl

theorem planted?_ofWrite (memory address : Nat) (bytes : Bytes) (r : Except Error Unit) :
    (ofWrite memory address bytes r).planted? = none := by
  cases r <;> rfl

theorem planted?_ofString (memory : Nat) (text : String) (r : Except Error UInt32) :
    (ofString memory text r).planted? = none := by
  cases r <;> rfl

theorem planted?_ofRecord (memory : Nat) (gene : GeneLayout) (address : UInt32)
    (r : Except Error Unit) : (ofRecord memory gene address r).planted? = none := by
  cases r <;> rfl

end Deed

/-- The kinds of the values planted in a trace, in order. -/
def plantings (xs : List Instant) : List String := xs.filterMap (·.deed.planted?)

/-- The kinds of values that a store holds, and how many have given way to others. -/
abbrev Holding := List String × Nat

/-- Plants a value, in place of the one of its kind if there is one. -/
def Holding.plant (h : Holding) (kind : String) : Holding :=
  if kind ∈ h.1 then (h.1, h.2 + 1) else (h.1 ++ [kind], h.2)

/-- What a store holds. -/
def Store.holding (s : Store) : Holding := (s.held, s.replaced)

theorem plantings_append (xs ys : List Instant) :
    plantings (xs ++ ys) = plantings xs ++ plantings ys := List.filterMap_append

namespace Store

variable {s t : Store} {d : Deed} {xs : List Instant}

theorem holding_plant (s : Store) (kind : String) :
    (s.plant kind).holding = s.holding.plant kind := by
  unfold plant Holding.plant holding
  split <;> rfl

/-- A deed plants what it is said to plant. -/
theorem Does.holding (h : s.Does d t) (hd : d.settles = false) :
    t.holding = d.planted?.toList.foldl Holding.plant s.holding := by
  have hplants := h.plants
  cases d with
  | settle replaced => cases hd
  | plant kind replaces =>
    obtain ⟨-, hheld, hreplaced⟩ := hplants
    rw [Deed.planted?, Option.toList_some, List.foldl_cons, List.foldl_nil, ← holding_plant]
    exact Prod.ext hheld hreplaced
  | _ => exact Prod.ext hplants.1 hplants.2

/-- **Traces.** What is held after a trace is what comes of planting the values of the trace. -/
theorem Follows.holding : ∀ {s : Store} {xs : List Instant}, s.Follows xs →
    (∀ x ∈ xs, x.deed.settles = false) →
      (s.after xs).holding = (plantings xs).foldl Holding.plant s.holding
  | _, [], _, _ => rfl
  | s, x :: xs, h, hxs => by
    have hfirst := h.1.holding (hxs x List.mem_cons_self)
    have hrest := h.2.holding fun y hy => hxs y (List.mem_cons_of_mem x hy)
    have hsplit : plantings (x :: xs) = x.deed.planted?.toList ++ plantings xs := by
      unfold plantings
      cases hplanted : x.deed.planted? <;> simp [hplanted]
    rw [after, hrest, hfirst, hsplit, List.foldl_append]

theorem Passes.holding (h : s.Passes xs t) (hxs : ∀ x ∈ xs, x.deed.settles = false) :
    t.holding = (plantings xs).foldl Holding.plant s.holding := by
  rw [← h.ends]
  exact h.follows.holding hxs

end Store

theorem Store.settles_asked (s : Store) {d : Deed} (hd : d.settles = false) :
    (s.asked d).settles = false := by
  unfold asked
  split
  · exact hd
  · rfl

/-- Host calls leave it to others to account for what they replace. -/
theorem HostCall.settles_instants {α : Type} (c : HostCall α) :
    ∀ {s : Store}, ∀ x ∈ c.instants s, x.deed.settles = false := by
  induction c with
  | done | fail => exact fun x hx => by cases hx
  | getState next ih | debugFlag next ih | now next ih => exact fun x hx => ih _ x hx
  | writeBytes address bytes next ih =>
    intro s x hx
    rcases List.mem_cons.1 hx with rfl | hx
    · exact s.settles_asked (Deed.settles_ofWrite ..)
    · exact ih _ x hx
  | encodeString text next ih =>
    intro s x hx
    rcases List.mem_cons.1 hx with rfl | hx
    · exact s.settles_asked (Deed.settles_ofString ..)
    · exact ih _ x hx
  | alloc size align next ih | readBytes address len next ih | decodeString address next ih
  | reset next ih | inspect next ih =>
    intro s x hx
    rcases List.mem_cons.1 hx with rfl | hx
    · exact s.settles_asked rfl
    · exact ih _ x hx
  | random next ih =>
    intro s x hx
    rcases List.mem_cons.1 hx with rfl | hx
    · rfl
    · exact ih _ x hx
  | plant kind next ih | setState state next ih | log line next ih =>
    intro s x hx
    rcases List.mem_cons.1 hx with rfl | hx
    · rfl
    · exact ih x hx

end SpiritHost
