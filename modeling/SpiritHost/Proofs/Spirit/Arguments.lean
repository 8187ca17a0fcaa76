import SpiritHost.Proofs.Spirit.Call

/-!
# Arguments that do not fit

The checks of a call blame the number of arguments first, then the first argument that does not fit
its parameter. A value fits if it is not a number of another type; JSON fits if it can be converted,
and no JSON becomes a reference.
-/

namespace SpiritHost

open Wasm (Value ValType)

/-! ## The first that does not fit -/

section

variable {α β : Type} {fits : α → β → Prop} {a x : α} {b y : β} {pairs : List (α × β)} {i : Nat}

/-- A pair does not fit, and every pair before it does. -/
structure FirstMisfit (fits : α → β → Prop) (pairs : List (α × β)) (i : Nat) (x : α) (y : β) :
    Prop where
  here : pairs[i]? = some (x, y)
  misfits : ¬fits x y
  before : ∀ p ∈ pairs.take i, fits p.1 p.2

theorem not_firstMisfit_nil : ¬FirstMisfit fits [] i x y := fun h => by
  cases h.here

theorem firstMisfit_cons_of_fits (hfits : fits a b) :
    FirstMisfit fits ((a, b) :: pairs) i x y ↔ ∃ j, i = j + 1 ∧ FirstMisfit fits pairs j x y := by
  constructor
  · intro h
    cases i with
    | zero =>
      cases h.here
      exact absurd hfits h.misfits
    | succ j =>
      exact ⟨j, rfl, h.here, h.misfits, fun p hp => h.before p (List.mem_cons_of_mem _ hp)⟩
  · rintro ⟨j, rfl, h⟩
    refine ⟨h.here, h.misfits, fun p hp => ?_⟩
    rcases List.mem_cons.1 hp with rfl | hp
    · exact hfits
    · exact h.before p hp

theorem firstMisfit_cons_of_not (hfits : ¬fits a b) :
    FirstMisfit fits ((a, b) :: pairs) i x y ↔ i = 0 ∧ x = a ∧ y = b := by
  constructor
  · intro h
    cases i with
    | zero =>
      cases h.here
      exact ⟨rfl, rfl, rfl⟩
    | succ j => exact absurd (h.before (a, b) List.mem_cons_self) hfits
  · rintro ⟨rfl, rfl, rfl⟩
    exact ⟨rfl, hfits, fun p hp => by cases hp⟩

/-- If some pair does not fit, there is a first. -/
theorem exists_firstMisfit_iff : ∀ (pairs : List (α × β)),
    (∃ i x y, FirstMisfit fits pairs i x y) ↔ ∃ p ∈ pairs, ¬fits p.1 p.2
  | [] => ⟨fun ⟨_, _, _, h⟩ => absurd h not_firstMisfit_nil, fun ⟨_, hp, _⟩ => by cases hp⟩
  | (a, b) :: pairs => by
    by_cases hfits : fits a b
    · simp only [firstMisfit_cons_of_fits hfits, List.mem_cons, exists_eq_or_imp, hfits,
        not_true_eq_false, false_or, ← exists_firstMisfit_iff pairs]
      constructor
      · rintro ⟨_, x, y, j, rfl, h⟩
        exact ⟨j, x, y, h⟩
      · rintro ⟨j, x, y, h⟩
        exact ⟨j + 1, x, y, j, rfl, h⟩
    · simp only [firstMisfit_cons_of_not hfits, List.mem_cons, exists_eq_or_imp, hfits,
        not_false_eq_true, true_or, iff_true]
      exact ⟨0, a, b, rfl, rfl, rfl⟩

end

namespace Spirit

variable {s : Spirit} {name : String} {args : List Value} {index : Nat} {e : Error}

/-! ## Arguments -/

/-- A value may be given for a parameter: a number only of its own type. References are not compared
here. -/
def Fits (type : ValType) (arg : Value) : Prop := type.isNumeric = true → arg.type = type

/-- JSON may be given for a parameter: numbers that it can hold, and truth values for a 32-bit
integer. -/
inductive JsonFits : ValType → Json → Prop where
  | bool (b : Bool) : JsonFits .i32 (.bool b)
  | i32 {n : Int} (least : -2147483648 ≤ n) (most : n < 2147483648) : JsonFits .i32 (.int n)
  | i64 {n : Int} (least : -9223372036854775808 ≤ n) (most : n < 9223372036854775808) :
      JsonFits .i64 (.int n)
  | f32 (n : Json.Number) : JsonFits .f32 (.number n)
  | f64 (n : Json.Number) : JsonFits .f64 (.number n)

/-- What is said of a value that does not fit. -/
def Fault (i : Nat) (type : ValType) (arg : Value) (f : SignatureFault) : Prop :=
  f = .parameter i type arg

/-- What is said of JSON that does not fit. -/
def JsonFault (i : Nat) (type : ValType) (json : Json) (f : SignatureFault) : Prop :=
  ∃ fault, ofJson json type = .error fault ∧ f = .conversion i fault

/-- What is wrong with arguments: first their number, then the first that does not fit. -/
inductive Blames {β : Type} (fits : ValType → β → Prop)
    (fault : Nat → ValType → β → SignatureFault → Prop) (types : List ValType) (args : List β) :
    SignatureFault → Prop
  | count (h : args.length ≠ types.length) :
      Blames fits fault types args (.count types.length args.length)
  | misfit {i : Nat} {type : ValType} {arg : β} {f : SignatureFault}
      (count : args.length = types.length) (first : FirstMisfit fits (types.zip args) i type arg)
      (here : fault i type arg f) : Blames fits fault types args f

theorem toInt64?_eq_some {n : Json.Number} {v : Int} : n.toInt64? = some v ↔
    n = .int v ∧ -9223372036854775808 ≤ v ∧ v < 9223372036854775808 := by
  cases n with
  | int m =>
    simp only [Json.Number.toInt64?, Option.ite_none_right_eq_some, Option.some.injEq,
      Json.Number.int.injEq]
    constructor
    · rintro ⟨hm, rfl⟩
      exact ⟨rfl, hm⟩
    · rintro ⟨rfl, hm⟩
      exact ⟨hm, rfl⟩
  | float bits => simp [Json.Number.toInt64?]

/-- Exactly the JSON that fits is converted. -/
theorem ofJson_isOk_iff (type : ValType) (json : Json) :
    (∃ value, ofJson json type = .ok value) ↔ JsonFits type json := by
  constructor
  · rintro ⟨value, h⟩
    unfold ofJson at h
    split at h
    · exact .bool _
    · split at h
      · rename_i hint
        obtain ⟨rfl, -⟩ := toInt64?_eq_some.1 hint
        split at h
        · rename_i hrange
          exact .i32 hrange.1 hrange.2
        · cases h
      · cases h
    · split at h
      · rename_i hint
        obtain ⟨rfl, hrange⟩ := toInt64?_eq_some.1 hint
        exact .i64 hrange.1 hrange.2
      · cases h
    · exact .f32 _
    · exact .f64 _
    · cases h
  · intro h
    cases h with
    | bool b => exact ⟨_, rfl⟩
    | @i32 n least most =>
      have hint : (Json.Number.int n).toInt64? = some n :=
        toInt64?_eq_some.2 ⟨rfl, by omega, by omega⟩
      simp [Json.int, ofJson, hint, least, most]
    | @i64 n least most =>
      have hint : (Json.Number.int n).toInt64? = some n := toInt64?_eq_some.2 ⟨rfl, least, most⟩
      simp [Json.int, ofJson, hint]
    | f32 n => exact ⟨_, rfl⟩
    | f64 n => exact ⟨_, rfl⟩

theorem ofJson_isError_iff (type : ValType) (json : Json) :
    (∃ fault, ofJson json type = .error fault) ↔ ¬JsonFits type json := by
  rw [← ofJson_isOk_iff]
  cases ofJson json type <;> simp

/-- What is converted is a number of the type asked for. -/
theorem type_ofJson {type : ValType} {json : Json} {value : Value}
    (h : ofJson json type = .ok value) : value.type = type := by
  unfold ofJson at h
  split at h
  · cases h; rfl
  · split at h
    · split at h
      · cases h; rfl
      · cases h
    · cases h
  · split at h
    · cases h; rfl
    · cases h
  · cases h; rfl
  · cases h; rfl
  · cases h

/-! ## Checks -/

theorem checkTypes_eq_error_iff : ∀ (types : List ValType) (args : List Value) (start : Nat),
    checkTypes name start types args = .error e ↔ ∃ i type arg,
      FirstMisfit Fits (types.zip args) i type arg ∧
        e = .signature name (.parameter (start + i) type arg)
  | [], args, _ => by simp [checkTypes, not_firstMisfit_nil]
  | _ :: _, [], _ => by simp [checkTypes, not_firstMisfit_nil]
  | type :: types, arg :: args, start => by
    rw [checkTypes, List.zip_cons_cons]
    by_cases hfits : Fits type arg
    · have hpass : ¬(type.isNumeric = true ∧ arg.type ≠ type) := fun h => h.2 (hfits h.1)
      rw [if_neg hpass, checkTypes_eq_error_iff types args (start + 1)]
      simp only [firstMisfit_cons_of_fits hfits]
      constructor
      · rintro ⟨i, t, v, h, rfl⟩
        exact ⟨i + 1, t, v, ⟨i, rfl, h⟩, by rw [Nat.add_right_comm, Nat.add_assoc]⟩
      · rintro ⟨_, t, v, ⟨i, rfl, h⟩, rfl⟩
        exact ⟨i, t, v, h, by rw [Nat.add_right_comm, Nat.add_assoc]⟩
    · have hbad : type.isNumeric = true ∧ arg.type ≠ type := Classical.not_imp.1 hfits
      rw [if_pos hbad]
      simp only [firstMisfit_cons_of_not hfits, Except.error.injEq]
      constructor
      · rintro rfl
        exact ⟨0, type, arg, ⟨rfl, rfl, rfl⟩, rfl⟩
      · rintro ⟨_, _, _, ⟨rfl, rfl, rfl⟩, rfl⟩
        rfl

theorem convert_eq_error_iff : ∀ (types : List ValType) (args : List Json) (start : Nat),
    convert name start types args = .error e ↔ ∃ i type json fault,
      FirstMisfit JsonFits (types.zip args) i type json ∧ ofJson json type = .error fault ∧
        e = .signature name (.conversion (start + i) fault)
  | [], args, _ => by simp [convert, not_firstMisfit_nil]
  | _ :: _, [], _ => by simp [convert, not_firstMisfit_nil]
  | type :: types, json :: args, start => by
    have ih := convert_eq_error_iff types args (start + 1)
    rw [convert, List.zip_cons_cons]
    cases hfirst : ofJson json type with
    | ok value =>
      have hfits : JsonFits type json := (ofJson_isOk_iff type json).1 ⟨value, hfirst⟩
      have hrest : (convert name (start + 1) types args >>= fun rest => .ok (value :: rest)) =
          .error e ↔ convert name (start + 1) types args = .error e :=
        Except.map_eq_error_iff
      dsimp only
      rw [hrest, ih]
      simp only [firstMisfit_cons_of_fits hfits]
      constructor
      · rintro ⟨i, t, v, fault, h, hfault, rfl⟩
        exact ⟨i + 1, t, v, fault, ⟨i, rfl, h⟩, hfault, by rw [Nat.add_right_comm, Nat.add_assoc]⟩
      · rintro ⟨_, t, v, fault, ⟨i, rfl, h⟩, hfault, rfl⟩
        exact ⟨i, t, v, fault, h, hfault, by rw [Nat.add_right_comm, Nat.add_assoc]⟩
    | error fault =>
      have hfits : ¬JsonFits type json := (ofJson_isError_iff type json).1 ⟨fault, hfirst⟩
      simp only [firstMisfit_cons_of_not hfits, Except.error.injEq]
      constructor
      · rintro rfl
        exact ⟨0, type, json, fault, ⟨rfl, rfl, rfl⟩, hfirst, rfl⟩
      · rintro ⟨_, _, _, _, ⟨rfl, rfl, rfl⟩, hfault, rfl⟩
        rw [hfirst] at hfault
        cases hfault
        rfl

theorem types_convert : ∀ {types : List ValType} {args : List Json} {values : List Value}
    {start : Nat}, args.length = types.length → convert name start types args = .ok values →
      values.map Value.type = types
  | [], [], _, _, _, h => by cases h; rfl
  | type :: types, json :: args, _, start, hlength, h => by
    rw [convert] at h
    split at h
    · cases h
    · rename_i value hfirst
      obtain ⟨rest, hrest, h⟩ := Except.bind_eq_ok_iff.1 h
      cases h
      rw [List.map_cons, type_ofJson hfirst, types_convert (Nat.succ.inj hlength) hrest]

/-- The arguments of a call are blamed by the checks as they should be. -/
theorem check_eq_error_iff : s.check name index args = .error e ↔ ∃ f,
    Blames Fits Fault (s.params index) args f ∧
      e = .signature name f := by
  unfold check checkCount
  by_cases hcount : args.length = (s.params index).length
  · rw [if_pos hcount]
    change checkTypes name 0 (s.params index) args = .error e ↔ _
    rw [checkTypes_eq_error_iff]
    constructor
    · rintro ⟨i, type, arg, hfirst, rfl⟩
      exact ⟨_, .misfit hcount hfirst rfl, by rw [Nat.zero_add]⟩
    · rintro ⟨_, hblames, rfl⟩
      cases hblames with
      | count h => exact absurd hcount h
      | misfit _ hfirst hfault =>
        subst hfault
        exact ⟨_, _, _, hfirst, by rw [Nat.zero_add]⟩
  · rw [if_neg hcount]
    change Except.error _ = _ ↔ _
    constructor
    · rintro ⟨⟩
      exact ⟨_, .count hcount, rfl⟩
    · rintro ⟨_, hblames, rfl⟩
      cases hblames with
      | count => rfl
      | misfit h => exact absurd h hcount

/-- The checks and conversions of a call with JSON arguments. -/
def checkJson (s : Spirit) (name : String) (index : Nat) (args : List Json) :
    Except Error (List Value) := do
  checkCount name (s.params index).length args.length
  convert name 0 (s.params index) args

/-- So are those of a call with JSON. -/
theorem checkJson_eq_error_iff {args : List Json} : s.checkJson name index args = .error e ↔ ∃ f,
    Blames JsonFits JsonFault (s.params index) args f ∧ e = .signature name f := by
  unfold checkJson checkCount
  by_cases hcount : args.length = (s.params index).length
  · rw [if_pos hcount]
    change convert name 0 (s.params index) args = .error e ↔ _
    rw [convert_eq_error_iff]
    constructor
    · rintro ⟨i, type, json, fault, hfirst, hfault, rfl⟩
      exact ⟨_, .misfit hcount hfirst ⟨fault, hfault, rfl⟩, by rw [Nat.zero_add]⟩
    · rintro ⟨_, hblames, rfl⟩
      cases hblames with
      | count h => exact absurd hcount h
      | misfit _ hfirst hfault =>
        obtain ⟨fault, hfault, rfl⟩ := hfault
        exact ⟨_, _, _, fault, hfirst, hfault, by rw [Nat.zero_add]⟩
  · rw [if_neg hcount]
    change Except.error _ = _ ↔ _
    constructor
    · rintro ⟨⟩
      exact ⟨_, .count hcount, rfl⟩
    · rintro ⟨_, hblames, rfl⟩
      cases hblames with
      | count => rfl
      | misfit h => exact absurd h hcount

end Spirit

end SpiritHost
