import Mathlib.Algebra.Group.Int.Defs
import SpiritHost.Proofs.Decimal.Widening
import SpiritHost.Proofs.Json.Integers
import SpiritHost.Proofs.Spirit.Arguments
import SpiritHost.Proofs.Spirit.Load

/-!
# Values as JSON and back

Which JSON is converted to which value, and that the JSON of an integer or of a finite 64-bit float,
given to a parameter of its type, arrives as the value it was (`Spirit.marshalling_exact`). A float
that is not finite leaves as null, which no parameter takes.
-/

namespace SpiritHost

open Wasm (Value ValType)
open Decimal

namespace Json

theorem ofFloatBits_of_finite {bits : UInt64} (h : Binary64.isFinite bits = true) :
    ofFloatBits bits = .number (.float bits) := by
  obtain ⟨negative, m, q, hbits⟩ := Binary64.exists_finite_iff.2 h
  rw [ofFloatBits, hbits]

theorem ofFloatBits_of_not_finite {bits : UInt64} (h : Binary64.isFinite bits = false) :
    ofFloatBits bits = .null := by
  unfold ofFloatBits
  split
  · rename_i hbits
    rw [Binary64.exists_finite_iff.1 ⟨_, _, _, hbits⟩] at h
    cases h
  · rfl

end Json

namespace Spirit

variable {s : Spirit} {name : String} {index : Nat} {json : Json} {type : ValType} {v : Value}

/-! ## One value -/

/-- JSON of a type becomes a value: an integer the word that stands for it, a number the nearest
float. -/
inductive Becomes : ValType → Json → Value → Prop
  | bool (b : Bool) : Becomes .i32 (.bool b) (.i32 (if b then 1 else 0))
  | i32 {n : Int} {word : UInt32} (least : -2 ^ 31 ≤ n) (most : n < 2 ^ 31)
      (here : word.toInt32.toInt = n) : Becomes .i32 (.int n) (.i32 word)
  | i64 {n : Int} {word : UInt64} (least : -2 ^ 63 ≤ n) (most : n < 2 ^ 63)
      (here : word.toInt64.toInt = n) : Becomes .i64 (.int n) (.i64 word)
  | f32 (n : Json.Number) :
      Becomes .f32 (.number n) (.f32 (Float.ofBits n.toFloatBits).toFloat32.toBits)
  | f64 (n : Json.Number) : Becomes .f64 (.number n) (.f64 n.toFloatBits)

theorem toInt_toInt32 (word : UInt32) : word.toInt32.toInt =
    if word.toNat < 2 ^ 31 then (word.toNat : Int) else word.toNat - 2 ^ 32 := by
  have htoInt : word.toInt32.toInt = word.toBitVec.toInt := rfl
  rw [htoInt, BitVec.toInt_eq_toNat_cond, UInt32.toNat_toBitVec]
  split <;> split <;> omega

theorem toInt_toInt64 (word : UInt64) : word.toInt64.toInt =
    if word.toNat < 2 ^ 63 then (word.toNat : Int) else word.toNat - 2 ^ 64 := by
  have htoInt : word.toInt64.toInt = word.toBitVec.toInt := rfl
  rw [htoInt, BitVec.toInt_eq_toNat_cond, UInt64.toNat_toBitVec]
  split <;> split <;> omega

/-- The word that an integer in range is converted to is the one that stands for it. -/
theorem ofInt_eq_iff32 {n : Int} {word : UInt32} (least : -2 ^ 31 ≤ n) (most : n < 2 ^ 31) :
    word = UInt32.ofInt n ↔ word.toInt32.toInt = n := by
  have hword := word.toNat_lt
  rw [toInt_toInt32, UInt32.ofInt, ← UInt32.toNat_inj, UInt32.toNat_ofNat']
  split <;> omega

theorem ofInt_eq_iff64 {n : Int} {word : UInt64} (least : -2 ^ 63 ≤ n) (most : n < 2 ^ 63) :
    word = UInt64.ofInt n ↔ word.toInt64.toInt = n := by
  have hword := word.toNat_lt
  rw [toInt_toInt64, UInt64.ofInt, ← UInt64.toNat_inj, UInt64.toNat_ofNat']
  split <;> omega

/-- **Acceptance.** A parameter takes this JSON as this value, and nothing else. -/
theorem ofJson_eq_ok_iff : ofJson json type = .ok v ↔ Becomes type json v := by
  constructor
  · intro h
    unfold ofJson at h
    split at h
    · cases h
      exact .bool _
    · split at h
      · rename_i hint
        obtain ⟨rfl, -⟩ := toInt64?_eq_some.1 hint
        split at h
        · rename_i hrange
          cases h
          exact .i32 hrange.1 hrange.2 ((ofInt_eq_iff32 hrange.1 hrange.2).1 rfl)
        · cases h
      · cases h
    · split at h
      · rename_i hint
        obtain ⟨rfl, hleast, hmost⟩ := toInt64?_eq_some.1 hint
        cases h
        exact .i64 hleast hmost ((ofInt_eq_iff64 hleast hmost).1 rfl)
      · cases h
    · cases h
      exact .f32 _
    · cases h
      exact .f64 _
    · cases h
  · intro h
    cases h with
    | bool b => rfl
    | @i32 n word least most here =>
      have hint : (Json.Number.int n).toInt64? = some n :=
        toInt64?_eq_some.2 ⟨rfl, by omega, by omega⟩
      have hrange : -2147483648 ≤ n ∧ n < 2147483648 := ⟨least, most⟩
      rw [Json.int, ofJson, hint, (ofInt_eq_iff32 least most).2 here]
      exact if_pos hrange
    | @i64 n word least most here =>
      have hint : (Json.Number.int n).toInt64? = some n := toInt64?_eq_some.2 ⟨rfl, least, most⟩
      rw [Json.int, ofJson, hint, (ofInt_eq_iff64 least most).2 here]
    | f32 n => rfl
    | f64 n => rfl

/-- A value that JSON can stand for exactly: an integer or a finite 64-bit float. -/
inductive Exact : Value → Prop
  | i32 (word : UInt32) : Exact (.i32 word)
  | i64 (word : UInt64) : Exact (.i64 word)
  | f64 {bits : UInt64} (finite : Binary64.isFinite bits = true) : Exact (.f64 bits)

/-- A float that is infinite or undefined. -/
inductive Unwritable : Value → Prop
  | f32 {bits : UInt32} (infinite : Binary32.isFinite bits = false) : Unwritable (.f32 bits)
  | f64 {bits : UInt64} (infinite : Binary64.isFinite bits = false) : Unwritable (.f64 bits)

/-- The JSON of a value becomes that value. -/
theorem Exact.becomes (h : Exact v) : Becomes v.type (toJson v) v := by
  cases h with
  | i32 word =>
    have hrange := toInt_toInt32 word
    have hword := word.toNat_lt
    refine .i32 ?_ ?_ rfl <;> split at hrange <;> omega
  | i64 word =>
    have hrange := toInt_toInt64 word
    have hword := word.toNat_lt
    refine .i64 ?_ ?_ rfl <;> split at hrange <;> omega
  | @f64 bits finite =>
    rw [toJson, Json.ofFloatBits_of_finite finite]
    exact .f64 (.float bits)

theorem Unwritable.toJson_eq (h : Unwritable v) : toJson v = .null := by
  cases h with
  | @f32 bits infinite =>
    exact Json.ofFloatBits_of_not_finite ((Binary32.isFinite_widen bits).trans infinite)
  | f64 infinite => exact Json.ofFloatBits_of_not_finite infinite

/-- JSON stands for the value of a 32-bit float: the 64-bit float with the same sign and magnitude. -/
def StandsFor (json : Json) (bits : UInt32) : Prop :=
  ∃ wide m q, json = .number (.float wide) ∧
    Binary64.ofBits wide = .finite (Binary32.sign bits = 1) m q ∧
      m * 2 ^ (q - Binary64.minExponent).toNat =
        Binary32.magnitude bits * 2 ^ Binary32.unitExponent

theorem toJson_f32 {bits : UInt32} (h : Binary32.isFinite bits = true) :
    StandsFor (toJson (.f32 bits)) bits := by
  obtain ⟨m, q, hbits, hmagnitude⟩ := Binary32.ofBits_widen h
  have hfinite := (Binary32.isFinite_widen bits).trans h
  exact ⟨_, m, q, Json.ofFloatBits_of_finite hfinite, hbits, hmagnitude⟩

/-! ## Calls -/

theorem jsonFits_of_becomes (h : Becomes type json v) : JsonFits type json :=
  (ofJson_isOk_iff type json).1 ⟨v, ofJson_eq_ok_iff.2 h⟩

/-- Each argument becomes the value in its place. -/
theorem getElem?_convert : ∀ {types : List ValType} {args : List Json} {values : List Value}
    {start i : Nat}, convert name start types args = .ok values → types[i]? = some type →
      args[i]? = some json → ∃ v, values[i]? = some v ∧ Becomes type json v
  | [], _, _, _, _, _, htype, _ => by simp at htype
  | _ :: _, [], _, _, _, _, _, hjson => by simp at hjson
  | first :: types, arg :: args, values, start, i, h, htype, hjson => by
    rw [convert] at h
    split at h
    · cases h
    · rename_i value hvalue
      obtain ⟨rest, hrest, h⟩ := Except.bind_eq_ok_iff.1 h
      cases h
      cases i with
      | zero =>
        cases htype
        cases hjson
        exact ⟨value, rfl, ofJson_eq_ok_iff.1 hvalue⟩
      | succ i =>
        have htype' : types[i]? = some type := htype
        have hjson' : args[i]? = some json := hjson
        obtain ⟨v, hv, hbecomes⟩ := getElem?_convert hrest htype' hjson'
        exact ⟨v, hv, hbecomes⟩

theorem convert_of_fits {types : List ValType} {args : List Json} {start : Nat}
    (h : ∀ (i : Nat) type json, types[i]? = some type → args[i]? = some json →
      JsonFits type json) :
    ∃ values, convert name start types args = .ok values := by
  cases hconvert : convert name start types args with
  | ok values => exact ⟨values, rfl⟩
  | error e =>
    obtain ⟨i, type, json, -, hfirst, -⟩ := (convert_eq_error_iff types args start).1 hconvert
    obtain ⟨htype, hjson⟩ := List.getElem?_zip_eq_some.1 hfirst.here
    exact absurd (h i type json htype hjson) hfirst.misfits

/-- A call gives JSON to a parameter of a type, and whatever else it gives fits. -/
structure Passes (s : Spirit) (name : String) (index : Nat) (args : List Json) (i : Nat)
    (type : ValType) (json : Json) : Prop where
  function : s.function name = .ok index
  count : args.length = (s.params index).length
  parameter : (s.params index)[i]? = some type
  argument : args[i]? = some json
  others : ∀ j t arg, j ≠ i → (s.params index)[j]? = some t → args[j]? = some arg → JsonFits t arg

theorem callJson_of_convert {args : List Json} {values : List Value}
    (hfunction : s.function name = .ok index) (hcount : args.length = (s.params index).length)
    (hconvert : convert name 0 (s.params index) args = .ok values) :
    s.callJson name args = (s.run index values).map resultJson := by
  have hchecked : (do
      checkCount name (s.params index).length args.length
      convert name 0 (s.params index) args) = .ok values := by
    rw [checkCount_eq_ok_iff.2 hcount]
    exact hconvert
  rw [callJson_eq, hfunction]
  dsimp only
  rw [hchecked]
  dsimp only
  rw [callIndex_of_fits name (types_convert hcount hconvert)]

/-- **Receiving.** The function gets the value in its place. -/
theorem Passes.received {args : List Json} {i : Nat} (h : s.Passes name index args i type json)
    (hbecomes : Becomes type json v) :
    ∃ values, values[i]? = some v ∧ s.callJson name args = (s.run index values).map resultJson := by
  have hfits : ∀ (j : Nat) t arg, (s.params index)[j]? = some t → args[j]? = some arg →
      JsonFits t arg := by
    intro j t arg ht harg
    by_cases hj : j = i
    · subst hj
      cases h.parameter.symm.trans ht
      cases h.argument.symm.trans harg
      exact jsonFits_of_becomes hbecomes
    · exact h.others j t arg hj ht harg
  obtain ⟨values, hconvert⟩ : ∃ values, convert name 0 (s.params index) args = .ok values :=
    convert_of_fits hfits
  obtain ⟨w, hw, hbecomes'⟩ := getElem?_convert hconvert h.parameter h.argument
  have hsame : ofJson json type = .ok v := ofJson_eq_ok_iff.2 hbecomes
  rw [ofJson_eq_ok_iff.2 hbecomes', Except.ok.injEq] at hsame
  subst hsame
  exact ⟨values, hw, callJson_of_convert h.function h.count hconvert⟩

theorem not_becomes_null : ¬Becomes type .null v := by
  intro h
  cases h

/-- **Refusing.** Null is taken by no parameter. -/
theorem callJson_of_null {args : List Json} (h : .null ∈ args) :
    ∃ e, s.callJson name args = .plain (.error e) s := by
  refine callJson_of_refused ?_
  rintro ⟨index, values, -, hcount, hconvert⟩
  obtain ⟨i, hi, hnull⟩ := List.getElem_of_mem h
  have hargument : args[i]? = some .null := List.getElem?_eq_some_iff.2 ⟨hi, hnull⟩
  have hparameter := List.getElem?_eq_getElem (hcount ▸ hi)
  obtain ⟨v, -, hbecomes⟩ := getElem?_convert hconvert hparameter hargument
  exact not_becomes_null hbecomes

/-- What a function that a call runs with JSON arguments returns. -/
def Returns (s : Spirit) (name : String) (args : List Json) (results : List Value) : Prop :=
  ∃ index values, s.function name = .ok index ∧ convert name 0 (s.params index) args = .ok values ∧
    (s.run index values).result = .ok results

theorem exists_returns {args : List Json} (h : (s.callJson name args).result = .ok json) :
    ∃ results, s.Returns name args results ∧ json = resultJson results := by
  by_cases hreaches : s.ReachesCodeJson name args
  · obtain ⟨index, values, hfunction, hcount, hconvert⟩ := hreaches
    rw [callJson_of_convert hfunction hcount hconvert] at h
    obtain ⟨results, hresults, rfl⟩ := Except.map_eq_ok_iff.1 h
    exact ⟨results, ⟨index, values, hfunction, hconvert, hresults⟩, rfl⟩
  · obtain ⟨e, herror⟩ := callJson_of_refused hreaches
    rw [herror] at h
    cases h

/-- What results are as JSON, and what becomes of each when it is passed on. -/
structure Leaves (results : List Value) (json : Json) : Prop where
  none : results = [] → json = .null
  one : ∀ v, results = [v] → json = toJson v
  several : 2 ≤ results.length → json = .array (results.map toJson)
  /-- A value that JSON can stand for arrives as it was, wherever it is passed. -/
  received : ∀ v ∈ results, Exact v → ∀ (t : Spirit) (name : String) (index : Nat)
    (args : List Json) (i : Nat), t.Passes name index args i v.type (toJson v) →
      ∃ values, values[i]? = some v ∧ t.callJson name args = (t.run index values).map resultJson
  /-- A finite 32-bit float leaves as the wider float with the same value. -/
  widened : ∀ bits, .f32 bits ∈ results → Binary32.isFinite bits = true →
    StandsFor (toJson (.f32 bits)) bits
  /-- An infinite or undefined float is null, and a call that passes it is refused. -/
  refused : ∀ v ∈ results, Unwritable v → toJson v = .null ∧
    ∀ (t : Spirit) (name : String) (args : List Json), toJson v ∈ args →
      ∃ e, t.callJson name args = .plain (.error e) t

theorem leaves_resultJson (results : List Value) : Leaves results (resultJson results) := by
  refine ⟨?_, ?_, ?_, ?_, fun bits _ => toJson_f32, ?_⟩
  · rintro rfl
    rfl
  · rintro v rfl
    rfl
  · intro hlength
    match results, hlength with
    | _ :: _ :: _, _ => rfl
  · exact fun v _ hexact t name index args i hpasses => hpasses.received hexact.becomes
  · intro v _ hunwritable
    rw [hunwritable.toJson_eq]
    exact ⟨rfl, fun t name args hnull => callJson_of_null hnull⟩

/-- **Marshalling.** A parameter takes truth values as 32-bit integers, integers that fit it and, if
it is a float, every number; an integer is what is written as one and fits 64 bits. The JSON that a
call returns stands for its results in order, and each of them that JSON can stand for arrives as it
was when it is passed on. -/
theorem marshalling_exact :
    (∀ json type v, ofJson json type = .ok v ↔ Becomes type json v) ∧
    (∀ text n, Json.parse? text = some (.int n) ↔ Json.Spells text n) ∧
    ∀ (s : Spirit) (name : String) (args : List Json) (json : Json),
      (s.callJson name args).result = .ok json →
        ∃ results, s.Returns name args results ∧ Leaves results json := by
  refine ⟨fun json type v => ofJson_eq_ok_iff, fun text n => Json.parse?_eq_int_iff, ?_⟩
  intro s name args json hresult
  obtain ⟨results, hreturns, rfl⟩ := exists_returns hresult
  exact ⟨results, hreturns, leaves_resultJson results⟩

end Spirit

namespace Loader

open Spirit

/-- A module with a function that returns the 64-bit integer and the 64-bit float that it is given. -/
def echoModule : Bytes := [
  0x00, 0x61, 0x73, 0x6d, 0x01, 0x00, 0x00, 0x00,
  0x01, 0x08, 0x01, 0x60, 0x02, 0x7e, 0x7c, 0x02, 0x7e, 0x7c,
  0x03, 0x02, 0x01, 0x00,
  0x07, 0x08, 0x01, 0x04, 0x65, 0x63, 0x68, 0x6f, 0x00, 0x00,
  0x0a, 0x08, 0x01, 0x06, 0x00, 0x20, 0x00, 0x20, 0x01, 0x0b]

/-- The greatest 64-bit integer and minus zero. -/
def echoed : List Json := [.int 9223372036854775807, .number (.float 0x8000000000000000)]

theorem echoed_exact : ∃ s json results, (shortLoader.load echoModule {}).result = .ok s ∧
    (s.callJson "echo" echoed).result = .ok json ∧ s.Returns "echo" echoed results ∧
      Leaves results json := by
  have hcalled : ((shortLoader.load echoModule {}).result.toOption.map fun s =>
      (s.callJson "echo" echoed).result.isOk) = some true := by decide +kernel
  cases hload : (shortLoader.load echoModule {}).result with
  | error e =>
    rw [hload] at hcalled
    cases hcalled
  | ok s =>
    rw [hload] at hcalled
    obtain ⟨json, hjson⟩ := Except.isOk_iff.1 (Option.some.inj hcalled)
    obtain ⟨results, hreturns, hleaves⟩ := marshalling_exact.2.2 s "echo" echoed json hjson
    exact ⟨s, json, results, rfl, hjson, hreturns, hleaves⟩

end Loader

end SpiritHost
