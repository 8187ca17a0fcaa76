import Mathlib.Algebra.Group.Nat.Defs
import SpiritHost.Decimal.Binary32
import SpiritHost.Decimal.Binary64

/-!
# Finite floats and wider floats

Which patterns of bits stand for a number, and that the wider pattern of a 32-bit float stands for the
same one. Magnitudes are counted in the least units of the two formats, so that they are natural
numbers.
-/

namespace SpiritHost.Decimal

namespace Binary64

variable {bits : UInt64} {s e f : Nat}

/-- The value is a number, neither infinite nor undefined. -/
def isFinite (bits : UInt64) : Bool := bits.toNat / 2 ^ 52 % 2048 ≠ 2047

theorem exists_finite_iff :
    (∃ negative m q, ofBits bits = .finite negative m q) ↔ isFinite bits = true := by
  unfold ofBits isFinite
  dsimp only
  rw [Nat.shiftRight_eq_div_pow bits.toNat 52, decide_eq_true_iff]
  by_cases hspecial : bits.toNat / 2 ^ 52 % 2048 = 2047
  · rw [if_pos hspecial]
    refine ⟨?_, fun h => absurd hspecial h⟩
    rintro ⟨negative, m, q, h⟩
    split at h <;> cases h
  · rw [if_neg hspecial]
    refine ⟨fun _ => hspecial, fun _ => ?_⟩
    split
    · exact ⟨_, _, _, rfl⟩
    · exact ⟨_, _, _, rfl⟩

/-- The bits with the given sign, exponent and fraction. -/
def ofParts (s e f : Nat) : UInt64 := UInt64.ofNat ((s * 2 ^ 11 + e) * 2 ^ 52 + f)

theorem toNat_ofParts (hs : s < 2) (he : e < 2048) (hf : f < 2 ^ 52) :
    (ofParts s e f).toNat = (s * 2 ^ 11 + e) * 2 ^ 52 + f :=
  UInt64.toNat_ofNat_of_lt' (by simp only [UInt64.size]; omega)

theorem isFinite_ofParts (hs : s < 2) (he : e < 2048) (hf : f < 2 ^ 52) :
    isFinite (ofParts s e f) = decide (e ≠ 2047) := by
  rw [isFinite, toNat_ofParts hs he hf]
  congr 2
  omega

theorem hiddenBit_eq : hiddenBit = 2 ^ 52 := rfl

/-- The parts are found again. -/
theorem ofBits_ofParts (hs : s < 2) (he : e < 2047) (hf : f < 2 ^ 52) :
    ofBits (ofParts s e f) =
      if e = 0 then .finite (s = 1) f minExponent
      else .finite (s = 1) (hiddenBit + f) (e - 1 + minExponent) := by
  have hsign : (ofParts s e f).toNat >>> 63 = s := by
    rw [Nat.shiftRight_eq_div_pow, toNat_ofParts hs (by omega) hf]
    omega
  have hbiased : (ofParts s e f).toNat >>> 52 % 2048 = e := by
    rw [Nat.shiftRight_eq_div_pow, toNat_ofParts hs (by omega) hf]
    omega
  have hfraction : (ofParts s e f).toNat % hiddenBit = f := by
    rw [toNat_ofParts hs (by omega) hf, hiddenBit_eq]
    omega
  unfold ofBits
  dsimp only
  rw [hsign, hbiased, hfraction, if_neg (Nat.ne_of_lt he)]

end Binary64

namespace Binary32

variable {bits : UInt32}

/-- The power of two that the least unit of this format, `2 ^ -149`, is of the least unit of the wider
one. -/
def unitExponent : Nat := 925

/-- The magnitude of a number, in least units of this format. -/
def magnitude (bits : UInt32) : Nat :=
  if biased bits = 0 then fraction bits else (2 ^ 23 + fraction bits) * 2 ^ (biased bits - 1)

theorem sign_lt (bits : UInt32) : sign bits < 2 := by
  have := bits.toNat_lt
  unfold sign
  omega

theorem fraction_lt (bits : UInt32) : fraction bits < 2 ^ 23 := Nat.mod_lt _ (by decide)

theorem biased_lt (bits : UInt32) : biased bits < 256 := Nat.mod_lt _ (by decide)

/-- A fraction without a leading bit, moved to where it has one. -/
theorem leading_lt {f : Nat} (hzero : f ≠ 0) (hf : f < 2 ^ 23) :
    f.log2 < 23 ∧ 2 ^ 52 ≤ f * 2 ^ (52 - f.log2) ∧ f * 2 ^ (52 - f.log2) < 2 ^ 53 := by
  have hlog : f.log2 < 23 := (Nat.log2_lt hzero).2 hf
  have hlow := Nat.mul_le_mul_right (2 ^ (52 - f.log2)) (Nat.log2_self_le hzero)
  have hhigh := Nat.mul_lt_mul_of_pos_right (Nat.lt_log2_self (n := f))
    (Nat.two_pow_pos (52 - f.log2))
  rw [← Nat.pow_add] at hlow hhigh
  rw [show f.log2 + (52 - f.log2) = 52 by omega] at hlow
  rw [show f.log2 + 1 + (52 - f.log2) = 53 by omega] at hhigh
  exact ⟨hlog, hlow, hhigh⟩

/-- The wider parts in powers of two. -/
theorem wideParts_eq (e f : Nat) : wideParts e f =
    if e = 255 then (2047, f * 2 ^ 29)
    else if e = 0 then
      if f = 0 then (0, 0) else (f.log2 + 874, f * 2 ^ (52 - f.log2) - 2 ^ 52)
    else (e + 896, f * 2 ^ 29) := by
  rw [wideParts, Nat.shiftLeft_eq]
  rfl

theorem wideParts_lt {e f : Nat} (he : e < 256) (hf : f < 2 ^ 23) :
    (wideParts e f).1 < 2048 ∧ (wideParts e f).2 < 2 ^ 52 ∧
      ((wideParts e f).1 = 2047 ↔ e = 255) := by
  rw [wideParts_eq]
  split
  · dsimp only
    omega
  split
  · split
    · dsimp only
      omega
    · rename_i hzero
      obtain ⟨hlog, hlow, hhigh⟩ := leading_lt hzero hf
      dsimp only
      omega
  · dsimp only
    omega

theorem widen_eq (bits : UInt32) : widen bits = Binary64.ofParts (sign bits)
    (wideParts (biased bits) (fraction bits)).1 (wideParts (biased bits) (fraction bits)).2 := rfl

theorem isFinite_widen (bits : UInt32) : Binary64.isFinite (widen bits) = isFinite bits := by
  obtain ⟨hexponent, hfraction, hspecial⟩ := wideParts_lt (biased_lt bits) (fraction_lt bits)
  rw [widen_eq, Binary64.isFinite_ofParts (sign_lt bits) hexponent hfraction, isFinite]
  exact decide_eq_decide.2 (not_congr hspecial)

/-- **Widening.** A number keeps its sign and its magnitude. -/
theorem ofBits_widen (h : isFinite bits = true) :
    ∃ m q, Binary64.ofBits (widen bits) = .finite (sign bits = 1) m q ∧
      m * 2 ^ (q - Binary64.minExponent).toNat = magnitude bits * 2 ^ unitExponent := by
  have hf := fraction_lt bits
  have hb : biased bits ≠ 255 := of_decide_eq_true h
  obtain ⟨hexponent, hfraction, hspecial⟩ := wideParts_lt (biased_lt bits) hf
  have hparts := Binary64.ofBits_ofParts (sign_lt bits)
    (Nat.lt_of_le_of_ne (Nat.le_of_lt_succ hexponent) (mt hspecial.1 hb)) hfraction
  rw [widen_eq, hparts, magnitude, wideParts_eq, if_neg hb]
  by_cases hzero : biased bits = 0
  · rw [if_pos hzero, if_pos hzero]
    by_cases hnothing : fraction bits = 0
    · rw [if_pos hnothing]
      exact ⟨_, _, if_pos rfl, by simp only [hnothing, Nat.zero_mul]⟩
    · obtain ⟨hlog, hlow, -⟩ := leading_lt hnothing hf
      rw [if_neg hnothing]
      refine ⟨_, _, if_neg (by dsimp only; omega), ?_⟩
      have hunit : (((fraction bits).log2 + 874 : Nat) - 1 + Binary64.minExponent -
          Binary64.minExponent : Int).toNat = (fraction bits).log2 + 873 := by omega
      have hplaces : 52 - (fraction bits).log2 + ((fraction bits).log2 + 873) = unitExponent := by
        rw [unitExponent]
        omega
      rw [hunit, Binary64.hiddenBit_eq, Nat.add_sub_cancel' hlow, Nat.mul_assoc, ← Nat.pow_add,
        hplaces]
  · rw [if_neg hzero, if_neg hzero]
    refine ⟨_, _, if_neg (by dsimp only; omega), ?_⟩
    have hunit : ((biased bits + 896 : Nat) - 1 + Binary64.minExponent -
        Binary64.minExponent : Int).toNat = biased bits - 1 + 896 := by omega
    have hplaces : 29 + (biased bits - 1 + 896) = biased bits - 1 + unitExponent := by
      rw [unitExponent]
      omega
    rw [hunit, Binary64.hiddenBit_eq, show 2 ^ 52 = 2 ^ 23 * 2 ^ 29 from rfl, ← Nat.add_mul,
      Nat.mul_assoc, Nat.mul_assoc, ← Nat.pow_add, ← Nat.pow_add, hplaces]

end Binary32

end SpiritHost.Decimal
