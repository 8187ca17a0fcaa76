import Mathlib.Algebra.Group.Nat.Defs
import Mathlib.Data.Nat.Log
import SpiritHost.Memory.Allocator

/-!
# Reservations

`Allocator.reserve` rounds the cursor up with a bit mask. Here the mask is read as arithmetic: the
next region starts at the least multiple of the alignment that is not below the cursor
(`Allocator.place`), and the 64-bit sums on the way never wrap. Histories of allocators are built on
`reserve_eq` and `cursor_commit` alone.
-/

namespace SpiritHost

theorem toNat_add_of_lt {a b : UInt32} (h : a.toNat + b.toNat < 2 ^ 32) :
    (a + b).toNat = a.toNat + b.toNat :=
  (UInt32.toNat_add a b).trans (Nat.mod_eq_of_lt h)

theorem ceilPowerOfTwo_eq (n : Nat) : ceilPowerOfTwo n = 2 ^ Nat.clog 2 n := by
  unfold ceilPowerOfTwo
  by_cases hn : n ≤ 1
  · simp [hn, Nat.clog_of_right_le_one hn]
  · have hlog : Nat.clog 2 n = (n - 1).log2 + 1 := by
      refine Nat.le_antisymm (Nat.clog_le_of_le_pow ?_) ?_
      · have := Nat.lt_log2_self (n := n - 1)
        omega
      · rw [Nat.succ_le_iff, Nat.lt_clog_iff_pow_lt (by decide)]
        have := Nat.log2_self_le (n := n - 1) (by omega)
        omega
    rw [if_neg hn, hlog, Nat.one_shiftLeft]

/-- Clearing the lowest `k` bits of a number of `w` bits rounds it down to a multiple of `2 ^ k`. -/
theorem land_clear {w k y : Nat} (hk : k ≤ w) (hy : y < 2 ^ w) :
    y &&& (2 ^ w - 1 - (2 ^ k - 1)) = y / 2 ^ k * 2 ^ k := by
  have hmask : 2 ^ w - 1 - (2 ^ k - 1) = 2 ^ k * (2 ^ (w - k) - 1) := by
    have hpow : 2 ^ k * 2 ^ (w - k) = 2 ^ w := by rw [← Nat.pow_add, Nat.add_sub_cancel' hk]
    have := Nat.two_pow_pos k
    rw [Nat.mul_sub, hpow]
    omega
  rw [hmask]
  apply Nat.eq_of_testBit_eq
  intro i
  rw [Nat.testBit_and, Nat.testBit_two_pow_mul, Nat.testBit_two_pow_sub_one,
    Nat.testBit_mul_two_pow, Nat.testBit_div_two_pow]
  by_cases hi : k ≤ i
  · rw [Nat.sub_add_cancel hi]
    by_cases hw : i < w
    · simp [hi, show i - k < w - k by omega]
    · have : y.testBit i = false :=
        Nat.testBit_lt_two_pow (Nat.lt_of_lt_of_le hy (Nat.pow_le_pow_right (by decide) (by omega)))
      simp [this]
  · simp [hi]

/-- A number rounded up to a multiple of `2 ^ k`. -/
def roundUp (k n : Nat) : Nat := (n + (2 ^ k - 1)) / 2 ^ k * 2 ^ k

/-- A word rounded up with a mask. -/
def maskUp (x p : UInt64) : UInt64 := (x + p - 1) &&& ~~~(p - 1)

/-- Rounding up in words is rounding up, as long as the sum in it does not wrap. -/
theorem toNat_maskUp {x p : UInt64} {k : Nat} (hpow : p.toNat = 2 ^ k)
    (hsum : x.toNat + 2 ^ k < 2 ^ 64) : (maskUp x p).toNat = roundUp k x.toNat := by
  have hpos := Nat.two_pow_pos k
  have hk : k ≤ 64 := Nat.le_of_lt ((Nat.pow_lt_pow_iff_right (by decide)).1 (hpow ▸ p.toNat_lt))
  have hone : (1 : UInt64).toNat = 1 := rfl
  have hlast : (x + p - 1).toNat = x.toNat + (2 ^ k - 1) := by
    rw [UInt64.toNat_sub, UInt64.toNat_add, hpow, hone]
    omega
  have hmask : (p - 1).toNat = 2 ^ k - 1 := by
    rw [UInt64.toNat_sub, hpow, hone]
    omega
  have hnot : (~~~(p - 1)).toNat = 2 ^ 64 - 1 - (2 ^ k - 1) :=
    (UInt64.toNat_not _).trans (congrArg (UInt64.size - 1 - ·) hmask)
  rw [maskUp, UInt64.toNat_and, hnot, hlast, land_clear hk (by omega)]
  rfl

theorem dvd_roundUp (k n : Nat) : 2 ^ k ∣ roundUp k n := Nat.dvd_mul_left _ _

theorem le_roundUp (k n : Nat) : n ≤ roundUp k n := by
  have hpos := Nat.two_pow_pos k
  have hdiv := Nat.div_add_mod (n + (2 ^ k - 1)) (2 ^ k)
  have hmod := Nat.mod_lt (n + (2 ^ k - 1)) hpos
  rw [Nat.mul_comm] at hdiv
  unfold roundUp
  omega

/-- It is the least multiple that is not below the number. -/
theorem roundUp_le {k n m : Nat} (hle : n ≤ m) (hdvd : 2 ^ k ∣ m) : roundUp k n ≤ m := by
  have hpos := Nat.two_pow_pos k
  obtain ⟨c, rfl⟩ := hdvd
  have hlt : (n + (2 ^ k - 1)) / 2 ^ k < c + 1 := by
    rw [Nat.div_lt_iff_lt_mul hpos, Nat.add_mul, Nat.one_mul, Nat.mul_comm]
    omega
  rw [roundUp, Nat.mul_comm (2 ^ k)]
  exact Nat.mul_le_mul_right _ (Nat.lt_succ_iff.1 hlt)

namespace Allocator

/-- The least multiple of the alignment, rounded up to a power of two, that is not below the
cursor. -/
def place (a : Allocator) (align : UInt32) : Nat :=
  (a.cursor.toNat + (2 ^ Nat.clog 2 align.toNat - 1)) / 2 ^ Nat.clog 2 align.toNat *
    2 ^ Nat.clog 2 align.toNat

variable (a : Allocator) (size align : UInt32)

theorem clog_align_le : Nat.clog 2 align.toNat ≤ 32 :=
  Nat.clog_le_of_le_pow (Nat.le_of_lt align.toNat_lt)

theorem dvd_place : 2 ^ Nat.clog 2 align.toNat ∣ a.place align := dvd_roundUp _ _

theorem cursor_le_place : a.cursor.toNat ≤ a.place align := le_roundUp _ _

theorem place_lt : a.place align < 2 ^ 33 := by
  have hle := Nat.pow_le_pow_right (n := 2) (by decide) (clog_align_le align)
  have hmul := Nat.div_mul_le_self (a.cursor.toNat + (2 ^ Nat.clog 2 align.toNat - 1))
    (2 ^ Nat.clog 2 align.toNat)
  have hcursor := a.cursor.toNat_lt
  unfold place
  omega

/-- The alignment of a reservation. -/
theorem toNat_ceilPowerOfTwo :
    (UInt64.ofNat (ceilPowerOfTwo align.toNat)).toNat = 2 ^ Nat.clog 2 align.toNat := by
  have hle := Nat.pow_le_pow_right (n := 2) (by decide) (clog_align_le align)
  rw [ceilPowerOfTwo_eq]
  exact UInt64.toNat_ofNat_of_lt' (Nat.lt_of_le_of_lt hle (by decide))

/-- The masked sum of a reservation is the place of the next region. -/
theorem toNat_address :
    (maskUp a.cursor.toUInt64 (UInt64.ofNat (ceilPowerOfTwo align.toNat))).toNat =
      a.place align := by
  have hle := Nat.pow_le_pow_right (n := 2) (by decide) (clog_align_le align)
  have hcursor := a.cursor.toNat_lt
  refine toNat_maskUp (toNat_ceilPowerOfTwo align) ?_
  rw [UInt32.toNat_toUInt64]
  omega

/-- A reservation in terms of the address before it is cut to 32 bits. -/
theorem reserve_eq_maskUp {address : UInt64}
    (h : maskUp a.cursor.toUInt64 (UInt64.ofNat (ceilPowerOfTwo align.toNat)) = address) :
    a.reserve size align =
      if addressSpace ≤ (address + size.toUInt64).toNat then
        .error (.allocation size (address + size.toUInt64).toNat)
      else .ok (address.toUInt32, address + size.toUInt64) := by
  rw [← h, maskUp, UInt64.sub_eq_add_neg, UInt64.add_assoc, ← UInt64.sub_eq_add_neg]
  rfl

/-- **Reservation.** The next region starts at the next aligned place and fails exactly if it would
not end below `2 ^ 32`. -/
theorem reserve_eq :
    a.reserve size align =
      if addressSpace ≤ a.place align + size.toNat then
        .error (.allocation size (a.place align + size.toNat))
      else .ok (UInt32.ofNat (a.place align), UInt64.ofNat (a.place align + size.toNat)) := by
  have hplace := a.place_lt align
  have hsize := size.toNat_lt
  have haddress := a.toNat_address align
  rw [a.reserve_eq_maskUp size align rfl]
  generalize maskUp a.cursor.toUInt64 (UInt64.ofNat (ceilPowerOfTwo align.toNat)) = address
    at haddress
  have hfinish : (address + size.toUInt64).toNat = a.place align + size.toNat := by
    rw [UInt64.toNat_add, haddress, UInt32.toNat_toUInt64, Nat.mod_eq_of_lt (by omega)]
  have hcut : address.toUInt32 = UInt32.ofNat (a.place align) := by
    rw [← haddress]; rfl
  have hsum : address + size.toUInt64 = UInt64.ofNat (a.place align + size.toNat) := by
    rw [← hfinish, UInt64.ofNat_toNat]
  rw [hfinish, hcut, hsum]

@[simp] theorem base_commit (finish : UInt64) : (a.commit finish).base = a.base := by
  unfold commit; split <;> rfl

@[simp] theorem generation_commit (finish : UInt64) :
    (a.commit finish).generation = a.generation := by
  unfold commit; split <;> rfl

theorem toNat_toUInt32_of_lt {w : UInt64} (h : w.toNat < addressSpace) :
    w.toUInt32.toNat = w.toNat :=
  (UInt64.toNat_toUInt32 w).trans (Nat.mod_eq_of_lt h)

variable {finish : UInt64}

/-- Of the cursor and an end that is not before it, the end is kept. -/
theorem max_cursor (hle : a.cursor.toNat ≤ finish.toNat) (hlt : finish.toNat < addressSpace) :
    max a.cursor finish.toUInt32 = finish.toUInt32 := by
  refine if_pos (UInt32.le_iff_toNat_le.2 ?_)
  rw [toNat_toUInt32_of_lt hlt]
  exact hle

theorem commit_eq (hle : a.cursor.toNat ≤ finish.toNat) (hlt : finish.toNat < addressSpace) :
    a.commit finish = { a with cursor := finish.toUInt32 } := by
  rw [commit, if_pos hlt, a.max_cursor hle hlt]

/-- Committing moves the cursor to the end of a reservation. -/
theorem cursor_commit {finish : Nat} (hle : a.cursor.toNat ≤ finish) (hlt : finish < addressSpace) :
    (a.commit (UInt64.ofNat finish)).cursor.toNat = finish := by
  have hnat : (UInt64.ofNat finish).toNat = finish :=
    UInt64.toNat_ofNat_of_lt' (Nat.lt_of_lt_of_le hlt (by decide))
  rw [← hnat] at hle hlt
  rw [a.commit_eq hle hlt, toNat_toUInt32_of_lt hlt, hnat]

end Allocator

end SpiritHost
