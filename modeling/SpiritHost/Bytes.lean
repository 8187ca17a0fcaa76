/-!
# Byte strings and little-endian words

Linear memory, modules and files are strings of bytes. A word is stored least significant byte
first, and reading back what was written gives the word again (`toNatLE_ofNatLE`).
-/

namespace SpiritHost

/-- A string of bytes. -/
abbrev Bytes := List UInt8

namespace Bytes

/-- The lowest `width` base-256 digits of a number, least significant first. -/
def ofNatLE : Nat → Nat → Bytes
  | 0, _ => []
  | width + 1, n => UInt8.ofNat n :: ofNatLE width (n / 256)

/-- The number whose base-256 digits, least significant first, are the given bytes. -/
def toNatLE : Bytes → Nat
  | [] => 0
  | b :: rest => b.toNat + 256 * toNatLE rest

@[simp] theorem length_ofNatLE (width n : Nat) : (ofNatLE width n).length = width := by
  induction width generalizing n with
  | zero => rfl
  | succ width ih => simp [ofNatLE, ih]

/-- How many numbers have so many base-256 digits. -/
def capacity : Nat → Nat
  | 0 => 1
  | width + 1 => 256 * capacity width

/-- Digits cut off above the width are lost, the others read back. -/
theorem toNatLE_ofNatLE (width n : Nat) : toNatLE (ofNatLE width n) = n % capacity width := by
  induction width generalizing n with
  | zero => simp [ofNatLE, toNatLE, capacity, Nat.mod_one]
  | succ width ih =>
    have low : (UInt8.ofNat n).toNat = n % 256 := by simp
    rw [ofNatLE, toNatLE, ih, low, capacity, Nat.mod_mul]

/-- Four bytes as a 32-bit word. -/
def toUInt32 (bs : Bytes) : UInt32 := UInt32.ofNat bs.toNatLE

/-- Eight bytes as a 64-bit word. -/
def toUInt64 (bs : Bytes) : UInt64 := UInt64.ofNat bs.toNatLE

/-- The four bytes of a 32-bit word. -/
def ofUInt32 (word : UInt32) : Bytes := ofNatLE 4 word.toNat

/-- The eight bytes of a 64-bit word. -/
def ofUInt64 (word : UInt64) : Bytes := ofNatLE 8 word.toNat

@[simp] theorem length_ofUInt32 (word : UInt32) : (ofUInt32 word).length = 4 := length_ofNatLE ..

@[simp] theorem length_ofUInt64 (word : UInt64) : (ofUInt64 word).length = 8 := length_ofNatLE ..

@[simp] theorem toUInt32_ofUInt32 (word : UInt32) : toUInt32 (ofUInt32 word) = word := by
  have := word.toNat_lt
  simp only [toUInt32, ofUInt32, toNatLE_ofNatLE, capacity]
  rw [Nat.mod_eq_of_lt (by omega), UInt32.ofNat_toNat]

@[simp] theorem toUInt64_ofUInt64 (word : UInt64) : toUInt64 (ofUInt64 word) = word := by
  have := word.toNat_lt
  simp only [toUInt64, ofUInt64, toNatLE_ofNatLE, capacity]
  rw [Nat.mod_eq_of_lt (by omega), UInt64.ofNat_toNat]

end Bytes

end SpiritHost
