import SpiritHost.Proofs.Gene.Least

/-!
# Rounding in words

Addresses are rounded up with a bit mask, those of allocations in 64-bit words and those of fields
in 32-bit words. Either way the result is the least multiple of the alignment from a number on, if
there is a result: the sum of 32-bit words may overflow, and that of 64-bit words never does. The
words of a reservation never wrap, its address and its end fit into 32 bits, and so committing it
sets the cursor to that end, neither passing the end over nor keeping the old cursor.
-/

namespace SpiritHost

/-- The multiples of an alignment from a number on. -/
def multiplesFrom (p x : Nat) : Set Nat := {m | p ∣ m ∧ x ≤ m}

/-- The powers of two from a number on. -/
def powersFrom (n : Nat) : Set Nat := {p | (∃ k, p = 2 ^ k) ∧ n ≤ p}

theorem isLeast_roundUp (k x : Nat) : IsLeast (multiplesFrom (2 ^ k) x) (roundUp k x) :=
  ⟨⟨dvd_roundUp k x, le_roundUp k x⟩, fun _ ⟨hdvd, hle⟩ => roundUp_le hle hdvd⟩

theorem isLeast_ceilPowerOfTwo (n : Nat) : IsLeast (powersFrom n) (ceilPowerOfTwo n) := by
  rw [ceilPowerOfTwo_eq]
  refine ⟨⟨⟨_, rfl⟩, Nat.le_pow_clog (by decide) n⟩, ?_⟩
  rintro _ ⟨⟨k, rfl⟩, hle⟩
  exact Nat.pow_le_pow_right (by decide) (Nat.clog_le_of_le_pow hle)

/-! ## Words that do not wrap -/

/-- A sum of words, if it is one. -/
def exactSum (a b : UInt64) : Option UInt64 :=
  if a.toNat + b.toNat < 2 ^ 64 then some (a + b) else none

/-- A difference of words, if there is one. -/
def exactDifference (a b : UInt64) : Option UInt64 := if b ≤ a then some (a - b) else none

theorem exactSum_eq_some_iff {a b c : UInt64} :
    exactSum a b = some c ↔ c.toNat = a.toNat + b.toNat := by
  unfold exactSum
  split
  · rename_i h
    rw [Option.some_inj, ← UInt64.toNat_inj, UInt64.toNat_add, Nat.mod_eq_of_lt h]
    exact eq_comm
  · rename_i h
    refine iff_of_false nofun fun hc => h (hc ▸ c.toNat_lt)

/-- A word rounded up with a mask, through words none of which may wrap. -/
def maskUp? (x p : UInt64) : Option UInt64 := do
  let beyond ← exactSum x p
  let last ← exactDifference beyond 1
  let mask ← exactDifference p 1
  some (last &&& ~~~mask)

theorem maskUp?_eq {x p : UInt64} (hpos : 0 < p.toNat) (hsum : x.toNat + p.toNat < 2 ^ 64) :
    maskUp? x p = some (maskUp x p) := by
  have hone : (1 : UInt64).toNat = 1 := rfl
  have hbeyond : exactSum x p = some (x + p) := if_pos hsum
  have hlast : exactDifference (x + p) 1 = some (x + p - 1) := by
    refine if_pos (UInt64.le_iff_toNat_le.2 ?_)
    rw [UInt64.toNat_add, hone]
    omega
  have hmask : exactDifference p 1 = some (p - 1) := by
    refine if_pos (UInt64.le_iff_toNat_le.2 ?_)
    rw [hone]
    exact hpos
  simp only [maskUp?, hbeyond, hlast, hmask, Option.bind_eq_bind, Option.bind_some]
  rfl

/-- Rounding a number up to a power of two: in 64-bit words it gives the least multiple, and in
32-bit words it gives the same, as long as the number and the power have a sum there. -/
structure Rounds (x p : UInt32) : Prop where
  wide : IsLeast (multiplesFrom p.toNat x.toNat) (maskUp x.toUInt64 p.toUInt64).toNat
  exact_wide : maskUp? x.toUInt64 p.toUInt64 = some (maskUp x.toUInt64 p.toUInt64)
  narrow : x.toNat + p.toNat < 2 ^ 32 →
    ∃ y, alignUp x p = .ok y ∧ y.toUInt64 = maskUp x.toUInt64 p.toUInt64
  overflow : 2 ^ 32 ≤ x.toNat + p.toNat → alignUp x p = .error (.panic .overflow)

theorem rounds_of_power {x p : UInt32} {k : Nat} (hpow : p.toNat = 2 ^ k) : Rounds x p := by
  have hpos := Nat.two_pow_pos k
  have hx := x.toNat_lt
  have hp := p.toNat_lt
  have hwide : p.toUInt64.toNat = 2 ^ k := (UInt32.toNat_toUInt64 p).trans hpow
  have hsum : x.toUInt64.toNat + 2 ^ k < 2 ^ 64 := by
    rw [UInt32.toNat_toUInt64]
    omega
  have hround : (maskUp x.toUInt64 p.toUInt64).toNat = roundUp k x.toNat := by
    rw [toNat_maskUp hwide hsum, UInt32.toNat_toUInt64]
  refine ⟨?_, maskUp?_eq (hwide ▸ hpos) (hwide ▸ hsum), fun hnarrow => ?_, fun hbeyond => ?_⟩
  · rw [hround, hpow]
    exact isLeast_roundUp k x.toNat
  · obtain ⟨y, halign, hy⟩ := exists_alignUp hpow (hpow ▸ hnarrow)
    refine ⟨y, halign, ?_⟩
    rw [← UInt64.toNat_inj, hround, UInt32.toNat_toUInt64]
    exact hy
  · exact alignUp_of_le hpow (hpow ▸ hbeyond)

namespace Allocator

variable (a : Allocator) (size align : UInt32)

/-- A reservation, with the address and the end that are computed on the way. Neither wraps. -/
structure Reserves (address finish : UInt64) : Prop where
  /-- The alignment is rounded up to a power of two. -/
  power : IsLeast (powersFrom align.toNat) (ceilPowerOfTwo align.toNat)
  address_eq :
    maskUp? a.cursor.toUInt64 (UInt64.ofNat (ceilPowerOfTwo align.toNat)) = some address
  finish_eq : exactSum address size.toUInt64 = some finish
  /-- The address is the next one so aligned. -/
  least : IsLeast (multiplesFrom (ceilPowerOfTwo align.toNat) a.cursor.toNat) address.toNat
  outcome : a.reserve size align =
    if addressSpace ≤ finish.toNat then .error (.allocation size finish.toNat)
    else .ok (address.toUInt32, finish)
  /-- An address that is given out is the one computed. -/
  whole : finish.toNat < addressSpace → address.toUInt32.toNat = address.toNat
  /-- The end of a reservation that is made is a cursor, and not before the cursor there was. -/
  ends : finish.toNat < addressSpace →
    finish.toUInt32.toNat = finish.toNat ∧ max a.cursor finish.toUInt32 = finish.toUInt32
  /-- Committing it puts the cursor there and changes nothing else. -/
  commits : finish.toNat < addressSpace → a.commit finish = { a with cursor := finish.toUInt32 }

variable {align}

theorem exists_reserves (h : align.toNat ≤ 2 ^ 31) :
    ∃ address finish, a.Reserves size align address finish := by
  have hk : 2 ^ Nat.clog 2 align.toNat ≤ 2 ^ 31 :=
    Nat.pow_le_pow_right (by decide) (Nat.clog_le_of_le_pow h)
  have hcursor := a.cursor.toNat_lt
  have hsize := size.toNat_lt
  have hplace := a.place_lt align
  have hbefore := a.cursor_le_place align
  have hpower := toNat_ceilPowerOfTwo align
  have haddress := a.toNat_address align
  have houtcome := a.reserve_eq_maskUp size align rfl
  have hexact : maskUp? a.cursor.toUInt64 (UInt64.ofNat (ceilPowerOfTwo align.toNat)) =
      some (maskUp a.cursor.toUInt64 (UInt64.ofNat (ceilPowerOfTwo align.toNat))) := by
    refine maskUp?_eq (hpower ▸ Nat.two_pow_pos _) ?_
    rw [hpower, UInt32.toNat_toUInt64]
    omega
  generalize maskUp a.cursor.toUInt64 (UInt64.ofNat (ceilPowerOfTwo align.toNat)) = address
    at haddress houtcome hexact
  have hfinish : exactSum address size.toUInt64 = some (address + size.toUInt64) := by
    refine if_pos ?_
    rw [haddress, UInt32.toNat_toUInt64]
    omega
  have hend := exactSum_eq_some_iff.1 hfinish
  rw [haddress, UInt32.toNat_toUInt64] at hend
  have hle : a.cursor.toNat ≤ (address + size.toUInt64).toNat := by omega
  refine ⟨address, address + size.toUInt64, isLeast_ceilPowerOfTwo _, hexact, hfinish, ?_, houtcome,
    fun hlt => ?_, fun hlt => ?_, fun hlt => ?_⟩
  · rw [haddress, ceilPowerOfTwo_eq]
    exact isLeast_roundUp _ _
  · exact toNat_toUInt32_of_lt (Nat.lt_of_le_of_lt (by omega) hlt)
  · exact ⟨toNat_toUInt32_of_lt hlt, a.max_cursor hle hlt⟩
  · exact a.commit_eq hle hlt

/-- **Alignment.** Rounding up to a power of two gives the least multiple, in words of both widths
unless the number and the power have no sum in 32 bits. A reservation with an alignment up to
`2 ^ 31` is computed without wrapping, gives out the address computed, and once committed leaves the
cursor at its end. -/
theorem alignment_exact :
    (∀ (x p : UInt32) (k : Nat), p.toNat = 2 ^ k → Rounds x p) ∧
    ∀ (a : Allocator) (size align : UInt32), align.toNat ≤ 2 ^ 31 →
      ∃ address finish, a.Reserves size align address finish :=
  ⟨fun _ _ _ => rounds_of_power, fun a size _ => a.exists_reserves size⟩

/-- At the end of the address space: the largest power of two, and an alignment that is none. -/
theorem alignment_exact_last :
    Rounds 4294967295 2147483648 ∧
      ∃ address finish, Reserves ⟨1024, 4294967264, 0⟩ 16 3 address finish :=
  ⟨alignment_exact.1 _ _ 31 (by decide), alignment_exact.2 _ _ _ (by decide)⟩

/-- A number that is rounded already is not rounded up, though the word that would be masked is one of
32 bits: the sum on the way to it is none. -/
theorem not_alignUp_brim : (8 : UInt32).toNat = 2 ^ 3 ∧
    (4294967288 : UInt32).toNat + (8 : UInt32).toNat - 1 < 2 ^ 32 ∧
    maskUp (4294967288 : UInt32).toUInt64 (8 : UInt32).toUInt64 = 4294967288 ∧
    alignUp 4294967288 8 = .error (.panic .overflow) :=
  ⟨by decide, by decide, by decide, rfl⟩

end Allocator

end SpiritHost
