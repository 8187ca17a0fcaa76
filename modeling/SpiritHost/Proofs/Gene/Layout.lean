import SpiritHost.Gene.Layout
import SpiritHost.Proofs.Except
import SpiritHost.Proofs.Memory.Reservation

/-!
# Placed fields

The mask of `alignUp` is read as arithmetic (`exists_alignUp`). Fields are placed one behind the
other, so that no two of a layout share a byte or a name (`FieldLayout.Apart`). Where they end
(`GeneLayout.span`) decides whether a sum on the way overflows.
-/

namespace SpiritHost

theorem checkedSum_of_lt {a b : UInt32} (h : a.toNat + b.toNat < 2 ^ 32) :
    checkedSum a b = .ok (a + b) := if_pos h

theorem checkedSum_of_le {a b : UInt32} (h : 2 ^ 32 ≤ a.toNat + b.toNat) :
    checkedSum a b = .error (.panic .overflow) := if_neg (Nat.not_lt.2 h)

theorem toNat_sub_one {word : UInt32} (h : 0 < word.toNat) : (word - 1).toNat = word.toNat - 1 :=
  UInt32.toNat_sub_of_le _ _ (UInt32.le_iff_toNat_le.2 h)

/-- Of a power of two and the number before it no bit is set in both. -/
theorem two_pow_land_pred (k : Nat) : 2 ^ k &&& (2 ^ k - 1) = 0 := by
  apply Nat.eq_of_testBit_eq
  intro i
  rw [Nat.testBit_and, Nat.testBit_two_pow, Nat.testBit_two_pow_sub_one, Nat.zero_testBit,
    ← Bool.decide_and]
  exact decide_eq_false fun h => Nat.lt_irrefl i (h.1 ▸ h.2)

theorem isPowerOfTwo_of_eq {word : UInt32} {k : Nat} (hpow : word.toNat = 2 ^ k) :
    isPowerOfTwo word = true := by
  have hpos : 0 < word.toNat := hpow ▸ Nat.two_pow_pos k
  have hne : word ≠ 0 := by
    rintro rfl
    exact Nat.lt_irrefl 0 hpos
  have hland : word &&& (word - 1) = 0 := by
    rw [← UInt32.toNat_inj, UInt32.toNat_and, toNat_sub_one hpos, hpow]
    exact two_pow_land_pred k
  simp [isPowerOfTwo, hne, hland]

/-- Rounding up in 32-bit words is rounding up, as long as the sum in it is a word. -/
theorem exists_alignUp {offset alignment : UInt32} {k : Nat} (hpow : alignment.toNat = 2 ^ k)
    (hsum : offset.toNat + 2 ^ k < 2 ^ 32) :
    ∃ next, alignUp offset alignment = .ok next ∧ next.toNat = roundUp k offset.toNat := by
  have hpos := Nat.two_pow_pos k
  have hk : k ≤ 32 := by
    have hlt := alignment.toNat_lt
    rw [hpow] at hlt
    exact Nat.le_of_lt ((Nat.pow_lt_pow_iff_right (by decide)).1 hlt)
  rw [← hpow] at hpos hsum
  have hbeyond := toNat_add_of_lt hsum
  have hnot : (~~~(alignment - 1)).toNat = 2 ^ 32 - 1 - (2 ^ k - 1) := by
    rw [← hpow, ← toNat_sub_one hpos]
    exact UInt32.toNat_not _
  refine ⟨(offset + alignment - 1) &&& ~~~(alignment - 1), ?_, ?_⟩
  · rw [alignUp, if_pos (isPowerOfTwo_of_eq hpow), checkedSum_of_lt hsum]
    rfl
  · rw [UInt32.toNat_and, toNat_sub_one (by omega), hbeyond, hnot, land_clear hk (by omega), hpow,
      Nat.add_sub_assoc (Nat.two_pow_pos k)]
    rfl

/-- Otherwise the sum overflows. -/
theorem alignUp_of_le {offset alignment : UInt32} {k : Nat} (hpow : alignment.toNat = 2 ^ k)
    (hsum : 2 ^ 32 ≤ offset.toNat + 2 ^ k) :
    alignUp offset alignment = .error (.panic .overflow) := by
  rw [alignUp, if_pos (isPowerOfTwo_of_eq hpow), checkedSum_of_le (hpow ▸ hsum)]
  rfl

theorem FieldType.size_eq (t : FieldType) : t.size.toNat = 2 ^ t.size.toNat.log2 := by
  cases t <;> decide

theorem FieldType.log2_size_le (t : FieldType) : t.size.toNat.log2 ≤ 3 := by
  cases t <;> decide

/-! ## Fields apart -/

namespace FieldLayout

/-- Where a field ends, from the gene's address on. -/
def finish (f : FieldLayout) : Nat := f.offset.toNat + f.type.size.toNat

/-- Fields with names of their own that lie one behind the other and end before a bound. -/
structure Apart (fields : List FieldLayout) (bound : Nat) : Prop where
  ordered : fields.Pairwise fun f g => f.finish ≤ g.offset.toNat
  inside : ∀ f ∈ fields, f.finish ≤ bound
  distinct : (fields.map (·.name)).Nodup

variable {fields : List FieldLayout} {f : FieldLayout} {bound : Nat}

theorem Apart.nil : Apart [] bound := ⟨.nil, by simp, .nil⟩

theorem Apart.le {larger : Nat} (h : Apart fields bound) (hle : bound ≤ larger) :
    Apart fields larger :=
  ⟨h.ordered, fun f hf => Nat.le_trans (h.inside f hf) hle, h.distinct⟩

theorem Apart.append (h : Apart fields bound) (hbehind : bound ≤ f.offset.toNat)
    (hnew : f.name ∉ fields.map (·.name)) : Apart (fields ++ [f]) f.finish := by
  refine ⟨?_, fun x hx => ?_, ?_⟩
  · refine List.pairwise_append.2 ⟨h.ordered, List.pairwise_singleton _ _, fun x hx y hy => ?_⟩
    rw [List.mem_singleton.1 hy]
    exact Nat.le_trans (h.inside x hx) hbehind
  · rcases List.mem_append.1 hx with hx | hx
    · have := h.inside x hx
      unfold finish at this ⊢
      omega
    · rw [List.mem_singleton.1 hx]
  · rw [List.map_append, List.map_singleton]
    refine List.nodup_append.2 ⟨h.distinct, List.pairwise_singleton _ _, fun a ha b hb heq => ?_⟩
    rw [List.mem_singleton.1 hb] at heq
    exact hnew (heq ▸ ha)

end FieldLayout

namespace GeneLayout

open FieldLayout (Apart)

variable {p q : Progress} {gene name : String} {type : FieldType}

/-- Where fields end that are placed from an offset on, each at the next multiple of its size. -/
def span : List (String × FieldType) → Nat → Nat
  | [], finish => finish
  | (_, type) :: rest, finish =>
    span rest (roundUp type.size.toNat.log2 finish + type.size.toNat)

theorem le_span : ∀ (fields : List (String × FieldType)) (finish : Nat), finish ≤ span fields finish
  | [], _ => Nat.le_refl _
  | (_, type) :: rest, finish => by
    have hbehind := le_roundUp type.size.toNat.log2 finish
    have hrest := le_span rest (roundUp type.size.toNat.log2 finish + type.size.toNat)
    rw [span]
    omega

/-- Fields that are no wider than a power of two take up that much each at most. -/
theorem span_le_of_width (w : Nat) : ∀ (fields : List (String × FieldType)) {finish count : Nat},
    (∀ d ∈ fields, d.2.size.toNat.log2 ≤ w) → finish ≤ 2 ^ w * count →
      span fields finish ≤ 2 ^ w * (count + fields.length)
  | [], _, _, _, h => h
  | (_, type) :: rest, finish, count, hwidth, h => by
    have hnarrow : type.size.toNat.log2 ≤ w := hwidth _ List.mem_cons_self
    have hdvd : 2 ^ type.size.toNat.log2 ∣ 2 ^ w * count :=
      Nat.dvd_mul_right_of_dvd (Nat.pow_dvd_pow 2 hnarrow) _
    have hround := roundUp_le h hdvd
    have hsize := type.size_eq
    have hle : 2 ^ type.size.toNat.log2 ≤ 2 ^ w := Nat.pow_le_pow_right (by decide) hnarrow
    have hnext : roundUp type.size.toNat.log2 finish + type.size.toNat ≤ 2 ^ w * (count + 1) := by
      rw [Nat.mul_succ]
      omega
    have hrest := span_le_of_width w rest (fun d hd => hwidth d (List.mem_cons_of_mem _ hd)) hnext
    rw [span, List.length_cons]
    rwa [Nat.add_right_comm, Nat.add_assoc] at hrest

/-- A field takes up eight bytes at most. -/
theorem span_le (fields : List (String × FieldType)) {finish count : Nat} (h : finish ≤ 8 * count) :
    span fields finish ≤ 8 * (count + fields.length) :=
  span_le_of_width 3 fields (fun d _ => d.2.log2_size_le) h

/-! ## Placing -/

/-- One more field in a layout in the making: where it goes, and what comes of it. -/
structure Progress.Next (p : Progress) (name : String) (type : FieldType) (offset : UInt32)
    (q : Progress) : Prop where
  offset_eq : offset.toNat = roundUp type.size.toNat.log2 p.finish.toNat
  finish_eq : q.finish.toNat = roundUp type.size.toNat.log2 p.finish.toNat + type.size.toNat
  placed : q.placed = p.placed ++ [⟨name, type, offset⟩]
  alignment : q.alignment = max p.alignment type.alignment

/-- A field is placed if it ends early enough, -/
theorem Progress.exists_place (p : Progress) (name : String)
    (hfits : roundUp type.size.toNat.log2 p.finish.toNat + type.size.toNat < 2 ^ 32) :
    ∃ offset q, alignUp p.finish type.alignment = .ok offset ∧ p.place name type = .ok q ∧
      p.Next name type offset q := by
  have hsize : type.alignment.toNat = 2 ^ type.size.toNat.log2 := type.size_eq
  have hbehind := le_roundUp type.size.toNat.log2 p.finish.toNat
  have hsum : p.finish.toNat + 2 ^ type.size.toNat.log2 < 2 ^ 32 := by
    rw [← type.size_eq]
    omega
  obtain ⟨offset, halign, hoffset⟩ := exists_alignUp hsize hsum
  rw [← hoffset] at hfits
  refine ⟨offset, ⟨p.placed ++ [⟨name, type, offset⟩], offset + type.size, _⟩, halign, ?_, hoffset, ?_,
    rfl, rfl⟩
  · rw [place, halign, Except.bind_eq_ok_iff]
    exact ⟨offset, rfl, Except.bind_eq_ok_iff.2 ⟨_, checkedSum_of_lt hfits, rfl⟩⟩
  · rw [← hoffset]
    exact toNat_add_of_lt hfits

/-- and otherwise a sum overflows. -/
theorem Progress.place_of_le (p : Progress) (name : String)
    (hbeyond : 2 ^ 32 ≤ roundUp type.size.toNat.log2 p.finish.toNat + type.size.toNat) :
    p.place name type = .error (.panic .overflow) := by
  have hsize : type.alignment.toNat = 2 ^ type.size.toNat.log2 := type.size_eq
  rw [place, Except.bind_eq_error_iff]
  rcases Nat.lt_or_ge (p.finish.toNat + 2 ^ type.size.toNat.log2) (2 ^ 32) with hsum | hsum
  · obtain ⟨offset, halign, hoffset⟩ := exists_alignUp hsize hsum
    rw [← hoffset] at hbeyond
    exact .inr ⟨offset, halign, Except.bind_eq_error_iff.2 (.inl (checkedSum_of_le hbeyond))⟩
  · exact .inl (alignUp_of_le hsize hsum)

theorem Progress.next_of_place (hok : p.place name type = .ok q) :
    ∃ offset, p.Next name type offset q := by
  rcases Nat.lt_or_ge (roundUp type.size.toNat.log2 p.finish.toNat + type.size.toNat) (2 ^ 32)
    with hfits | hbeyond
  · obtain ⟨offset, r, -, hplace, hnext⟩ := p.exists_place name hfits
    cases hplace.symm.trans hok
    exact ⟨offset, hnext⟩
  · cases (p.place_of_le name hbeyond).symm.trans hok

/-- What holds while fields are placed. -/
structure Progress.Sound (p : Progress) : Prop where
  apart : Apart p.placed p.finish.toNat
  alignment : ∃ k ≤ 3, p.alignment.toNat = 2 ^ k

theorem Progress.sound_start : Progress.start.Sound := ⟨.nil, 0, by decide, rfl⟩

/-- **One field.** It goes behind those already placed. -/
theorem Progress.Sound.next {offset : UInt32} (h : p.Sound) (hnew : name ∉ p.placed.map (·.name))
    (hnext : p.Next name type offset q) : q.Sound := by
  have hbehind := le_roundUp type.size.toNat.log2 p.finish.toNat
  refine ⟨?_, ?_⟩
  · have happend := h.apart.append (f := ⟨name, type, offset⟩) (hnext.offset_eq ▸ hbehind) hnew
    rwa [FieldLayout.finish, hnext.offset_eq, ← hnext.finish_eq, ← hnext.placed] at happend
  · rw [hnext.alignment]
    change ∃ k ≤ 3, (if p.alignment ≤ type.alignment then type.alignment
      else p.alignment).toNat = 2 ^ k
    split
    · exact ⟨type.size.toNat.log2, type.log2_size_le, type.size_eq⟩
    · exact h.alignment

theorem place_cons_eq_ok {rest : List (String × FieldType)} :
    place gene ((name, type) :: rest) p = .ok q ↔
      name ∉ p.placed.map (·.name) ∧ ∃ r, p.place name type = .ok r ∧ place gene rest r = .ok q := by
  have htaken : p.placed.any (·.name == name) = true ↔ name ∈ p.placed.map (·.name) := by
    simp [List.mem_map]
  rw [place]
  split
  · rename_i hany
    exact ⟨nofun, fun h => absurd (htaken.1 hany) h.1⟩
  · rename_i hany
    rw [Except.bind_eq_ok_iff, ← htaken]
    exact (and_iff_right hany).symm

/-- **All fields.** -/
theorem sound_place : ∀ {fields : List (String × FieldType)} {p : Progress},
    place gene fields p = .ok q → p.Sound →
      q.Sound ∧ q.finish.toNat = span fields p.finish.toNat
  | [], _, hok, h => by
    cases hok
    exact ⟨h, rfl⟩
  | (name, type) :: rest, p, hok, h => by
    obtain ⟨hnew, r, hplace, hrest⟩ := place_cons_eq_ok.1 hok
    obtain ⟨offset, hnext⟩ := Progress.next_of_place hplace
    rw [span, ← hnext.finish_eq]
    exact sound_place hrest (h.next hnew hnext)

/-- Placing keeps what was declared, in order. -/
theorem declared_place : ∀ {fields : List (String × FieldType)} {p : Progress},
    place gene fields p = .ok q →
      q.placed.map (fun f => (f.name, f.type)) = p.placed.map (fun f => (f.name, f.type)) ++ fields
  | [], _, hok => by
    cases hok
    rw [List.append_nil]
  | (name, type) :: rest, p, hok => by
    obtain ⟨-, r, hplace, hrest⟩ := place_cons_eq_ok.1 hok
    obtain ⟨offset, hnext⟩ := Progress.next_of_place hplace
    rw [declared_place hrest, hnext.placed, List.map_append, List.append_assoc]
    rfl

/-! ## Padding -/

theorem ofFields_eq_ok_iff {fields : List (String × FieldType)} {g : GeneLayout} :
    ofFields name fields = .ok g ↔ ∃ p size, place name fields .start = .ok p ∧
      alignUp p.finish p.alignment = .ok size ∧ g = ⟨name, p.placed, size, p.alignment⟩ := by
  simp only [ofFields, Except.bind_eq_ok_iff, Except.ok.injEq, exists_and_left, @eq_comm _ g]

/-- A layout has the least size from the end of its fields on that is a multiple of its alignment. -/
theorem Progress.Sound.padding (h : p.Sound) {size : UInt32}
    (halign : alignUp p.finish p.alignment = .ok size) :
    ∃ k, p.alignment.toNat = 2 ^ k ∧ size.toNat = roundUp k p.finish.toNat := by
  obtain ⟨k, -, halignment⟩ := h.alignment
  refine ⟨k, halignment, ?_⟩
  rcases Nat.lt_or_ge (p.finish.toNat + 2 ^ k) (2 ^ 32) with hsum | hsum
  · obtain ⟨next, hnext, hround⟩ := exists_alignUp halignment hsum
    cases hnext.symm.trans halign
    exact hround
  · cases (alignUp_of_le halignment hsum).symm.trans halign

/-- **Layouts.** The fields of a layout lie apart and inside it. -/
theorem apart_ofFields {fields : List (String × FieldType)} {g : GeneLayout}
    (hok : ofFields name fields = .ok g) : Apart g.fields g.size.toNat := by
  obtain ⟨p, size, hplace, halign, rfl⟩ := ofFields_eq_ok_iff.1 hok
  obtain ⟨hsound, -⟩ := sound_place hplace Progress.sound_start
  obtain ⟨k, -, hsize⟩ := hsound.padding halign
  refine hsound.apart.le ?_
  rw [hsize]
  exact le_roundUp k _

end GeneLayout

end SpiritHost
