import SpiritHost.Text.Utf8

/-!
# Reading back UTF-8

Which bytes are read as one scalar is said here in numbers, one statement for each length
(`scalars_one` to `scalars_four`). The bytes of a scalar are such, whatever follows them; so no part
of a text's bytes is ill formed, and reading them with replacements gives the text
(`decodeLossy_encode`). The other way round, bytes without an ill-formed part are those of their
scalars, so a text that must be well formed is read exactly from its own bytes
(`decode?_eq_some_iff`).
-/

namespace SpiritHost.Utf8

variable {b b₁ b₂ b₃ : UInt8} {rest : Bytes}

/-! ## Bytes that are read as one scalar -/

theorem scalars_one (hb : b.toNat < 0x80) :
    scalars (b :: rest) = some (Char.ofNat b.toNat) :: scalars rest := by
  have hascii : b < 0x80 := UInt8.lt_iff_toNat_lt.2 hb
  rw [scalars.eq_def]
  simp [hascii]

theorem not_ascii (hb : 0x80 ≤ b.toNat) : ¬b < 0x80 := fun h =>
  absurd (UInt8.lt_iff_toNat_lt.1 h) (Nat.not_lt.2 hb)

theorem isContinuation_iff : isContinuation b = true ↔ 0x80 ≤ b.toNat ∧ b.toNat ≤ 0xBF := by
  simp [isContinuation, UInt8.le_iff_toNat_le]

theorem scalars_two (hlow : 0xC2 ≤ b.toNat) (hhigh : b.toNat < 0xE0)
    (h₁ : 0x80 ≤ b₁.toNat ∧ b₁.toNat ≤ 0xBF) :
    scalars (b :: b₁ :: rest) =
      some (Char.ofNat ((b.toNat - 0xC0) * 64 + (b₁.toNat - 0x80))) :: scalars rest := by
  have hascii := not_ascii (b := b) (by omega)
  have hlead : lead? b = some ⟨b.toNat - 0xC0, 1, 0x80, 0xBF⟩ := by
    simp only [lead?, UInt8.lt_iff_toNat_lt, UInt8.reduceToNat]
    rw [if_neg (by omega), if_pos hhigh]
  have hfirst : ¬b₁ < 0x80 ∧ ¬0xBF < b₁ := by
    simp only [UInt8.lt_iff_toNat_lt, UInt8.reduceToNat]
    omega
  rw [scalars.eq_def]
  simp only [hlead, if_neg hascii, hfirst.1, hfirst.2, decide_false, Bool.or_false, if_true]
  rfl

theorem scalars_three (hlow : 0xE0 ≤ b.toNat) (hhigh : b.toNat < 0xF0)
    (h₁ : 0x80 ≤ b₁.toNat ∧ b₁.toNat ≤ 0xBF) (hshort : b.toNat = 0xE0 → 0xA0 ≤ b₁.toNat)
    (hsurrogate : b.toNat = 0xED → b₁.toNat ≤ 0x9F) (h₂ : 0x80 ≤ b₂.toNat ∧ b₂.toNat ≤ 0xBF) :
    scalars (b :: b₁ :: b₂ :: rest) =
      some (Char.ofNat (((b.toNat - 0xE0) * 64 + (b₁.toNat - 0x80)) * 64 + (b₂.toNat - 0x80))) ::
        scalars rest := by
  have hascii := not_ascii (b := b) (by omega)
  have hlead : lead? b = some ⟨b.toNat - 0xE0, 2, if b = 0xE0 then 0xA0 else 0x80,
      if b = 0xED then 0x9F else 0xBF⟩ := by
    simp only [lead?, UInt8.lt_iff_toNat_lt, UInt8.reduceToNat]
    rw [if_neg (by omega), if_neg (by omega), if_pos hhigh]
  have hfirst : ¬(b₁ < if b = 0xE0 then 0xA0 else 0x80) ∧
      ¬(if b = 0xED then 0x9F else 0xBF) < b₁ := by
    simp only [← UInt8.toNat_inj, UInt8.lt_iff_toNat_lt, apply_ite UInt8.toNat, UInt8.reduceToNat]
    split <;> split <;> omega
  rw [scalars.eq_def]
  simp only [hlead, if_neg hascii, hfirst.1, hfirst.2, decide_false, Bool.or_false,
    isContinuation_iff.2 h₂, if_true]
  rfl

theorem scalars_four (hlow : 0xF0 ≤ b.toNat) (hhigh : b.toNat < 0xF5)
    (h₁ : 0x80 ≤ b₁.toNat ∧ b₁.toNat ≤ 0xBF) (hshort : b.toNat = 0xF0 → 0x90 ≤ b₁.toNat)
    (hlast : b.toNat = 0xF4 → b₁.toNat ≤ 0x8F) (h₂ : 0x80 ≤ b₂.toNat ∧ b₂.toNat ≤ 0xBF)
    (h₃ : 0x80 ≤ b₃.toNat ∧ b₃.toNat ≤ 0xBF) :
    scalars (b :: b₁ :: b₂ :: b₃ :: rest) =
      some (Char.ofNat ((((b.toNat - 0xF0) * 64 + (b₁.toNat - 0x80)) * 64 +
        (b₂.toNat - 0x80)) * 64 + (b₃.toNat - 0x80))) :: scalars rest := by
  have hascii := not_ascii (b := b) (by omega)
  have hlead : lead? b = some ⟨b.toNat - 0xF0, 3, if b = 0xF0 then 0x90 else 0x80,
      if b = 0xF4 then 0x8F else 0xBF⟩ := by
    simp only [lead?, UInt8.lt_iff_toNat_lt, UInt8.reduceToNat]
    rw [if_neg (by omega), if_neg (by omega), if_neg (by omega), if_pos hhigh]
  have hfirst : ¬(b₁ < if b = 0xF0 then 0x90 else 0x80) ∧
      ¬(if b = 0xF4 then 0x8F else 0xBF) < b₁ := by
    simp only [← UInt8.toNat_inj, UInt8.lt_iff_toNat_lt, apply_ite UInt8.toNat, UInt8.reduceToNat]
    split <;> split <;> omega
  rw [scalars.eq_def]
  simp only [hlead, if_neg hascii, hfirst.1, hfirst.2, decide_false, Bool.or_false,
    isContinuation_iff.2 h₂, isContinuation_iff.2 h₃]
  rfl

/-! ## Texts -/

/-- **One scalar.** Its bytes are read back as the scalar, whatever follows them. -/
theorem scalars_utf8EncodeChar (c : Char) (rest : Bytes) :
    scalars (String.utf8EncodeChar c ++ rest) = some c :: scalars rest := by
  have hvalid : c.val.toNat < 0xD800 ∨ 0xDFFF < c.val.toNat ∧ c.val.toNat < 0x110000 := c.valid
  have hback : Char.ofNat c.val.toNat = c := Char.ofNat_toNat c
  have hbyte : ∀ n < 256, (UInt8.ofNat n).toNat = n := fun n hn => UInt8.toNat_ofNat_of_lt' hn
  unfold String.utf8EncodeChar
  generalize c.val.toNat = v at hvalid hback
  dsimp only
  by_cases hone : v ≤ 127
  · have h₀ := hbyte v (by omega)
    rw [if_pos hone, List.cons_append, List.nil_append, scalars_one (by omega), h₀, hback]
  by_cases htwo : v ≤ 2047
  · have h₀ := hbyte (v / 64 % 32 + 192) (by omega)
    have h₁ := hbyte (v % 64 + 128) (by omega)
    have hv : (v / 64 % 32 + 192 - 0xC0) * 64 + (v % 64 + 128 - 0x80) = v := by omega
    rw [if_neg hone, if_pos htwo, List.cons_append, List.cons_append, List.nil_append,
      scalars_two (by omega) (by omega) (by omega), h₀, h₁, hv, hback]
  by_cases hthree : v ≤ 65535
  · have h₀ := hbyte (v / 4096 % 16 + 224) (by omega)
    have h₁ := hbyte (v / 64 % 64 + 128) (by omega)
    have h₂ := hbyte (v % 64 + 128) (by omega)
    have hv : ((v / 4096 % 16 + 224 - 0xE0) * 64 + (v / 64 % 64 + 128 - 0x80)) * 64 +
        (v % 64 + 128 - 0x80) = v := by omega
    rw [if_neg hone, if_neg htwo, if_pos hthree, List.cons_append, List.cons_append,
      List.cons_append, List.nil_append,
      scalars_three (by omega) (by omega) (by omega) (by omega) (by omega) (by omega), h₀, h₁, h₂,
      hv, hback]
  · have h₀ := hbyte (v / 262144 % 8 + 240) (by omega)
    have h₁ := hbyte (v / 4096 % 64 + 128) (by omega)
    have h₂ := hbyte (v / 64 % 64 + 128) (by omega)
    have h₃ := hbyte (v % 64 + 128) (by omega)
    have hv : (((v / 262144 % 8 + 240 - 0xF0) * 64 + (v / 4096 % 64 + 128 - 0x80)) * 64 +
        (v / 64 % 64 + 128 - 0x80)) * 64 + (v % 64 + 128 - 0x80) = v := by omega
    rw [if_neg hone, if_neg htwo, if_neg hthree, List.cons_append, List.cons_append,
      List.cons_append, List.cons_append, List.nil_append,
      scalars_four (by omega) (by omega) (by omega) (by omega) (by omega) (by omega) (by omega),
      h₀, h₁, h₂, h₃, hv, hback]

theorem scalars_flatMap : ∀ cs : List Char, scalars (cs.flatMap String.utf8EncodeChar) = cs.map some
  | [] => by
    rw [List.flatMap_nil, scalars.eq_def]
    rfl
  | c :: cs => by
    rw [List.flatMap_cons, scalars_utf8EncodeChar, scalars_flatMap cs, List.map_cons]

/-- **Reading back.** The bytes of a text are read as the text. -/
theorem decodeLossy_encode (text : String) : decodeLossy (encode text) = text := by
  have hgetD : ((fun o : Option Char => o.getD '\uFFFD') ∘ some) = id := rfl
  rw [decodeLossy, encode, scalars_flatMap, List.map_map, hgetD, List.map_id, String.ofList_toList]

/-! ## Well-formed bytes -/

/-- A scalar value is that of its character. -/
theorem val_ofNat {v : Nat} (h : v < 0xD800 ∨ 0xDFFF < v ∧ v < 0x110000) :
    (Char.ofNat v).val.toNat = v := by
  have hvalid : v.isValidChar := h
  rw [Char.ofNat, dif_pos hvalid]
  rfl

theorem byte_of_toNat {n : Nat} (h : n = b.toNat) : UInt8.ofNat n = b := h ▸ UInt8.ofNat_toNat

theorem utf8EncodeChar_one (hb : b.toNat < 0x80) :
    String.utf8EncodeChar (Char.ofNat b.toNat) = [b] := by
  unfold String.utf8EncodeChar
  rw [val_ofNat (by omega)]
  dsimp only
  rw [if_pos (by omega), byte_of_toNat rfl]

theorem utf8EncodeChar_two (hlow : 0xC2 ≤ b.toNat) (hhigh : b.toNat < 0xE0)
    (h₁ : 0x80 ≤ b₁.toNat ∧ b₁.toNat ≤ 0xBF) :
    String.utf8EncodeChar (Char.ofNat ((b.toNat - 0xC0) * 64 + (b₁.toNat - 0x80))) = [b, b₁] := by
  unfold String.utf8EncodeChar
  rw [val_ofNat (by omega)]
  dsimp only
  rw [if_neg (by omega), if_pos (by omega), byte_of_toNat (b := b) (by omega),
    byte_of_toNat (b := b₁) (by omega)]

theorem utf8EncodeChar_three (hlow : 0xE0 ≤ b.toNat) (hhigh : b.toNat < 0xF0)
    (h₁ : 0x80 ≤ b₁.toNat ∧ b₁.toNat ≤ 0xBF) (hshort : b.toNat = 0xE0 → 0xA0 ≤ b₁.toNat)
    (hsurrogate : b.toNat = 0xED → b₁.toNat ≤ 0x9F) (h₂ : 0x80 ≤ b₂.toNat ∧ b₂.toNat ≤ 0xBF) :
    String.utf8EncodeChar (Char.ofNat (((b.toNat - 0xE0) * 64 + (b₁.toNat - 0x80)) * 64 +
      (b₂.toNat - 0x80))) = [b, b₁, b₂] := by
  unfold String.utf8EncodeChar
  rw [val_ofNat (by omega)]
  dsimp only
  rw [if_neg (by omega), if_neg (by omega), if_pos (by omega), byte_of_toNat (b := b) (by omega),
    byte_of_toNat (b := b₁) (by omega), byte_of_toNat (b := b₂) (by omega)]

theorem utf8EncodeChar_four (hlow : 0xF0 ≤ b.toNat) (hhigh : b.toNat < 0xF5)
    (h₁ : 0x80 ≤ b₁.toNat ∧ b₁.toNat ≤ 0xBF) (hshort : b.toNat = 0xF0 → 0x90 ≤ b₁.toNat)
    (hlast : b.toNat = 0xF4 → b₁.toNat ≤ 0x8F) (h₂ : 0x80 ≤ b₂.toNat ∧ b₂.toNat ≤ 0xBF)
    (h₃ : 0x80 ≤ b₃.toNat ∧ b₃.toNat ≤ 0xBF) :
    String.utf8EncodeChar (Char.ofNat ((((b.toNat - 0xF0) * 64 + (b₁.toNat - 0x80)) * 64 +
      (b₂.toNat - 0x80)) * 64 + (b₃.toNat - 0x80))) = [b, b₁, b₂, b₃] := by
  unfold String.utf8EncodeChar
  rw [val_ofNat (by omega)]
  dsimp only
  rw [if_neg (by omega), if_neg (by omega), if_neg (by omega), byte_of_toNat (b := b) (by omega),
    byte_of_toNat (b := b₁) (by omega), byte_of_toNat (b := b₂) (by omega),
    byte_of_toNat (b := b₃) (by omega)]
/-- The forms a scalar of several bytes begins with, in numbers. -/
theorem lead?_eq_some {l : Lead} (h : lead? b = some l) :
    (0xC2 ≤ b.toNat ∧ b.toNat < 0xE0 ∧ l = ⟨b.toNat - 0xC0, 1, 0x80, 0xBF⟩) ∨
    (0xE0 ≤ b.toNat ∧ b.toNat < 0xF0 ∧ l = ⟨b.toNat - 0xE0, 2, if b = 0xE0 then 0xA0 else 0x80,
      if b = 0xED then 0x9F else 0xBF⟩) ∨
    (0xF0 ≤ b.toNat ∧ b.toNat < 0xF5 ∧ l = ⟨b.toNat - 0xF0, 3, if b = 0xF0 then 0x90 else 0x80,
      if b = 0xF4 then 0x8F else 0xBF⟩) := by
  simp only [lead?, UInt8.lt_iff_toNat_lt, UInt8.reduceToNat] at h
  split at h
  · cases h
  rename_i hlow
  split at h
  · rename_i htwo
    exact .inl ⟨by omega, htwo, (Option.some.inj h).symm⟩
  rename_i htwo
  split at h
  · rename_i hthree
    exact .inr (.inl ⟨by omega, hthree, (Option.some.inj h).symm⟩)
  rename_i hthree
  split at h
  · rename_i hfour
    exact .inr (.inr ⟨by omega, hfour, (Option.some.inj h).symm⟩)
  · cases h

theorem between_of_not_outside {low high : UInt8}
    (h : ¬(decide (b < low) || decide (high < b)) = true) :
    low.toNat ≤ b.toNat ∧ b.toNat ≤ high.toNat := by
  simp only [Bool.or_eq_true, decide_eq_true_eq, not_or, UInt8.not_lt, UInt8.le_iff_toNat_le] at h
  exact h

/-- The first following byte between bounds of which one is closer after one lead byte, and the
other after another. -/
theorem between_of_lead {short long low high : UInt8}
    (h : ¬(decide (b₁ < if b = short then low else 0x80) ||
      decide ((if b = long then high else 0xBF) < b₁)) = true)
    (hlow : 0x80 ≤ low.toNat) (hhigh : high.toNat ≤ 0xBF) :
    (0x80 ≤ b₁.toNat ∧ b₁.toNat ≤ 0xBF) ∧ (b.toNat = short.toNat → low.toNat ≤ b₁.toNat) ∧
      (b.toNat = long.toNat → b₁.toNat ≤ high.toNat) := by
  have h := between_of_not_outside h
  simp only [apply_ite UInt8.toNat, UInt8.reduceToNat, ← UInt8.toNat_inj] at h
  split at h <;> split at h <;> omega

theorem isContinuation_of_not (h : ¬(!isContinuation b) = true) :
    0x80 ≤ b.toNat ∧ b.toNat ≤ 0xBF := by
  rw [Bool.not_eq_true', Bool.not_eq_false] at h
  exact isContinuation_iff.1 h

/-- What stands first is one scalar, and then its bytes stand there. -/
theorem exists_of_scalars_eq_cons {bytes : Bytes} {c : Char} {more : List (Option Char)} :
    scalars bytes = some c :: more →
      ∃ rest, bytes = String.utf8EncodeChar c ++ rest ∧ scalars rest = more := by
  have hread : ∀ {d : Char} {rest : Bytes}, some d :: scalars rest = some c :: more →
      bytes = String.utf8EncodeChar d ++ rest →
        ∃ rest, bytes = String.utf8EncodeChar c ++ rest ∧ scalars rest = more := by
    intro d rest h hbytes
    obtain ⟨hd, hmore⟩ := List.cons.inj h
    exact ⟨rest, Option.some.inj hd ▸ hbytes, hmore⟩
  -- only the four cases that read a scalar give one first
  fun_cases scalars bytes
  case case2 b rest hascii =>
    intro h
    have hbytes := utf8EncodeChar_one (UInt8.lt_iff_toNat_lt.1 hascii)
    exact hread h (congrArg (· ++ rest) hbytes.symm)
  case case6 b hascii l hlead b₁ rest hfirst _ hfollowing =>
    intro h
    obtain ⟨hlow, hhigh, rfl⟩ | ⟨-, -, rfl⟩ | ⟨-, -, rfl⟩ := lead?_eq_some hlead
    · have hbytes := utf8EncodeChar_two hlow hhigh (between_of_not_outside hfirst)
      exact hread h (congrArg (· ++ rest) hbytes.symm)
    · cases hfollowing
    · cases hfollowing
  case case9 b hascii l hlead b₁ hfirst _ hone b₂ rest hsecond _ hfollowing =>
    intro h
    obtain ⟨-, -, rfl⟩ | ⟨hlow, hhigh, rfl⟩ | ⟨-, -, rfl⟩ := lead?_eq_some hlead
    · cases hfollowing
    · obtain ⟨h₁, hshort, hsurrogate⟩ := between_of_lead hfirst (by decide) (by decide)
      have hbytes := utf8EncodeChar_three hlow hhigh h₁ hshort hsurrogate
        (isContinuation_of_not hsecond)
      exact hread h (congrArg (· ++ rest) hbytes.symm)
    · cases hfollowing
  case case12 b hascii l hlead b₁ hfirst _ hone b₂ hsecond _ htwo b₃ rest hthird =>
    intro h
    obtain ⟨-, -, rfl⟩ | ⟨-, -, rfl⟩ | ⟨hlow, hhigh, rfl⟩ := lead?_eq_some hlead
    · exact absurd rfl hone
    · exact absurd rfl htwo
    · obtain ⟨h₁, hshort, hlast⟩ := between_of_lead hfirst (by decide) (by decide)
      have hbytes := utf8EncodeChar_four hlow hhigh h₁ hshort hlast
        (isContinuation_of_not hsecond) (isContinuation_of_not hthird)
      exact hread h (congrArg (· ++ rest) hbytes.symm)
  all_goals
    intro h
    cases h

theorem eq_flatMap_of_scalars : ∀ {cs : List Char} {bytes : Bytes}, scalars bytes = cs.map some →
    bytes = cs.flatMap String.utf8EncodeChar
  | [], bytes, h => by
    revert h
    fun_cases scalars bytes
    case case1 => exact fun _ => rfl
    all_goals
      intro h
      cases h
  | c :: cs, bytes, h => by
    obtain ⟨rest, rfl, hrest⟩ := exists_of_scalars_eq_cons h
    rw [List.flatMap_cons, eq_flatMap_of_scalars hrest]

/-- Options that are all something, and what they are. -/
theorem mapM_id_eq_some_iff {α : Type} : ∀ {xs : List (Option α)} {ys : List α},
    xs.mapM id = some ys ↔ xs = ys.map some
  | [], ys => by cases ys <;> simp
  | none :: xs, ys => by cases ys <;> simp
  | some x :: xs, ys => by
    have ih : ∀ {zs}, xs.mapM id = some zs ↔ xs = zs.map some := mapM_id_eq_some_iff
    rw [List.mapM_cons, id_eq, Option.bind_eq_bind, Option.bind_some]
    constructor
    · intro h
      obtain ⟨zs, hzs, h⟩ := Option.bind_eq_some_iff.1 h
      cases h
      rw [ih.1 hzs, List.map_cons]
    · intro h
      cases ys with
      | nil => cases h
      | cons y ys =>
        obtain ⟨hx, hxs⟩ := List.cons.inj h
        cases hx
        exact Option.bind_eq_some_iff.2 ⟨ys, ih.2 hxs, rfl⟩

/-- **Well-formed bytes.** A text is read exactly from its own bytes. -/
theorem decode?_eq_some_iff {bytes : Bytes} {text : String} :
    decode? bytes = some text ↔ bytes = encode text := by
  unfold decode? encode
  constructor
  · intro h
    obtain ⟨cs, hcs, rfl⟩ := Option.map_eq_some_iff.1 h
    rw [String.toList_ofList]
    exact eq_flatMap_of_scalars (mapM_id_eq_some_iff.1 hcs)
  · rintro rfl
    rw [scalars_flatMap, mapM_id_eq_some_iff.2 rfl, Option.map_some, String.ofList_toList]

end SpiritHost.Utf8
