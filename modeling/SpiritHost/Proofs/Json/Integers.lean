import Mathlib.Algebra.Group.Nat.Defs
import Mathlib.Data.List.TakeDrop
import Mathlib.Data.List.TakeWhile
import SpiritHost.Json.Reader

/-!
# Integers among JSON numbers

A text is read as an integer exactly if it is the plain spelling of one that fits 64 bits, signed or
unsigned, between blanks (`Json.parse?_eq_int_iff`). Minus zero, what is out of range and what is
written with a fraction or an exponent is read as a float, if at all.
-/

namespace SpiritHost.Json

variable {cs rest digits whole : Chars} {n : Nat} {v : Int}

/-! ## Digits -/

theorem le_withDigit (n : Nat) (c : Char) : n ≤ withDigit n c := by
  unfold withDigit
  omega

theorem le_foldl_withDigit : ∀ (cs : Chars) (n : Nat), n ≤ cs.foldl withDigit n
  | [], n => Nat.le_refl n
  | c :: cs, n => Nat.le_trans (le_withDigit n c) (le_foldl_withDigit cs (withDigit n c))

theorem appendDigits_of_lt : ∀ {cs : Chars} {n : Nat},
    cs.foldl withDigit n < 18446744073709551616 → appendDigits n cs = (cs.foldl withDigit n, [])
  | [], _, _ => rfl
  | c :: cs, n, hlt => by
    have hfirst := Nat.lt_of_le_of_lt (le_foldl_withDigit cs (withDigit n c)) hlt
    rw [appendDigits, if_pos hfirst]
    exact appendDigits_of_lt hlt

/-- All digits fit a word if and only if their number does. -/
theorem appendDigits_eq_nil_iff : appendDigits 0 cs = (n, []) ↔
    n = digitsValue cs ∧ digitsValue cs < 18446744073709551616 := by
  constructor
  · intro h
    obtain ⟨front, hfront, hvalue⟩ := exists_appendDigits 0 cs
    have hlt := appendDigits_lt (show 0 < 18446744073709551616 by decide) cs
    rw [h, List.append_nil] at hfront
    rw [hvalue, ← hfront] at hlt
    rw [h, ← hfront] at hvalue
    exact ⟨hvalue, hlt⟩
  · rintro ⟨rfl, hlt⟩
    exact appendDigits_of_lt hlt

theorem takeDigits_append (hdigits : ∀ c ∈ digits, c.isDigit = true)
    (hrest : ∀ c ∈ rest.head?, c.isDigit = false) :
    takeDigits (digits ++ rest) = (digits, rest) := by
  rw [takeDigits, List.span_eq_takeWhile_dropWhile, List.takeWhile_append_of_pos hdigits,
    List.dropWhile_append_of_pos hdigits]
  cases rest with
  | nil => simp
  | cons c rest =>
    have hc := hrest c rfl
    simp [hc]

theorem takeDigits_eq (h : takeDigits cs = (digits, rest)) :
    cs = digits ++ rest ∧ ∀ c ∈ digits, c.isDigit = true := by
  rw [takeDigits, List.span_eq_takeWhile_dropWhile, Prod.mk.injEq] at h
  obtain ⟨rfl, rfl⟩ := h
  exact ⟨List.takeWhile_append_dropWhile.symm, fun c hc => List.mem_takeWhile_imp hc⟩

/-! ## Spellings -/

/-- Digits as a number begins with: at least one, and no zero in front of another. -/
structure Whole (digits : Chars) : Prop where
  nonempty : digits ≠ []
  digit : ∀ c ∈ digits, c.isDigit = true
  plain : digits.head? = some '0' → digits.length = 1

/-- The plain spelling of an integer that fits 64 bits, signed or unsigned. -/
inductive SpellsInt : Chars → Int → Prop
  | unsigned {digits : Chars} (whole : Whole digits) (most : digitsValue digits < 2 ^ 64) :
      SpellsInt digits (digitsValue digits)
  | negative {digits : Chars} (whole : Whole digits) (least : 0 < digitsValue digits)
      (most : digitsValue digits ≤ 2 ^ 63) : SpellsInt ('-' :: digits) (-(digitsValue digits))

/-- What follows a number that has no fraction and no exponent. -/
def Ends (rest : Chars) : Prop :=
  ∀ c ∈ rest.head?, c.isDigit = false ∧ c ≠ '.' ∧ c ≠ 'e' ∧ c ≠ 'E'

theorem float_of_floatOf? {negative : Bool} {fraction : Chars} {exponent : Int} {n : Number}
    (h : floatOf? negative whole fraction exponent = some n) : ∃ bits, n = .float bits := by
  obtain ⟨bits, -, rfl⟩ := Option.map_eq_some_iff.1 h
  exact ⟨bits, rfl⟩

/-- Without fraction and exponent a number in range is an integer, and no other is. -/
theorem numberOf?_eq_int_iff {negative : Bool} {fraction : Option Chars} {exponent : Option Int} :
    numberOf? negative whole fraction exponent = some (.int v) ↔
      fraction = none ∧ exponent = none ∧
        (negative = false ∧ v = digitsValue whole ∧ digitsValue whole < 2 ^ 64 ∨
          negative = true ∧ v = -(digitsValue whole : Int) ∧ 0 < digitsValue whole ∧
            digitsValue whole ≤ 2 ^ 63) := by
  have hfloat : floatOf? negative whole (fraction.getD []) (exponent.getD 0) ≠ some (.int v) := by
    intro h
    obtain ⟨bits, hbits⟩ := float_of_floatOf? h
    cases hbits
  unfold numberOf?
  dsimp only
  split
  · rename_i n happend
    obtain ⟨rfl, hlt⟩ := appendDigits_eq_nil_iff.1 happend
    cases negative with
    | false =>
      simp only [Bool.not_false, if_true, Option.some.injEq, Number.int.injEq, true_and,
        Bool.false_eq_true, false_and, or_false]
      exact ⟨fun h => ⟨h.symm, hlt⟩, fun h => h.1.symm⟩
    | true =>
      simp only [Bool.not_true, Bool.false_eq_true, if_false, Bool.true_eq_false, true_and,
        false_and, false_or]
      split
      · rename_i hrange
        simp only [Option.some.injEq, Number.int.injEq]
        exact ⟨fun h => ⟨h.symm, hrange⟩, fun h => h.1.symm⟩
      · rename_i hrange
        exact ⟨fun h => absurd h hfloat, fun h => absurd h.2 hrange⟩
  · rename_i hother
    refine ⟨fun h => absurd h hfloat, ?_⟩
    rintro ⟨rfl, rfl, hrange⟩
    have hlt : digitsValue whole < 18446744073709551616 := by omega
    exact absurd rfl (hother _ (appendDigits_eq_nil_iff.2 ⟨rfl, hlt⟩) rfl)

/-! ## Reading -/

theorem whole?_append (hwhole : Whole digits) (hrest : ∀ c ∈ rest.head?, c.isDigit = false) :
    whole? (digits ++ rest) = some (digits, rest) := by
  unfold whole?
  rw [takeDigits_append hwhole.digit hrest]
  split
  · rename_i h
    cases h
    exact absurd rfl hwhole.nonempty
  · rename_i h
    cases h
    cases hwhole.plain rfl
  · rfl

theorem whole_of_whole? (h : whole? cs = some (digits, rest)) :
    cs = digits ++ rest ∧ Whole digits := by
  unfold whole? at h
  split at h
  · cases h
  · cases h
  · rename_i hempty hzero
    have htaken := Option.some.inj h
    obtain ⟨hcs, hdigit⟩ := takeDigits_eq htaken
    refine ⟨hcs, ⟨fun hnil => hempty rest (hnil ▸ htaken), hdigit, fun hhead => ?_⟩⟩
    obtain ⟨tail, rfl⟩ := List.head?_eq_some_iff.1 hhead
    cases tail with
    | nil => rfl
    | cons c tail => exact absurd htaken (hzero c tail rest)

theorem fraction?_of_ends (h : Ends rest) : fraction? rest = some (none, rest) := by
  unfold fraction?
  split
  · exact absurd rfl (h '.' rfl).2.1
  · rfl

theorem fraction?_eq_none (h : fraction? cs = some (none, rest)) : cs = rest := by
  unfold fraction? at h
  split at h
  · split at h <;> cases h
  · cases h
    rfl

theorem power?_of_ends (h : Ends rest) : power? rest = some (none, rest) := by
  unfold power?
  split
  · exact absurd rfl (h 'e' rfl).2.2.1
  · exact absurd rfl (h 'E' rfl).2.2.2
  · rfl

theorem power?_eq_none (h : power? cs = some (none, rest)) : cs = rest := by
  unfold power? at h
  split at h
  · obtain ⟨found, -, hfound⟩ := Option.map_eq_some_iff.1 h
    cases hfound
  · obtain ⟨found, -, hfound⟩ := Option.map_eq_some_iff.1 h
    cases hfound
  · cases h
    rfl

/-- The sign is what stands in front of the rest. -/
theorem sign_cases (cs : Chars) :
    (∃ rest, cs = '-' :: rest ∧ sign cs = (true, rest)) ∨ sign cs = (false, cs) := by
  unfold sign
  split
  · exact .inl ⟨_, rfl, rfl⟩
  · exact .inr rfl

theorem sign_of_whole (h : Whole digits) (rest : Chars) :
    sign (digits ++ rest) = (false, digits ++ rest) := by
  rcases sign_cases (digits ++ rest) with ⟨tail, hcs, -⟩ | hsign
  · obtain ⟨c, ds, rfl⟩ := List.exists_cons_of_ne_nil h.nonempty
    have hdigit := h.digit c List.mem_cons_self
    rw [(List.cons.inj hcs).1] at hdigit
    cases hdigit
  · exact hsign

theorem number?_of_digits {negative : Bool} (hsign : sign cs = (negative, digits ++ rest))
    (hwhole : Whole digits) (hrest : Ends rest) :
    number? cs = (numberOf? negative digits none none).map (·, rest) := by
  unfold number?
  rw [hsign]
  dsimp only
  rw [whole?_append hwhole fun c hc => (hrest c hc).1]
  dsimp only [bind, Option.bind]
  rw [fraction?_of_ends hrest]
  dsimp only
  rw [power?_of_ends hrest]
  dsimp only
  cases numberOf? negative digits none none <;> rfl

theorem number?_of_spells {spelled : Chars} (h : SpellsInt spelled v) (hrest : Ends rest) :
    number? (spelled ++ rest) = some (.int v, rest) := by
  cases h with
  | unsigned hwhole most =>
    have hint := numberOf?_eq_int_iff.2 ⟨rfl, rfl, .inl ⟨rfl, rfl, most⟩⟩
    rw [number?_of_digits (sign_of_whole hwhole rest) hwhole hrest, hint]
    rfl
  | negative hwhole least most =>
    have hint := numberOf?_eq_int_iff.2 ⟨rfl, rfl, .inr ⟨rfl, rfl, least, most⟩⟩
    rw [List.cons_append, number?_of_digits rfl hwhole hrest, hint]
    rfl

theorem spells_of_number? (h : number? cs = some (.int v, rest)) :
    ∃ spelled, cs = spelled ++ rest ∧ SpellsInt spelled v := by
  unfold number? at h
  dsimp only at h
  obtain ⟨⟨whole, cs₁⟩, hwhole, h⟩ := Option.bind_eq_some_iff.1 h
  obtain ⟨⟨fraction, cs₂⟩, hfraction, h⟩ := Option.bind_eq_some_iff.1 h
  obtain ⟨⟨exponent, cs₃⟩, hpower, h⟩ := Option.bind_eq_some_iff.1 h
  obtain ⟨n, hnumber, h⟩ := Option.bind_eq_some_iff.1 h
  cases h
  dsimp only at hfraction hpower hnumber
  obtain ⟨rfl, rfl, hrange⟩ := numberOf?_eq_int_iff.1 hnumber
  obtain rfl := fraction?_eq_none hfraction
  obtain rfl := power?_eq_none hpower
  obtain ⟨hcs, hplain⟩ := whole_of_whole? hwhole
  rcases sign_cases cs with ⟨tail, rfl, hsign⟩ | hsign
  · rw [hsign] at hcs hrange
    obtain ⟨rfl, least, most⟩ := (hrange.resolve_left fun h => by cases h.1).2
    exact ⟨'-' :: whole, congrArg ('-' :: ·) hcs, .negative hplain least most⟩
  · rw [hsign] at hcs hrange
    obtain ⟨rfl, most⟩ := (hrange.resolve_right fun h => by cases h.1).2
    exact ⟨whole, hcs, .unsigned hplain most⟩

/-! ## Texts -/

theorem eq_of_word? {letters : Chars} {json found : Json}
    (h : word? letters json cs = some (found, rest)) : found = json := by
  unfold word? at h
  split at h
  · cases h
    rfl
  · cases h

/-- A value is a number only if it begins as one. -/
theorem number?_of_value {bound depth : Nat} {n : Number}
    (h : value bound depth cs = some (.number n, rest)) :
    number? (skipBlanks cs) = some (n, rest) := by
  cases bound with
  | zero => cases h
  | succ bound =>
    unfold value at h
    split at h
    · cases eq_of_word? h
    · cases eq_of_word? h
    · cases eq_of_word? h
    · obtain ⟨_, -, h⟩ := Option.bind_eq_some_iff.1 h
      cases h
    · split at h
      · cases h
      · split at h
        · cases h
        · obtain ⟨_, -, h⟩ := Option.bind_eq_some_iff.1 h
          cases h
    · split at h
      · cases h
      · split at h
        · cases h
        · obtain ⟨_, -, h⟩ := Option.bind_eq_some_iff.1 h
          cases h
    · obtain ⟨⟨m, cs'⟩, hnumber, h⟩ := Option.bind_eq_some_iff.1 h
      cases h
      exact hnumber

/-- What begins with a sign or a digit is read as a number. -/
theorem value_of_number? {bound depth : Nat} {n : Number} {c : Char} {tail : Chars}
    (hcs : skipBlanks cs = c :: tail) (hc : c = '-' ∨ c.isDigit = true)
    (h : number? (c :: tail) = some (n, rest)) :
    value (bound + 1) depth cs = some (.number n, rest) := by
  unfold value
  rw [hcs]
  split
  case h_7 =>
    rw [h]
    rfl
  all_goals
    rename_i heq
    cases heq
    rcases hc with hc | hc <;> cases hc

theorem SpellsInt.head {spelled : Chars} (h : SpellsInt spelled v) :
    ∃ c tail, spelled = c :: tail ∧ (c = '-' ∨ c.isDigit = true) := by
  cases h with
  | unsigned whole _ =>
    obtain ⟨c, tail, rfl⟩ := List.exists_cons_of_ne_nil whole.nonempty
    exact ⟨c, tail, rfl, .inr (whole.digit c List.mem_cons_self)⟩
  | @negative digits _ _ _ => exact ⟨'-', digits, rfl, .inl rfl⟩

/-- Blanks, which mean nothing. -/
def Blanks (cs : Chars) : Prop := ∀ c ∈ cs, isBlank c = true

theorem exists_blanks (cs : Chars) : ∃ before, Blanks before ∧ cs = before ++ skipBlanks cs :=
  ⟨cs.takeWhile isBlank, fun _ hc => List.mem_takeWhile_imp hc,
    List.takeWhile_append_dropWhile.symm⟩

theorem skipBlanks_append {before : Chars} (h : Blanks before) {c : Char}
    (hc : isBlank c = false) (tail : Chars) : skipBlanks (before ++ c :: tail) = c :: tail := by
  rw [skipBlanks, List.dropWhile_append_of_pos h]
  exact List.dropWhile_cons_of_neg (by simp [hc])

theorem isEmpty_skipBlanks_iff : (skipBlanks cs).isEmpty = true ↔ Blanks cs := by
  rw [List.isEmpty_iff, skipBlanks, List.dropWhile_eq_nil_iff]
  rfl

theorem eq_of_isBlank {c : Char} (h : isBlank c = true) :
    c = ' ' ∨ c = '\n' ∨ c = '\t' ∨ c = '\r' := by
  simpa [isBlank, or_assoc] using h

theorem isBlank_of_head {c : Char} (hc : c = '-' ∨ c.isDigit = true) : isBlank c = false := by
  refine Bool.eq_false_iff.2 fun hblank => ?_
  rcases eq_of_isBlank hblank with rfl | rfl | rfl | rfl <;> rcases hc with hc | hc <;> cases hc

theorem Blanks.ends (h : Blanks rest) : Ends rest := by
  intro c hc
  rcases eq_of_isBlank (h c (List.mem_of_mem_head? hc)) with rfl | rfl | rfl | rfl <;> decide

theorem parse?_eq_number_iff {text : String} {n : Number} :
    parse? text = some (.number n) ↔ parseAsWritten? text = some (.number n) := by
  rw [parse?, Option.map_eq_some_iff]
  constructor
  · rintro ⟨json, hjson, hcanonical⟩
    cases json with
    | number m =>
      cases hcanonical
      exact hjson
    | _ => cases hcanonical
  · exact fun h => ⟨_, h, rfl⟩

/-- A text spells an integer: there is nothing else in it but blanks around. -/
def Spells (text : String) (v : Int) : Prop := ∃ before spelled after,
  Blanks before ∧ Blanks after ∧ text.toList = before ++ spelled ++ after ∧ SpellsInt spelled v

/-- **Integers.** A text is read as an integer exactly if it spells one that fits. -/
theorem parse?_eq_int_iff {text : String} : parse? text = some (.int v) ↔ Spells text v := by
  rw [int, parse?_eq_number_iff, parseAsWritten?]
  constructor
  · intro h
    obtain ⟨⟨found, after⟩, hvalue, h⟩ := Option.bind_eq_some_iff.1 h
    dsimp only at h
    split at h
    · rename_i hafter
      cases h
      obtain ⟨before, hbefore, htext⟩ := exists_blanks text.toList
      obtain ⟨spelled, hskipped, hspells⟩ := spells_of_number? (number?_of_value hvalue)
      rw [hskipped, ← List.append_assoc] at htext
      exact ⟨before, spelled, after, hbefore, isEmpty_skipBlanks_iff.1 hafter, htext, hspells⟩
    · cases h
  · rintro ⟨before, spelled, after, hbefore, hafter, htext, hspells⟩
    have hnumber := number?_of_spells hspells hafter.ends
    obtain ⟨c, tail, rfl, hc⟩ := hspells.head
    have hskipped : skipBlanks text.toList = c :: (tail ++ after) := by
      rw [htext, List.append_assoc]
      exact skipBlanks_append hbefore (isBlank_of_head hc) _
    refine Option.bind_eq_some_iff.2 ⟨_, value_of_number? hskipped hc hnumber, ?_⟩
    exact if_pos (isEmpty_skipBlanks_iff.2 hafter)

end SpiritHost.Json
