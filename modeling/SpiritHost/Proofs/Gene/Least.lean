import Mathlib.Data.List.Nodup
import Mathlib.Order.Bounds.Basic
import SpiritHost.Proofs.Gene.Layout

/-!
# Least layouts

No arrangement of a gene's fields in the order of their declaration takes less room than its layout
does: wherever the fields are put, none lies lower and the gene is no smaller. What placing keeps
(`Progress.Lays`) is kept by one more field, which goes to the lowest offset behind the others that
suits it. Fewer than `2 ^ 29` fields end before `2 ^ 32`, so that no sum overflows while they are
placed. Only the sum that padding takes may do so, if they end at `2 ^ 32 - 8` sharp.
-/

namespace SpiritHost.GeneLayout

/-- Fields of given types stand at given offsets, each at a multiple of its alignment and behind the
one before it, and end before a size. -/
structure Arranged (slots : List (FieldType × Nat)) (size : Nat) : Prop where
  aligned : ∀ slot ∈ slots, slot.1.alignment.toNat ∣ slot.2
  ordered : slots.Pairwise fun a b => a.2 + a.1.size.toNat ≤ b.2
  inside : ∀ slot ∈ slots, slot.2 + slot.1.size.toNat ≤ size

/-- The types of placed fields with their offsets. -/
def slots (fields : List FieldLayout) : List (FieldType × Nat) :=
  fields.map fun f => (f.type, f.offset.toNat)

/-- No field lies higher than the slot of the same place in order. -/
abbrev Below : List FieldLayout → List (FieldType × Nat) → Prop :=
  List.Forall₂ fun f slot => f.offset.toNat ≤ slot.2

/-- The alignments of declared fields. -/
def alignments (declared : List (String × FieldType)) : Set Nat :=
  {a | ∃ d ∈ declared, a = d.2.alignment.toNat}

variable {p : Progress} {gene name : String} {type : FieldType}
  {declared : List (String × FieldType)} {placed : List FieldLayout}
  {taken : List (FieldType × Nat)} {offset size : Nat} {e : Error}

/-! ## Arrangements -/

/-- The slots before the last one end before it. -/
theorem Arranged.init (h : Arranged (taken ++ [(type, offset)]) size) : Arranged taken offset := by
  refine ⟨fun slot hslot => h.aligned slot (List.mem_append_left _ hslot),
    (List.pairwise_append.1 h.ordered).1, fun slot hslot => ?_⟩
  exact (List.pairwise_append.1 h.ordered).2.2 slot hslot _ List.mem_cons_self

theorem Arranged.last (h : Arranged (taken ++ [(type, offset)]) size) :
    type.alignment.toNat ∣ offset ∧ offset + type.size.toNat ≤ size :=
  ⟨h.aligned _ (List.mem_append_right _ List.mem_cons_self),
    h.inside _ (List.mem_append_right _ List.mem_cons_self)⟩

theorem arranged_of_apart (h : FieldLayout.Apart placed size)
    (haligned : ∀ f ∈ placed, f.type.alignment.toNat ∣ f.offset.toNat) :
    Arranged (slots placed) size := by
  refine ⟨?_, List.pairwise_map.2 h.ordered, ?_⟩
  · intro slot hslot
    obtain ⟨f, hf, rfl⟩ := List.mem_map.1 hslot
    exact haligned f hf
  · intro slot hslot
    obtain ⟨f, hf, rfl⟩ := List.mem_map.1 hslot
    exact h.inside f hf

/-! ## Alignments -/

theorem one_lt_alignment (t : FieldType) : 1 < t.alignment.toNat := by
  cases t <;> decide

theorem toNat_max (a b : UInt32) : (max a b).toNat = max a.toNat b.toNat := by
  change (if a ≤ b then b else a).toNat = _
  simp only [UInt32.le_iff_toNat_le]
  split <;> omega

theorem isGreatest_alignment (name : String) (type : FieldType) {a : Nat}
    (h : IsGreatest (insert 1 (alignments declared)) a) :
    IsGreatest (insert 1 (alignments (declared ++ [(name, type)])))
      (max a type.alignment.toNat) := by
  have hset : insert 1 (alignments (declared ++ [(name, type)])) =
      insert type.alignment.toNat (insert 1 (alignments declared)) := by
    ext x
    simp only [alignments, Set.mem_insert_iff, Set.mem_ofPred_eq, List.mem_append,
      List.mem_singleton, or_and_right, exists_or, exists_eq_left]
    exact or_rotate.symm
  rw [hset, max_comm]
  exact h.insert _

/-! ## Placing -/

theorem span_concat (name : String) (type : FieldType) :
    ∀ (fields : List (String × FieldType)) (finish : Nat), span (fields ++ [(name, type)]) finish =
      roundUp type.size.toNat.log2 (span fields finish) + type.size.toNat
  | [], _ => rfl
  | (_, _) :: rest, _ => span_concat name type rest _

/-- What is known of a layout in the making with the fields declared so far. -/
structure Progress.Lays (declared : List (String × FieldType)) (p : Progress) : Prop where
  sound : p.Sound
  aligned : ∀ f ∈ p.placed, f.type.alignment.toNat ∣ f.offset.toNat
  widest : IsGreatest (insert 1 (alignments declared)) p.alignment.toNat
  ends : p.finish.toNat = span declared 0
  /-- Wherever the fields are put instead, they lie no lower and end no earlier. -/
  least : ∀ slots size, slots.map Prod.fst = declared.map Prod.snd → Arranged slots size →
    Below p.placed slots ∧ p.finish.toNat ≤ size

theorem Progress.lays_start : Progress.start.Lays [] := by
  refine ⟨Progress.sound_start, by simp [start], ?_, rfl, fun slots size hslots _ => ?_⟩
  · simp [alignments, start, IsGreatest, upperBounds]
  · rw [List.map_eq_nil_iff.1 hslots]
    exact ⟨.nil, Nat.zero_le _⟩

/-- A field takes up eight bytes at most, the bytes left out in front of it included. -/
theorem Progress.Lays.finish_le (h : p.Lays declared) : p.finish.toNat ≤ 8 * declared.length := by
  have hspan := span_le declared (Nat.zero_le (8 * 0))
  rwa [Nat.zero_add, ← h.ends] at hspan

/-- With one more field the sums stay below `2 ^ 32`. -/
theorem Progress.Lays.next_lt (h : p.Lays declared) (type : FieldType)
    (hfew : declared.length + 1 < 2 ^ 29) :
    p.finish.toNat + type.alignment.toNat < 2 ^ 32 ∧
      roundUp type.size.toNat.log2 p.finish.toNat + type.size.toNat < 2 ^ 32 := by
  have hspan := span_le [("", type)] h.finish_le
  have hwidth := Nat.pow_le_pow_right (n := 2) (by decide) type.log2_size_le
  have hsize := type.size_eq
  have halignment : type.alignment.toNat = type.size.toNat := rfl
  have hshort := h.finish_le
  simp only [span, List.length_singleton] at hspan
  omega

/-- No other arrangement has a lower place for one more field. -/
theorem Progress.Lays.least_next (h : p.Lays declared) (type : FieldType)
    {slots : List (FieldType × Nat)} {size : Nat}
    (hslots : slots.map Prod.fst = declared.map Prod.snd ++ [type])
    (harranged : Arranged slots size) :
    ∃ taken offset, slots = taken ++ [(type, offset)] ∧ Below p.placed taken ∧
      roundUp type.size.toNat.log2 p.finish.toNat ≤ offset ∧ offset + type.size.toNat ≤ size := by
  rcases List.eq_nil_or_concat' slots with rfl | ⟨taken, ⟨last, offset⟩, rfl⟩
  · simp at hslots
  · simp only [List.map_append, List.map_cons, List.map_nil] at hslots
    obtain ⟨htaken, hlast⟩ := List.append_inj' hslots rfl
    obtain rfl : last = type := by simpa using hlast
    obtain ⟨hbelow, hle⟩ := h.least taken offset htaken harranged.init
    obtain ⟨hdvd, hinside⟩ := harranged.last
    -- The offset suits the field and is not below where the others end.
    have hlow := roundUp_le hle (last.size_eq ▸ hdvd)
    exact ⟨taken, offset, rfl, hbelow, hlow, hinside⟩

/-- **One more field.** -/
theorem Progress.Lays.next {q : Progress} {offset : UInt32} (h : p.Lays declared)
    (hnew : name ∉ p.placed.map (·.name)) (hnext : p.Next name type offset q) :
    q.Lays (declared ++ [(name, type)]) := by
  refine ⟨h.sound.next hnew hnext, ?_, ?_, ?_, ?_⟩
  · rw [hnext.placed]
    intro f hf
    rcases List.mem_append.1 hf with hf | hf
    · exact h.aligned f hf
    · have hdvd := dvd_roundUp type.size.toNat.log2 p.finish.toNat
      rw [← type.size_eq, ← hnext.offset_eq] at hdvd
      rw [List.mem_singleton.1 hf]
      exact hdvd
  · rw [hnext.alignment, toNat_max]
    exact isGreatest_alignment name type h.widest
  · rw [hnext.finish_eq, h.ends, span_concat]
  · intro slots size hslots harranged
    rw [List.map_append] at hslots
    obtain ⟨taken, offset', rfl, hbelow, hlow, hinside⟩ := h.least_next type hslots harranged
    rw [hnext.placed]
    refine ⟨List.rel_append hbelow (.cons ?_ .nil), ?_⟩
    · exact hnext.offset_eq ▸ hlow
    · rw [hnext.finish_eq]
      omega

/-- **All fields.** Placing them fails at the first whose name is taken, and otherwise it lays out
every one of them. -/
theorem place_cases (gene : String) :
    ∀ {fields declared : List (String × FieldType)} {p : Progress}, p.Lays declared →
      p.placed.map (·.name) = declared.map Prod.fst → (declared ++ fields).length < 2 ^ 29 →
        (∃ q, place gene fields p = .ok q ∧ q.Lays (declared ++ fields) ∧
          ((declared ++ fields).map Prod.fst).Nodup) ∨
        ∃ before name type after, fields = before ++ (name, type) :: after ∧
          ((declared ++ before).map Prod.fst).Nodup ∧ name ∈ (declared ++ before).map Prod.fst ∧
          place gene fields p = .error (.field gene name .duplicate)
  | [], declared, p, h, hnames, _ => by
    refine .inl ⟨p, rfl, ?_, ?_⟩
    · rwa [List.append_nil]
    · rw [List.append_nil, ← hnames]
      exact h.sound.apart.distinct
  | (name, type) :: rest, declared, p, h, hnames, hfew => by
    unfold place
    by_cases htaken : name ∈ p.placed.map (·.name)
    · have hany : p.placed.any (·.name == name) = true := by
        simpa [List.mem_map] using htaken
      refine .inr ⟨[], name, type, rest, rfl, ?_, ?_, if_pos hany⟩
      · rw [List.append_nil, ← hnames]
        exact h.sound.apart.distinct
      · rwa [List.append_nil, ← hnames]
    · have hany : ¬p.placed.any (·.name == name) = true := by
        simpa [List.mem_map] using htaken
      rw [List.append_cons] at hfew ⊢
      have hshort : declared.length + 1 < 2 ^ 29 := by
        simp only [List.length_append, List.length_singleton] at hfew
        omega
      obtain ⟨offset, q, -, hplace, hnext⟩ := p.exists_place name (h.next_lt type hshort).2
      have hplaced : q.placed.map (·.name) = (declared ++ [(name, type)]).map Prod.fst := by
        simp [hnext.placed, hnames]
      rw [if_neg hany, hplace]
      rcases place_cases gene (h.next htaken hnext) hplaced hfew with hok | hfails
      · exact .inl hok
      · obtain ⟨before, field, type', after, rfl, hnodup, hrepeated, herror⟩ := hfails
        rw [← List.append_cons] at hnodup hrepeated
        exact .inr ⟨(name, type) :: before, field, type', after, rfl, hnodup, hrepeated, herror⟩

theorem lays_of_place : ∀ {fields declared : List (String × FieldType)} {p q : Progress},
    place gene fields p = .ok q → p.Lays declared → q.Lays (declared ++ fields)
  | [], declared, p, _, hok, h => by
    cases hok
    rwa [List.append_nil]
  | (name, type) :: rest, declared, p, _, hok, h => by
    obtain ⟨hnew, r, hplace, hrest⟩ := place_cons_eq_ok.1 hok
    obtain ⟨offset, hnext⟩ := Progress.next_of_place hplace
    rw [List.append_cons]
    exact lays_of_place hrest (h.next hnew hnext)

/-! ## Layouts -/

/-- What the layout of declared fields is. -/
structure Laid (name : String) (declared : List (String × FieldType)) (g : GeneLayout) : Prop where
  gene : g.name = name
  /-- Names, types and order are those declared. -/
  fields : g.fields.map (fun f => (f.name, f.type)) = declared
  arranged : Arranged (slots g.fields) g.size.toNat
  empty : declared = [] → g.alignment = 1
  widest : declared ≠ [] → IsGreatest (alignments declared) g.alignment.toNat
  whole : g.alignment.toNat ∣ g.size.toNat
  /-- No other arrangement of the fields, with a size that is a multiple of their alignment, has a
  lower offset anywhere or a lesser size. -/
  least : ∀ slots size, slots.map Prod.fst = declared.map Prod.snd → Arranged slots size →
    g.alignment.toNat ∣ size → Below g.fields slots ∧ g.size.toNat ≤ size

theorem isGreatest_of_ne_nil {a : Nat} (h : IsGreatest (insert 1 (alignments declared)) a)
    (hdeclared : declared ≠ []) : IsGreatest (alignments declared) a := by
  obtain ⟨d, hd⟩ := List.exists_mem_of_ne_nil _ hdeclared
  have hle := h.2 (Set.mem_insert_of_mem 1 ⟨d, hd, rfl⟩)
  have hlt := one_lt_alignment d.2
  refine ⟨h.1.resolve_left ?_, fun b hb => h.2 (Set.mem_insert_of_mem 1 hb)⟩
  omega

theorem eq_one_of_nil {a : Nat} (h : IsGreatest (insert 1 (alignments [])) a) : a = 1 := by
  simpa [alignments] using h.1

theorem laid_of_ofFields {g : GeneLayout} (hok : ofFields name declared = .ok g) :
    Laid name declared g := by
  obtain ⟨p, size, hplace, halign, rfl⟩ := ofFields_eq_ok_iff.1 hok
  have h : p.Lays declared := lays_of_place hplace Progress.lays_start
  obtain ⟨k, halignment, hsize⟩ := h.sound.padding halign
  refine ⟨rfl, declared_place hplace, ?_, ?_, isGreatest_of_ne_nil h.widest, ?_, ?_⟩
  · refine arranged_of_apart (h.sound.apart.le ?_) h.aligned
    rw [hsize]
    exact le_roundUp k _
  · rintro rfl
    exact UInt32.toNat_inj.1 (eq_one_of_nil h.widest)
  · rw [hsize, halignment]
    exact dvd_roundUp k _
  · intro slots larger hslots harranged hdvd
    obtain ⟨hbelow, hle⟩ := h.least slots larger hslots harranged
    rw [halignment] at hdvd
    refine ⟨hbelow, ?_⟩
    rw [hsize]
    exact roundUp_le hle hdvd

/-- A gene lies wherever each of its fields may. -/
theorem Laid.dvd_alignment {g : GeneLayout} {f : FieldLayout} (h : Laid name declared g)
    (hf : f ∈ g.fields) :
    f.type.alignment.toNat ∣ 2 ^ Nat.clog 2 g.alignment.toNat := by
  have hdeclared : (f.name, f.type) ∈ declared := h.fields ▸ List.mem_map_of_mem hf
  have hle := (h.widest (List.ne_nil_of_mem hdeclared)).2 ⟨_, hdeclared, rfl⟩
  have hwide := Nat.le_trans hle (Nat.le_pow_clog (b := 2) (by decide) g.alignment.toNat)
  have hpow : f.type.alignment.toNat = 2 ^ f.type.size.toNat.log2 := f.type.size_eq
  rw [hpow] at hwide ⊢
  exact Nat.pow_dvd_pow 2 ((Nat.pow_le_pow_iff_right (by decide)).1 hwide)

theorem Laid.dvd_offset {g : GeneLayout} {f : FieldLayout} (h : Laid name declared g)
    (hf : f ∈ g.fields) : f.type.alignment.toNat ∣ f.offset.toNat :=
  h.arranged.aligned _ (List.mem_map.2 ⟨f, hf, rfl⟩)

/-! ## Overflow -/

/-- The fields end eight bytes before the end of the address space. -/
def Brims (declared : List (String × FieldType)) : Prop := span declared 0 = 2 ^ 32 - 8

/-- It takes one field less than `2 ^ 29`. -/
theorem Brims.length (h : Brims declared) (hfew : declared.length < 2 ^ 29) :
    declared.length = 2 ^ 29 - 1 := by
  have hspan := span_le declared (Nat.zero_le (8 * 0))
  rw [h] at hspan
  omega

/-- The sum that padding takes overflows if the fields brim, and only then. -/
theorem Progress.Lays.padding_lt_iff (h : p.Lays declared) (hfew : declared.length < 2 ^ 29) :
    p.finish.toNat + p.alignment.toNat < 2 ^ 32 ↔ ¬Brims declared := by
  obtain ⟨k, hk, halignment⟩ := h.sound.alignment
  have hwidth : 2 ^ k ≤ 2 ^ 3 := Nat.pow_le_pow_right (by decide) hk
  have hshort := h.finish_le
  rw [halignment, Brims, ← h.ends]
  refine ⟨fun hlt hbrims => ?_, fun hbrims => by omega⟩
  have hnarrow : k ≤ 2 := by
    by_contra hwide
    have := Nat.pow_le_pow_right (n := 2) (by decide) (Nat.lt_of_not_le hwide)
    omega
  -- Fields of four bytes and less end in the lower half.
  have hwidths : ∀ d ∈ declared, d.2.size.toNat.log2 ≤ 2 := by
    intro d hd
    have hle := h.widest.2 (Set.mem_insert_of_mem 1 ⟨d, hd, rfl⟩)
    have hsize : d.2.alignment.toNat = 2 ^ d.2.size.toNat.log2 := d.2.size_eq
    rw [halignment, hsize] at hle
    exact Nat.le_trans ((Nat.pow_le_pow_iff_right (by decide)).1 hle) hnarrow
  have hspan := span_le_of_width 2 declared hwidths (Nat.zero_le (2 ^ 2 * 0))
  rw [← h.ends] at hspan
  omega

theorem Progress.Lays.exists_padding (h : p.Lays declared) (hfew : declared.length < 2 ^ 29)
    (hbrims : ¬Brims declared) : ∃ size, alignUp p.finish p.alignment = .ok size := by
  obtain ⟨k, -, halignment⟩ := h.sound.alignment
  have hsum := (h.padding_lt_iff hfew).2 hbrims
  obtain ⟨size, halign, -⟩ := exists_alignUp halignment (halignment ▸ hsum)
  exact ⟨size, halign⟩

theorem Progress.Lays.padding_of_brims (h : p.Lays declared) (hfew : declared.length < 2 ^ 29)
    (hbrims : Brims declared) : alignUp p.finish p.alignment = .error (.panic .overflow) := by
  obtain ⟨k, -, halignment⟩ := h.sound.alignment
  have hsum := Nat.not_lt.1 fun hlt => (h.padding_lt_iff hfew).1 hlt hbrims
  exact alignUp_of_le halignment (halignment ▸ hsum)

/-! ## Outcomes -/

theorem ofFields_eq_error_iff : ofFields name declared = .error e ↔
    place name declared .start = .error e ∨ ∃ p, place name declared .start = .ok p ∧
      alignUp p.finish p.alignment = .error e := by
  simp [ofFields, Except.bind_eq_error_iff]

theorem place_append : ∀ (xs ys : List (String × FieldType)) (p : Progress),
    place gene (xs ++ ys) p = place gene xs p >>= place gene ys
  | [], _, _ => rfl
  | (name, type) :: xs, ys, p => by
    rw [List.cons_append, place, place]
    split
    · rfl
    · cases p.place name type with
      | error e => rfl
      | ok q => exact place_append xs ys q

/-- A name that is not declared twice is not taken. -/
theorem exists_place_of_nodup (gene : String) (hnodup : (declared.map Prod.fst).Nodup)
    (hfew : declared.length < 2 ^ 29) :
    ∃ p, place gene declared .start = .ok p ∧ p.Lays declared := by
  rcases place_cases gene Progress.lays_start rfl hfew with hok | hfails
  · obtain ⟨p, hplace, hlays, -⟩ := hok
    exact ⟨p, hplace, hlays⟩
  · obtain ⟨before, name, type, after, rfl, -, hrepeated, -⟩ := hfails
    rw [List.map_append, List.nodup_append] at hnodup
    rw [List.nil_append] at hrepeated
    exact absurd rfl (hnodup.2.2 _ hrepeated _ (by simp))

theorem nodup_of_place (hfew : declared.length < 2 ^ 29)
    (hplace : place gene declared .start = .ok p) : (declared.map Prod.fst).Nodup := by
  rcases place_cases gene Progress.lays_start rfl hfew with hlays | hfails
  · obtain ⟨q, -, -, hnodup⟩ := hlays
    exact hnodup
  · obtain ⟨before, field, type, after, -, -, -, herror⟩ := hfails
    rw [hplace] at herror
    cases herror

/-- Placing stops at the first name that occurred before. -/
theorem place_of_repeated {before after : List (String × FieldType)}
    (hnodup : (before.map Prod.fst).Nodup) (hrepeated : name ∈ before.map Prod.fst)
    (hfew : before.length < 2 ^ 29) :
    place gene (before ++ (name, type) :: after) .start =
      .error (.field gene name .duplicate) := by
  obtain ⟨p, hplace, -⟩ := exists_place_of_nodup gene hnodup hfew
  have hnames : p.placed.map (·.name) = before.map Prod.fst := by
    have hfields := congrArg (List.map Prod.fst) (declared_place hplace)
    simpa [Progress.start, Function.comp_def] using hfields
  rw [place_append, hplace]
  refine if_pos ?_
  rw [← hnames] at hrepeated
  simpa [List.mem_map] using hrepeated

/-- A name is the first that occurred before. -/
def Repeats (declared : List (String × FieldType)) (field : String) : Prop :=
  ∃ before type after, declared = before ++ (field, type) :: after ∧
    (before.map Prod.fst).Nodup ∧ field ∈ before.map Prod.fst

theorem place_eq_error_iff (hfew : declared.length < 2 ^ 29) :
    place gene declared .start = .error e ↔
      ∃ field, Repeats declared field ∧ e = .field gene field .duplicate := by
  constructor
  · intro he
    rcases place_cases gene Progress.lays_start rfl hfew with hlays | hfails
    · obtain ⟨q, hplace, -⟩ := hlays
      rw [hplace] at he
      cases he
    · obtain ⟨before, field, type, after, rfl, hnodup, hrepeated, herror⟩ := hfails
      rw [he] at herror
      cases herror
      exact ⟨field, ⟨before, type, after, rfl, hnodup, hrepeated⟩, rfl⟩
  · rintro ⟨field, ⟨before, type, after, rfl, hnodup, hrepeated⟩, rfl⟩
    rw [List.length_append] at hfew
    exact place_of_repeated hnodup hrepeated (by omega)

/-- What laying out declared fields comes to. -/
structure LaysOut (name : String) (declared : List (String × FieldType)) : Prop where
  /-- It succeeds exactly if no name is declared twice, unless the fields brim. -/
  ok_iff : (∃ g, ofFields name declared = .ok g) ↔
    (declared.map Prod.fst).Nodup ∧ ¬Brims declared
  /-- The error is about the first field whose name occurred before; there is none then. -/
  error_iff : ∀ e, ofFields name declared = .error e ↔
    (∃ field, Repeats declared field ∧ e = .field name field .duplicate) ∨
      (declared.map Prod.fst).Nodup ∧ Brims declared ∧ e = .panic .overflow
  brims : Brims declared → declared.length = 2 ^ 29 - 1
  laid : ∀ g, ofFields name declared = .ok g → Laid name declared g
  /-- The sums of words that one more field takes do not overflow, -/
  sums : ∀ before field type after p, declared = before ++ (field, type) :: after →
    place name before .start = .ok p →
      p.finish.toNat + type.alignment.toNat < 2 ^ 32 ∧
        ∃ offset, alignUp p.finish type.alignment = .ok offset ∧
          offset.toNat + type.size.toNat < 2 ^ 32
  /-- and neither does the one that padding takes, unless the fields brim. -/
  padding : ∀ p, place name declared .start = .ok p →
    (p.finish.toNat + p.alignment.toNat < 2 ^ 32 ↔ ¬Brims declared)

theorem exists_ofFields_iff (hfew : declared.length < 2 ^ 29) :
    (∃ g, ofFields name declared = .ok g) ↔ (declared.map Prod.fst).Nodup ∧ ¬Brims declared := by
  constructor
  · rintro ⟨g, hok⟩
    obtain ⟨p, size, hplace, halign, -⟩ := ofFields_eq_ok_iff.1 hok
    have h : p.Lays declared := lays_of_place hplace Progress.lays_start
    refine ⟨nodup_of_place hfew hplace, fun hbrims => ?_⟩
    cases (h.padding_of_brims hfew hbrims).symm.trans halign
  · rintro ⟨hnodup, hbrims⟩
    obtain ⟨p, hplace, h⟩ := exists_place_of_nodup name hnodup hfew
    obtain ⟨size, halign⟩ := h.exists_padding hfew hbrims
    exact ⟨_, ofFields_eq_ok_iff.2 ⟨p, size, hplace, halign, rfl⟩⟩

theorem ofFields_of_brims (hfew : declared.length < 2 ^ 29) (hnodup : (declared.map Prod.fst).Nodup)
    (hbrims : Brims declared) : ofFields name declared = .error (.panic .overflow) := by
  obtain ⟨p, hplace, h⟩ := exists_place_of_nodup name hnodup hfew
  exact ofFields_eq_error_iff.2 (.inr ⟨p, hplace, h.padding_of_brims hfew hbrims⟩)

theorem ofFields_eq_error_cases (hfew : declared.length < 2 ^ 29) :
    ofFields name declared = .error e ↔
      (∃ field, Repeats declared field ∧ e = .field name field .duplicate) ∨
        (declared.map Prod.fst).Nodup ∧ Brims declared ∧ e = .panic .overflow := by
  constructor
  · intro he
    rcases ofFields_eq_error_iff.1 he with hplace | ⟨p, hplace, halign⟩
    · exact .inl ((place_eq_error_iff hfew).1 hplace)
    · have h : p.Lays declared := lays_of_place hplace Progress.lays_start
      by_cases hbrims : Brims declared
      · cases (h.padding_of_brims hfew hbrims).symm.trans halign
        exact .inr ⟨nodup_of_place hfew hplace, hbrims, rfl⟩
      · obtain ⟨size, hok⟩ := h.exists_padding hfew hbrims
        cases hok.symm.trans halign
  · rintro (hrepeats | ⟨hnodup, hbrims, rfl⟩)
    · exact ofFields_eq_error_iff.2 (.inl ((place_eq_error_iff hfew).2 hrepeats))
    · exact ofFields_of_brims hfew hnodup hbrims

/-- **Layouts.** A layout fails exactly if a name is declared twice; otherwise its fields are
arranged in the order of their declaration, and no arrangement takes less room. No sum overflows,
unless `2 ^ 29 - 1` fields leave eight bytes of the address space: then the last one does. -/
theorem ofFields_least (name : String) (declared : List (String × FieldType))
    (hfew : declared.length < 2 ^ 29) : LaysOut name declared := by
  refine ⟨exists_ofFields_iff hfew, fun e => ofFields_eq_error_cases hfew, fun h => h.length hfew,
    fun g hok => laid_of_ofFields hok, ?_, ?_⟩
  · rintro before field type after p rfl hplace
    have hbefore : before.length + 1 < 2 ^ 29 := by
      rw [List.length_append, List.length_cons] at hfew
      omega
    have h : p.Lays before := lays_of_place hplace Progress.lays_start
    obtain ⟨hsum, hend⟩ := h.next_lt type hbefore
    obtain ⟨offset, q, halign, -, hnext⟩ := p.exists_place field hend
    rw [← hnext.offset_eq] at hend
    exact ⟨hsum, offset, halign, hend⟩
  · intro p hplace
    have h : p.Lays declared := lays_of_place hplace Progress.lays_start
    exact h.padding_lt_iff hfew

/-- A wide field between narrow ones. -/
def wideInside : List (String × FieldType) := [("alive", .bool), ("score", .i64), ("name", .string)]

theorem ofFields_least_wideInside : wideInside.length < 2 ^ 29 ∧ LaysOut "Sample" wideInside :=
  ⟨by decide, ofFields_least "Sample" wideInside (by decide)⟩

example : (ofFields "Sample" wideInside).toOption.map (fun g => (slots g.fields, g.size)) =
    some ([(.bool, 0), (.i64, 8), (.string, 16)], 24) := by
  decide

/-- As many fields of eight bytes as are fewer than `2 ^ 29`, under names of different lengths. -/
def brimming : List (String × FieldType) :=
  (List.range (2 ^ 29 - 1)).map fun n => (String.ofList (List.replicate n 'a'), .i64)

theorem span_of_wide : ∀ (fields : List (String × FieldType)) (count : Nat),
    (∀ d ∈ fields, d.2 = .i64) → span fields (8 * count) = 8 * (count + fields.length)
  | [], _, _ => rfl
  | (_, type) :: rest, count, hwide => by
    obtain rfl : type = .i64 := hwide _ List.mem_cons_self
    have hround : roundUp 3 (8 * count) = 8 * count :=
      Nat.le_antisymm (roundUp_le (Nat.le_refl _) (Nat.dvd_mul_right 8 count)) (le_roundUp 3 _)
    have hrest := span_of_wide rest (count + 1) fun d hd =>
      hwide d (List.mem_cons_of_mem _ hd)
    rw [List.length_cons, ← Nat.add_assoc, Nat.add_right_comm, ← hrest]
    exact congrArg (span rest) (congrArg (· + 8) hround)

theorem nodup_brimming : (brimming.map Prod.fst).Nodup := by
  rw [brimming, List.map_map]
  refine List.Nodup.map (fun a b h => ?_) List.nodup_range
  simpa using congrArg String.length h

/-- Their layout does not come to an end, though no name is declared twice. -/
theorem not_ofFields_brimming : brimming.length < 2 ^ 29 ∧ (brimming.map Prod.fst).Nodup ∧
    ofFields "Wide" brimming = .error (.panic .overflow) := by
  have hlength : brimming.length = 2 ^ 29 - 1 := by
    rw [brimming, List.length_map, List.length_range]
  have hwide : ∀ d ∈ brimming, d.2 = .i64 := by
    intro d hd
    obtain ⟨n, -, rfl⟩ := List.mem_map.1 hd
    rfl
  have hbrims : Brims brimming := by
    have hspan := span_of_wide brimming 0 hwide
    rwa [hlength] at hspan
  have hfew : brimming.length < 2 ^ 29 := by omega
  exact ⟨hfew, nodup_brimming, ofFields_of_brims hfew nodup_brimming hbrims⟩

end SpiritHost.GeneLayout
