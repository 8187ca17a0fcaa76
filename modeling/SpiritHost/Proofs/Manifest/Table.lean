import SpiritHost.Proofs.Manifest
import SpiritHost.Proofs.Toml.Settings

/-!
# What a definition's table may say

The form of a table is said here as relations between what the file has and what it stands for: the
form of each value, the keys there are, and that a key that is missing leaves its setting open
(`Definition.Spells`). An entry of a manifest is read as a definition exactly if it is the table of
that definition (`Definition.ofEntry_eq_ok_iff`); any other is refused for one reason
(`Definition.ofEntry_eq_error_iff`).
-/

namespace SpiritHost

open Toml

namespace Definition

/-! ## Values -/

/-- A value is a 32-bit unsigned integer. -/
inductive IsWord : Toml.Value → UInt32 → Prop
  | integer (w : UInt32) : IsWord (.integer w.toNat) w

/-- A value is a text, or a point in time, which is shown as one. -/
inductive IsText : Toml.Value → String → Prop
  | string (text : String) : IsText (.string text) text
  | time (text : String) : IsText (.time text) (Toml.timeText text)

/-- A value gives bounds of the memory: a table with either or none of them, or an array of both. -/
inductive IsMemory : Toml.Value → Option UInt32 × Option UInt32 → Prop
  | table {entries : List (String × Toml.Value)} {initial maximum : Option UInt32}
      (known : ∀ k ∈ keys entries, k = "initial" ∨ k = "maximum")
      (hinitial : Option.Rel IsWord (entries.lookup "initial") initial)
      (hmaximum : Option.Rel IsWord (entries.lookup "maximum") maximum) :
      IsMemory (.table entries) (initial, maximum)
  | array {u v : Toml.Value} {initial maximum : UInt32} (hinitial : IsWord u initial)
      (hmaximum : IsWord v maximum) : IsMemory (.array [u, v]) (some initial, some maximum)

/-- A table says what a definition has, its name and directory apart. -/
structure Spells (entries : List (String × Toml.Value)) (d : Definition) : Prop where
  known : ∀ k ∈ keys entries, k = "uri" ∨ k = "debug" ∨ k = "memory" ∨ k = "heap-base"
  uri : ∃ v, entries.lookup "uri" = some v ∧ IsText v d.uri
  debug : Option.Rel (fun v debug => v = .boolean debug) (entries.lookup "debug") d.debug
  memory : Option.Rel IsMemory (entries.lookup "memory") d.memory
  heapBase : Option.Rel IsWord (entries.lookup "heap-base") d.heapBase

theorem rightUnique_isText : Relator.RightUnique IsText := by
  rintro v a b (_ | _) (_ | _) <;> rfl

variable {v : Toml.Value} {entries : List (String × Toml.Value)}

theorem word?_eq_some_iff {w : UInt32} : word? v = some w ↔ IsWord v w := by
  constructor
  · intro h
    unfold word? at h
    split at h
    · rename_i n
      split at h
      · rename_i hrange
        have hn : ((UInt32.ofNat n.toNat).toNat : Int) = n := by
          rw [UInt32.toNat_ofNat_of_lt' (show n.toNat < 4294967296 by omega)]
          omega
        have hword := IsWord.integer (UInt32.ofNat n.toNat)
        rw [hn] at hword
        exact Option.some.inj h ▸ hword
      · cases h
    · cases h
  · rintro ⟨⟩
    have hrange : w.toNat < 4294967296 := w.toNat_lt
    unfold word?
    dsimp only
    rw [if_pos (by omega), Int.toNat_natCast, UInt32.ofNat_toNat]

theorem rightUnique_isWord : Relator.RightUnique IsWord := fun _ _ _ ha hb =>
  Option.some.inj ((word?_eq_some_iff.2 ha).symm.trans (word?_eq_some_iff.2 hb))

theorem rightUnique_isMemory : Relator.RightUnique IsMemory := by
  rintro v a b (⟨-, hinitial, hmaximum⟩ | ⟨hinitial, hmaximum⟩) hb
  · cases hb with
    | table _ hinitial' hmaximum' =>
      rw [rightUnique_rel rightUnique_isWord hinitial hinitial',
        rightUnique_rel rightUnique_isWord hmaximum hmaximum']
  · cases hb with
    | array hinitial' hmaximum' =>
      rw [rightUnique_isWord hinitial hinitial', rightUnique_isWord hmaximum hmaximum']

theorem text?_eq_some_iff {text : String} : text? v = some text ↔ IsText v text := by
  constructor
  · intro h
    cases v <;> cases h
    · exact .string text
    · exact .time _
  · rintro (_ | _) <;> rfl

/-! ## Bounds of the memory -/

/-- What one bound can do. -/
theorem bound?_eq_some_iff {key : String} {s t : Option UInt32 × Option UInt32} :
    bound? s key v = some t ↔
      (key = "initial" ∧ ∃ w, IsWord v w ∧ t = (some w, s.2)) ∨
      (key = "maximum" ∧ ∃ w, IsWord v w ∧ t = (s.1, some w)) := by
  unfold bound?
  split
  · rw [taken_iff fun w => word?_eq_some_iff]
    simp
  · rw [taken_iff fun w => word?_eq_some_iff]
    simp
  · rename_i hinitial hmaximum
    constructor
    · intro h
      cases h
    · rintro (⟨hkey, -⟩ | ⟨hkey, -⟩)
      · exact absurd hkey hinitial
      · exact absurd hkey hmaximum

/-- A table is read as bounds of the memory if it has no other keys and words for these. -/
theorem exists_memory?_table :
    (∃ m, memory? (.table entries) = some m) ↔
      ∀ p ∈ entries, (p.1 = "initial" ∨ p.1 = "maximum") ∧ ∃ w, IsWord p.2 w := by
  refine exists_foldlM_iff fun p _ s => ?_
  obtain ⟨k, v⟩ := p
  constructor
  · rintro ⟨t, h⟩
    rcases bound?_eq_some_iff.1 h with ⟨hk, w, hw, -⟩ | ⟨hk, w, hw, -⟩
    · exact ⟨.inl hk, w, hw⟩
    · exact ⟨.inr hk, w, hw⟩
  · rintro ⟨hk | hk, w, hw⟩
    · exact ⟨_, bound?_eq_some_iff.2 (.inl ⟨hk, w, hw, rfl⟩)⟩
    · exact ⟨_, bound?_eq_some_iff.2 (.inr ⟨hk, w, hw, rfl⟩)⟩

theorem isMemory_of_memory?_table {m : Option UInt32 × Option UInt32}
    (hnodup : (keys entries).Nodup) (h : memory? (.table entries) = some m) :
    IsMemory (.table entries) m := by
  refine .table ?_ ?_ ?_
  · intro k hk
    obtain ⟨p, hp, rfl⟩ := List.mem_map.1 hk
    exact (exists_memory?_table.1 ⟨m, h⟩ p hp).1
  · refine rel_of_foldlM Prod.fst ?_ ?_ hnodup rfl h
    · intro s v t hset
      rcases bound?_eq_some_iff.1 hset with ⟨-, w, hw, rfl⟩ | ⟨hkey, -⟩
      · exact ⟨w, rfl, hw⟩
      · exact absurd hkey (by decide)
    · intro s k v t hk hset
      rcases bound?_eq_some_iff.1 hset with ⟨hkey, -⟩ | ⟨-, w, -, rfl⟩
      · exact absurd hkey hk
      · rfl
  · refine rel_of_foldlM Prod.snd ?_ ?_ hnodup rfl h
    · intro s v t hset
      rcases bound?_eq_some_iff.1 hset with ⟨hkey, -⟩ | ⟨-, w, hw, rfl⟩
      · exact absurd hkey (by decide)
      · exact ⟨w, rfl, hw⟩
    · intro s k v t hk hset
      rcases bound?_eq_some_iff.1 hset with ⟨-, w, -, rfl⟩ | ⟨hkey, -⟩
      · rfl
      · exact absurd hkey hk

theorem isMemory_of_memory? {m : Option UInt32 × Option UInt32} (hv : v.Ordered)
    (h : memory? v = some m) : IsMemory v m := by
  cases hv with
  | table inOrder _ => exact isMemory_of_memory?_table inOrder.nodup h
  | array _ =>
    unfold memory? at h
    split at h
    · rename_i heq
      cases heq
    · rename_i heq
      cases heq
      obtain ⟨initial, hinitial, h⟩ := Option.bind_eq_some_iff.1 h
      obtain ⟨maximum, hmaximum, h⟩ := Option.bind_eq_some_iff.1 h
      cases h
      exact .array (word?_eq_some_iff.1 hinitial) (word?_eq_some_iff.1 hmaximum)
    · cases h
  | _ => cases h

theorem memory?_of_isMemory {m : Option UInt32 × Option UInt32} (hv : v.Ordered)
    (h : IsMemory v m) : memory? v = some m := by
  cases h with
  | @table entries initial maximum known hinitial hmaximum =>
    cases hv with
    | table inOrder _ =>
      have hnodup := inOrder.nodup
      have heach : ∀ p ∈ entries, (p.1 = "initial" ∨ p.1 = "maximum") ∧ ∃ w, IsWord p.2 w := by
        rintro ⟨k, value⟩ hp
        have hlookup := lookup_of_mem hnodup hp
        rcases known k (List.mem_map_of_mem hp) with rfl | rfl
        · exact ⟨.inl rfl, exists_of_rel hinitial hlookup⟩
        · exact ⟨.inr rfl, exists_of_rel hmaximum hlookup⟩
      obtain ⟨m, hm⟩ := exists_memory?_table.2 heach
      have hspelt := isMemory_of_memory?_table hnodup hm
      rw [hm, rightUnique_isMemory hspelt (.table known hinitial hmaximum)]
  | array hinitial hmaximum =>
    unfold memory?
    dsimp only
    rw [word?_eq_some_iff.2 hinitial, word?_eq_some_iff.2 hmaximum]
    rfl

theorem memory?_eq_some_iff {m : Option UInt32 × Option UInt32} (hv : v.Ordered) :
    memory? v = some m ↔ IsMemory v m :=
  ⟨isMemory_of_memory? hv, memory?_of_isMemory hv⟩

/-! ## Settings of a definition -/

/-- A value is of the form that the setting of its key has. -/
inductive IsSetting : String → Toml.Value → Prop
  | uri {v : Toml.Value} {text : String} (h : IsText v text) : IsSetting "uri" v
  | debug (debug : Bool) : IsSetting "debug" (.boolean debug)
  | memory {v : Toml.Value} {m : Option UInt32 × Option UInt32} (h : IsMemory v m) :
      IsSetting "memory" v
  | heapBase {v : Toml.Value} {w : UInt32} (h : IsWord v w) : IsSetting "heap-base" v

variable {d e : Definition} {key name : String} {root : Option String}

/-- What one setting can do. -/
theorem set?_eq_some_iff : set? d key v = some e ↔
    (key = "uri" ∧ ∃ text, IsText v text ∧ e = { d with uri := text }) ∨
    (key = "debug" ∧ ∃ debug, v = .boolean debug ∧ e = { d with debug := some debug }) ∨
    (key = "memory" ∧ ∃ m, memory? v = some m ∧ e = { d with memory := some m }) ∨
    (key = "heap-base" ∧ ∃ w, IsWord v w ∧ e = { d with heapBase := some w }) := by
  unfold set?
  split
  · rw [taken_iff fun text => text?_eq_some_iff]
    simp
  · simp [eq_comm]
  · rw [taken_iff fun m => Iff.rfl]
    simp
  · rw [taken_iff fun w => word?_eq_some_iff]
    simp
  · rename_i huri hmemory hheap hdebug
    constructor
    · intro h
      cases h
    · rintro (⟨hkey, -⟩ | ⟨hkey, debug, hv, -⟩ | ⟨hkey, -⟩ | ⟨hkey, -⟩)
      · exact absurd hkey huri
      · exact (hdebug debug hkey hv).elim
      · exact absurd hkey hmemory
      · exact absurd hkey hheap

theorem exists_set?_iff (hv : v.Ordered) : (∃ e, set? d key v = some e) ↔ IsSetting key v := by
  constructor
  · rintro ⟨e, h⟩
    rcases set?_eq_some_iff.1 h with ⟨rfl, text, htext, -⟩ | ⟨rfl, debug, rfl, -⟩ |
      ⟨rfl, m, hm, -⟩ | ⟨rfl, w, hw, -⟩
    · exact .uri htext
    · exact .debug debug
    · exact .memory ((memory?_eq_some_iff hv).1 hm)
    · exact .heapBase hw
  · rintro (htext | debug | hm | hw)
    · exact ⟨_, set?_eq_some_iff.2 (.inl ⟨rfl, _, htext, rfl⟩)⟩
    · exact ⟨_, set?_eq_some_iff.2 (.inr (.inl ⟨rfl, _, rfl, rfl⟩))⟩
    · exact ⟨_, set?_eq_some_iff.2 (.inr (.inr (.inl ⟨rfl, _, (memory?_eq_some_iff hv).2 hm, rfl⟩)))⟩
    · exact ⟨_, set?_eq_some_iff.2 (.inr (.inr (.inr ⟨rfl, _, hw, rfl⟩)))⟩

/-- The settings of a table are all taken up if each is of its form. -/
theorem exists_setAll?_iff (hordered : Toml.OrderedEntries entries) :
    (∃ e, entries.foldlM (fun d (key, value) => set? d key value) d = some e) ↔
      ∀ p ∈ entries, IsSetting p.1 p.2 :=
  exists_foldlM_iff fun p hp _ => exists_set?_iff (hordered.values p hp)

/-- The field of a setting's key is as its value says. -/
theorem field_set? (h : set? d key v = some e) :
    (key = "uri" → IsText v e.uri) ∧
    (key = "debug" → ∃ debug, e.debug = some debug ∧ v = .boolean debug) ∧
    (key = "memory" → ∃ m, e.memory = some m ∧ memory? v = some m) ∧
    (key = "heap-base" → ∃ w, e.heapBase = some w ∧ IsWord v w) := by
  rcases set?_eq_some_iff.1 h with ⟨rfl, text, htext, rfl⟩ | ⟨rfl, debug, hv, rfl⟩ |
    ⟨rfl, m, hm, rfl⟩ | ⟨rfl, w, hw, rfl⟩
  · simp [htext]
  · simp [hv]
  · simp [hm]
  · simp [hw]

/-- The other fields stay. -/
theorem frame_set? (h : set? d key v = some e) :
    (key ≠ "uri" → e.uri = d.uri) ∧ (key ≠ "debug" → e.debug = d.debug) ∧
    (key ≠ "memory" → e.memory = d.memory) ∧ (key ≠ "heap-base" → e.heapBase = d.heapBase) ∧
    e.root = d.root := by
  rcases set?_eq_some_iff.1 h with ⟨rfl, text, htext, rfl⟩ | ⟨rfl, debug, hv, rfl⟩ |
    ⟨rfl, m, hm, rfl⟩ | ⟨rfl, w, hw, rfl⟩ <;> simp

theorem spells_of_setAll? (hordered : Toml.OrderedEntries entries) (huri : "uri" ∈ keys entries)
    (h : entries.foldlM (fun d (key, value) => set? d key value)
      ({ name, uri := "", root } : Definition) = some d) : Spells entries d := by
  have hnodup := hordered.inOrder.nodup
  constructor
  case known =>
    intro k hk
    obtain ⟨⟨k, v⟩, hp, rfl⟩ := List.mem_map.1 hk
    have hsetting := (exists_setAll?_iff hordered).1 ⟨d, h⟩ (k, v) hp
    cases hsetting <;> simp
  case uri =>
    have hfield := field_of_foldlM Definition.uri (fun h => (field_set? h).1 rfl)
      (fun hk h => (frame_set? h).1 hk) hnodup h
    rcases hfield with hfound | ⟨hnone, -⟩
    · exact hfound
    · rw [← isSome_lookup, hnone] at huri
      cases huri
  case debug =>
    exact rel_of_foldlM Definition.debug (fun h => (field_set? h).2.1 rfl)
      (fun hk h => (frame_set? h).2.1 hk) hnodup rfl h
  case memory =>
    have hrel := rel_of_foldlM Definition.memory (fun h => (field_set? h).2.2.1 rfl)
      (fun hk h => (frame_set? h).2.2.1 hk) hnodup rfl h
    refine rel_of_imp hrel fun v m hv hm => ?_
    exact (memory?_eq_some_iff (hordered.values ("memory", v) (mem_of_lookup hv))).1 hm
  case heapBase =>
    exact rel_of_foldlM Definition.heapBase (fun h => (field_set? h).2.2.2 rfl)
      (fun hk h => (frame_set? h).2.2.2.1 hk) hnodup rfl h

theorem eq_of_spells (hd : Spells entries d) (he : Spells entries e) (hname : d.name = e.name)
    (hroot : d.root = e.root) : d = e := by
  obtain ⟨v, hv, htext⟩ := hd.uri
  obtain ⟨w, hw, htext'⟩ := he.uri
  obtain rfl : v = w := Option.some.inj (hv.symm.trans hw)
  have hbool : Relator.RightUnique fun (v : Toml.Value) debug => v = .boolean debug := by
    rintro _ a b rfl ⟨⟩
    rfl
  have huri := rightUnique_isText htext htext'
  have hdebug := rightUnique_rel hbool hd.debug he.debug
  have hmemory := rightUnique_rel rightUnique_isMemory hd.memory he.memory
  have hheap := rightUnique_rel rightUnique_isWord hd.heapBase he.heapBase
  cases d
  cases e
  simp only at hname hroot huri hdebug hmemory hheap
  rw [hname, hroot, huri, hdebug, hmemory, hheap]

theorem isSetting_of_spells (hnodup : (keys entries).Nodup) (h : Spells entries d)
    {p : String × Toml.Value} (hp : p ∈ entries) : IsSetting p.1 p.2 := by
  obtain ⟨k, v⟩ := p
  have hlookup := lookup_of_mem hnodup hp
  rcases h.known k (List.mem_map_of_mem hp) with rfl | rfl | rfl | rfl
  · obtain ⟨w, hw, htext⟩ := h.uri
    obtain rfl : v = w := Option.some.inj (hlookup.symm.trans hw)
    exact .uri htext
  · obtain ⟨debug, rfl⟩ := exists_of_rel h.debug hlookup
    exact .debug debug
  · obtain ⟨m, hm⟩ := exists_of_rel h.memory hlookup
    exact .memory hm
  · obtain ⟨w, hw⟩ := exists_of_rel h.heapBase hlookup
    exact .heapBase hw

/-! ## Entries of a manifest -/

/-- An entry of a manifest in the given directory is the table of a definition. -/
def IsEntry (root : Option String) (p : String × Toml.Value) (d : Definition) : Prop :=
  d.name = p.1 ∧ d.root = root ∧ ∃ entries, p.2 = .table entries ∧ Spells entries d

/-- What is wrong with an entry. -/
inductive EntryFault : String × Toml.Value → ManifestFault → Prop
  | notTable {name : String} {v : Toml.Value} (h : ∀ entries, v ≠ .table entries) :
      EntryFault (name, v) (.notTable name)
  | missingUri {name : String} {entries : List (String × Toml.Value)} (h : "uri" ∉ keys entries) :
      EntryFault (name, .table entries) (.missingUri name)
  | setting {name : String} {entries : List (String × Toml.Value)} {p : String × Toml.Value}
      (huri : "uri" ∈ keys entries) (hp : p ∈ entries) (h : ¬IsSetting p.1 p.2) :
      EntryFault (name, .table entries) (.definition name)

theorem ofEntry_table (huri : "uri" ∈ keys entries) :
    ofEntry root name (.table entries) =
      match entries.foldlM (fun d (key, value) => set? d key value)
          ({ name, uri := "", root } : Definition) with
      | some d => .ok d
      | none => .error (.definition name) := by
  unfold ofEntry
  exact if_pos (by rw [any_eq_isSome_lookup, isSome_lookup]; exact huri)

theorem ofEntry_missing (h : "uri" ∉ keys entries) :
    ofEntry root name (.table entries) = .error (.missingUri name) := by
  unfold ofEntry
  exact if_neg (by rw [any_eq_isSome_lookup, isSome_lookup]; exact h)

theorem isEntry_of_setAll? (hordered : Toml.OrderedEntries entries) (huri : "uri" ∈ keys entries)
    (h : entries.foldlM (fun d (key, value) => set? d key value)
      ({ name, uri := "", root } : Definition) = some d) :
    IsEntry root (name, .table entries) d :=
  ⟨name_setAll? _ h, get_of_foldlM Definition.root (fun h => (frame_set? h).2.2.2.2) h,
    entries, rfl, spells_of_setAll? hordered huri h⟩

/-- **Entries.** An entry is read as a definition exactly if it is the table of that definition. -/
theorem ofEntry_eq_ok_iff (hv : v.Ordered) :
    ofEntry root name v = .ok d ↔ IsEntry root (name, v) d := by
  constructor
  · intro h
    cases hv with
    | @table entries inOrder values =>
      by_cases huri : "uri" ∈ keys entries
      · rw [ofEntry_table huri] at h
        split at h
        · rename_i hset
          cases h
          exact isEntry_of_setAll? ⟨inOrder, values⟩ huri hset
        · cases h
      · rw [ofEntry_missing huri] at h
        cases h
    | _ => cases h
  · rintro ⟨hname, hroot, entries, hentries, hspells⟩
    obtain rfl : v = .table entries := hentries
    cases hv with
    | table inOrder values =>
      have hordered : Toml.OrderedEntries entries := ⟨inOrder, values⟩
      obtain ⟨w, hw, -⟩ := hspells.uri
      have huri : "uri" ∈ keys entries := isSome_lookup.1 (by rw [hw]; rfl)
      obtain ⟨e, he⟩ := (exists_setAll?_iff (d := { name, uri := "", root }) hordered).2
        fun p hp => isSetting_of_spells inOrder.nodup hspells hp
      obtain ⟨hname', hroot', _, ⟨⟩, hspells'⟩ := isEntry_of_setAll? hordered huri he
      rw [ofEntry_table huri, he]
      exact congrArg Except.ok
        (eq_of_spells hspells' hspells (hname'.trans hname.symm) (hroot'.trans hroot.symm))

theorem ofEntry_of_entryFault {fault : ManifestFault} (hv : v.Ordered)
    (h : EntryFault (name, v) fault) : ofEntry root name v = .error fault := by
  cases h with
  | notTable h =>
    cases v with
    | table entries => exact absurd rfl (h entries)
    | _ => rfl
  | missingUri h => exact ofEntry_missing h
  | @setting _ entries p huri hp h =>
    rw [ofEntry_table huri]
    split
    · rename_i e hset
      cases hv with
      | table inOrder values =>
        exact absurd ((exists_setAll?_iff ⟨inOrder, values⟩).1 ⟨e, hset⟩ p hp) h
    · rfl

theorem entryFault_of_ofEntry {fault : ManifestFault} (hv : v.Ordered)
    (h : ofEntry root name v = .error fault) : EntryFault (name, v) fault := by
  cases hv with
  | @table entries inOrder values =>
    by_cases huri : "uri" ∈ keys entries
    · rw [ofEntry_table huri] at h
      split at h
      · cases h
      · rename_i hnone
        cases h
        by_contra hfault
        have hsettings : ∀ p ∈ entries, IsSetting p.1 p.2 := fun p hp =>
          by_contra fun hp' => hfault (.setting huri hp hp')
        obtain ⟨e, he⟩ := (exists_setAll?_iff ⟨inOrder, values⟩).2 hsettings
        rw [hnone] at he
        cases he
    · rw [ofEntry_missing huri] at h
      cases h
      exact .missingUri huri
  | _ =>
    cases h
    exact .notTable nofun

/-- Any other is refused: first if it is no table, then if it has no location, and only then for a
setting that is not of its form. -/
theorem ofEntry_eq_error_iff {fault : ManifestFault} (hv : v.Ordered) :
    ofEntry root name v = .error fault ↔ EntryFault (name, v) fault :=
  ⟨entryFault_of_ofEntry hv, ofEntry_of_entryFault hv⟩

end Definition

end SpiritHost
