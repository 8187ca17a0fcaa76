/-!
# Looking up keys

A list of pairs is searched from its front. Where the pairs are in the order of their keys, a key is
set in its place (`setKey`); how that is seen by a lookup and by the list of keys is said here once,
for whatever is kept by name.
-/

namespace SpiritHost

variable {α : Type}

theorem lookup_cons_if (key other : String) (a : α) (entries : List (String × α)) :
    ((key, a) :: entries).lookup other = if other = key then some a else entries.lookup other := by
  rw [List.lookup_cons]
  by_cases h : other = key
  · simp [h]
  · rw [if_neg h, beq_eq_false_iff_ne.2 h]

theorem any_eq_isSome_lookup (key : String) : ∀ entries : List (String × α),
    entries.any (·.1 == key) = (entries.lookup key).isSome
  | [] => rfl
  | (k, _) :: rest => by
    rw [List.any_cons, any_eq_isSome_lookup key rest, lookup_cons_if]
    by_cases h : key = k
    · simp [h]
    · have hne : (k == key) = false := beq_eq_false_iff_ne.2 (Ne.symm h)
      rw [if_neg h, hne, Bool.false_or]

/-- Replacing what a key has wherever it occurs. -/
theorem lookup_replace (key other : String) (a : α) : ∀ entries : List (String × α),
    (entries.map fun (k, b) => if k == key then (k, a) else (k, b)).lookup other =
      if other = key then (entries.lookup other).map fun _ => a else entries.lookup other
  | [] => by simp
  | (k, b) :: rest => by
    have ih := lookup_replace key other a rest
    rw [List.map_cons]
    by_cases hk : k = key
    · subst hk
      simp only [beq_self_eq_true, if_true]
      rw [lookup_cons_if, lookup_cons_if, ih]
      by_cases h : other = k <;> simp [h]
    · simp only [beq_iff_eq, if_neg hk]
      rw [lookup_cons_if, lookup_cons_if]
      simp only [beq_iff_eq] at ih
      rw [ih]
      by_cases h : other = k
      · subst h
        simp [hk]
      · simp [h]

/-! ## Entries in the order of their keys -/

/-- The keys of entries. -/
def keys (entries : List (String × α)) : List String := entries.map (·.1)

theorem keys_replace (key : String) (a : α) (entries : List (String × α)) :
    keys (entries.map fun (k, b) => if k == key then (k, a) else (k, b)) = keys entries := by
  rw [keys, List.map_map]
  refine List.map_congr_left fun p _ => ?_
  by_cases hkey : p.1 = key <;> simp [hkey]

/-- The keys are in order and differ. -/
def InOrder (entries : List (String × α)) : Prop := (keys entries).Pairwise (· < ·)

/-- Entries with what a key has set, which keeps them in order. -/
def setKey (key : String) (a : α) : List (String × α) → List (String × α)
  | [] => [(key, a)]
  | (k, b) :: rest =>
    if key < k then (key, a) :: (k, b) :: rest
    else if key = k then (key, a) :: rest
    else (k, b) :: setKey key a rest

theorem isSome_lookup {key : String} {entries : List (String × α)} :
    (entries.lookup key).isSome = true ↔ key ∈ keys entries := by
  rw [List.lookup_isSome_iff, keys, List.mem_map]
  constructor
  · rintro ⟨p, hp, hkey⟩
    exact ⟨p, hp, (beq_iff_eq.1 hkey).symm⟩
  · rintro ⟨p, hp, rfl⟩
    exact ⟨p, hp, beq_self_eq_true _⟩

theorem lookup_of_mem {key : String} {a : α} : ∀ {entries : List (String × α)},
    (keys entries).Nodup → (key, a) ∈ entries → entries.lookup key = some a
  | (k, b) :: rest, hnodup, hmem => by
    obtain ⟨hnew, hnodup⟩ := List.nodup_cons.1 hnodup
    rw [lookup_cons_if]
    rcases List.mem_cons.1 hmem with heq | hrest
    · cases heq
      rw [if_pos rfl]
    · have hkey : key ∈ keys rest := List.mem_map_of_mem hrest
      have hne : key ≠ k := by
        rintro rfl
        exact hnew hkey
      rw [if_neg hne, lookup_of_mem hnodup hrest]

theorem mem_of_lookup {key : String} {a : α} : ∀ {entries : List (String × α)},
    entries.lookup key = some a → (key, a) ∈ entries
  | (k, b) :: rest, h => by
    rw [lookup_cons_if] at h
    by_cases hkey : key = k
    · rw [if_pos hkey] at h
      cases h
      exact hkey ▸ List.mem_cons_self
    · rw [if_neg hkey] at h
      exact List.mem_cons_of_mem _ (mem_of_lookup h)

theorem InOrder.nodup {entries : List (String × α)} (h : InOrder entries) :
    (keys entries).Nodup := by
  refine List.Pairwise.imp (fun {a b} hlt => ?_) h
  rintro rfl
  exact String.lt_irrefl a hlt

theorem inOrder_cons {key : String} {a : α} {entries : List (String × α)} :
    InOrder ((key, a) :: entries) ↔ (∀ k ∈ keys entries, key < k) ∧ InOrder entries :=
  List.pairwise_cons

theorem mem_keys_setKey {key other : String} {a : α} : ∀ {entries : List (String × α)},
    other ∈ keys (setKey key a entries) ↔ other = key ∨ other ∈ keys entries
  | [] => by simp [setKey, keys]
  | (k, b) :: rest => by
    have ih : other ∈ keys (setKey key a rest) ↔ other = key ∨ other ∈ keys rest := mem_keys_setKey
    unfold setKey
    split
    · simp [keys]
    · split
      · rename_i heq
        subst heq
        simp [keys]
      · simp only [keys, List.map_cons, List.mem_cons] at ih ⊢
        rw [ih, or_left_comm]

theorem InOrder.setKey {key : String} (a : α) : ∀ {entries : List (String × α)},
    InOrder entries → InOrder (setKey key a entries)
  | [], _ => List.pairwise_singleton _ _
  | (k, b) :: rest, h => by
    obtain ⟨hfirst, hrest⟩ := inOrder_cons.1 h
    unfold SpiritHost.setKey
    split
    · rename_i hlt
      refine inOrder_cons.2 ⟨fun other hother => ?_, h⟩
      rcases List.mem_cons.1 hother with rfl | hother
      · exact hlt
      · exact String.lt_trans hlt (hfirst other hother)
    · rename_i hle
      split
      · rename_i heq
        subst heq
        exact inOrder_cons.2 ⟨hfirst, hrest⟩
      · rename_i hne
        refine inOrder_cons.2 ⟨fun other hother => ?_, hrest.setKey a⟩
        rcases mem_keys_setKey.1 hother with rfl | hother
        · exact Std.lt_of_le_of_ne hle (Ne.symm hne)
        · exact hfirst other hother

theorem lookup_setKey (key other : String) (a : α) : ∀ entries : List (String × α),
    (setKey key a entries).lookup other = if other = key then some a else entries.lookup other
  | [] => lookup_cons_if key other a []
  | (k, b) :: rest => by
    have ih := lookup_setKey key other a rest
    unfold setKey
    by_cases hlt : key < k
    · rw [if_pos hlt, lookup_cons_if]
    · rw [if_neg hlt]
      by_cases heq : key = k
      · subst heq
        rw [if_pos rfl, lookup_cons_if, lookup_cons_if]
        by_cases h : other = key <;> simp [h]
      · rw [if_neg heq, lookup_cons_if, ih, lookup_cons_if]
        by_cases h : other = key
        · subst h
          simp [heq]
        · simp [h]

theorem perm_setKey {key : String} (a : α) : ∀ {entries : List (String × α)}, key ∉ keys entries →
    (keys (setKey key a entries)).Perm (key :: keys entries)
  | [], _ => .refl _
  | (k, b) :: rest, h => by
    rw [keys, List.map_cons, List.mem_cons, not_or] at h
    unfold setKey
    by_cases hlt : key < k
    · rw [if_pos hlt]
      exact .refl _
    · rw [if_neg hlt, if_neg h.1]
      exact ((perm_setKey a h.2).cons k).trans (.swap key k _)

/-- To set what is there already changes nothing. -/
theorem setKey_of_lookup {key : String} {a : α} : ∀ {entries : List (String × α)},
    InOrder entries → entries.lookup key = some a → setKey key a entries = entries
  | [], _, h => by cases h
  | (k, b) :: rest, hsorted, h => by
    obtain ⟨hfirst, hrest⟩ := inOrder_cons.1 hsorted
    rw [lookup_cons_if] at h
    unfold setKey
    by_cases heq : key = k
    · subst heq
      rw [if_pos rfl, Option.some.injEq] at h
      rw [if_neg (String.lt_irrefl key), if_pos rfl, h]
    · rw [if_neg heq] at h
      have hmem : key ∈ keys rest := isSome_lookup.1 (by rw [h]; rfl)
      rw [if_neg (String.lt_asymm (hfirst key hmem)), if_neg heq, setKey_of_lookup hrest h]

/-! ## Many keys -/

/-- Entries with what several keys have set, one after the other. -/
def setKeys (values : List (String × α)) (entries : List (String × α)) : List (String × α) :=
  values.foldl (fun entries p => setKey p.1 p.2 entries) entries

theorem InOrder.setKeys : ∀ (values : List (String × α)) {entries : List (String × α)},
    InOrder entries → InOrder (setKeys values entries)
  | [], _, h => h
  | (_, a) :: rest, _, h => (h.setKey a).setKeys rest

theorem perm_setKeys : ∀ {values entries : List (String × α)}, (keys values).Nodup →
    (∀ k ∈ keys values, k ∉ keys entries) →
      (keys (setKeys values entries)).Perm (keys values ++ keys entries)
  | [], _, _, _ => .refl _
  | (k, a) :: rest, entries, hnodup, hnew => by
    obtain ⟨hk, hnodup⟩ := List.nodup_cons.1 hnodup
    have hfirst : k ∉ keys entries := hnew k List.mem_cons_self
    have hrest : ∀ x ∈ keys rest, x ∉ keys (setKey k a entries) := by
      intro x hx hmem
      rcases mem_keys_setKey.1 hmem with rfl | hmem
      · exact hk hx
      · exact hnew x (List.mem_cons_of_mem _ hx) hmem
    refine (perm_setKeys hnodup hrest).trans ?_
    exact ((perm_setKey a hfirst).append_left (keys rest)).trans List.perm_middle

theorem lookup_setKeys (other : String) : ∀ {values : List (String × α)}
    (entries : List (String × α)), (keys values).Nodup →
      (setKeys values entries).lookup other = (values.lookup other).or (entries.lookup other)
  | [], _, _ => rfl
  | (k, a) :: rest, entries, hnodup => by
    obtain ⟨hk, hnodup⟩ := List.nodup_cons.1 hnodup
    have hrest : rest.lookup k = none := by
      rw [← Option.not_isSome_iff_eq_none, isSome_lookup]
      exact hk
    have ih := lookup_setKeys other (setKey k a entries) hnodup
    rw [lookup_setKey] at ih
    rw [lookup_cons_if]
    refine ih.trans ?_
    by_cases h : other = k
    · subst h
      rw [if_pos rfl, if_pos rfl, hrest]
      rfl
    · rw [if_neg h, if_neg h]

end SpiritHost
