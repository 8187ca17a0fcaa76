import SpiritHost.Proofs.Lookup
import SpiritHost.Seance

/-!
# Entries of a séance

How `get?` sees the changes to a séance: putting a Spirit in and taking one out concern one name
only, and neither concerns what later Spirits are loaded with.
-/

namespace SpiritHost

namespace Seance

variable (s : Seance) (name other : String) (spirit : Spirit)

theorem insertEntry_eq : ∀ entries : List (String × Spirit),
    insertEntry name spirit entries = setKey name spirit entries
  | [] => rfl
  | (n, old) :: rest => by rw [insertEntry, setKey, insertEntry_eq rest]

theorem lookup_filter_ne : ∀ entries : List (String × Spirit),
    (entries.filter (·.1 != name)).lookup other =
      if other = name then none else entries.lookup other
  | [] => by simp
  | (n, old) :: rest => by
    have ih := lookup_filter_ne rest
    by_cases hn : n = name
    · subst hn
      rw [List.filter_cons_of_neg (by simp), ih, lookup_cons_if]
      by_cases h : other = n <;> simp [h]
    · rw [List.filter_cons_of_pos (by simpa using hn), lookup_cons_if, lookup_cons_if, ih]
      by_cases h : other = n
      · subst h
        simp [hn]
      · simp [h]

theorem get?_insert : (s.insert name spirit).get? other =
    if other = name then some spirit else s.get? other := by
  rw [get?, insert, insertEntry_eq]
  exact lookup_setKey name other spirit s.entries

theorem get?_erase : (s.erase name).get? other = if other = name then none else s.get? other :=
  lookup_filter_ne name other s.entries

theorem contains_eq_true_iff : s.contains name = true ↔ name ∈ s.names := isSome_lookup

theorem contains_eq_false_iff : s.contains name = false ↔ name ∉ s.names := by
  rw [← contains_eq_true_iff, Bool.not_eq_true]

/-! ## Taking names out -/

theorem perm_names_insert (h : name ∉ s.names) :
    (s.insert name spirit).names.Perm (name :: s.names) := by
  rw [names, insert, insertEntry_eq]
  exact perm_setKey spirit h

/-- An entry put in goes again with any names that include its own. -/
theorem filter_insertEntry {taken : List String} (hname : name ∈ taken) :
    ∀ entries : List (String × Spirit),
      (insertEntry name spirit entries).filter (·.1 ∉ taken) = entries.filter (·.1 ∉ taken)
  | [] => by simp [insertEntry, hname]
  | (n, old) :: rest => by
    unfold insertEntry
    by_cases hlt : name < n
    · rw [if_pos hlt, List.filter_cons_of_neg (by simpa using hname)]
    · rw [if_neg hlt]
      by_cases heq : name = n
      · subst heq
        rw [if_pos rfl, List.filter_cons_of_neg (by simpa using hname),
          List.filter_cons_of_neg (by simpa using hname)]
      · rw [if_neg heq, List.filter_cons, List.filter_cons, filter_insertEntry hname rest]

/-- The séance without the Spirits of some names. -/
def without (taken : List String) : Seance := { s with entries := s.entries.filter (·.1 ∉ taken) }

theorem without_of_not_mem {taken : List String} (h : ∀ name ∈ taken, name ∉ s.names) :
    s.without taken = s := by
  have hall : ∀ p ∈ s.entries, decide (p.1 ∉ taken) = true := fun p hp =>
    decide_eq_true fun hmem => h p.1 hmem (List.mem_map_of_mem hp)
  rw [without, List.filter_eq_self.2 hall]

theorem without_insert {taken : List String} (hname : name ∈ taken) :
    (s.insert name spirit).without taken = s.without taken := by
  rw [without, without, insert, filter_insertEntry name spirit hname]

theorem erase_eq_without : s.erase name = s.without [name] := by
  rw [erase, without]
  congr 1
  refine List.filter_congr fun p _ => ?_
  by_cases h : p.1 = name <;> simp [h]

theorem without_without (xs ys : List String) : (s.without xs).without ys = s.without (xs ++ ys) := by
  rw [without, without, without, List.filter_filter]
  congr 1
  exact List.filter_congr fun p _ => by simp [Bool.and_comm]

theorem without_append_singleton (taken : List String) (h : name ∉ s.names) :
    s.without (taken ++ [name]) = s.without taken := by
  rw [without, without]
  congr 1
  refine List.filter_congr fun p hp => ?_
  have hne : p.1 ≠ name := fun heq => h (heq ▸ List.mem_map_of_mem hp)
  simp [hne]

end Seance

end SpiritHost
