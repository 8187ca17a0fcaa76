import SpiritHost.Loa.Registry
import SpiritHost.Proofs.Except
import SpiritHost.Proofs.Loa.Log
import SpiritHost.Proofs.Lookup

/-!
# Merging what Loas declare

Loas are asked one after the other (`Linking.askAll`), and what they declare is one list. Merging
keeps, of each name, the function declared last (`lastOf`), and leaves a line for every declaration
of a name that was there before.
-/

namespace SpiritHost

/-- What a Loa gave when it was asked. -/
structure Asked where
  loa : String
  /-- Its functions in the order of their declaration. -/
  provided : List (String × HostFunction)
  /-- The lines it left in the log. -/
  lines : List LogLine

/-- Everything that was declared, in order. -/
def declarations (asked : List Asked) : List (String × HostFunction) := asked.flatMap (·.provided)

/-- The function of a name that is declared last. -/
def lastOf (name : String) : List (String × HostFunction) → Option HostFunction
  | [] => none
  | (n, f) :: rest => (lastOf name rest).or (if name = n then some f else none)

/-- The lines about a Loa's functions whose names were there before. -/
def overrides (loa : String) : (earlier : List String) → List (String × HostFunction) → List LogLine
  | _, [] => []
  | earlier, (name, _) :: rest =>
    (if name ∈ earlier then [.overridden loa name] else []) ++ overrides loa (name :: earlier) rest

/-- The lines that asking and merging leave, Loa by Loa. -/
def mergeLog : (earlier : List String) → List Asked → List LogLine
  | _, [] => []
  | earlier, a :: rest =>
    a.lines ++ overrides a.loa earlier a.provided ++ mergeLog (a.provided.map (·.1) ++ earlier) rest

namespace Linking

/-- Asks Loas in order, each on the store that the one before it left, up to the first that fails. -/
def askAll : List Loa → Store → Except (String × Failure) (List Asked)
  | [], _ => .ok []
  | loa :: rest, s =>
    match loa.provides.run (s.withLog #[]) with
    | (.ok provided, t) => do
      let later ← askAll rest t
      .ok (⟨loa.name, provided, t.log.toList⟩ :: later)
    | (.error failure, _) => .error (loa.name, failure)

end Linking

/-! ## The function declared last -/

section

variable {name other : String} {f g : HostFunction}

theorem lastOf_eq_none_iff : ∀ {declared : List (String × HostFunction)},
    lastOf name declared = none ↔ ∀ p ∈ declared, p.1 ≠ name
  | [] => by simp [lastOf]
  | (n, g) :: rest => by
    rw [lastOf, Option.or_eq_none_iff, lastOf_eq_none_iff, List.forall_mem_cons, and_comm]
    simp [eq_comm]

theorem lastOf_append : ∀ (xs ys : List (String × HostFunction)),
    lastOf name (xs ++ ys) = (lastOf name ys).or (lastOf name xs)
  | [], ys => by simp [lastOf]
  | (n, g) :: xs, ys => by
    rw [List.cons_append, lastOf, lastOf, lastOf_append xs ys, Option.or_assoc]

/-- **The last declaration.** No later one has its name. -/
theorem lastOf_eq_some_iff : ∀ {declared : List (String × HostFunction)},
    lastOf name declared = some f ↔
      ∃ before after, declared = before ++ (name, f) :: after ∧ ∀ p ∈ after, p.1 ≠ name
  | [] => by simp [lastOf]
  | (n, g) :: rest => by
    constructor
    · intro h
      rw [lastOf, Option.or_eq_some_iff] at h
      rcases h with h | ⟨hnone, h⟩
      · obtain ⟨before, after, rfl, hafter⟩ := lastOf_eq_some_iff.1 h
        exact ⟨(n, g) :: before, after, rfl, hafter⟩
      · split at h
        · rename_i hn
          cases h
          exact ⟨[], rest, by rw [hn, List.nil_append], lastOf_eq_none_iff.1 hnone⟩
        · cases h
    · rintro ⟨before, after, hsplit, hafter⟩
      rw [hsplit, lastOf_append, lastOf, lastOf_eq_none_iff.2 hafter]
      simp

end

/-! ## Merging -/

namespace Linking

variable {l : Linking}

theorem get?_add (l : Linking) (loa name other : String) (f : HostFunction) :
    (l.add loa name f).get? other = if other = name then some f else l.get? other := by
  unfold add get?
  by_cases h : l.functions.any (·.1 == name) = true
  · rw [if_pos h, lookup_replace]
    rw [any_eq_isSome_lookup, Option.isSome_iff_exists] at h
    obtain ⟨g, hg⟩ := h
    by_cases hname : other = name
    · rw [if_pos hname, if_pos hname, hname, hg, Option.map_some]
    · rw [if_neg hname, if_neg hname]
  · rw [if_neg h, List.lookup_append, lookup_cons_if]
    rw [any_eq_isSome_lookup, Bool.not_eq_true, Option.isSome_eq_false_iff,
      Option.isNone_iff_eq_none] at h
    by_cases hname : other = name
    · rw [if_pos hname, if_pos hname, hname, h, Option.none_or]
    · rw [if_neg hname, if_neg hname, List.lookup_nil, Option.or_none]

/-- The lines of adding a function are the line about the one that it replaces. -/
theorem store_add (l : Linking) (loa name : String) (f : HostFunction) :
    (l.add loa name f).store = l.store.withLog (l.store.log ++
      (if (l.get? name).isSome then #[.overridden loa name] else #[])) := by
  unfold add get?
  rw [← any_eq_isSome_lookup]
  by_cases h : l.functions.any (·.1 == name) = true
  · rw [if_pos h, if_pos h]
    simp [Store.withLog]
  · rw [if_neg h, if_neg h]
    simp [Store.withLog]

/-- Names are known to be among the functions gathered. -/
def Known (earlier : List String) (l : Linking) : Prop :=
  ∀ name, name ∈ earlier ↔ (l.get? name).isSome = true

theorem Known.add {earlier : List String} (h : Known earlier l) (loa name : String)
    (f : HostFunction) : Known (name :: earlier) (l.add loa name f) := by
  intro other
  rw [get?_add, List.mem_cons, h other]
  by_cases hname : other = name <;> simp [hname]

/-- Adds functions in order. -/
def addAll (loa : String) (provided : List (String × HostFunction)) (l : Linking) : Linking :=
  provided.foldl (fun l (name, f) => l.add loa name f) l

theorem addAll_spec (loa : String) : ∀ (provided : List (String × HostFunction)) {l : Linking}
    {earlier : List String}, Known earlier l →
      (∀ name, (l.addAll loa provided).get? name = (lastOf name provided).or (l.get? name)) ∧
      (l.addAll loa provided).store =
        l.store.withLog (l.store.log ++ (overrides loa earlier provided).toArray) ∧
      Known (provided.map (·.1) ++ earlier) (l.addAll loa provided)
  | [], l, earlier, h => by
    refine ⟨fun name => ?_, ?_, h⟩
    · simp [addAll, lastOf]
    · simp [addAll, overrides, Store.withLog]
  | (name, f) :: rest, l, earlier, h => by
    obtain ⟨hget, hstore, hknown⟩ := addAll_spec loa rest (h.add loa name f)
    refine ⟨fun other => ?_, ?_, fun other => ?_⟩
    · rw [lastOf, Option.or_assoc]
      refine (hget other).trans ?_
      rw [get?_add]
      by_cases hname : other = name <;> simp [hname]
    · refine hstore.trans ?_
      rw [store_add, overrides]
      by_cases hmem : name ∈ earlier
      · simp [hmem, (h name).1 hmem]
      · have hnone : ¬(l.get? name).isSome = true := fun hsome => hmem ((h name).2 hsome)
        simp [hmem, hnone]
    · refine Iff.trans ?_ (hknown other)
      simp [or_left_comm]

/-- Merging one Loa that answers. -/
theorem merge_of_provides {loa : Loa} {provided : List (String × HostFunction)} {t : Store}
    {earlier : List String} (hknown : Known earlier l)
    (h : loa.provides.run (l.store.withLog #[]) = (.ok provided, t)) :
    ∃ merged, l.merge loa = (.ok (), merged) ∧
      (∀ name, merged.get? name = (lastOf name provided).or (l.get? name)) ∧
      merged.store = t.withLog
        (l.store.log ++ t.log ++ (overrides loa.name earlier provided).toArray) ∧
      Known (provided.map (·.1) ++ earlier) merged := by
  have hrun := loa.provides.run_withLog l.store l.store.log
  rw [Store.withLog_self, HostCall.runBehind, h] at hrun
  refine ⟨_, ?_, addAll_spec loa.name provided
    (l := { l with store := t.withLog (l.store.log ++ t.log) }) hknown⟩
  unfold merge
  rw [hrun]
  rfl

theorem merge_of_failure {loa : Loa} {failure : Failure} {t : Store}
    (h : loa.provides.run (l.store.withLog #[]) = (.error failure, t)) :
    ∃ merged, l.merge loa = (.error (.providing loa.name failure), merged) := by
  have hrun := loa.provides.run_withLog l.store l.store.log
  rw [Store.withLog_self, HostCall.runBehind, h] at hrun
  unfold merge
  rw [hrun]
  exact ⟨_, rfl⟩

theorem askAll_withLog (loas : List Loa) (s : Store) (lines : Array LogLine) :
    askAll loas (s.withLog lines) = askAll loas s := by
  cases loas <;> rfl

/-- **Merging.** Of each name the function declared last is kept, and every declaration of a name that
was there before leaves a line. -/
theorem mergeAll_of_asked : ∀ {loas : List Loa} {l : Linking} {earlier : List String}
    {asked : List Asked}, Known earlier l → askAll loas l.store = .ok asked →
      ∃ merged, mergeAll loas l = (.ok (), merged) ∧
        merged.store.log.toList = l.store.log.toList ++ mergeLog earlier asked ∧
        ∀ name, merged.get? name = (lastOf name (declarations asked)).or (l.get? name)
  | [], l, earlier, _, hknown, h => by
    cases h
    exact ⟨l, rfl, by simp [mergeLog], fun name => by simp [declarations, lastOf]⟩
  | loa :: rest, l, earlier, asked, hknown, h => by
    unfold askAll at h
    split at h
    · rename_i provided t hrun
      obtain ⟨later, hlater, h⟩ := Except.bind_eq_ok_iff.1 h
      cases h
      obtain ⟨first, hmerge, hget, hstore, hfirst⟩ := merge_of_provides hknown hrun
      rw [← askAll_withLog, ← hstore] at hlater
      obtain ⟨merged, hall, hlog, hlast⟩ := mergeAll_of_asked hfirst hlater
      rw [mergeAll, hmerge]
      refine ⟨merged, hall, ?_, fun name => ?_⟩
      · rw [hlog, hstore]
        simp [mergeLog]
      · rw [hlast, hget, ← Option.or_assoc, ← lastOf_append]
        rfl
    · cases h

/-- The first Loa that fails decides the fault. -/
theorem mergeAll_of_failure : ∀ {loas : List Loa} {l : Linking} {earlier : List String}
    {name : String} {failure : Failure}, Known earlier l →
      askAll loas l.store = .error (name, failure) →
        ∃ merged, mergeAll loas l = (.error (.providing name failure), merged)
  | [], _, _, _, _, _, h => by cases h
  | loa :: rest, l, earlier, name, failure, hknown, h => by
    unfold askAll at h
    rw [mergeAll]
    split at h
    · rename_i provided t hrun
      obtain ⟨first, hmerge, -, hstore, hfirst⟩ := merge_of_provides hknown hrun
      rw [hmerge]
      cases hlater : askAll rest t with
      | ok later =>
        rw [hlater] at h
        cases h
      | error fault =>
        rw [hlater] at h
        cases h
        rw [← askAll_withLog, ← hstore] at hlater
        exact mergeAll_of_failure hfirst hlater
    · rename_i hrun
      cases h
      obtain ⟨merged, hmerge⟩ := merge_of_failure hrun
      rw [hmerge]
      exact ⟨merged, rfl⟩

end Linking

end SpiritHost
