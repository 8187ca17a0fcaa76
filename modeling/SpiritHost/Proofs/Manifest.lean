import SpiritHost.Manifest
import SpiritHost.Proofs.Toml.Keys

/-!
# The names of a manifest

Definitions come file by file, in each file in the order of their names, and no two share a name.
-/

namespace SpiritHost

namespace Definition

variable {d e : Definition} {root : Option String} {name key : String} {value : Toml.Value}

theorem name_set? (h : d.set? key value = some e) : e.name = d.name := by
  unfold set? at h
  split at h
  · obtain ⟨_, -, h⟩ := Option.bind_eq_some_iff.1 h
    cases h; rfl
  · cases h; rfl
  · obtain ⟨_, -, h⟩ := Option.bind_eq_some_iff.1 h
    cases h; rfl
  · obtain ⟨_, -, h⟩ := Option.bind_eq_some_iff.1 h
    cases h; rfl
  · cases h

theorem name_setAll? : ∀ (settings : List (String × Toml.Value)) {d e : Definition},
    settings.foldlM (fun d (key, value) => set? d key value) d = some e → e.name = d.name
  | [], _, _, h => by cases h; rfl
  | (_, _) :: rest, d, _, h => by
    rw [List.foldlM_cons] at h
    obtain ⟨next, hset, hrest⟩ := Option.bind_eq_some_iff.1 h
    exact (name_setAll? rest hrest).trans (name_set? hset)

/-- A definition is named by the key of its table. -/
theorem name_ofEntry (h : ofEntry root name value = .ok d) : d.name = name := by
  unfold ofEntry at h
  split at h
  · split at h
    · split at h
      · rename_i hset
        cases h
        exact name_setAll? _ hset
      · cases h
    · cases h
  · cases h

end Definition

namespace Manifest

/-- The names of definitions. -/
def names (definitions : List Definition) : List String := definitions.map (·.name)

theorem names_of_forall₂ {root : Option String} :
    ∀ {entries : List (String × Toml.Value)} {definitions : List Definition},
      List.Forall₂ (fun p d => Definition.ofEntry root p.1 p.2 = .ok d) entries definitions →
        names definitions = entries.map (·.1)
  | _, _, .nil => rfl
  | _, _, .cons h rest => by
    rw [names, List.map_cons, List.map_cons, Definition.name_ofEntry h]
    exact congrArg _ (names_of_forall₂ rest)

/-- The names of one file's definitions are strictly in order. -/
theorem strict_parse {text : String} {root : Option String} {definitions : List Definition}
    (h : parse text root = .ok definitions) : (names definitions).Pairwise (· < ·) := by
  unfold parse at h
  split at h
  · cases h
  · rename_i hparse
    rw [names_of_forall₂ (Except.mapM_eq_ok_iff.1 h)]
    exact (Toml.ordered_parse? hparse).inOrder

theorem strict_parseFile {files : FileSystem} {path : String} {definitions : List Definition}
    (h : parseFile files path = .ok definitions) : (names definitions).Pairwise (· < ·) := by
  unfold parseFile at h
  split at h
  · cases h
  · split at h
    · cases h
    · exact strict_parse h

/-- No name is found to occur again exactly if they differ, from each other and from those before. -/
theorem repeated?_eq_none_iff : ∀ {names seen : List String}, repeated? seen names = none ↔
    names.Nodup ∧ ∀ name ∈ names, name ∉ seen
  | [], _ => by simp [repeated?]
  | name :: rest, seen => by
    have ih : repeated? (name :: seen) rest = none ↔
        rest.Nodup ∧ ∀ other ∈ rest, other ∉ name :: seen := repeated?_eq_none_iff
    unfold repeated?
    by_cases hseen : name ∈ seen
    · rw [if_pos hseen]
      constructor
      · intro h
        cases h
      · intro h
        exact absurd hseen (h.2 name List.mem_cons_self)
    · rw [if_neg hseen, ih, List.nodup_cons, List.forall_mem_cons]
      constructor
      · rintro ⟨hnodup, hrest⟩
        refine ⟨⟨fun hmem => hrest name hmem List.mem_cons_self, hnodup⟩, hseen, ?_⟩
        exact fun other hother hmem => hrest other hother (List.mem_cons_of_mem _ hmem)
      · rintro ⟨⟨hnew, hnodup⟩, -, hrest⟩
        refine ⟨hnodup, fun other hother hmem => ?_⟩
        rcases List.mem_cons.1 hmem with rfl | hmem
        · exact hnew hother
        · exact hrest other hother hmem

/-- A name that is found occurs again, and no name before it does. -/
theorem exists_of_repeated? {name : String} : ∀ {names seen : List String},
    repeated? seen names = some name →
      ∃ before after, names = before ++ name :: after ∧ before.Nodup ∧
        (∀ other ∈ before, other ∉ seen) ∧ (name ∈ before ∨ name ∈ seen)
  | [], _, h => by cases h
  | first :: rest, seen, h => by
    unfold repeated? at h
    split at h
    · rename_i hseen
      cases h
      exact ⟨[], rest, rfl, .nil, by simp, .inr hseen⟩
    · rename_i hseen
      obtain ⟨before, after, rfl, hnodup, hnew, hagain⟩ := exists_of_repeated? h
      have hfirst : first ∉ before := fun hmem => hnew first hmem List.mem_cons_self
      refine ⟨first :: before, after, rfl, List.nodup_cons.2 ⟨hfirst, hnodup⟩, ?_, ?_⟩
      · refine List.forall_mem_cons.2 ⟨hseen, fun other hother hmem => ?_⟩
        exact hnew other hother (List.mem_cons_of_mem _ hmem)
      · rw [List.mem_cons, or_left_comm] at hagain
        rwa [List.mem_cons, or_assoc]

/-- Conversely such a name is found. -/
theorem repeated?_of_again {name : String} {after : List String} : ∀ {before seen : List String},
    before.Nodup → (∀ other ∈ before, other ∉ seen) → (name ∈ before ∨ name ∈ seen) →
      repeated? seen (before ++ name :: after) = some name
  | [], _, _, _, hagain => if_pos (hagain.resolve_left List.not_mem_nil)
  | first :: before, seen, hnodup, hnew, hagain => by
    obtain ⟨hfirst, hnodup⟩ := List.nodup_cons.1 hnodup
    obtain ⟨hseen, hnew⟩ := List.forall_mem_cons.1 hnew
    rw [List.cons_append, repeated?, if_neg hseen]
    refine repeated?_of_again hnodup (fun other hother hmem => ?_) ?_
    · rcases List.mem_cons.1 hmem with rfl | hmem
      · exact hfirst hother
      · exact hnew other hother hmem
    · rw [List.mem_cons, or_assoc] at hagain
      rwa [List.mem_cons, or_left_comm]

/-- **Manifests.** What is loaded are the definitions of each file in turn, strictly in the order of
their names within a file, and with no name twice in all. -/
theorem load_eq_ok {files : FileSystem} {paths : List String} {definitions : List Definition}
    (h : load files paths = .ok definitions) :
    (names definitions).Nodup ∧
    ∃ groups, definitions = groups.flatten ∧
      List.Forall₂ (fun path group => parseFile files path = .ok group ∧
        (names group).Pairwise (· < ·)) paths groups := by
  obtain ⟨groups, hparse, h⟩ := Except.bind_eq_ok_iff.1 h
  split at h
  · cases h
  rename_i hfresh
  cases h
  have hnodup : (names groups.flatten).Nodup := (repeated?_eq_none_iff.1 hfresh).1
  cases hgroups : paths.mapM (parseFile files) with
  | error fault =>
    rw [hgroups] at hparse
    cases hparse
  | ok found =>
    rw [hgroups] at hparse
    cases hparse
    refine ⟨hnodup, groups, rfl, (Except.mapM_eq_ok_iff.1 hgroups).imp fun path group hgroup => ?_⟩
    exact ⟨hgroup, strict_parseFile hgroup⟩

end Manifest

end SpiritHost
