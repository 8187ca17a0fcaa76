import Mathlib.Data.List.Nodup
import SpiritHost.Loa.Registry

/-!
# What a registry lists

A registry lists the built-in Loa and then those that stand: of each name, the one registered last,
unless its name was unregistered since, in the order of their registration (`Registry.standing`).
What fails changes nothing, so only what succeeded counts (`Registry.lists_standing`).
-/

namespace SpiritHost.Registry

/-! ## Actions -/

/-- What can be done to a registry. -/
inductive Action where
  | register (loa : Loa)
  | unregister (name : String)

/-- What became of a Loa. -/
inductive Event where
  | registered (loa : Loa)
  | unregistered (name : String)

/-- The name that an event is about. -/
def Event.name : Event → String
  | registered loa => loa.name
  | unregistered name => name

/-- The Loa that an event brings. -/
def Event.loa? : Event → Option Loa
  | registered loa => some loa
  | unregistered _ => none

/-- The event that an action is if it succeeds. -/
def Action.event : Action → Event
  | register loa => .registered loa
  | unregister name => .unregistered name

/-- What an action gives back, which is the Loa taken out if one is, and the registry it makes. -/
def attempt (r : Registry) : Action → Except Error (Option Loa × Registry)
  | .register loa => (none, ·) <$> r.register loa
  | .unregister name => (fun (loa, t) => (some loa, t)) <$> r.unregister name

/-- The registry after an action, successful or not. -/
def act (r : Registry) (a : Action) : Registry :=
  match r.attempt a with
  | .ok (_, t) => t
  | .error _ => r

/-- What an action comes to: its event, or nothing if it fails. -/
def outcome (r : Registry) (a : Action) : List Event :=
  match r.attempt a with
  | .ok _ => [a.event]
  | .error _ => []

/-- The registry after a run of actions. -/
def actAll : List Action → Registry → Registry
  | [], r => r
  | a :: rest, r => actAll rest (r.act a)

/-- What became of Loas in a run of actions, in order. -/
def events : List Action → Registry → List Event
  | [], _ => []
  | a :: rest, r => r.outcome a ++ events rest (r.act a)

/-- The Loas that were registered and about whose names nothing happened since, in the order of
their registration. -/
def standing : List Event → List Loa
  | [] => []
  | .registered loa :: later =>
    if ∀ e ∈ later, e.name ≠ loa.name then loa :: standing later else standing later
  | .unregistered _ :: later => standing later

/-- **One more event.** It ends the standing of the Loa of its name, and brings its own. -/
theorem standing_concat (e : Event) (history : List Event) :
    standing (history ++ [e]) = (standing history).filter (·.name != e.name) ++ e.loa?.toList := by
  induction history with
  | nil => cases e <;> simp [standing, Event.loa?]
  | cons x later ih =>
    cases x with
    | unregistered name => exact ih
    | registered loa =>
      simp only [List.cons_append, standing, List.forall_mem_append, List.forall_mem_singleton, ih]
      by_cases hlater : ∀ y ∈ later, y.name ≠ loa.name
      · by_cases hsame : e.name = loa.name
        · rw [if_neg fun h => h.2 hsame, if_pos hlater, List.filter_cons_of_neg (by simp [hsame])]
        · have hstays : loa.name ≠ e.name := Ne.symm hsame
          rw [if_pos ⟨hlater, hsame⟩, if_pos hlater, List.filter_cons_of_pos (by simpa using hstays),
            List.cons_append]
      · rw [if_neg fun h => hlater h.1, if_neg hlater]

/-! ## Looking up -/

variable {r : Registry} {name : String} {loa : Loa} {history : List Event}

theorem mem_names_of_mem (h : loa ∈ r.loas) : loa.name ∈ r.names := List.mem_map_of_mem h

theorem contains_iff : r.contains name = true ↔ name ∈ r.names := by
  simp [contains, get?, names]

theorem get?_eq_none_iff : r.get? name = none ↔ name ∉ r.names := by
  rw [← contains_iff, contains, Option.not_isSome_iff_eq_none]

theorem mem_of_get? (h : r.get? name = some loa) : loa ∈ r.loas ∧ loa.name = name :=
  ⟨List.mem_of_find?_eq_some h, by simpa using List.find?_some h⟩

/-- Of a name there is one Loa at most, so whichever is listed is found. -/
theorem get?_eq_some_iff (hdistinct : r.names.Nodup) :
    r.get? name = some loa ↔ loa ∈ r.loas ∧ loa.name = name := by
  constructor
  · exact mem_of_get?
  · rintro ⟨hmem, rfl⟩
    cases hget : r.get? loa.name with
    | none => exact absurd (mem_names_of_mem hmem) (get?_eq_none_iff.1 hget)
    | some other =>
      obtain ⟨hother, hname⟩ := mem_of_get? hget
      rw [List.inj_on_of_nodup_map hdistinct hother hmem hname]

/-! ## Registering and unregistering -/

theorem attempt_register (r : Registry) (loa : Loa) :
    r.attempt (.register loa) =
      if loa.name ∈ r.names then .error (.loaExists loa.name)
      else .ok (none, ⟨r.loas ++ [loa]⟩) := by
  simp only [attempt, register, contains_iff]
  split <;> rfl

/-- What is taken out is the one Loa of its name. -/
theorem eraseP_eq_filter (name : String) (loas : List Loa) (h : (loas.map (·.name)).Nodup) :
    loas.eraseP (·.name == name) = loas.filter (·.name != name) := by
  induction loas with
  | nil => rfl
  | cons loa rest ih =>
    obtain ⟨hnew, hrest⟩ := List.nodup_cons.1 h
    by_cases hname : loa.name = name
    · have hothers : ∀ other ∈ rest, (other.name != name) = true := by
        intro other hmem
        refine bne_iff_ne.2 fun hsame => hnew ?_
        exact List.mem_map.2 ⟨other, hmem, hsame.trans hname.symm⟩
      rw [List.eraseP_cons_of_pos (by simp [hname]), List.filter_cons_of_neg (by simp [hname]),
        List.filter_eq_self.2 hothers]
    · rw [List.eraseP_cons_of_neg (by simp [hname]), List.filter_cons_of_pos (by simp [hname]),
        ih hrest]

theorem attempt_unregister (hdistinct : r.names.Nodup) (name : String) :
    r.attempt (.unregister name) =
      if name = Loa.builtinName then .error (.builtinLoa name)
      else match r.get? name with
        | some loa => .ok (some loa, ⟨r.loas.filter (·.name != name)⟩)
        | none => .error (.loaNotFound name) := by
  rw [attempt, unregister, eraseP_eq_filter name r.loas hdistinct]
  split
  · rfl
  · cases r.get? name <;> rfl

/-! ## Runs -/

/-- A registry lists the built-in Loa and those that stand, all under names of their own. -/
structure Lists (r : Registry) (history : List Event) : Prop where
  loas : r.loas = Loa.builtin :: standing history
  distinct : r.names.Nodup

theorem lists_new : new.Lists [] := ⟨rfl, List.nodup_singleton _⟩

theorem Lists.registered (h : r.Lists history) (hnew : loa.name ∉ r.names) :
    Lists ⟨r.loas ++ [loa]⟩ (history ++ [.registered loa]) := by
  have hothers : ∀ other ∈ r.loas, other.name ≠ loa.name := by
    intro other hmem hsame
    exact hnew (hsame ▸ mem_names_of_mem hmem)
  constructor
  · have hstanding : ∀ other ∈ standing history, (other.name != loa.name) = true := by
      intro other hmem
      refine bne_iff_ne.2 (hothers other ?_)
      rw [h.loas]
      exact List.mem_cons_of_mem _ hmem
    rw [standing_concat, Event.name, List.filter_eq_self.2 hstanding, h.loas]
    rfl
  · rw [names, List.map_append, List.map_singleton]
    refine List.nodup_append.2 ⟨h.distinct, List.nodup_singleton _, ?_⟩
    intro a ha b hb
    obtain ⟨other, hmem, rfl⟩ := List.mem_map.1 ha
    rw [List.mem_singleton.1 hb]
    exact hothers other hmem

theorem Lists.unregistered (h : r.Lists history) (hname : name ≠ Loa.builtinName) :
    Lists ⟨r.loas.filter (·.name != name)⟩ (history ++ [.unregistered name]) := by
  constructor
  · have hbuiltin : Loa.builtin.name ≠ name := Ne.symm hname
    rw [standing_concat, h.loas]
    simp [Event.name, Event.loa?, hbuiltin]
  · exact h.distinct.sublist (List.filter_sublist.map _)

/-- **One action.** What it comes to is what the registry lists from then on. -/
theorem Lists.act (h : r.Lists history) (a : Action) :
    (r.act a).Lists (history ++ r.outcome a) := by
  unfold Registry.act outcome
  cases a with
  | register loa =>
    rw [attempt_register]
    by_cases hmem : loa.name ∈ r.names
    · simpa [hmem] using h
    · rw [if_neg hmem]
      exact h.registered hmem
  | unregister name =>
    rw [attempt_unregister h.distinct]
    by_cases hbuiltin : name = Loa.builtinName
    · simpa [hbuiltin] using h
    · rw [if_neg hbuiltin]
      cases r.get? name with
      | none => simpa using h
      | some loa => exact h.unregistered hbuiltin

theorem Lists.actAll (actions : List Action) (h : r.Lists history) :
    (r.actAll actions).Lists (history ++ r.events actions) := by
  induction actions generalizing r history with
  | nil => simpa [Registry.actAll, events] using h
  | cons a rest ih =>
    rw [events, ← List.append_assoc]
    exact ih (h.act a)

/-! ## What callers see -/

/-- What a registry is like after a history: what it lists, what it refuses, and what it answers. -/
structure Answers (r : Registry) (history : List Event) : Prop extends r.Lists history where
  /-- To register fails exactly if the name is taken. -/
  taken : ∀ loa e, r.attempt (.register loa) = .error e ↔
    loa.name ∈ r.names ∧ e = .loaExists loa.name
  /-- To unregister fails exactly if the name is that of the built-in Loa, or if nobody has it. -/
  missing : ∀ name e, r.attempt (.unregister name) = .error e ↔
    name = Loa.builtinName ∧ e = .builtinLoa name ∨
      name ≠ Loa.builtinName ∧ name ∉ r.names ∧ e = .loaNotFound name
  /-- Otherwise the Loa of the name is given back. -/
  given : ∀ name given t, r.attempt (.unregister name) = .ok (given, t) →
    ∃ loa ∈ r.loas, loa.name = name ∧ given = some loa
  /-- What fails changes nothing. -/
  unchanged : ∀ a e, r.attempt a = .error e → r.act a = r
  found : ∀ name loa, r.get? name = some loa ↔ loa ∈ r.loas ∧ loa.name = name
  known : ∀ name, r.contains name = true ↔ name ∈ r.names
  size : r.size = (standing history).length + 1

theorem Lists.missing (h : r.Lists history) (name : String) (e : Error) :
    r.attempt (.unregister name) = .error e ↔
      name = Loa.builtinName ∧ e = .builtinLoa name ∨
        name ≠ Loa.builtinName ∧ name ∉ r.names ∧ e = .loaNotFound name := by
  rw [attempt_unregister h.distinct, ← get?_eq_none_iff]
  by_cases hbuiltin : name = Loa.builtinName
  · simp [hbuiltin, eq_comm]
  · cases hget : r.get? name <;> simp [hbuiltin, eq_comm]

theorem Lists.given (h : r.Lists history) {given : Option Loa} {t : Registry}
    (hok : r.attempt (.unregister name) = .ok (given, t)) :
    ∃ loa ∈ r.loas, loa.name = name ∧ given = some loa := by
  rw [attempt_unregister h.distinct] at hok
  split at hok
  · cases hok
  · split at hok
    · rename_i loa hget
      cases hok
      exact ⟨loa, (mem_of_get? hget).1, (mem_of_get? hget).2, rfl⟩
    · cases hok

/-- **Registries.** Whatever was done to a registry and whatever came of it, it lists the built-in Loa
first and then those that stand, in the order of their registration, and answers accordingly. -/
theorem lists_standing (actions : List Action) :
    (new.actAll actions).Answers (new.events actions) := by
  have h : (new.actAll actions).Lists (new.events actions) := lists_new.actAll actions
  refine ⟨h, fun loa e => ?_, h.missing, fun _ _ _ => h.given, fun a e herror => ?_,
    fun _ _ => get?_eq_some_iff h.distinct, fun _ => contains_iff, ?_⟩
  · rw [attempt_register]
    split <;> simp [*, eq_comm]
  · rw [act, herror]
  · rw [size, h.loas, List.length_cons]

end SpiritHost.Registry
