import SpiritHost.Proofs.Seance.Entries
import SpiritHost.Proofs.Spirit.Load
import SpiritHost.Proofs.Spirit.Operation

/-!
# Isolation

The Spirits of a séance share a registry and nothing else. What a run of steps shows of one name,
its outcomes and the Spirit in the end, is what the run without the steps on other names shows; and
a change of the registry reaches a Spirit only through the next summoning of its name.
-/

namespace SpiritHost

open Wasm (Value)

namespace Seance

/-- What can be done with a séance. -/
inductive Step where
  | summonBytes (name : String) (bytes : Bytes) (options : Option SummonOptions)
  | summon (name : String) (source : Source) (options : Option SummonOptions)
  | invoke (name function : String) (args : List Value)
  | invokeJson (name function : String) (args : List Json)
  /-- An operation on the Spirit of a name. -/
  | use (name : String) (operation : Operation)
  | release (name : String)
  | dismiss
  | changeRegistry (change : Registry → Registry)

namespace Step

/-- The name that a step is about, if it is about one. -/
def name? : Step → Option String
  | summonBytes name .. => some name
  | summon name .. => some name
  | invoke name .. => some name
  | invokeJson name .. => some name
  | use name _ => some name
  | release name => some name
  | dismiss => none
  | changeRegistry _ => none

/-- The step is about the name. -/
def names (b : String) (step : Step) : Bool := step.name? == some b

/-- The step is about no other name. -/
def concerns (b : String) (step : Step) : Bool := step.name?.all (· == b)

/-- The step summons a Spirit. -/
def summons : Step → Bool
  | summonBytes .. => true
  | summon .. => true
  | _ => false

end Step

/-- Performs a step. -/
def perform (s : Seance) (world : World) : Step → Reply Seance Answer
  | .summonBytes name bytes options => (s.summonBytes name bytes options).map fun _ => .nothing
  | .summon name source options => (s.summon world name source options).map fun _ => .nothing
  | .invoke name function args => (s.invoke name function args).map .values
  | .invokeJson name function args => (s.invokeJson name function args).map .json
  | .use name operation => s.onSpirit name (·.perform operation)
  | .release name => (s.release name).map fun _ => .nothing
  | .dismiss => s.dismiss.map fun _ => .nothing
  | .changeRegistry change => .plain (.ok .nothing) (s.setRegistry (change s.registry))

/-- What the holder of a séance sees of a step. -/
structure Outcome where
  step : Step
  result : Except Error Answer
  log : List LogLine
  destroyed : Nat

/-- What is seen of a step with its reply. -/
def Outcome.of (step : Step) (r : Reply Seance Answer) : Outcome :=
  ⟨step, r.result, r.log, r.destroyed⟩

/-- The outcomes of the steps on a name in a run, in order. -/
def outcomes (world : World) (b : String) : List Step → Seance → List Outcome
  | [], _ => []
  | step :: rest, s =>
    let r := s.perform world step
    if step.names b then .of step r :: outcomes world b rest r.state
    else outcomes world b rest r.state

/-- The séance after a run of steps. -/
def performAll (world : World) : List Step → Seance → Seance
  | [], s => s
  | step :: rest, s => performAll world rest (s.perform world step).state

variable {world : World} {b name : String} {s t : Seance} {step : Step}

/-! ## Steps on other names -/

/-- A séance that differs from another in the entry of one name only. -/
structure Confined (name : String) (s t : Seance) : Prop where
  get? : ∀ other, other ≠ name → t.get? other = s.get? other
  loader : t.loader = s.loader
  defaults : t.defaults = s.defaults

theorem Confined.refl (name : String) (s : Seance) : s.Confined name s := ⟨fun _ _ => rfl, rfl, rfl⟩

theorem confined_insert (spirit : Spirit) : s.Confined name (s.insert name spirit) :=
  ⟨fun other hne => (s.get?_insert name other spirit).trans (if_neg hne), rfl, rfl⟩

theorem confined_erase : s.Confined name (s.erase name) :=
  ⟨fun other hne => (s.get?_erase name other).trans (if_neg hne), rfl, rfl⟩

theorem confined_onSpirit {α : Type} (operation : Spirit → Reply Spirit α) :
    s.Confined name (s.onSpirit name operation).state := by
  unfold onSpirit
  split
  · exact confined_insert _
  · exact .refl name s

theorem confined_summonBytes (bytes : Bytes) (options : Option SummonOptions) :
    s.Confined name (s.summonBytes name bytes options).state := by
  unfold summonBytes seat
  split
  · exact .refl name s
  · split
    · exact confined_insert _
    · exact .refl name s

theorem confined_summon (source : Source) (options : Option SummonOptions) :
    s.Confined name (s.summon world name source options).state := by
  unfold summon
  split
  · exact .refl name s
  · split
    · exact confined_summonBytes _ options
    · exact .refl name s

theorem confined_release : s.Confined name (s.release name).state := by
  unfold release
  split
  · exact confined_erase
  · exact .refl name s

/-- A step on a name touches the entry of that name alone. -/
theorem confined_perform (world : World) (hname : step.name? = some name) :
    s.Confined name (s.perform world step).state := by
  cases step <;> cases hname
  case summonBytes bytes options => exact confined_summonBytes bytes options
  case summon source options => exact confined_summon source options
  case invoke function args => exact confined_onSpirit (·.call function args)
  case invokeJson function args => exact confined_onSpirit (·.callJson function args)
  case use operation => exact confined_onSpirit (·.perform operation)
  case release => exact confined_release

/-! ## Steps on one name -/

/-- What a reply shows of one name. -/
def view {α : Type} (b : String) (r : Reply Seance α) : Reply (Option Spirit) α :=
  r.mapState (·.get? b)

theorem view_map {α β : Type} {r q : Reply Seance α} (f : α → β) (h : view b r = view b q) :
    view b (r.map f) = view b (q.map f) :=
  congrArg (Reply.map f) h

theorem view_plain {α : Type} (h : s.get? b = t.get? b) (result : Except Error α) :
    view b (.plain result s) = view b (.plain result t) := by
  rw [view, view, Reply.mapState, Reply.mapState, Reply.plain, Reply.plain, h]

theorem view_onSpirit {α : Type} (h : s.get? b = t.get? b) (operation : Spirit → Reply Spirit α) :
    view b (s.onSpirit b operation) = view b (t.onSpirit b operation) := by
  unfold onSpirit
  rw [← h]
  cases hs : s.get? b with
  | none => exact view_plain h _
  | some spirit => simp [view, Reply.mapState, get?_insert]

theorem view_release (h : s.get? b = t.get? b) : view b (s.release b) = view b (t.release b) := by
  unfold release
  rw [← h]
  cases hs : s.get? b with
  | none => exact view_plain h _
  | some spirit => simp [view, Reply.mapState, get?_erase]

theorem view_seat (h : s.get? b = t.get? b) (loaded : Reply Unit Spirit) :
    view b (s.seat b loaded) = view b (t.seat b loaded) := by
  unfold seat
  split
  · simp [view, Reply.after, Reply.plain, Reply.mapState, get?_insert]
  · rw [view, view, Reply.after, Reply.after, Reply.mapState, Reply.mapState, Reply.plain,
      Reply.plain, h]

/-- Séances load alike for a name: one that is taken is not loaded at all. -/
def LoadsAlike (b : String) (s t : Seance) : Prop :=
  s.contains b = false → s.loader = t.loader ∧ s.defaults = t.defaults

theorem contains_congr (h : s.get? b = t.get? b) : t.contains b = s.contains b := by
  rw [contains, contains, h]

theorem view_summonBytes (h : s.get? b = t.get? b) (hload : LoadsAlike b s t) (bytes : Bytes)
    (options : Option SummonOptions) :
    view b (s.summonBytes b bytes options) = view b (t.summonBytes b bytes options) := by
  unfold summonBytes
  rw [contains_congr h]
  split
  · exact view_plain h _
  · rename_i habsent
    obtain ⟨hloader, hdefaults⟩ := hload (by simpa using habsent)
    have hoptions : s.optionsFor options = t.optionsFor options := by
      cases options <;> simp [optionsFor, hdefaults]
    rw [hloader, hoptions]
    exact view_seat h _

theorem view_summon (h : s.get? b = t.get? b) (hload : LoadsAlike b s t) (source : Source)
    (options : Option SummonOptions) :
    view b (s.summon world b source options) = view b (t.summon world b source options) := by
  unfold summon
  rw [contains_congr h]
  split
  · exact view_plain h _
  · split
    · exact view_summonBytes h hload _ options
    · exact view_plain h _

/-- **One step.** What a step shows of the name it is about depends on the Spirit of that name, and,
if it summons one, on what séances load with. -/
theorem view_perform (world : World) (hname : step.name? = some b) (h : s.get? b = t.get? b)
    (hload : step.summons = true → LoadsAlike b s t) :
    view b (s.perform world step) = view b (t.perform world step) := by
  cases step <;> cases hname
  case summonBytes bytes options =>
    exact view_map _ (view_summonBytes h (hload rfl) bytes options)
  case summon source options => exact view_map _ (view_summon h (hload rfl) source options)
  case invoke function args => exact view_map _ (view_onSpirit h (·.call function args))
  case invokeJson function args => exact view_map _ (view_onSpirit h (·.callJson function args))
  case use operation => exact view_onSpirit h (·.perform operation)
  case release => exact view_map _ (view_release h)

/-- Steps on other names, and on none, change the Spirit of a name alike. -/
theorem get?_perform_of_ne (hname : step.name? ≠ some b) (h : s.get? b = t.get? b) :
    (s.perform world step).state.get? b = (t.perform world step).state.get? b := by
  cases hstep : step.name? with
  | some name =>
    have hne : b ≠ name := by
      rintro rfl
      exact hname hstep
    rw [(confined_perform world hstep).get? b hne, (confined_perform world hstep).get? b hne, h]
  | none =>
    cases step <;> cases hstep
    · rfl
    · exact h

/-! ## Deleting steps -/

/-- Séances that are the same as far as a name is concerned. -/
structure Agree (b : String) (s t : Seance) : Prop where
  get? : s.get? b = t.get? b
  loader : s.loader = t.loader
  defaults : s.defaults = t.defaults

theorem Agree.refl (b : String) (s : Seance) : Agree b s s := ⟨rfl, rfl, rfl⟩

theorem Agree.confined {u : Seance} (h : Agree b s t) (hu : s.Confined name u) (hne : b ≠ name) :
    Agree b u t :=
  ⟨(hu.get? b hne).trans h.get?, hu.loader.trans h.loader, hu.defaults.trans h.defaults⟩

theorem Agree.perform (world : World) (h : Agree b s t) (hstep : step.concerns b = true) :
    Agree b (s.perform world step).state (t.perform world step).state := by
  cases hname : step.name? with
  | some name =>
    have hb : name = b := by simpa [Step.concerns, hname] using hstep
    subst hb
    have hs := s.confined_perform world hname
    have ht := t.confined_perform world hname
    have hview := view_perform world hname h.get? fun _ _ => ⟨h.loader, h.defaults⟩
    refine ⟨congrArg Reply.state hview, ?_, ?_⟩
    · rw [hs.loader, ht.loader, h.loader]
    · rw [hs.defaults, ht.defaults, h.defaults]
  | none =>
    refine ⟨get?_perform_of_ne (by simp [hname]) h.get?, ?_, ?_⟩
    · cases step <;> cases hname
      · exact h.loader
      · simp [Seance.perform, Reply.plain, setRegistry, registry, h.loader]
    · cases step <;> cases hname <;> exact h.defaults

/-- The outcome of a step is seen in its view. -/
theorem outcome_of_view {r q : Reply Seance Answer} (h : view b r = view b q) :
    Outcome.of step r = Outcome.of step q := by
  have hparts : ∀ u : Reply Seance Answer,
      Outcome.of step u = ⟨step, (view b u).result, (view b u).log, (view b u).destroyed⟩ :=
    fun _ => rfl
  rw [hparts, hparts, h]

/-- Runs of two séances that agree on a name show the same of it, whether or not the steps on other
names are made in the second. -/
theorem outcomes_filter : ∀ (steps : List Step) {s t : Seance}, Agree b s t →
    outcomes world b steps s = outcomes world b (steps.filter (·.concerns b)) t ∧
      Agree b (performAll world steps s) (performAll world (steps.filter (·.concerns b)) t)
  | [], _, _, h => ⟨rfl, h⟩
  | step :: rest, s, t, h => by
    -- A step on another name is made in the first run alone, and moves it away in that name only.
    by_cases hstep : step.concerns b = true
    · obtain ⟨houtcomes, hfinal⟩ := outcomes_filter rest (h.perform world hstep)
      rw [List.filter_cons_of_pos hstep, outcomes, outcomes, performAll, performAll]
      refine ⟨?_, hfinal⟩
      by_cases hnames : step.names b = true
      · have hview := view_perform world (by simpa [Step.names] using hnames) h.get?
          fun _ _ => ⟨h.loader, h.defaults⟩
        rw [if_pos hnames, if_pos hnames, houtcomes, outcome_of_view hview]
      · rw [if_neg hnames, if_neg hnames, houtcomes]
    · have hnames : ¬step.names b = true := by
        intro hnames
        simp only [Step.names, beq_iff_eq] at hnames
        simp [Step.concerns, hnames] at hstep
      obtain ⟨name, hname, hne⟩ : ∃ name, step.name? = some name ∧ b ≠ name := by
        cases hname : step.name? with
        | none => simp [Step.concerns, hname] at hstep
        | some name => exact ⟨name, rfl, fun hb => hstep (by simp [Step.concerns, hname, hb])⟩
      rw [List.filter_cons_of_neg hstep, outcomes, performAll, if_neg hnames]
      exact outcomes_filter rest (h.confined (confined_perform world hname) hne)

/-! ## Changes of the registry -/

/-- Every step of a run that summons the name finds it taken. -/
def StaysSummoned (world : World) (b : String) : List Step → Seance → Prop
  | [], _ => True
  | step :: rest, s =>
    (step.summons = true → step.names b = true → s.contains b = true) ∧
      StaysSummoned world b rest (s.perform world step).state

theorem outcomes_of_stays : ∀ (steps : List Step) {s t : Seance}, s.get? b = t.get? b →
    StaysSummoned world b steps s →
      outcomes world b steps s = outcomes world b steps t ∧
        (performAll world steps s).get? b = (performAll world steps t).get? b
  | [], _, _, h, _ => ⟨rfl, h⟩
  | step :: rest, s, t, h, ⟨hfirst, hrest⟩ => by
    rw [outcomes, outcomes, performAll, performAll]
    by_cases hnames : step.names b = true
    · have hload : step.summons = true → LoadsAlike b s t := by
        intro hsummons habsent
        rw [hfirst hsummons hnames] at habsent
        cases habsent
      have hview := view_perform world (by simpa [Step.names] using hnames) h hload
      obtain ⟨houtcomes, hfinal⟩ := outcomes_of_stays rest (congrArg Reply.state hview) hrest
      rw [if_pos hnames, if_pos hnames, houtcomes, outcome_of_view hview]
      exact ⟨rfl, hfinal⟩
    · have hne : step.name? ≠ some b := by simpa [Step.names] using hnames
      rw [if_neg hnames, if_neg hnames]
      exact outcomes_of_stays rest (get?_perform_of_ne hne h) hrest

/-! ## Isolation -/

/-- **Isolation.** The steps of a run on other names can be deleted: those on this name come out the
same, and so does its Spirit. A change of the registry makes no difference to a run in which the
name is not summoned anew. -/
theorem isolation (world : World) (b : String) (steps : List Step) (s : Seance) :
    (outcomes world b steps s = outcomes world b (steps.filter (·.concerns b)) s ∧
      (performAll world steps s).get? b =
        (performAll world (steps.filter (·.concerns b)) s).get? b) ∧
    ∀ change : Registry → Registry, StaysSummoned world b steps s →
      outcomes world b (.changeRegistry change :: steps) s = outcomes world b steps s ∧
        (performAll world (.changeRegistry change :: steps) s).get? b =
          (performAll world steps s).get? b := by
  refine ⟨?_, fun change hstays => ?_⟩
  · obtain ⟨houtcomes, hfinal⟩ := outcomes_filter steps (Agree.refl b s)
    exact ⟨houtcomes, hfinal.get?⟩
  · have hsame : s.get? b = (s.setRegistry (change s.registry)).get? b := rfl
    obtain ⟨houtcomes, hfinal⟩ := outcomes_of_stays steps hsame hstays
    exact ⟨houtcomes.symm, hfinal.symm⟩

/-- A séance that holds one Spirit, under the name `a`. -/
def ofOne : Seance := ((Seance.new shortLoader).summonBytes "a" allocatingModule none).state

/-- A run in which `a` is used, summoned in vain, and released. -/
def useOfOne : List Step :=
  [.summonBytes "b" allocatingModule none, .invoke "a" "f" [], .summonBytes "a" [] none,
    .release "a"]

theorem isolation_useOfOne : StaysSummoned (.ofList []) "a" useOfOne ofOne ∧
    outcomes (.ofList []) "a" (.changeRegistry (fun _ => ⟨[]⟩) :: useOfOne) ofOne =
      outcomes (.ofList []) "a" useOfOne ofOne ∧
    (performAll (.ofList []) (.changeRegistry (fun _ => ⟨[]⟩) :: useOfOne) ofOne).get? "a" =
      (performAll (.ofList []) useOfOne ofOne).get? "a" := by
  have hstays : StaysSummoned (.ofList []) "a" useOfOne ofOne := by
    refine ⟨fun _ h => ?_, nofun, fun _ _ => ?_, nofun, trivial⟩
    · cases h
    · decide +kernel
  exact ⟨hstays, (isolation (.ofList []) "a" useOfOne ofOne).2 (fun _ => ⟨[]⟩) hstays⟩

end Seance

end SpiritHost
