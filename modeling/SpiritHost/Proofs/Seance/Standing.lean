import SpiritHost.Proofs.Seance.Isolation
import SpiritHost.Proofs.Seance.Manifest
import SpiritHost.Proofs.Spirit.Call

/-!
# The names that stand

Which names a séance holds is decided by what was done with them: a name stands from the last time a
Spirit was summoned under it until it is released or everyone is dismissed. What fails changes
nothing, unless it got as far as running code; what panics changes no Spirit that was there.
-/

namespace SpiritHost.Seance

open Wasm (Value)

/-! ## Acts -/

/-- What can be done with a séance, each time in the world as it is then. -/
inductive Act where
  | step (world : World) (step : Step)
  | summonManifest (world : World) (paths : List String)

/-- What an act that succeeds gives back. -/
inductive Gain where
  | answer (answer : Answer)
  | names (names : List String)

/-- What became of names. -/
inductive NameEvent where
  | summoned (name : String)
  | released (name : String)
  | dismissed
deriving DecidableEq

/-- Performs an act. -/
def act (s : Seance) : Act → Reply Seance Gain
  | .step world step => (s.perform world step).map .answer
  | .summonManifest world paths => (s.summonManifest world paths).map .names

/-- The names of manifests under which Spirits are summoned before one does not load. -/
def namesBefore (s : Seance) (world : World) (paths : List String) : List String :=
  match Manifest.load world.files paths with
  | .ok definitions =>
    Manifest.names (definitions.takeWhile fun d => (s.loadDefinition world d).isOk)
  | .error _ => []

/-- What becomes of names by an act with a result. A panic ends the summoning of manifests where it
is; nothing is taken back. -/
def Act.events (s : Seance) : Act → Except Error Gain → List NameEvent
  | step _ (.summonBytes name ..), .ok _ | step _ (.summon name ..), .ok _ => [.summoned name]
  | summonManifest .., .ok (.names names) => names.map .summoned
  | summonManifest world paths, .error e =>
    if e.isPanic then (s.namesBefore world paths).map .summoned else []
  | step _ (.release name), .ok _ => [.released name]
  | step _ .dismiss, .ok _ => [.dismissed]
  | _, _ => []

/-- The séance after a run of acts. -/
def actAll : List Act → Seance → Seance
  | [], s => s
  | a :: rest, s => actAll rest (s.act a).state

/-- What becomes of names in a run of acts, in order. -/
def events : List Act → Seance → List NameEvent
  | [], _ => []
  | a :: rest, s => a.events s (s.act a).result ++ events rest (s.act a).state

/-- A Spirit was summoned under the name, and since the last time it was neither released nor
dismissed with the others. -/
def Standing (history : List NameEvent) (name : String) : Prop :=
  ∃ before after, history = before ++ .summoned name :: after ∧ .summoned name ∉ after ∧
    .released name ∉ after ∧ .dismissed ∉ after

variable {s t : Seance} {world : World} {name : String} {history : List NameEvent}

/-! ## Standing -/

theorem not_standing_nil : ¬Standing [] name := by
  rintro ⟨before, after, h, -⟩
  cases before <;> cases h

/-- One more event decides about the name it is about, and dismissing decides about all. -/
theorem standing_concat (e : NameEvent) :
    Standing (history ++ [e]) name ↔
      e = .summoned name ∨ Standing history name ∧ e ≠ .released name ∧ e ≠ .dismissed := by
  constructor
  · rintro ⟨before, after, h, hsummoned, hreleased, hdismissed⟩
    rcases List.eq_nil_or_concat after with rfl | ⟨after, x, rfl⟩
    · exact .inl (List.cons.inj (List.append_inj' h rfl).2).1
    · rw [List.concat_eq_append] at h hsummoned hreleased hdismissed
      rw [← List.cons_append, ← List.append_assoc] at h
      obtain ⟨rfl, hlast⟩ := List.append_inj' h rfl
      cases hlast
      simp only [List.mem_append, List.mem_singleton, not_or] at hsummoned hreleased hdismissed
      exact .inr ⟨⟨before, after, rfl, hsummoned.1, hreleased.1, hdismissed.1⟩,
        Ne.symm hreleased.2, Ne.symm hdismissed.2⟩
  · rintro (rfl | ⟨⟨before, after, rfl, hsummoned, hreleased, hdismissed⟩, hne, hnd⟩)
    · exact ⟨history, [], rfl, by simp, by simp, by simp⟩
    · by_cases hsame : e = .summoned name
      · subst hsame
        exact ⟨before ++ .summoned name :: after, [], rfl, by simp, by simp, by simp⟩
      · refine ⟨before, after ++ [e], by simp, ?_, ?_, ?_⟩
        · simp [hsummoned, Ne.symm hsame]
        · simp [hreleased, Ne.symm hne]
        · simp [hdismissed, Ne.symm hnd]

theorem standing_summoned {other : String} :
    Standing (history ++ [.summoned other]) name ↔ name = other ∨ Standing history name := by
  simp [standing_concat, eq_comm]

theorem standing_released {other : String} :
    Standing (history ++ [.released other]) name ↔ name ≠ other ∧ Standing history name := by
  simp [standing_concat, eq_comm, and_comm]

theorem not_standing_dismissed : ¬Standing (history ++ [.dismissed]) name := by
  simp [standing_concat]

theorem standing_summonedAll : ∀ (names : List String) {history : List NameEvent},
    Standing (history ++ names.map .summoned) name ↔ name ∈ names ∨ Standing history name
  | [], history => by simp
  | other :: rest, history => by
    rw [List.map_cons, List.append_cons, standing_summonedAll rest, standing_summoned,
      List.mem_cons]
    tauto

/-! ## What acts come to -/

/-- A Spirit was put under a name, or the reply is a failure and the séance is what it was. -/
def Seats (s : Seance) (name : String) (r : Reply Seance Unit) : Prop :=
  (∃ e, r.result = .error e ∧ r.state = s) ∨
    ∃ spirit, r.result = .ok () ∧ r.state = s.insert name spirit

theorem seats_summonBytes (s : Seance) (name : String) (bytes : Bytes)
    (options : Option SummonOptions) : s.Seats name (s.summonBytes name bytes options) := by
  unfold summonBytes seat
  split
  · exact .inl ⟨_, rfl, rfl⟩
  · split
    · exact .inr ⟨_, rfl, rfl⟩
    · exact .inl ⟨_, rfl, rfl⟩

theorem seats_summon (s : Seance) (world : World) (name : String) (source : Source)
    (options : Option SummonOptions) : s.Seats name (s.summon world name source options) := by
  unfold summon
  split
  · exact .inl ⟨_, rfl, rfl⟩
  · split
    · exact seats_summonBytes s name _ options
    · exact .inl ⟨_, rfl, rfl⟩

theorem release_cases (s : Seance) (name : String) :
    (∃ e, (s.release name).result = .error e ∧ (s.release name).state = s) ∨
    (s.release name).result = .ok () ∧ (s.release name).state = s.erase name := by
  unfold release
  split
  · exact .inr ⟨rfl, rfl⟩
  · exact .inl ⟨_, rfl, rfl⟩

theorem namesBefore_eq {before after : List Definition} {d : Definition} {spirits : List Spirit}
    {paths : List String} {e : Error}
    (hload : Manifest.load world.files paths = .ok (before ++ d :: after))
    (hloads : List.Forall₂ (fun x spirit => s.loadDefinition world x = .ok spirit) before spirits)
    (hfails : s.loadDefinition world d = .error e) :
    s.namesBefore world paths = Manifest.names before := by
  have hbefore := Except.exists_mapM_eq_ok_iff.1 ⟨spirits, Except.mapM_eq_ok_iff.2 hloads⟩
  have hall : ∀ x ∈ before, (s.loadDefinition world x).isOk = true := fun x hx =>
    Except.isOk_iff.2 (hbefore x hx)
  rw [namesBefore, hload]
  dsimp only
  rw [List.takeWhile_append_of_pos hall, List.takeWhile_cons_of_neg (by simp [hfails, Except.isOk,
    Except.toBool]), List.append_nil]

/-- Manifests are summoned, or an error leaves the séance as it was, or a panic leaves those that were
summoned before it. -/
theorem summonManifest_cases (s : Seance) (world : World) (paths : List String) :
    (∃ e, (s.summonManifest world paths).result = .error e ∧ e.isPanic = false ∧
      (s.summonManifest world paths).state = s) ∨
    (∃ definitions spirits,
      (s.summonManifest world paths).result = .ok (Manifest.names definitions) ∧
        Holds s definitions spirits (s.summonManifest world paths).state) ∨
    ∃ e definitions spirits, (s.summonManifest world paths).result = .error e ∧ e.isPanic = true ∧
      s.namesBefore world paths = Manifest.names definitions ∧
      (∀ d ∈ definitions, s.contains d.name = false) ∧
        Holds s definitions spirits (s.summonManifest world paths).state := by
  unfold summonManifest
  cases hload : Manifest.load world.files paths with
  | error e => exact .inl ⟨e, rfl, isPanic_of_load hload, rfl⟩
  | ok definitions =>
    dsimp only
    cases htaken : definitions.find? (s.contains ·.name) with
    | some d => exact .inl ⟨_, rfl, rfl, rfl⟩
    | none =>
      have hfree : ∀ d ∈ definitions, s.contains d.name = false := fun d hd => by
        simpa using List.find?_eq_none.1 htaken d hd
      rcases summonAll_cases ⟨(Manifest.load_eq_ok hload).1, hfree⟩ with
        ⟨spirits, -, hresult, hholds⟩ |
          ⟨before, d, after, spirits, e, rfl, hloads, hfails, hresult, hreturns, hpanics⟩
      · exact .inr (.inl ⟨definitions, spirits, hresult, hholds⟩)
      · cases hpanic : e.isPanic with
        | false => exact .inl ⟨e, hresult, hpanic, hreturns hpanic⟩
        | true =>
          exact .inr (.inr ⟨e, before, spirits, hresult, hpanic, namesBefore_eq hload hloads hfails,
            fun x hx => hfree x (List.mem_append_left _ hx), hpanics hpanic⟩)

/-! ## Which names are there -/

theorem contains_insert (spirit : Spirit) (other : String) :
    (s.insert name spirit).contains other = true ↔ other = name ∨ s.contains other = true := by
  rw [contains, get?_insert]
  by_cases h : other = name <;> simp [h, contains]

theorem contains_erase (other : String) :
    (s.erase name).contains other = true ↔ other ≠ name ∧ s.contains other = true := by
  rw [contains, get?_erase]
  by_cases h : other = name <;> simp [h, contains]

theorem contains_onSpirit {α : Type} (operation : Spirit → Reply Spirit α) (other : String) :
    (s.onSpirit name operation).state.contains other = s.contains other := by
  unfold onSpirit
  split
  · rename_i spirit hget
    rw [Reply.mapState, contains, get?_insert, contains]
    by_cases h : other = name
    · rw [if_pos h, h, hget]
      rfl
    · rw [if_neg h]
  · rfl

theorem contains_holds {definitions : List Definition} {spirits : List Spirit}
    (h : Holds s definitions spirits t) (other : String) :
    t.contains other = true ↔ other ∈ Manifest.names definitions ∨ s.contains other = true := by
  rw [contains_eq_true_iff, contains_eq_true_iff, h.names.mem_iff, List.mem_append, or_comm]

/-- **One act.** It changes which names are there as what becomes of them says. -/
theorem standing_act (h : ∀ other, s.contains other = true ↔ Standing history other) (a : Act)
    (other : String) :
    (s.act a).state.contains other = true ↔
      Standing (history ++ a.events s (s.act a).result) other := by
  cases a with
  | summonManifest world paths =>
    rcases summonManifest_cases s world paths with
      ⟨e, hresult, hreturns, hstate⟩ | ⟨definitions, spirits, hresult, hholds⟩ |
        ⟨e, definitions, spirits, hresult, hpanics, hnames, -, hholds⟩
    · simp [act, Reply.map, hresult, hstate, Except.map, Act.events, hreturns, h]
    · simp [act, Reply.map, hresult, Except.map, Act.events, contains_holds hholds, h,
        standing_summonedAll]
    · simp [act, Reply.map, hresult, Except.map, Act.events, hpanics, hnames,
        contains_holds hholds, h, standing_summonedAll]
  | step world step =>
    cases step with
    | summonBytes name bytes options =>
      rcases seats_summonBytes s name bytes options with
        ⟨e, hresult, hstate⟩ | ⟨spirit, hresult, hstate⟩
      · simp [act, perform, Reply.map, hresult, hstate, Except.map, Act.events, h]
      · simp [act, perform, Reply.map, hresult, hstate, Except.map, Act.events, contains_insert, h,
          standing_summoned]
    | summon name source options =>
      rcases seats_summon s world name source options with
        ⟨e, hresult, hstate⟩ | ⟨spirit, hresult, hstate⟩
      · simp [act, perform, Reply.map, hresult, hstate, Except.map, Act.events, h]
      · simp [act, perform, Reply.map, hresult, hstate, Except.map, Act.events, contains_insert, h,
          standing_summoned]
    | release name =>
      rcases release_cases s name with ⟨e, hresult, hstate⟩ | ⟨hresult, hstate⟩
      · simp [act, perform, Reply.map, hresult, hstate, Except.map, Act.events, h]
      · simp [act, perform, Reply.map, hresult, hstate, Except.map, Act.events, contains_erase, h,
          standing_released]
    | dismiss =>
      simp [act, perform, Reply.map, dismiss, Except.map, Act.events, not_standing_dismissed,
        contains, get?]
    | invoke name function args =>
      simp [act, perform, Reply.map, invoke, Act.events, contains_onSpirit, h]
    | invokeJson name function args =>
      simp [act, perform, Reply.map, invokeJson, Act.events, contains_onSpirit, h]
    | use name operation =>
      simp [act, perform, Reply.map, Act.events, contains_onSpirit, h]
    | changeRegistry change =>
      simp only [act, perform, Reply.map, Reply.plain, Except.map, Act.events, List.append_nil]
      exact h other

/-! ## Order -/

theorem inOrder_insert (h : InOrder s.entries) (spirit : Spirit) :
    InOrder (s.insert name spirit).entries := by
  rw [insert, insertEntry_eq]
  exact h.setKey spirit

theorem inOrder_erase (h : InOrder s.entries) : InOrder (s.erase name).entries :=
  List.Pairwise.sublist (List.filter_sublist.map _) h

theorem inOrder_onSpirit {α : Type} (h : InOrder s.entries)
    (operation : Spirit → Reply Spirit α) :
    InOrder (s.onSpirit name operation).state.entries := by
  unfold onSpirit
  split
  · exact inOrder_insert h _
  · exact h

theorem Seats.inOrder {r : Reply Seance Unit} (hr : s.Seats name r) (h : InOrder s.entries) :
    InOrder r.state.entries := by
  rcases hr with ⟨_, -, hstate⟩ | ⟨spirit, -, hstate⟩
  · rw [hstate]
    exact h
  · rw [hstate]
    exact inOrder_insert h spirit

theorem inOrder_release (h : InOrder s.entries) : InOrder (s.release name).state.entries := by
  rw [release_state]
  exact inOrder_erase h

theorem inOrder_releaseAll : ∀ (names : List String) {s : Seance}, InOrder s.entries →
    InOrder (releaseAll names s).state.entries
  | [], _, h => h
  | _ :: rest, _, h => inOrder_releaseAll rest (inOrder_release h)

theorem inOrder_undo (e : Error) (summoned : List String) (h : InOrder s.entries) :
    InOrder (undo e summoned s).state.entries := by
  unfold undo
  split
  · exact h
  · exact inOrder_releaseAll summoned h

theorem inOrder_summonAll : ∀ (definitions : List Definition) (summoned : List String) {s : Seance},
    InOrder s.entries → InOrder (summonAll world definitions summoned s).state.entries
  | [], _, _, h => h
  | d :: rest, summoned, s, h => by
    have hsummon : InOrder (s.summon world d.name d.source (some d.summonOptions)).state.entries :=
      (seats_summon s world d.name d.source _).inOrder h
    unfold summonAll
    dsimp only
    split
    · exact inOrder_summonAll rest _ hsummon
    · rename_i e _
      exact inOrder_undo e summoned hsummon

theorem inOrder_summonManifest (h : InOrder s.entries) (paths : List String) :
    InOrder (s.summonManifest world paths).state.entries := by
  unfold summonManifest
  split
  · exact h
  · split
    · exact h
    · exact inOrder_summonAll _ [] h

theorem inOrder_act (h : InOrder s.entries) (a : Act) : InOrder (s.act a).state.entries := by
  cases a with
  | summonManifest world paths => exact inOrder_summonManifest h paths
  | step world step =>
    cases step with
    | summonBytes name bytes options => exact (seats_summonBytes s name bytes options).inOrder h
    | summon name source options => exact (seats_summon s world name source options).inOrder h
    | release name => exact inOrder_release h
    | dismiss => exact List.Pairwise.nil
    | invoke name function args => exact inOrder_onSpirit h (·.call function args)
    | invokeJson name function args => exact inOrder_onSpirit h (·.callJson function args)
    | use name operation => exact inOrder_onSpirit h (·.perform operation)
    | changeRegistry change => exact h

/-! ## Failing -/

/-- The act gets to a Spirit's own code, or hands the Spirit out. -/
def Act.ReachesCode (s : Seance) : Act → Prop
  | step _ (.invoke name function args) =>
    ∃ spirit, s.get? name = some spirit ∧ spirit.ReachesCode function args
  | step _ (.invokeJson name function args) =>
    ∃ spirit, s.get? name = some spirit ∧ spirit.ReachesCodeJson function args
  | step _ (.use name _) => s.contains name = true
  | _ => False

/-- To put a Spirit where it is changes nothing. -/
theorem insert_of_get? (h : InOrder s.entries) {spirit : Spirit}
    (hget : s.get? name = some spirit) : s.insert name spirit = s := by
  rw [insert, insertEntry_eq, setKey_of_lookup h hget]

theorem onSpirit_of_absent {α : Type} (h : s.contains name = false)
    (operation : Spirit → Reply Spirit α) :
    s.onSpirit name operation = .plain (.error (.spiritNotFound name)) s := by
  have hnone : s.get? name = none := by simpa [contains] using h
  rw [onSpirit, hnone]

theorem onSpirit_of_refused {α : Type} (h : InOrder s.entries) {spirit : Spirit}
    (hget : s.get? name = some spirit) (operation : Spirit → Reply Spirit α) {e : Error}
    (hrefused : operation spirit = .plain (.error e) spirit) :
    (s.onSpirit name operation).state = s := by
  rw [onSpirit, hget]
  dsimp only
  rw [hrefused]
  exact insert_of_get? h hget

/-- The act is about one Spirit at most, or about all of them. -/
def Act.single : Act → Bool
  | step .. => true
  | summonManifest .. => false

/-- **Failing.** An act that fails short of a Spirit's code changes nothing, unless it panics among
manifests. -/
theorem act_of_fails (h : InOrder s.entries) {a : Act} {e : Error}
    (hfails : (s.act a).result = .error e) (hshort : ¬a.ReachesCode s)
    (hwhole : a.single = true ∨ e.isPanic = false) : (s.act a).state = s := by
  cases a with
  | summonManifest world paths =>
    rcases summonManifest_cases s world paths with
      ⟨_, -, -, hstate⟩ | ⟨_, _, hresult, -⟩ | ⟨_, _, _, hresult, hpanics, -⟩
    · exact hstate
    · simp [act, Reply.map, hresult, Except.map] at hfails
    · simp only [act, Reply.map, hresult, Except.map, Except.error.injEq] at hfails
      simp [Act.single, ← hfails, hpanics] at hwhole
  | step world step =>
    cases step with
    | summonBytes name bytes options =>
      rcases seats_summonBytes s name bytes options with ⟨_, -, hstate⟩ | ⟨_, hresult, -⟩
      · exact hstate
      · simp [act, perform, Reply.map, hresult, Except.map] at hfails
    | summon name source options =>
      rcases seats_summon s world name source options with ⟨_, -, hstate⟩ | ⟨_, hresult, -⟩
      · exact hstate
      · simp [act, perform, Reply.map, hresult, Except.map] at hfails
    | release name =>
      rcases release_cases s name with ⟨_, -, hstate⟩ | ⟨hresult, -⟩
      · exact hstate
      · simp [act, perform, Reply.map, hresult, Except.map] at hfails
    | dismiss => cases hfails
    | changeRegistry change => cases hfails
    | invoke name function args =>
      cases hget : s.get? name with
      | none =>
        have habsent : s.contains name = false := by simp [contains, hget]
        exact congrArg Reply.state (onSpirit_of_absent habsent (·.call function args))
      | some spirit =>
        obtain ⟨_, hrefused⟩ := Spirit.call_of_refused fun hreach => hshort ⟨spirit, hget, hreach⟩
        exact onSpirit_of_refused h hget (·.call function args) hrefused
    | invokeJson name function args =>
      cases hget : s.get? name with
      | none =>
        have habsent : s.contains name = false := by simp [contains, hget]
        exact congrArg Reply.state (onSpirit_of_absent habsent (·.callJson function args))
      | some spirit =>
        obtain ⟨_, hrefused⟩ :=
          Spirit.callJson_of_refused fun hreach => hshort ⟨spirit, hget, hreach⟩
        exact onSpirit_of_refused h hget (·.callJson function args) hrefused
    | use name operation =>
      have habsent : s.contains name = false := by simpa [Act.ReachesCode] using hshort
      exact congrArg Reply.state (onSpirit_of_absent habsent (·.perform operation))

/-- Even then every Spirit that was there stays what it was. -/
theorem get?_of_fails (h : InOrder s.entries) {a : Act} {e : Error}
    (hfails : (s.act a).result = .error e) (hshort : ¬a.ReachesCode s) {spirit : Spirit}
    (hget : s.get? name = some spirit) : (s.act a).state.get? name = some spirit := by
  by_cases hwhole : a.single = true ∨ e.isPanic = false
  · rwa [act_of_fails h hfails hshort hwhole]
  · cases a with
    | step => exact absurd (.inl rfl) hwhole
    | summonManifest world paths =>
      rcases summonManifest_cases s world paths with
        ⟨_, -, -, hstate⟩ | ⟨_, _, hresult, -⟩ | ⟨_, definitions, _, -, -, -, hfree, hholds⟩
      · exact (congrArg (·.get? name) hstate).trans hget
      · simp [act, Reply.map, hresult, Except.map] at hfails
      · refine (hholds.kept name fun hmem => ?_).trans hget
        obtain ⟨d, hd, rfl⟩ := List.mem_map.1 hmem
        simpa [contains, hget] using hfree d hd

/-! ## Runs -/

/-- A séance shows the names that stand after a history, and no others. -/
structure Shows (s : Seance) (history : List NameEvent) : Prop where
  ordered : s.names.Pairwise (· < ·)
  names : ∀ name, name ∈ s.names ↔ Standing history name
  contains : ∀ name, s.contains name = true ↔ Standing history name
  get : ∀ name, (s.get? name).isSome = true ↔ Standing history name
  size : s.size = s.names.length
  empty : s.isEmpty = true ↔ ∀ name, ¬Standing history name

/-- What a séance does about names that are there and about names that are not. -/
structure Lawful (s : Seance) : Prop where
  /-- A name that is there cannot be summoned, whatever would be loaded from wherever. -/
  taken : ∀ name, s.contains name = true → ∀ world source bytes options,
    s.summonBytes name bytes options = .plain (.error (.spiritExists name)) s ∧
    s.summon world name source options = .plain (.error (.spiritExists name)) s
  /-- The first name of manifests that is there makes all of them fail. -/
  takenOf : ∀ world paths definitions d, Manifest.load world.files paths = .ok definitions →
    definitions.find? (s.contains ·.name) = some d →
      s.summonManifest world paths = .plain (.error (.spiritExists d.name)) s
  /-- A name that is not there can be neither invoked nor released. -/
  absent : ∀ name, s.contains name = false → ∀ function args json,
    s.invoke name function args = .plain (.error (.spiritNotFound name)) s ∧
    s.invokeJson name function json = .plain (.error (.spiritNotFound name)) s ∧
    s.release name = .plain (.error (.spiritNotFound name)) s
  /-- It can be summoned if there is something to load. -/
  free : ∀ name, s.contains name = false → ∀ world source bytes options spirit,
    source.read world = .ok bytes →
    (s.loader.load bytes (s.optionsFor options)).result = .ok spirit →
      s.summon world name source options = s.summonBytes name bytes options ∧
      (s.summonBytes name bytes options).result = .ok () ∧
      (s.summonBytes name bytes options).state = s.insert name spirit
  /-- A name is not there once it is released or everyone is dismissed. -/
  freed : ∀ name, (s.release name).state.contains name = false ∧
    s.dismiss.state.contains name = false
  /-- What fails short of a Spirit's code changes no Spirit that is there; and it changes nothing at
  all, unless it panics among manifests. -/
  failed : ∀ a e, (s.act a).result = .error e → ¬a.ReachesCode s →
    (∀ name spirit, s.get? name = some spirit → (s.act a).state.get? name = some spirit) ∧
      (a.single = true ∨ e.isPanic = false → (s.act a).state = s)

theorem shows_of_standing (horder : InOrder s.entries)
    (hstanding : ∀ name, s.contains name = true ↔ Standing history name) : s.Shows history := by
  refine ⟨horder, fun name => ?_, hstanding, hstanding, ?_, ?_⟩
  · rw [← contains_eq_true_iff, hstanding]
  · rw [size, names, List.length_map]
  · rw [isEmpty, List.isEmpty_iff]
    constructor
    · intro hnil name hstands
      have hthere := (hstanding name).2 hstands
      rw [contains, get?, hnil] at hthere
      cases hthere
    · intro hnone
      cases hentries : s.entries with
      | nil => rfl
      | cons p rest =>
        have hthere : p.1 ∈ s.names := by
          rw [names, hentries]
          exact List.mem_cons_self
        exact absurd ((hstanding p.1).1 ((s.contains_eq_true_iff p.1).2 hthere)) (hnone p.1)

theorem lawful_of_inOrder (horder : InOrder s.entries) : s.Lawful := by
  refine ⟨fun name htaken world source bytes options => ?_, ?_, ?_, ?_, ?_, ?_⟩
  · rw [summonBytes, summon, if_pos htaken, if_pos htaken]
    exact ⟨rfl, rfl⟩
  · intro world paths definitions d hload htaken
    rw [summonManifest, hload]
    dsimp only
    rw [htaken]
  · intro name habsent function args json
    have hnone : s.get? name = none := by simpa [contains] using habsent
    refine ⟨onSpirit_of_absent habsent _, onSpirit_of_absent habsent _, ?_⟩
    rw [release, hnone]
  · intro name habsent world source bytes options spirit hread hload
    have hsummon : s.summon world name source options = s.summonBytes name bytes options := by
      simp [summon, habsent, hread]
    refine ⟨hsummon, ?_, ?_⟩
    · simp [summonBytes, seat, habsent, hload, Reply.after, Reply.plain]
    · simp [summonBytes, seat, habsent, hload, Reply.after, Reply.plain]
  · intro name
    refine ⟨?_, rfl⟩
    rw [release_state, ← Bool.not_eq_true, contains_erase]
    exact fun h => h.1 rfl
  · intro a e hfails hshort
    exact ⟨fun _ _ => get?_of_fails horder hfails hshort, act_of_fails horder hfails hshort⟩

/-- **Runs.** What holds of names before a run holds of them after it, with what became of them. -/
theorem standing_of_run : ∀ (acts : List Act) {s : Seance} {history : List NameEvent},
    InOrder s.entries → (∀ name, s.contains name = true ↔ Standing history name) →
      InOrder (actAll acts s).entries ∧
        ∀ name, (actAll acts s).contains name = true ↔ Standing (history ++ events acts s) name
  | [], _, _, horder, hstanding => ⟨horder, by simpa [events, actAll] using hstanding⟩
  | a :: rest, s, history, horder, hstanding => by
    have hrest := standing_of_run rest (inOrder_act horder a) (standing_act hstanding a)
    rw [List.append_assoc] at hrest
    exact hrest

/-- **Every reachable séance** shows the names that stand and is lawful, whatever was done with it
and whether that succeeded. -/
theorem shows_standing (loader : Loader) (defaults : LoadOptions) (acts : List Act) :
    (actAll acts (new loader defaults)).Shows (events acts (new loader defaults)) ∧
      (actAll acts (new loader defaults)).Lawful := by
  have hnew : ∀ name, (new loader defaults).contains name = true ↔ Standing [] name := fun name =>
    ⟨nofun, fun h => absurd h not_standing_nil⟩
  have hempty : InOrder (new loader defaults).entries := List.Pairwise.nil
  obtain ⟨horder, hstanding⟩ := standing_of_run acts hempty hnew
  exact ⟨shows_of_standing horder hstanding, lawful_of_inOrder horder⟩

end SpiritHost.Seance
