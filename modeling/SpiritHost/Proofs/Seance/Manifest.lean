import SpiritHost.Proofs.Manifest
import SpiritHost.Proofs.Seance.Entries
import SpiritHost.Proofs.Spirit.Load

/-!
# Summoning manifests

A manifest is summoned as a whole or not at all. If every definition loads, the séance holds one
Spirit more for each, the one that loading it gives; otherwise it is the séance from before, since
the names released are exactly those that were put in, none of which was taken. What is not made up
for is a panic of the loader: the Spirits summoned by then stay.
-/

namespace SpiritHost

namespace Seance

/-- What loading a definition gives. -/
def loadDefinition (s : Seance) (world : World) (d : Definition) : Except Error Spirit := do
  let bytes ← d.source.read world
  (s.loader.load bytes (d.summonOptions.apply s.defaults)).result

/-- A séance that holds the Spirits of another and one for each definition. -/
structure Holds (s : Seance) (definitions : List Definition) (spirits : List Spirit) (t : Seance) :
    Prop where
  loader : t.loader = s.loader
  defaults : t.defaults = s.defaults
  names : t.names.Perm (s.names ++ Manifest.names definitions)
  kept : ∀ name ∉ Manifest.names definitions, t.get? name = s.get? name
  added : List.Forall₂ (fun d spirit => t.get? d.name = some spirit) definitions spirits

/-- The errors of summoning manifests, in the order in which they are looked for. -/
inductive Refuses (s : Seance) (world : World) (paths : List String) : Error → Prop
  /-- The manifests cannot be loaded. -/
  | manifest {e : Error} (load : Manifest.load world.files paths = .error e) : Refuses s world paths e
  /-- A name is taken. -/
  | taken {before after : List Definition} {d : Definition}
      (load : Manifest.load world.files paths = .ok (before ++ d :: after))
      (free : ∀ x ∈ before, s.contains x.name = false) (held : s.contains d.name = true) :
      Refuses s world paths (.spiritExists d.name)
  /-- A definition does not load. -/
  | failed {before after : List Definition} {d : Definition} {e : Error}
      (load : Manifest.load world.files paths = .ok (before ++ d :: after))
      (free : ∀ x ∈ before ++ d :: after, s.contains x.name = false)
      (loaded : ∀ x ∈ before, ∃ spirit, s.loadDefinition world x = .ok spirit)
      (fails : s.loadDefinition world d = .error e) (returns : e.isPanic = false) :
      Refuses s world paths e

/-- The loader panics over a definition of manifests. The Spirits of those before it have been
summoned, and stay. -/
inductive Breaks (s : Seance) (world : World) (paths : List String) (cause : Panic) (t : Seance) :
    Prop
  /-- What the memory of a definition may grow to lies beyond the address space. -/
  | panicked {before after : List Definition} {d : Definition} {spirits : List Spirit}
      (load : Manifest.load world.files paths = .ok (before ++ d :: after))
      (free : ∀ x ∈ before ++ d :: after, s.contains x.name = false)
      (loaded : List.Forall₂ (fun x spirit => s.loadDefinition world x = .ok spirit) before spirits)
      (panics : s.loadDefinition world d = .error (.panic cause))
      (large : Wasm.maxPages < (d.summonOptions.apply s.defaults).memory.maximum.toNat)
      (holds : Holds s before spirits t) : Breaks s world paths cause t

variable {world : World} {s t : Seance} {d : Definition} {spirit : Spirit}

/-! ## One definition -/

theorem summon_of_loads (habsent : s.contains d.name = false)
    (hload : s.loadDefinition world d = .ok spirit) :
    (s.summon world d.name d.source (some d.summonOptions)).result = .ok () ∧
      (s.summon world d.name d.source (some d.summonOptions)).state = s.insert d.name spirit := by
  obtain ⟨bytes, hread, hspirit⟩ := Except.bind_eq_ok_iff.1 hload
  simp [summon, summonBytes, seat, optionsFor, habsent, hread, hspirit, Reply.after, Reply.plain]

theorem summon_of_fails {e : Error} (habsent : s.contains d.name = false)
    (hload : s.loadDefinition world d = .error e) :
    (s.summon world d.name d.source (some d.summonOptions)).result = .error e ∧
      (s.summon world d.name d.source (some d.summonOptions)).state = s := by
  cases hread : d.source.read world with
  | error fault =>
    rw [loadDefinition, hread] at hload
    cases hload
    simp [summon, habsent, hread, Reply.plain]
  | ok bytes =>
    rw [loadDefinition, hread] at hload
    have hresult : (s.loader.load bytes (d.summonOptions.apply s.defaults)).result = .error e := hload
    simp [summon, summonBytes, seat, optionsFor, habsent, hread, hresult, Reply.after, Reply.plain]

theorem isPanic_of_read {source : Source} {e : Error} (h : source.read world = .error e) :
    e.isPanic = false := by
  unfold Source.read at h
  split at h
  · cases h
  · obtain ⟨_, -, rfl⟩ := Except.mapError_eq_error_iff.1 h
    rfl
  · obtain ⟨_, -, rfl⟩ := Except.mapError_eq_error_iff.1 h
    rfl

theorem isPanic_of_load {files : FileSystem} {paths : List String} {e : Error}
    (h : Manifest.load files paths = .error e) : e.isPanic = false := by
  rcases Except.bind_eq_error_iff.1 h with hfiles | ⟨groups, -, hnames⟩
  · obtain ⟨_, -, rfl⟩ := Except.mapError_eq_error_iff.1 hfiles
    rfl
  · split at hnames
    · cases hnames
      rfl
    · cases hnames

/-- The loader panics over a memory that may grow too large, and no source does. -/
theorem large_of_panics {cause : Panic} (hload : s.loadDefinition world d = .error (.panic cause)) :
    Wasm.maxPages < (d.summonOptions.apply s.defaults).memory.maximum.toNat := by
  rcases Except.bind_eq_error_iff.1 hload with hread | ⟨bytes, -, hpanics⟩
  · cases isPanic_of_read hread
  · exact (Loader.load_eq_panic_iff.1 hpanics).2.2.1

/-! ## Releasing -/

theorem release_state (s : Seance) (name : String) : (s.release name).state = s.erase name := by
  unfold release
  split
  · rfl
  · rename_i hnone
    rw [erase_eq_without, without_of_not_mem]
    · rfl
    · intro other hother
      rw [List.mem_singleton.1 hother, ← contains_eq_false_iff, contains, hnone]
      rfl

theorem releaseAll_state : ∀ (names : List String) (s : Seance),
    (releaseAll names s).state = s.without names
  | [], s => (s.without_of_not_mem (by simp)).symm
  | name :: rest, s => by
    have hrest := releaseAll_state rest (s.release name).state
    rw [release_state, erase_eq_without, without_without] at hrest
    rw [releaseAll]
    change (releaseAll rest (s.release name).state).state = s.without (name :: rest)
    rw [release_state, erase_eq_without]
    exact hrest

/-! ## All definitions -/

/-- Definitions whose names differ and are not taken. -/
def Fresh (definitions : List Definition) (s : Seance) : Prop :=
  (Manifest.names definitions).Nodup ∧ ∀ d ∈ definitions, s.contains d.name = false

theorem Fresh.tail {rest : List Definition} (h : Fresh (d :: rest) s) (spirit : Spirit) :
    Fresh rest (s.insert d.name spirit) := by
  obtain ⟨hnodup, habsent⟩ := h
  obtain ⟨hnew, hnodup⟩ := List.nodup_cons.1 hnodup
  refine ⟨hnodup, fun x hx => ?_⟩
  have hne : x.name ≠ d.name := fun heq => hnew (List.mem_map.2 ⟨x, hx, heq⟩)
  rw [contains, get?_insert, if_neg hne]
  exact habsent x (List.mem_cons_of_mem _ hx)

theorem Fresh.sublist {fewer definitions : List Definition} (h : Fresh definitions s)
    (hsub : fewer.Sublist definitions) : Fresh fewer s :=
  ⟨h.1.sublist (hsub.map _), fun d hd => h.2 d (hsub.subset hd)⟩

theorem Holds.nil (s : Seance) : Holds s [] [] s := by
  refine ⟨rfl, rfl, ?_, fun _ _ => rfl, .nil⟩
  simp [Manifest.names]

theorem Holds.cons {rest : List Definition} {spirits : List Spirit} (hfresh : Fresh (d :: rest) s)
    (h : Holds (s.insert d.name spirit) rest spirits t) :
    Holds s (d :: rest) (spirit :: spirits) t := by
  obtain ⟨hnodup, habsent⟩ := hfresh
  have hnew : d.name ∉ Manifest.names rest := (List.nodup_cons.1 hnodup).1
  have hentry : d.name ∉ s.names := (s.contains_eq_false_iff d.name).1 (habsent d List.mem_cons_self)
  refine ⟨h.loader, h.defaults, ?_, fun name hname => ?_, .cons ?_ h.added⟩
  · refine h.names.trans ?_
    refine ((s.perm_names_insert d.name spirit hentry).append_right (Manifest.names rest)).trans ?_
    exact List.perm_middle.symm
  · rw [Manifest.names, List.map_cons, List.mem_cons, not_or] at hname
    rw [h.kept name hname.2, get?_insert, if_neg hname.1]
  · rw [h.kept d.name hnew, get?_insert, if_pos rfl]

/-- A definition that loads is summoned, and the others are up. -/
theorem summonAll_of_first (rest : List Definition) (summoned : List String)
    (habsent : s.contains d.name = false) (hload : s.loadDefinition world d = .ok spirit) :
    (summonAll world (d :: rest) summoned s).result =
        (summonAll world rest (summoned ++ [d.name]) (s.insert d.name spirit)).result ∧
      (summonAll world (d :: rest) summoned s).state =
        (summonAll world rest (summoned ++ [d.name]) (s.insert d.name spirit)).state := by
  obtain ⟨hresult, hstate⟩ := summon_of_loads habsent hload
  rw [summonAll]
  dsimp only
  rw [hresult, hstate]
  exact ⟨rfl, rfl⟩

/-- With one that does not load it is over. -/
theorem summonAll_of_first_fails (rest : List Definition) (summoned : List String) {e : Error}
    (habsent : s.contains d.name = false) (hfails : s.loadDefinition world d = .error e) :
    (summonAll world (d :: rest) summoned s).result = .error e ∧
      (summonAll world (d :: rest) summoned s).state = (undo e summoned s).state := by
  obtain ⟨hresult, hstate⟩ := summon_of_fails habsent hfails
  rw [summonAll]
  dsimp only
  rw [hresult, hstate]
  exact ⟨rfl, rfl⟩

/-- If every definition loads, every one is summoned. -/
theorem summonAll_of_loads : ∀ {definitions : List Definition} {spirits : List Spirit}
    (summoned : List String) {s : Seance}, Fresh definitions s →
      List.Forall₂ (fun d spirit => s.loadDefinition world d = .ok spirit) definitions spirits →
        (summonAll world definitions summoned s).result =
            .ok (summoned ++ Manifest.names definitions) ∧
          Holds s definitions spirits (summonAll world definitions summoned s).state
  | _, _, summoned, s, _, .nil => by
    refine ⟨?_, .nil s⟩
    simp [summonAll, Reply.plain, Manifest.names]
  | d :: rest, spirit :: spirits, summoned, s, hfresh, .cons hload hrest => by
    obtain ⟨hresult, hstate⟩ :=
      summonAll_of_first rest summoned (hfresh.2 d List.mem_cons_self) hload
    obtain ⟨hnames, hholds⟩ :=
      summonAll_of_loads (summoned ++ [d.name]) (hfresh.tail spirit) hrest
    rw [hresult, hstate, hnames]
    refine ⟨?_, hholds.cons hfresh⟩
    simp [Manifest.names]

/-- If a definition fails, the names summoned so far are released. -/
theorem summonAll_of_fails {after : List Definition} {e : Error} (hreturns : e.isPanic = false) :
    ∀ {before : List Definition} (summoned : List String) {s : Seance},
      Fresh (before ++ d :: after) s →
      (∀ x ∈ before, ∃ spirit, s.loadDefinition world x = .ok spirit) →
      s.loadDefinition world d = .error e →
        (summonAll world (before ++ d :: after) summoned s).result = .error e ∧
          (summonAll world (before ++ d :: after) summoned s).state = s.without summoned
  | [], summoned, s, hfresh, _, hfails => by
    obtain ⟨hresult, hstate⟩ :=
      summonAll_of_first_fails after summoned (hfresh.2 d List.mem_cons_self) hfails
    refine ⟨hresult, hstate.trans ?_⟩
    rw [undo, hreturns]
    exact releaseAll_state summoned s
  | x :: before, summoned, s, hfresh, hbefore, hfails => by
    have habsent := hfresh.2 x List.mem_cons_self
    obtain ⟨spirit, hload⟩ := hbefore x List.mem_cons_self
    obtain ⟨hresult, hstate⟩ :=
      summonAll_of_first (before ++ d :: after) summoned habsent hload
    -- The Spirit put in here goes again at the end, and no other entry has its name.
    obtain ⟨herror, hundone⟩ := summonAll_of_fails hreturns (summoned ++ [x.name])
      (hfresh.tail spirit) (fun y hy => hbefore y (List.mem_cons_of_mem _ hy)) hfails
    rw [List.cons_append, hresult, hstate, herror, hundone, without_insert _ _ _ (by simp),
      without_append_singleton _ _ _ ((s.contains_eq_false_iff x.name).1 habsent)]
    exact ⟨rfl, rfl⟩

/-- If the loader panics over a definition, they stay. -/
theorem summonAll_of_panics {after : List Definition} {cause : Panic} :
    ∀ {before : List Definition} {spirits : List Spirit} (summoned : List String) {s : Seance},
      Fresh (before ++ d :: after) s →
      List.Forall₂ (fun d spirit => s.loadDefinition world d = .ok spirit) before spirits →
      s.loadDefinition world d = .error (.panic cause) →
        (summonAll world (before ++ d :: after) summoned s).result = .error (.panic cause) ∧
          Holds s before spirits (summonAll world (before ++ d :: after) summoned s).state
  | _, _, summoned, s, hfresh, .nil, hpanics => by
    obtain ⟨hresult, hstate⟩ :=
      summonAll_of_first_fails after summoned (hfresh.2 d List.mem_cons_self) hpanics
    refine ⟨hresult, ?_⟩
    rw [List.nil_append, hstate]
    exact .nil s
  | x :: before, spirit :: spirits, summoned, s, hfresh, .cons hload hrest, hpanics => by
    have habsent := hfresh.2 x List.mem_cons_self
    obtain ⟨hresult, hstate⟩ :=
      summonAll_of_first (before ++ d :: after) summoned habsent hload
    obtain ⟨herror, hholds⟩ :=
      summonAll_of_panics (summoned ++ [x.name]) (hfresh.tail spirit) hrest hpanics
    rw [List.cons_append, hresult, hstate]
    exact ⟨herror, hholds.cons (hfresh.sublist (List.sublist_append_left (x :: before) _))⟩

/-- Fresh definitions that are split where summoning them ends. -/
theorem summonAll_cases {definitions : List Definition} (hfresh : Fresh definitions s) :
    (∃ spirits,
      List.Forall₂ (fun d spirit => s.loadDefinition world d = .ok spirit) definitions spirits ∧
      (summonAll world definitions [] s).result = .ok (Manifest.names definitions) ∧
      Holds s definitions spirits (summonAll world definitions [] s).state) ∨
    ∃ before d after spirits e, definitions = before ++ d :: after ∧
      List.Forall₂ (fun d spirit => s.loadDefinition world d = .ok spirit) before spirits ∧
      s.loadDefinition world d = .error e ∧
      (summonAll world definitions [] s).result = .error e ∧
      (e.isPanic = false → (summonAll world definitions [] s).state = s) ∧
      (e.isPanic = true → Holds s before spirits (summonAll world definitions [] s).state) := by
  cases hspirits : definitions.mapM (s.loadDefinition world) with
  | ok spirits =>
    have hloads := Except.mapM_eq_ok_iff.1 hspirits
    obtain ⟨hresult, hholds⟩ := summonAll_of_loads [] hfresh hloads
    exact .inl ⟨spirits, hloads, hresult, hholds⟩
  | error e =>
    obtain ⟨before, d, after, rfl, hbefore, hfails⟩ := Except.mapM_eq_error hspirits
    obtain ⟨spirits, hsome⟩ := Except.exists_mapM_eq_ok_iff.2 hbefore
    have hloads := Except.mapM_eq_ok_iff.1 hsome
    refine .inr ⟨before, d, after, spirits, e, rfl, hloads, hfails, ?_⟩
    cases e with
    | panic cause =>
      obtain ⟨hresult, hholds⟩ := summonAll_of_panics [] hfresh hloads hfails
      exact ⟨hresult, nofun, fun _ => hholds⟩
    | _ =>
      obtain ⟨hresult, hstate⟩ := summonAll_of_fails rfl [] hfresh hbefore hfails
      rw [without_of_not_mem _ (by simp)] at hstate
      exact ⟨hresult, fun _ => hstate, nofun⟩

/-- **All, nothing or a panic.** Summoning manifests either gives the names of all definitions, file by
file and in order within each, and a séance that holds exactly one Spirit more for each of them; or it
gives an error and the séance from before; or the loader panics, and the Spirits of the definitions
before the one that it panics over are left in the séance. -/
theorem summonManifest_outcomes (s : Seance) (world : World) (paths : List String) :
    (∃ groups spirits,
      List.Forall₂ (fun path group => Manifest.parseFile world.files path = .ok group ∧
        (Manifest.names group).Pairwise (· < ·)) paths groups ∧
      Manifest.load world.files paths = .ok groups.flatten ∧
      (∀ d ∈ groups.flatten, s.contains d.name = false) ∧
      List.Forall₂ (fun d spirit => s.loadDefinition world d = .ok spirit) groups.flatten spirits ∧
      (s.summonManifest world paths).result = .ok (Manifest.names groups.flatten) ∧
      Holds s groups.flatten spirits (s.summonManifest world paths).state) ∨
    (∃ e, Refuses s world paths e ∧ (s.summonManifest world paths).result = .error e ∧
      (s.summonManifest world paths).state = s) ∨
    ∃ cause, (s.summonManifest world paths).result = .error (.panic cause) ∧
      Breaks s world paths cause (s.summonManifest world paths).state := by
  unfold summonManifest
  cases hload : Manifest.load world.files paths with
  | error e => exact .inr (.inl ⟨e, .manifest hload, rfl, rfl⟩)
  | ok definitions =>
    dsimp only
    cases htaken : definitions.find? (s.contains ·.name) with
    | some d =>
      obtain ⟨hheld, before, after, rfl, hfree⟩ := List.find?_eq_some_iff_append.1 htaken
      exact .inr (.inl ⟨_, .taken hload (fun x hx => by simpa using hfree x hx) hheld, rfl, rfl⟩)
    | none =>
      have hfree : ∀ d ∈ definitions, s.contains d.name = false := fun d hd => by
        simpa using List.find?_eq_none.1 htaken d hd
      obtain ⟨hnodup, groups, rfl, hgroups⟩ := Manifest.load_eq_ok hload
      rcases summonAll_cases ⟨hnodup, hfree⟩ with
        ⟨spirits, hloads, hresult, hholds⟩ |
          ⟨before, d, after, spirits, e, hsplit, hloads, hfails, hresult, hreturns, hpanics⟩
      · exact .inl ⟨groups, spirits, hgroups, rfl, hfree, hloads, hresult, hholds⟩
      · rw [hsplit] at hload hfree
        cases e with
        | panic cause =>
          exact .inr (.inr ⟨cause, hresult,
            .panicked hload hfree hloads hfails (large_of_panics hfails) (hpanics rfl)⟩)
        | _ =>
          have hbefore := Except.exists_mapM_eq_ok_iff.1 ⟨spirits, Except.mapM_eq_ok_iff.2 hloads⟩
          exact .inr (.inl ⟨_, .failed hload hfree hbefore hfails rfl, hresult, hreturns rfl⟩)

/-- A manifest of two Spirits, one of which is to have more memory than there are addresses. -/
def twoSpirits : World := .ofList [
  ("/a.wasm", .ok [0x00, 0x61, 0x73, 0x6d, 0x01, 0x00, 0x00, 0x00]),
  ("m.toml", .ok (Utf8.encode
    "[a]\nuri = \"/a.wasm\"\n[b]\nuri = \"/a.wasm\"\n[b.memory]\nmaximum = 70000\n"))]

/-- Of the two of them the first is left behind: not all are summoned, and not none. -/
theorem not_all_or_nothing :
    ((new shortLoader).summonManifest twoSpirits ["m.toml"]).result =
      .error (.panic (.memoryType 70000)) ∧
    ((new shortLoader).summonManifest twoSpirits ["m.toml"]).state.names = ["a"] ∧
    (new shortLoader).names = [] := by
  have hcause : ((new shortLoader).summonManifest twoSpirits ["m.toml"]).result.mapError
      Error.panic? = .error (some (.memoryType 70000)) := by decide +kernel
  obtain ⟨e, hresult, hpanics⟩ := Except.mapError_eq_error_iff.1 hcause
  cases Error.panic?_eq_some_iff.1 hpanics
  exact ⟨hresult, by decide +kernel, rfl⟩

end Seance

end SpiritHost
