import SpiritHost.Loa.Declared
import SpiritHost.Proofs.Seance.Values

/-!
# Conservation of planted values

No value that a Loa planted is leaked and none is destroyed twice: in every state that a séance gets
to, what was ever planted is what the stores of its Spirits hold and what has been destroyed. A
summoning that fails leaves nothing of its own alive, and a séance that is dismissed, held to its end
or dropped leaves nothing at all.
-/

namespace SpiritHost.Seance

variable {s : Seance} {l : Ledger} {n : Nat}

/-! ## Sessions -/

/-- What is done with a séance that is held: acts, each of which may go by what came of those before
it, and a result or an error in the end. -/
inductive Body (α : Type) where
  | done (result : Except Error α)
  | act (a : Act) (next : Except Error Gain → Body α)

namespace Body

variable {α : Type}

/-- Does it. -/
def run : Body α → Seance → Reply Seance α
  | done result, s => .plain result s
  | act a next, s => (s.act a).after ((next (s.act a).result).run (s.act a).state)

/-- The acts that it comes to. -/
def acts : Body α → Seance → List Act
  | done _, _ => []
  | act a next, s => a :: (next (s.act a).result).acts (s.act a).state

end Body

/-- What becomes of values by holding a séance: by the acts, by the dismissal and by dropping it. -/
def holdFates {α : Type} (s : Seance) (body : Body α) : List Fate :=
  fatesAll (body.acts s) s ++ (body.run s).state.dismissFates ++
    (body.run s).state.dismiss.state.dismissFates

/-! ## Conservation -/

/-- The act is to summon Spirits. -/
def Act.summons : Act → Bool
  | step _ what => what.summons
  | summonManifest .. => true

/-- A ledger and a séance that tell the same of planted values, of which so many have been
destroyed. -/
structure Balanced (l : Ledger) (s : Seance) (n : Nat) : Prop where
  /-- Every value is alive or destroyed, and not both, and once. -/
  accounts : l.Accounts
  /-- The values that are alive are those that the stores hold. -/
  alive : l.places.Perm s.places
  destroyed : l.destroyed.length = n
  balance : l.count = s.places.length + n

/-- A séance that has come to its end. -/
structure Ended (l : Ledger) (s : Seance) (n : Nat) : Prop where
  empty : s.isEmpty = true
  balanced : Balanced l s n
  /-- No value is alive, and each has been destroyed once. -/
  dead : l.alive = []
  once : (l.destroyed.map Planted.number).Perm (List.range l.count)
  /-- To dismiss it again changes nothing. -/
  again : s.dismiss = .plain (.ok ()) s

/-- A séance in which planted values are conserved. -/
structure Conserves (l : Ledger) (s : Seance) (n : Nat) : Prop where
  balanced : Balanced l s n
  /-- A summoning that fails leaves alive what was alive before, and nothing of its own, unless it
  panics among manifests; and then the rest is in the stores of Spirits that were not there before. -/
  failed : ∀ a e, a.summons = true → (s.act a).result = .error e →
    (l.enterAll (s.fates a)).alive.filter (s.contains ·.spirit) = l.alive ∧
      (a.single = true ∨ e.isPanic = false →
        (s.act a).state = s ∧ (l.enterAll (s.fates a)).alive = l.alive)
  dismissed : Ended (l.enterAll s.dismissFates) s.dismiss.state (n + s.dismiss.destroyed)
  dropped : Ended (l.enterAll s.dismissFates) s.drop.state (n + s.drop.destroyed)
  /-- Holding a séance gives what its body gives and ends it, whatever that is. -/
  held : ∀ (α : Type) (body : Body α), (s.hold body.run).result = (body.run s).result ∧
    Ended (l.enterAll (s.holdFates body)) (s.hold body.run).state
      (n + (s.hold body.run).destroyed)

theorem balanced_of_agrees (haccounts : l.Accounts) (h : Agrees l s n) : Balanced l s n := by
  refine ⟨haccounts, h.places, h.destroyed, ?_⟩
  rw [haccounts.length, h.destroyed, ← h.places.length_eq, Ledger.places, List.length_map]

/-! ## Runs -/

theorem kept_actAll : ∀ (acts : List Act) {s : Seance}, s.Kept → (actAll acts s).Kept
  | [], _, hs => hs
  | a :: rest, _, hs => kept_actAll rest (tracks_act hs a).kept

/-- **Runs of acts.** -/
theorem agrees_actAll : ∀ (acts : List Act) {s : Seance} {l : Ledger} {n : Nat}, s.Kept →
    Agrees l s n →
      Agrees (l.enterAll (fatesAll acts s)) (actAll acts s) (n + destroyedAll acts s)
  | [], _, _, _, _, h => h
  | a :: rest, s, l, n, hs, h => by
    have hfirst := tracks_act hs a
    have hrest := agrees_actAll rest hfirst.kept (hfirst.agrees l n h)
    rw [fatesAll, destroyedAll, Ledger.enterAll_append, ← Nat.add_assoc]
    exact hrest

/-- Holding a séance comes to a run of acts. -/
theorem Body.run_eq {α : Type} : ∀ (body : Body α) (s : Seance),
    (body.run s).state = actAll (body.acts s) s ∧
      (body.run s).destroyed = destroyedAll (body.acts s) s
  | .done _, _ => ⟨rfl, rfl⟩
  | .act a next, s => by
    obtain ⟨hstate, hdestroyed⟩ := Body.run_eq (next (s.act a).result) (s.act a).state
    exact ⟨hstate, congrArg ((s.act a).destroyed + ·) hdestroyed⟩

/-! ## Failing -/

theorem spirit_releaseAllFates : ∀ (names : List String) (s : Seance),
    ∀ f ∈ releaseAllFates names s, f.spirit ∈ names
  | [], _, f, hf => by cases hf
  | name :: rest, s, f, hf => by
    rcases List.mem_append.1 hf with hf | hf
    · unfold releaseFates at hf
      split at hf
      · rw [List.mem_singleton.1 hf]
        exact List.mem_cons_self
      · cases hf
    · exact List.mem_cons_of_mem name (spirit_releaseAllFates rest _ f hf)

theorem spirit_undoFates {e : Error} {summoned : List String} :
    ∀ f ∈ undoFates e summoned s, f.spirit ∈ summoned := by
  intro f hf
  unfold undoFates at hf
  split at hf
  · cases hf
  · exact spirit_releaseAllFates summoned s f hf

theorem spirit_loadFates {loader : Loader} {name : String} {bytes : Bytes} {o : LoadOptions} :
    ∀ f ∈ loadFates loader name bytes o, f.spirit = name := by
  intro f hf
  rcases List.mem_append.1 hf with hf | hf
  · obtain ⟨kind, -, rfl⟩ := List.mem_map.1 hf
    rfl
  · split at hf
    · cases hf
    · rw [List.mem_singleton.1 hf]
      rfl

theorem spirit_bytesFates {name : String} {bytes : Bytes} {options : Option SummonOptions} :
    ∀ f ∈ s.bytesFates name bytes options, f.spirit = name ∧ s.contains name = false := by
  intro f hf
  unfold bytesFates at hf
  cases habsent : s.contains name with
  | true =>
    rw [habsent] at hf
    cases hf
  | false =>
    rw [habsent] at hf
    exact ⟨spirit_loadFates f hf, rfl⟩

theorem spirit_summonFates {world : World} {name : String} {source : Source}
    {options : Option SummonOptions} :
    ∀ f ∈ s.summonFates world name source options, f.spirit = name ∧ s.contains name = false := by
  intro f hf
  unfold summonFates at hf
  split at hf
  · cases hf
  · split at hf
    · exact spirit_bytesFates f hf
    · cases hf

theorem spirit_summonAllFates (world : World) : ∀ (definitions : List Definition)
    (summoned : List String) (s : Seance),
      ∀ f ∈ summonAllFates world definitions summoned s,
        f.spirit ∈ summoned ++ Manifest.names definitions
  | [], _, _, f, hf => by cases hf
  | d :: rest, summoned, s, f, hf => by
    unfold summonAllFates at hf
    rcases List.mem_append.1 hf with hf | hf
    · rw [(spirit_summonFates f hf).1]
      exact List.mem_append_right _ List.mem_cons_self
    · split at hf
      · have hrest := spirit_summonAllFates world rest (summoned ++ [d.name]) _ f hf
        rwa [List.append_assoc] at hrest
      · exact List.mem_append_left _ (spirit_undoFates f hf)

/-- What summoning does to values it does to those of names that are free. -/
theorem absent_of_mem_fates {a : Act} (ha : a.summons = true) :
    ∀ f ∈ s.fates a, s.contains f.spirit = false := by
  intro f hf
  cases a with
  | summonManifest world paths =>
    change f ∈ s.manifestFates world paths at hf
    unfold manifestFates at hf
    split at hf
    · cases hf
    · split at hf
      · cases hf
      · rename_i definitions _ _ hfree
        have hmem := spirit_summonAllFates world definitions [] s f hf
        obtain ⟨d, hd, heq⟩ := List.mem_map.1 hmem
        rw [← heq]
        simpa using List.find?_eq_none.1 hfree d hd
  | step world step =>
    cases step with
    | summonBytes name bytes options =>
      obtain ⟨heq, habsent⟩ := spirit_bytesFates f hf
      rwa [heq]
    | summon name source options =>
      obtain ⟨heq, habsent⟩ := spirit_summonFates f hf
      rwa [heq]
    | _ => cases ha

/-- Values are alive only under names that are there. -/
theorem Agrees.filter_alive (h : Agrees l s n) :
    l.alive.filter (fun v => s.contains v.spirit) = l.alive := by
  refine List.filter_eq_self.2 fun v hv => ?_
  exact contains_of_mem_places v.place (h.places.mem_iff.1 (List.mem_map_of_mem hv))

/-- **Failing.** A summoning that fails leaves nothing of its own alive, and ends nothing that is. -/
theorem alive_of_failed (hs : s.Kept) (h : Agrees l s n) {a : Act} {e : Error}
    (ha : a.summons = true) (hfails : (s.act a).result = .error e) :
    (l.enterAll (s.fates a)).alive.filter (s.contains ·.spirit) = l.alive ∧
      (a.single = true ∨ e.isPanic = false →
        (s.act a).state = s ∧ (l.enterAll (s.fates a)).alive = l.alive) := by
  have hthere : (l.enterAll (s.fates a)).alive.filter (s.contains ·.spirit) = l.alive := by
    rw [Ledger.filter_alive_enterAll (p := s.contains) (absent_of_mem_fates ha)]
    exact h.filter_alive
  refine ⟨hthere, fun hwhole => ?_⟩
  have hstate : (s.act a).state = s := by
    refine act_of_fails hs.ordered hfails (fun hreaches => ?_) hwhole
    cases a with
    | summonManifest => exact hreaches
    | step world step => cases step <;> first | exact hreaches | cases ha
  have hafter := (tracks_act hs a).agrees l n h
  rw [hstate] at hafter
  exact ⟨hstate, hafter.filter_alive.symm.trans hthere⟩

/-! ## Ending -/

theorem ended_of_agrees (haccounts : l.Accounts) (h : Agrees l s n) (hempty : s.entries = []) :
    Ended l s n := by
  have hplaces : s.places = [] := by
    rw [places, hempty]
    rfl
  have hdead : l.alive = [] := by
    have hnone := h.places
    rw [hplaces] at hnone
    exact List.map_eq_nil_iff.1 hnone.eq_nil
  refine ⟨?_, balanced_of_agrees haccounts h, hdead, ?_, ?_⟩
  · rw [isEmpty, hempty]
    rfl
  · unfold Ledger.Accounts at haccounts
    rwa [hdead, List.nil_append] at haccounts
  · obtain ⟨loader, defaults, entries⟩ := s
    subst hempty
    rfl

theorem ended_dismiss (hs : s.Kept) (haccounts : l.Accounts) (h : Agrees l s n) :
    Ended (l.enterAll s.dismissFates) s.dismiss.state (n + s.dismiss.destroyed) :=
  ended_of_agrees (Ledger.accounts_enterAll _ haccounts) ((tracks_dismiss hs).agrees l n h) rfl

/-- The acts of a body, then the dismissal, then the drop, which finds nothing left to do. -/
theorem ended_hold {α : Type} (hs : s.Kept) (haccounts : l.Accounts) (h : Agrees l s n)
    (body : Body α) :
    Ended (l.enterAll (s.holdFates body)) (s.hold body.run).state
      (n + (s.hold body.run).destroyed) := by
  obtain ⟨hstate, hdestroyed⟩ := body.run_eq s
  have hkept : (body.run s).state.Kept := hstate ▸ kept_actAll _ hs
  have hbody : s.Tracks (fatesAll (body.acts s) s) (body.run s) := by
    refine ⟨hkept, fun l n h => ?_⟩
    rw [hstate, hdestroyed]
    exact agrees_actAll _ hs h
  have hdismissed := hbody.after (tracks_dismiss hkept)
  have hdropped := hdismissed.after (tracks_dismiss hdismissed.kept)
  exact ended_of_agrees (Ledger.accounts_enterAll _ haccounts) (hdropped.agrees l n h) rfl

/-- A Loa that plants a value for every Spirit, and then fails or not. -/
def tracker (name : String) (failure : Option String) : List Loa :=
  [({ name, plants := true } : LoaDeclaration).toLoa,
    ({ name := name ++ " too", plants := true } : LoaDeclaration).toLoa,
    ({ name := "last", failure } : LoaDeclaration).toLoa]

/-- Of the two values planted for each Spirit the second takes the place of the first. One Spirit is
there in the end and one failed to load: one value is alive, and three have been destroyed. -/
example :
    let acts := [Step.summonBytes "there" allocatingModule (some { imports := tracker "a" none }),
      .summonBytes "not there" allocatingModule
        (some { imports := tracker "b" (some "out of order") })].map (Act.step (.ofList []))
    (actAll acts (new shortLoader)).places = [("there", LoaDeclaration.plantedKind)] ∧
      destroyedAll acts (new shortLoader) = 3 ∧
      (Ledger.enterAll {} (fatesAll acts (new shortLoader))).alive =
        [⟨"there", LoaDeclaration.plantedKind, 1⟩] := by
  decide +kernel

end SpiritHost.Seance
