import SpiritHost.Proofs.Seance.Ledger
import SpiritHost.Proofs.Seance.Standing
import SpiritHost.Proofs.Spirit.Loading

/-!
# Planted values of a séance

The stores of a séance hold what was planted in them and not destroyed, and every store that goes, by
a load that fails, a release, a manifest that is rolled back or a dismissal, takes what it holds with
it. A ledger of what becomes of values agrees with the séance, act by act.
-/

namespace SpiritHost.Seance

open Wasm (Value)

variable {s t : Seance} {name : String} {spirit : Spirit} {l : Ledger} {n : Nat}

/-! ## What becomes of values -/

/-- By a load for a name: if it fails, the store that was in the making is dropped. -/
def loadFates (loader : Loader) (name : String) (bytes : Bytes) (o : LoadOptions) : List Fate :=
  Ledger.fatesOf name (plantings (loader.instants bytes o)) ++
    match (loader.load bytes o).result with
    | .ok _ => []
    | .error _ => [.dropped name]

/-- By summoning from bytes. -/
def bytesFates (s : Seance) (name : String) (bytes : Bytes) (options : Option SummonOptions) :
    List Fate :=
  if s.contains name then [] else loadFates s.loader name bytes (s.optionsFor options)

/-- By summoning from a source. -/
def summonFates (s : Seance) (world : World) (name : String) (source : Source)
    (options : Option SummonOptions) : List Fate :=
  if s.contains name then []
  else match source.read world with
    | .ok bytes => s.bytesFates name bytes options
    | .error _ => []

/-- By a release. -/
def releaseFates (s : Seance) (name : String) : List Fate :=
  if s.contains name then [.dropped name] else []

/-- By releases in order. -/
def releaseAllFates : List String → Seance → List Fate
  | [], _ => []
  | name :: rest, s => s.releaseFates name ++ releaseAllFates rest (s.release name).state

/-- By taking back what was summoned before an error. -/
def undoFates (e : Error) (summoned : List String) (s : Seance) : List Fate :=
  if e.isPanic then [] else releaseAllFates summoned s

/-- By summoning in order. -/
def summonAllFates (world : World) : List Definition → List String → Seance → List Fate
  | [], _, _ => []
  | d :: rest, summoned, s =>
    let reply := s.summon world d.name d.source (some d.summonOptions)
    s.summonFates world d.name d.source (some d.summonOptions) ++
      match reply.result with
      | .ok () => summonAllFates world rest (summoned ++ [d.name]) reply.state
      | .error e => undoFates e summoned reply.state

/-- By summoning manifests. -/
def manifestFates (s : Seance) (world : World) (paths : List String) : List Fate :=
  match Manifest.load world.files paths with
  | .error _ => []
  | .ok definitions => match definitions.find? (s.contains ·.name) with
    | some _ => []
    | none => summonAllFates world definitions [] s

/-- By what is done with a Spirit, as its trace tells. -/
def spiritFates (s : Seance) (name : String) (instants : Spirit → List Instant) : List Fate :=
  match s.get? name with
  | some spirit => Ledger.fatesOf name (plantings (instants spirit))
  | none => []

/-- By a dismissal. -/
def dismissFates (s : Seance) : List Fate := s.names.map .dropped

/-- By an act. -/
def fates (s : Seance) : Act → List Fate
  | .summonManifest world paths => s.manifestFates world paths
  | .step _ (.summonBytes name bytes options) => s.bytesFates name bytes options
  | .step world (.summon name source options) => s.summonFates world name source options
  | .step _ (.invoke name function args) => s.spiritFates name (·.instants (.call function args))
  | .step _ (.invokeJson name function args) =>
    s.spiritFates name (·.instants (.callJson function args))
  | .step _ (.use name operation) => s.spiritFates name (·.instants operation)
  | .step _ (.release name) => s.releaseFates name
  | .step _ .dismiss => s.dismissFates
  | .step _ (.changeRegistry _) => []

/-- By a run of acts. -/
def fatesAll : List Act → Seance → List Fate
  | [], _ => []
  | a :: rest, s => s.fates a ++ fatesAll rest (s.act a).state

/-- How many values a run of acts is said to destroy. -/
def destroyedAll : List Act → Seance → Nat
  | [], _ => 0
  | a :: rest, s => (s.act a).destroyed + destroyedAll rest (s.act a).state

/-! ## What stores hold -/

/-- The places of the values that are held in the stores of a séance. -/
def places (s : Seance) : List (String × String) :=
  s.entries.flatMap fun (name, spirit) => spirit.store.held.map (Prod.mk name)

/-- What the Spirits of a séance are like: their holders work on the memory of record, and what gave
way to other values is accounted for. -/
structure Kept (s : Seance) : Prop where
  ordered : InOrder s.entries
  served : ∀ name spirit, s.get? name = some spirit → spirit.Served
  settled : ∀ name spirit, s.get? name = some spirit → spirit.store.replaced = 0

/-- A ledger agrees with a séance, of whose values so many have been destroyed. -/
structure Agrees (l : Ledger) (s : Seance) (n : Nat) : Prop where
  nodup : l.places.Nodup
  places : l.places.Perm s.places
  destroyed : l.destroyed.length = n

/-- The reply to an act: entering what became of values keeps a ledger in agreement. -/
structure Tracks {α : Type} (s : Seance) (fates : List Fate) (r : Reply Seance α) : Prop where
  kept : r.state.Kept
  agrees : ∀ l n, Agrees l s n → Agrees (l.enterAll fates) r.state (n + r.destroyed)

theorem Tracks.plain {α : Type} (hs : s.Kept) (result : Except Error α) :
    s.Tracks [] (.plain result s) := ⟨hs, fun _ _ h => h⟩

theorem Tracks.map {α β : Type} {xs : List Fate} {r : Reply Seance α} (h : s.Tracks xs r)
    (f : α → β) : s.Tracks xs (r.map f) := ⟨h.kept, h.agrees⟩

theorem Tracks.after {α β : Type} {xs ys : List Fate} {r : Reply Seance α} {u : Reply Seance β}
    (h : s.Tracks xs r) (hu : r.state.Tracks ys u) : s.Tracks (xs ++ ys) (r.after u) := by
  refine ⟨hu.kept, fun l n hl => ?_⟩
  rw [Ledger.enterAll_append]
  have hboth := hu.agrees _ _ (h.agrees l n hl)
  rwa [Nat.add_assoc] at hboth

/-! ## One Spirit among others -/

theorem perm_entries_of_lookup {α : Type} {key : String} {a : α} :
    ∀ {entries : List (String × α)}, (keys entries).Nodup → entries.lookup key = some a →
      entries.Perm (entries.filter (·.1 != key) ++ [(key, a)])
  | [], _, h => by cases h
  | (k, b) :: rest, hnodup, h => by
    obtain ⟨hnew, hnodup⟩ := List.nodup_cons.1 hnodup
    rw [lookup_cons_if] at h
    by_cases hkey : key = k
    · subst hkey
      rw [if_pos rfl] at h
      cases h
      have hrest : rest.filter (·.1 != key) = rest := by
        refine List.filter_eq_self.2 fun p hp => ?_
        have hne : p.1 ≠ key := fun heq => hnew (List.mem_map.2 ⟨p, hp, heq⟩)
        simpa using hne
      rw [List.filter_cons_of_neg (by simp), hrest]
      exact (List.perm_append_singleton _ _).symm
    · rw [if_neg hkey] at h
      rw [List.filter_cons_of_pos (by simpa using Ne.symm hkey)]
      exact (perm_entries_of_lookup hnodup h).cons (k, b)

/-- What the stores of a séance hold is what one of them holds and what the others do. -/
theorem places_of_get? (horder : InOrder s.entries) (hget : s.get? name = some spirit) :
    s.places.Perm ((s.erase name).places ++ spirit.store.held.map (Prod.mk name)) := by
  have hentries := perm_entries_of_lookup horder.nodup hget
  have hplaces := hentries.flatMap_right fun e => e.2.store.held.map (Prod.mk e.1)
  rwa [List.flatMap_append, List.flatMap_singleton] at hplaces

theorem places_insert (horder : InOrder s.entries) (name : String) (spirit : Spirit) :
    (s.insert name spirit).places.Perm
      ((s.erase name).places ++ spirit.store.held.map (Prod.mk name)) := by
  have hget : (s.insert name spirit).get? name = some spirit := by
    rw [get?_insert, if_pos rfl]
  have hplaces := places_of_get? (inOrder_insert horder spirit) hget
  rwa [erase_eq_without, without_insert _ _ _ (by simp), ← erase_eq_without] at hplaces

theorem ne_of_mem_places_erase : ∀ place ∈ (s.erase name).places, place.1 ≠ name := by
  intro place hplace
  obtain ⟨e, he, hheld⟩ := List.mem_flatMap.1 hplace
  obtain ⟨kind, -, rfl⟩ := List.mem_map.1 hheld
  simpa using (List.mem_filter.1 he).2

theorem erase_of_absent (h : s.contains name = false) : s.erase name = s := by
  rw [erase_eq_without]
  refine s.without_of_not_mem fun other hother => ?_
  rw [List.mem_singleton.1 hother]
  exact (s.contains_eq_false_iff name).1 h

theorem contains_of_mem_places : ∀ place ∈ s.places, s.contains place.1 = true := by
  intro place hplace
  obtain ⟨e, he, hheld⟩ := List.mem_flatMap.1 hplace
  obtain ⟨kind, -, rfl⟩ := List.mem_map.1 hheld
  exact (s.contains_eq_true_iff e.1).2 (List.mem_map_of_mem he)

theorem Agrees.shows (h : Agrees l s n) (horder : InOrder s.entries)
    (hget : s.get? name = some spirit) : l.Shows name (s.erase name).places spirit.store.held :=
  ⟨h.nodup, ne_of_mem_places_erase, h.places.trans (places_of_get? horder hget)⟩

theorem Agrees.shows_nothing (h : Agrees l s n) (habsent : s.contains name = false) :
    l.Shows name (s.erase name).places [] := by
  refine ⟨h.nodup, ne_of_mem_places_erase, ?_⟩
  rw [erase_of_absent habsent, List.map_nil, List.append_nil]
  exact h.places

theorem agrees_insert (horder : InOrder s.entries)
    (h : l.Shows name (s.erase name).places spirit.store.held) :
    Agrees l (s.insert name spirit) l.destroyed.length :=
  ⟨h.nodup, h.places.trans (places_insert horder name spirit).symm, rfl⟩

theorem agrees_erase (h : l.Shows name (s.erase name).places []) :
    Agrees l (s.erase name) l.destroyed.length :=
  ⟨h.nodup, by simpa using h.places, rfl⟩

theorem Kept.insert (hs : s.Kept) (hserved : spirit.Served) (hsettled : spirit.store.replaced = 0) :
    (s.insert name spirit).Kept := by
  refine ⟨inOrder_insert hs.ordered spirit, fun other found hget => ?_, fun other found hget => ?_⟩
  all_goals
    rw [get?_insert] at hget
    split at hget
  · cases hget
    exact hserved
  · exact hs.served other found hget
  · cases hget
    exact hsettled
  · exact hs.settled other found hget

theorem Kept.erase (hs : s.Kept) (name : String) : (s.erase name).Kept := by
  refine ⟨inOrder_erase hs.ordered, fun other found hget => ?_, fun other found hget => ?_⟩
  all_goals
    rw [get?_erase] at hget
    split at hget
  · cases hget
  · exact hs.served other found hget
  · cases hget
  · exact hs.settled other found hget

/-! ## Summoning -/

/-- What a load leaves planted, whether it succeeds or fails. -/
def left (loader : Loader) (bytes : Bytes) (o : LoadOptions) : Holding :=
  (plantings (loader.instants bytes o)).foldl Holding.plant ([], 0)

theorem Agrees.planted (h : Agrees l s n) (habsent : s.contains name = false) (loader : Loader)
    (bytes : Bytes) (o : LoadOptions) :
    (l.enterAll (Ledger.fatesOf name (plantings (loader.instants bytes o)))).Shows name
        (s.erase name).places (left loader bytes o).1 ∧
      (l.enterAll (Ledger.fatesOf name (plantings (loader.instants bytes o)))).destroyed.length =
        n + (left loader bytes o).2 := by
  obtain ⟨hshows, hdestroyed⟩ := (h.shows_nothing habsent).plantAll (h := ([], 0)) _
  rw [h.destroyed] at hdestroyed
  exact ⟨hshows, hdestroyed⟩

/-- A load that fails drops the store with what it holds then. -/
theorem tracks_of_failed {loader : Loader} {bytes : Bytes} {o : LoadOptions} {e : Error}
    (hs : s.Kept) (habsent : s.contains name = false)
    (hfails : (loader.load bytes o).result = .error e)
    (hdestroyed : (loader.load bytes o).destroyed =
      (left loader bytes o).2 + (left loader bytes o).1.length) :
    s.Tracks (loadFates loader name bytes o) (s.seat name (loader.load bytes o)) := by
  unfold loadFates seat
  rw [hfails]
  refine ⟨hs, fun l n hl => ?_⟩
  obtain ⟨hshows, hlength⟩ := hl.planted habsent loader bytes o
  obtain ⟨hdropped, hmore⟩ := hshows.drop
  rw [hlength, Nat.add_assoc, ← hdestroyed] at hmore
  have hagrees := agrees_erase hdropped
  rw [erase_of_absent habsent] at hagrees
  rw [Ledger.enterAll_append]
  exact ⟨hagrees.nodup, hagrees.places, hmore⟩

/-- Loading a Spirit for a name that is free. -/
theorem tracks_seat (hs : s.Kept) (habsent : s.contains name = false) (loader : Loader)
    (bytes : Bytes) (o : LoadOptions) :
    s.Tracks (loadFates loader name bytes o) (s.seat name (loader.load bytes o)) := by
  rcases loader.load_cases bytes o with ⟨e, hload, hnone⟩ | ⟨memory, t, hleads, hend⟩
  · have hleft : left loader bytes o = ([], 0) := by
      rw [left, hnone]
      rfl
    refine tracks_of_failed hs habsent (e := e) ?_ ?_
    · rw [hload]
      rfl
    · rw [hload, hleft]
      rfl
  have hleft : left loader bytes o = t.holding := hleads.holding.symm
  rcases hend with ⟨fault, hload⟩ | ⟨st, -, rfl⟩
  · refine tracks_of_failed hs habsent (e := .load fault) ?_ ?_
    · rw [hload]
      rfl
    · rw [hload, hleft]
      rfl
  · have hload := Loader.load_of_stages st
    have hheld : st.spirit.store.held = st.started.held := by
      unfold Loader.Stages.spirit Loader.serve
      split <;> rfl
    unfold loadFates seat
    rw [hload, List.append_nil]
    refine ⟨hs.insert st.served rfl, fun l n hl => ?_⟩
    obtain ⟨hshows, hlength⟩ := hl.planted habsent loader bytes o
    rw [hleft] at hshows hlength
    change Ledger.Shows _ name (s.erase name).places st.started.held at hshows
    rw [← hheld] at hshows
    have hagrees := agrees_insert hs.ordered hshows
    exact ⟨hagrees.nodup, hagrees.places, hlength⟩

theorem tracks_summonBytes (hs : s.Kept) (name : String) (bytes : Bytes)
    (options : Option SummonOptions) :
    s.Tracks (s.bytesFates name bytes options) (s.summonBytes name bytes options) := by
  unfold bytesFates summonBytes
  cases habsent : s.contains name with
  | true => exact .plain hs _
  | false => exact tracks_seat hs habsent _ bytes _

theorem tracks_summon (hs : s.Kept) (world : World) (name : String) (source : Source)
    (options : Option SummonOptions) :
    s.Tracks (s.summonFates world name source options) (s.summon world name source options) := by
  unfold summonFates summon
  cases s.contains name with
  | true => exact .plain hs _
  | false =>
    cases source.read world with
    | error e => exact .plain hs _
    | ok bytes => exact tracks_summonBytes hs name bytes options

/-! ## Releasing -/

theorem tracks_release (hs : s.Kept) (name : String) :
    s.Tracks (s.releaseFates name) (s.release name) := by
  unfold releaseFates release contains
  cases hget : s.get? name with
  | none => exact .plain hs _
  | some spirit =>
    refine ⟨hs.erase name, fun l n hl => ?_⟩
    obtain ⟨hdropped, hlength⟩ := (hl.shows hs.ordered hget).drop
    have hagrees := agrees_erase hdropped
    refine ⟨hagrees.nodup, hagrees.places, hlength.trans ?_⟩
    have hplanted : spirit.reset.store.planted = spirit.store.held.length := by
      change spirit.store.replaced + spirit.store.held.length = _
      rw [hs.settled name spirit hget, Nat.zero_add]
    change l.destroyed.length + _ = n + spirit.reset.store.planted
    rw [hl.destroyed, hplanted]

theorem tracks_releaseAll : ∀ (names : List String) {s : Seance}, s.Kept →
    s.Tracks (releaseAllFates names s) (releaseAll names s)
  | [], _, hs => .plain hs _
  | name :: rest, _, hs =>
    have hfirst := tracks_release hs name
    hfirst.after (tracks_releaseAll rest hfirst.kept)

theorem tracks_undo (e : Error) (summoned : List String) (hs : s.Kept) :
    s.Tracks (undoFates e summoned s) (undo e summoned s) := by
  unfold undoFates undo
  split
  · exact .plain hs _
  · exact tracks_releaseAll summoned hs

theorem release_first {rest : List (String × Spirit)} (hentries : s.entries = (name, spirit) :: rest)
    (hnew : name ∉ keys rest) :
    s.release name = ⟨.ok (), { s with entries := rest }, [], spirit.reset.store.planted⟩ := by
  have hget : s.get? name = some spirit := by
    rw [get?, hentries, lookup_cons_if, if_pos rfl]
  have hrest : rest.filter (·.1 != name) = rest := by
    refine List.filter_eq_self.2 fun p hp => ?_
    have hne : p.1 ≠ name := fun heq => hnew (List.mem_map.2 ⟨p, hp, heq⟩)
    simpa using hne
  rw [release, hget]
  dsimp only
  rw [erase, hentries, List.filter_cons_of_neg (by simp), hrest]

/-- To dismiss a séance is to release its Spirits in order. -/
theorem dismiss_eq_releaseAll : ∀ {entries : List (String × Spirit)} {s : Seance},
    s.entries = entries → (keys entries).Nodup →
      s.dismiss = releaseAll (keys entries) s ∧
        s.dismissFates = releaseAllFates (keys entries) s
  | [], ⟨_, _, _⟩, rfl, _ => ⟨rfl, rfl⟩
  | (name, spirit) :: rest, s, hentries, hnodup => by
    obtain ⟨hnew, hnodup⟩ := List.nodup_cons.1 hnodup
    have hrelease := release_first hentries hnew
    have hthere : s.contains name = true := by
      rw [contains_eq_true_iff, names, hentries]
      exact List.mem_cons_self
    obtain ⟨hdismiss, hfates⟩ :=
      dismiss_eq_releaseAll (s := { s with entries := rest }) rfl hnodup
    refine ⟨?_, ?_⟩
    · change _ = (s.release name).after (releaseAll (keys rest) (s.release name).state)
      rw [hrelease, ← hdismiss, dismiss, dismiss, hentries]
      rfl
    · change _ = s.releaseFates name ++ releaseAllFates (keys rest) (s.release name).state
      rw [hrelease, ← hfates, releaseFates, if_pos hthere, dismissFates, names, hentries]
      rfl

theorem tracks_dismiss (hs : s.Kept) : s.Tracks s.dismissFates s.dismiss := by
  obtain ⟨hdismiss, hfates⟩ := dismiss_eq_releaseAll (s := s) rfl hs.ordered.nodup
  rw [hdismiss, hfates]
  exact tracks_releaseAll _ hs

/-! ## Acts -/

/-- An operation on a Spirit, in one of the forms that a séance offers. -/
theorem tracks_onSpirit {α : Type} (hs : s.Kept) (name : String) (operation : Operation)
    (call : Spirit → Reply Spirit α) (answer : α → Answer)
    (hcall : ∀ spirit : Spirit, spirit.perform operation = (call spirit).map answer) :
    s.Tracks (s.spiritFates name (·.instants operation)) (s.onSpirit name call) := by
  unfold spiritFates onSpirit
  cases hget : s.get? name with
  | none => exact .plain hs _
  | some spirit =>
    have hserved := hs.served name spirit hget
    have hsettled := hs.settled name spirit hget
    obtain ⟨hholding, hsettled'⟩ := Spirit.tells_perform hserved hsettled operation
    have hafter := hserved.perform operation
    rw [hcall spirit] at hholding hsettled' hafter
    refine ⟨hs.insert hafter hsettled', fun l n hl => ?_⟩
    obtain ⟨hshows, hlength⟩ := (hl.shows hs.ordered hget).plantAll
      (h := (spirit.store.held, 0)) (plantings (spirit.instants operation))
    rw [← hholding] at hshows hlength
    rw [hl.destroyed] at hlength
    have hagrees := agrees_insert hs.ordered hshows
    exact ⟨hagrees.nodup, hagrees.places, hlength⟩

/-- **Summoning in order.** -/
theorem tracks_summonAll (world : World) : ∀ (definitions : List Definition)
    (summoned : List String) {s : Seance}, s.Kept →
      s.Tracks (summonAllFates world definitions summoned s)
        (summonAll world definitions summoned s)
  | [], _, _, hs => .plain hs _
  | d :: rest, summoned, s, hs => by
    have hfirst := tracks_summon hs world d.name d.source (some d.summonOptions)
    unfold summonAllFates summonAll
    dsimp only
    cases (s.summon world d.name d.source (some d.summonOptions)).result with
    | ok => exact hfirst.after (tracks_summonAll world rest _ hfirst.kept)
    | error e =>
      have hundone := hfirst.after (tracks_undo e summoned hfirst.kept)
      simpa using hundone.after (.plain hundone.kept (.error e))

theorem tracks_summonManifest (hs : s.Kept) (world : World) (paths : List String) :
    s.Tracks (s.manifestFates world paths) (s.summonManifest world paths) := by
  unfold manifestFates summonManifest
  cases Manifest.load world.files paths with
  | error e => exact .plain hs _
  | ok definitions =>
    dsimp only
    cases definitions.find? (s.contains ·.name) with
    | some d => exact .plain hs _
    | none => exact tracks_summonAll world definitions [] hs

/-- **Acts.** Entering what becomes of values by an act keeps a ledger in agreement. -/
theorem tracks_act (hs : s.Kept) (a : Act) : s.Tracks (s.fates a) (s.act a) := by
  cases a with
  | summonManifest world paths => exact (tracks_summonManifest hs world paths).map _
  | step world step =>
    cases step with
    | summonBytes name bytes options =>
      exact ((tracks_summonBytes hs name bytes options).map _).map _
    | summon name source options =>
      exact ((tracks_summon hs world name source options).map _).map _
    | invoke name function args =>
      exact ((tracks_onSpirit hs name (.call function args) _ .values fun _ => rfl).map _).map _
    | invokeJson name function args =>
      exact ((tracks_onSpirit hs name (.callJson function args) _ .json fun _ => rfl).map _).map _
    | use name operation =>
      exact (tracks_onSpirit hs name operation _ id fun _ => (Reply.map_id _).symm).map _
    | release name => exact ((tracks_release hs name).map _).map _
    | dismiss => exact ((tracks_dismiss hs).map _).map _
    | changeRegistry change =>
      exact ⟨⟨hs.ordered, hs.served, hs.settled⟩,
        fun l n hl => ⟨hl.nodup, hl.places, hl.destroyed⟩⟩

end SpiritHost.Seance
