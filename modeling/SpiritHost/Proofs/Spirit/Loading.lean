import SpiritHost.Proofs.Spirit.Plantings

/-!
# The deeds of a load

A load is a trace too: of the Loas that are asked, the filling of the memories, and the start
function, as far as it gets. All of it is done to the memory that the host made, and what was planted
is destroyed with the store if the load fails (`Loader.load_cases`).
-/

namespace SpiritHost

open Wasm (Instance Machine Module)

namespace Store

variable {s t u : Store} {xs ys : List Instant}

/-- A trace leads from a store to another, which may have more memories. All the way the memory of
record is the same, and it is there. -/
structure Leads (s : Store) (xs : List Instant) (t : Store) : Prop where
  record? : t.record? = s.record?
  attached : t.Attached
  places : ∀ x ∈ xs, x.store.record? = s.record? ∧ x.store.Attached ∧ x.deed ≠ .unattached
  holding : t.holding = (plantings xs).foldl Holding.plant s.holding

theorem Leads.trans (hst : s.Leads xs t) (htu : t.Leads ys u) : s.Leads (xs ++ ys) u := by
  refine ⟨htu.record?.trans hst.record?, htu.attached, fun x hx => ?_, ?_⟩
  · rcases List.mem_append.1 hx with hx | hx
    · exact hst.places x hx
    · obtain ⟨hrecord, hserved⟩ := htu.places x hx
      exact ⟨hrecord.trans hst.record?, hserved⟩
  · rw [plantings_append, List.foldl_append, ← hst.holding]
    exact htu.holding

theorem Passes.leads (h : s.Passes xs t) (hs : s.Attached)
    (hxs : ∀ x ∈ xs, x.deed.settles = false) : s.Leads xs t := by
  refine ⟨h.same.1, h.attached hs, fun x hx => ?_, h.holding hxs⟩
  exact ⟨(h.follows.same x hx).1, h.follows.served hs x hx⟩

/-- One deed that plants nothing. -/
theorem Leads.other (hrecord : t.record? = s.record?) (hattached : t.Attached)
    (hholding : t.holding = s.holding) : s.Leads [⟨.other, t⟩] t := by
  refine ⟨hrecord, hattached, fun x hx => ?_, hholding⟩
  rw [List.mem_singleton.1 hx]
  exact ⟨hrecord, hattached, by intro h; cases h⟩

end Store

/-! ## Asking Loas -/

namespace Linking

/-- The trace of asking Loas, up to the first that fails. -/
def instants : List Loa → Linking → List Instant
  | [], _ => []
  | loa :: rest, l =>
    loa.provides.instants l.store ++ ⟨.other, (l.merge loa).2.store⟩ ::
      match l.merge loa with
      | (.ok (), merged) => instants rest merged
      | (.error _, _) => []

theorem alike_add (l : Linking) (loa name : String) (f : HostFunction) :
    l.store.Alike (l.add loa name f).store := by
  unfold add
  split <;> exact ⟨⟨rfl, rfl, rfl⟩, rfl, rfl⟩

theorem alike_addAll (loa : String) : ∀ (provided : List (String × HostFunction)) (l : Linking),
    l.store.Alike (provided.foldl (fun l (name, f) => l.add loa name f) l).store
  | [], l => .refl l.store
  | (name, f) :: rest, l =>
    (l.alike_add loa name f).trans (alike_addAll loa rest (l.add loa name f))

/-- Asking a Loa is its host call, and then its functions are added. -/
theorem alike_merge (l : Linking) (loa : Loa) :
    (loa.provides.run l.store).2.Alike (l.merge loa).2.store := by
  unfold merge
  split
  · rename_i provided store hrun
    rw [hrun]
    exact alike_addAll loa.name provided { l with store }
  · rename_i hrun
    rw [hrun]
    exact .refl _

theorem mergeAll_leads : ∀ (loas : List Loa) {l : Linking}, l.store.Attached →
    l.store.Leads (instants loas l) (mergeAll loas l).2.store
  | [], l, hs => ⟨rfl, hs, fun _ hx => absurd hx List.not_mem_nil, rfl⟩
  | loa :: rest, l, hs => by
    have hasked := (loa.provides.passes hs).leads hs (HostCall.settles_instants _)
    have halike := l.alike_merge loa
    have hadded := hasked.trans (.other halike.heap.record?
      (halike.does.attached hasked.attached) (Prod.ext halike.held halike.replaced))
    rw [instants, mergeAll, List.append_cons]
    cases hmerge : l.merge loa with
    | mk result merged =>
      rw [hmerge] at hadded
      cases result with
      | ok => exact hadded.trans (mergeAll_leads rest hadded.attached)
      | error => simpa using hadded

end Linking

/-! ## Loading -/

namespace Loader

/-- The trace of the start function of a module. -/
def startInstants (budget : Wasm.Budget) (inst : Instance) (store : Store) : List Instant :=
  match inst.source.start with
  | none => []
  | some f => Machine.runInstants inst budget budget.steps (.start f [] store)

/-- The trace of a load, as far as it gets. -/
def instants (l : Loader) (bytes : Bytes) (o : LoadOptions) : List Instant :=
  match compile bytes, memory o.memory with
  | .ok m, .ok memory =>
    Linking.instants (l.loas o) ⟨l.freshStore o memory, []⟩ ++
      match Linking.mergeAll (l.loas o) ⟨l.freshStore o memory, []⟩ with
      | (.error _, _) => []
      | (.ok (), linking) => match link l.budget m linking with
        | .error _ => []
        | .ok (inst, filled) => ⟨.other, filled⟩ :: startInstants l.budget inst filled
  | _, _ => []

theorem start_leads (budget : Wasm.Budget) (inst : Instance) {store : Store}
    (hs : store.Attached) :
    store.Leads (startInstants budget inst store) (start budget inst store).2 := by
  unfold startInstants start
  cases inst.source.start with
  | none => exact (Store.Passes.refl store).leads hs fun _ hx => absurd hx List.not_mem_nil
  | some f =>
    have hrun := (Machine.run_passes inst budget budget.steps (m := .start f [] store) hs).leads hs
      (Machine.settles_runInstants _ _ _ _)
    unfold Instance.run
    dsimp only
    split <;> rename_i hend <;> rw [hend] at hrun <;> exact hrun

theorem link_leads {budget : Wasm.Budget} {m : Module} {linking : Linking} {inst : Instance}
    {filled : Store} (hs : linking.store.Attached) (h : link budget m linking = .ok (inst, filled)) :
    linking.store.Leads [⟨.other, filled⟩] filled := by
  obtain ⟨-, bindings, -, -, hfilled⟩ := link_eq_ok h
  exact .other hfilled.record? (attached_of_link hs h) (Prod.ext hfilled.held hfilled.replaced)

/-- **Loads.** A load ends before it asks a Loa, or it leads from a fresh store to another, and
then it fails and drops that, or it succeeds and the Spirit is served from it. -/
theorem load_cases (l : Loader) (bytes : Bytes) (o : LoadOptions) :
    (∃ e, l.load bytes o = .plain (.error e) () ∧ l.instants bytes o = []) ∨
      ∃ memory t, (l.freshStore o memory).Leads (l.instants bytes o) t ∧
        ((∃ fault, l.load bytes o = abandon fault t) ∨
          ∃ st : Stages l bytes o, st.memory = memory ∧ st.started = t) := by
  unfold load instants
  cases hcompile : compile bytes with
  | error fault => exact .inl ⟨.load fault, rfl, rfl⟩
  | ok m =>
    dsimp only
    cases hmemory : memory o.memory with
    | error e => exact .inl ⟨e, rfl, rfl⟩
    | ok memory =>
      have hfresh := l.attached_freshStore o memory
      have hasked := Linking.mergeAll_leads (l.loas o) (l := ⟨l.freshStore o memory, []⟩) hfresh
      refine .inr ⟨memory, ?_⟩
      dsimp only
      cases hmerge : Linking.mergeAll (l.loas o) ⟨l.freshStore o memory, []⟩ with
      | mk result linking =>
        rw [hmerge] at hasked
        cases result with
        | error fault =>
          exact ⟨linking.store, by simpa using hasked, .inl ⟨fault, rfl⟩⟩
        | ok =>
          dsimp only
          cases hlink : link l.budget m linking with
          | error fault => exact ⟨linking.store, by simpa using hasked, .inl ⟨fault, rfl⟩⟩
          | ok linked =>
            obtain ⟨inst, filled⟩ := linked
            have hlinked := hasked.trans (link_leads hasked.attached hlink)
            have hstarted := hlinked.trans (start_leads l.budget inst hlinked.attached)
            dsimp only
            rw [List.append_cons]
            cases hstart : start l.budget inst filled with
            | mk result started =>
              rw [hstart] at hstarted
              refine ⟨started, hstarted, ?_⟩
              cases result with
              | error fault => exact .inl ⟨fault, rfl⟩
              | ok =>
                exact .inr ⟨⟨m, memory, linking, inst, filled, started, hcompile, hmemory, hmerge,
                  hlink, hstart⟩, rfl, rfl⟩

end Loader

end SpiritHost
