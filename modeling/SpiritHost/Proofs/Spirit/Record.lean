import SpiritHost.Proofs.Spirit.Capabilities

/-!
# The memory that serves

Which memory a Spirit is served from is settled by its module alone: the memory that it exports under
the memory's name, whether it made it or imported it, and otherwise the host's, also if the name is
that of something else.
-/

namespace SpiritHost

open Wasm (Export Module)

/-- Where a module's memories are in the store of its Spirit. The host's memory is the first there,
and those that the module makes come after it. -/
def memoryAddresses (m : Module) : List Nat :=
  (m.imports.filter isMemoryImport).map (fun _ => Loader.hostMemory) ++
    List.range' 1 m.memories.length

/-- The memory at an address serves the Spirits of a module. -/
inductive Serves (m : Module) : Nat → Prop where
  | exported {name : String} {i address : Nat}
      (exported : m.export? Link.memoryName = some ⟨name, .memory i⟩)
      (here : (memoryAddresses m)[i]? = some address) : Serves m address
  | host (other : ∀ name i, m.export? Link.memoryName ≠ some ⟨name, .memory i⟩) :
      Serves m Loader.hostMemory

theorem Serves.unique {m : Module} {a b : Nat} (ha : Serves m a) (hb : Serves m b) : a = b := by
  cases ha with
  | host other =>
    cases hb with
    | host => rfl
    | exported exported => exact absurd exported (other _ _)
  | exported exported here =>
    cases hb with
    | host other => exact absurd exported (other _ _)
    | exported exported' here' =>
      rw [exported] at exported'
      cases exported'
      exact Option.some.inj (here.symm.trans here')

/-! ## Exports -/

theorem Wasm.ensure_eq_ok {holds : Bool} {fault : Wasm.TypingFault} :
    Wasm.Module.ensure holds fault = .ok () ↔ holds = true := by
  cases holds <;> simp [Wasm.Module.ensure]

/-- Every export of a well-typed module leads somewhere. -/
theorem Wasm.Module.exports_of_check {m : Module} (h : m.check = .ok ()) :
    ∀ e ∈ m.exports, (m.exportType? e.kind).isSome = true := by
  unfold check at h
  obtain ⟨_, -, h⟩ := Except.bind_eq_ok_iff.1 h
  obtain ⟨_, -, h⟩ := Except.bind_eq_ok_iff.1 h
  obtain ⟨_, -, h⟩ := Except.bind_eq_ok_iff.1 h
  obtain ⟨_, -, h⟩ := Except.bind_eq_ok_iff.1 h
  obtain ⟨_, -, h⟩ := Except.bind_eq_ok_iff.1 h
  obtain ⟨_, hexports, -⟩ := Except.bind_eq_ok_iff.1 h
  simpa using Wasm.ensure_eq_ok.1 hexports

theorem Loader.check_of_compile {bytes : Bytes} {m : Module} (h : compile bytes = .ok m) :
    m.check = .ok () := by
  unfold compile at h
  split at h
  · cases h
  · split at h
    · cases h
    · rename_i hcheck
      cases h
      exact hcheck

theorem length_memoryAddresses (m : Module) :
    (memoryAddresses m).length = m.memoryTypes.length := by
  have himported : m.importedMemories.length = (m.imports.filter isMemoryImport).length := by
    unfold Module.importedMemories
    induction m.imports with
    | nil => rfl
    | cons i rest ih =>
      cases hkind : i.kind <;> simp [isMemoryImport, hkind, ih]
  simp [memoryAddresses, Module.memoryTypes, himported]

/-- A memory that a well-typed module exports is one of its memories. -/
theorem exists_address_of_check {m : Module} (h : m.check = .ok ()) {name : String} {i : Nat}
    (hexport : m.export? Link.memoryName = some ⟨name, .memory i⟩) :
    ∃ address, (memoryAddresses m)[i]? = some address := by
  have htype := Wasm.Module.exports_of_check h _ (List.mem_of_find?_eq_some hexport)
  rw [Wasm.Module.exportType?, Option.isSome_map, Option.isSome_iff_exists] at htype
  obtain ⟨limits, hlimits⟩ := htype
  obtain ⟨hlt, -⟩ := List.getElem?_eq_some_iff.1 hlimits
  rw [← length_memoryAddresses] at hlt
  exact ⟨_, List.getElem?_eq_getElem hlt⟩

/-! ## Loading -/

namespace Loader

variable {l : Loader} {bytes : Bytes} {o : LoadOptions}

theorem Stages.addresses_inst (st : Stages l bytes o) :
    st.inst.memories = memoryAddresses st.source := st.memories_inst

theorem Stages.source_inst (st : Stages l bytes o) : st.inst.source = st.source := by
  rw [← st.source_spirit, Spirit.source, st.linked_spirit]

/-- **Serving.** A Spirit is served from the memory that its module calls for. -/
theorem Stages.serves (st : Stages l bytes o) : Serves st.source st.spirit.manager := by
  have hcheck := check_of_compile st.compiled
  unfold spirit serve
  cases haddress : exportedMemory? st.inst with
  | some address =>
    rw [exportedMemory?, st.source_inst, st.addresses_inst] at haddress
    split at haddress
    · rename_i name i hexport
      exact .exported hexport haddress
    · cases haddress
  | none =>
    rw [exportedMemory?, st.source_inst, st.addresses_inst] at haddress
    refine .host fun name i hexport => ?_
    obtain ⟨address, hhere⟩ := exists_address_of_check hcheck hexport
    rw [hexport] at haddress
    dsimp only at haddress
    rw [hhere] at haddress
    cases haddress

end Loader

end SpiritHost
