import SpiritHost.Proofs.Loa.Deeds
import SpiritHost.Proofs.Wasm.History

/-!
# The deeds of running code

Code writes to memories by stores, whose deed is to put bytes in their place; every other
deed in it is one of a host function that it calls. `Machine.run_passes`: a run is the trace of its
steps, however it ends.
-/

namespace SpiritHost

namespace Store

variable {s : Store} {address place : Nat} {bytes : Bytes} {m : LinearMemory}

/-- Bytes can only be written to a memory that is there. -/
theorem attachedAt_of_write? (hbytes : bytes ≠ [])
    (h : (s.memory address).write? place bytes = some m) : s.AttachedAt address := by
  by_contra hnot
  have habsent : s.memory address = .absent := by
    simp [memory, List.getD_eq_getElem?_getD, List.getElem?_eq_none (Nat.le_of_not_lt hnot)]
  have hfits := (LinearMemory.write?_eq_some h).1
  rw [habsent] at hfits
  have hlength : 0 < bytes.length := List.length_pos_iff.2 hbytes
  have hnone : LinearMemory.absent.size = 0 := rfl
  omega

theorem does_write (hbytes : bytes ≠ [])
    (h : (s.memory address).write? place bytes = some m) :
    s.Does (.write address place bytes) (s.setMemory address m) := by
  have hs := attachedAt_of_write? hbytes h
  obtain ⟨hfits, hsize, -⟩ := LinearMemory.write?_eq_some h
  have hthere : (s.setMemory address m).memory address = m :=
    congrArg Heap.memory (heapAt_setHeapAt hs { s.heapAt address with memory := m })
  refine does_setHeapAt (h := { s.heapAt address with memory := m }) hs nofun ⟨?_, ?_⟩ ?_ ⟨rfl, rfl⟩
  · exact Nat.le_of_eq hsize.symm
  · exact fun a ha => LinearMemory.byte_of_write? h fun hin => ha ⟨rfl, hin⟩
  · show place + bytes.length ≤ ((s.setMemory address m).memory address).size ∧
      ((s.setMemory address m).memory address).slice place bytes.length = bytes
    rw [hthere, hsize]
    exact ⟨hfits, LinearMemory.slice_of_write? h⟩

theorem does_grow {more : Nat} (h : (s.memory address).grow? more = some m) :
    s.Does .other (s.setMemory address m) := by
  by_cases hs : s.AttachedAt address
  · exact does_setHeapAt (h := { s.heapAt address with memory := m }) hs nofun
      (Heap.keeps_of_grow? h) trivial ⟨rfl, rfl⟩
  · have hsame : s.setMemory address m = s := by
      unfold setMemory
      rw [List.set_eq_of_length_le (Nat.le_of_not_lt hs)]
    rw [hsame]
    exact (Alike.refl s).does

end Store

namespace Wasm.Machine

variable (m : Machine) (inst : Instance) (budget : Budget)

/-- The bytes that the next step stores, with the memory operand that it stores them at. -/
def storing? : Option (MemArg × UInt32 × Bytes) :=
  match m.code, m.operands with
  | .store op arg :: _, value :: .i32 base :: _ => (op.bytes? value).map (arg, base, ·)
  | _, _ => none

/-- The deed of storing bytes at a memory operand. -/
def storeDeed (arg : MemArg) (base : UInt32) (bytes : Bytes) : Deed :=
  match reach? inst arg base with
  | none => .other
  | some (memory, address) =>
    match (m.store.memory memory).write? address bytes with
    | none => .other
    | some _ => .write memory address bytes

/-- The deed of the next step, unless it calls a host function. -/
def deed : Deed :=
  match m.storing? with
  | some (arg, base, bytes) => m.storeDeed inst arg base bytes
  | none => .other

/-- The trace of one step. -/
def stepInstants : List Instant :=
  match m.hostCall? inst with
  | some call => call.instants m.store
  | none => [⟨m.deed inst, (m.step inst budget).store⟩]

/-- The trace of at most so many steps. -/
def runInstants : Nat → Machine → List Instant
  | 0, _ => []
  | steps + 1, m =>
    m.stepInstants inst budget ++
      match m.step inst budget with
      | .running next => runInstants steps next
      | _ => []

/-! ## Steps -/

/-- A step that stores bytes does that and nothing else. -/
theorem step_of_storing? {arg : MemArg} {base : UInt32} {bytes : Bytes}
    (h : m.storing? = some (arg, base, bytes)) : bytes ≠ [] ∧
      ∃ rest operands, m.step inst budget = m.storeBytes inst arg base bytes rest operands := by
  unfold storing? at h
  split at h
  · rename_i rest value base' operands hcode hoperands
    obtain ⟨stored, hstored, hpair⟩ := Option.map_eq_some_iff.1 h
    cases hpair
    exact ⟨StoreOp.ne_nil_of_bytes? hstored, rest, operands,
      by simp [step, hcode, hoperands, instr, hstored]⟩
  · cases h

theorem does_storeBytes {arg : MemArg} {base : UInt32} {bytes : Bytes} (hbytes : bytes ≠ [])
    (rest : List Instr) (operands : List Value) :
    m.store.Does (m.storeDeed inst arg base bytes)
      (m.storeBytes inst arg base bytes rest operands).store := by
  unfold storeDeed storeBytes
  cases reach? inst arg base with
  | none => exact (Store.Alike.refl m.store).does
  | some place =>
    obtain ⟨memory, address⟩ := place
    dsimp only
    cases hwrite : (m.store.memory memory).write? address bytes with
    | none => exact (Store.Alike.refl m.store).does
    | some written => exact Store.does_write hbytes hwrite

/-- A step that neither calls a function nor stores bytes changes no byte. -/
theorem does_instr {rest : List Instr} {i : Instr} (hcode : m.code = i :: rest)
    (hcallee : m.callee? inst = none) (hstoring : m.storing? = none) :
    m.store.Does .other (m.instr inst budget rest i m.operands).store := by
  generalize hoperands : m.operands = operands
  have hsame := (Store.Alike.refl m.store).does
  fun_cases m.instr inst budget rest i operands
  -- What an instruction does to the stack does not matter here.
  all_goals first
    | exact hsame
    | rw [store_branch]; exact hsame
    | rw [store_unwind]; exact hsame
    | rw [store_result]; exact hsame
    | skip
  · rename_i hfound
    simp [callee?, hcode, hfound] at hcallee
  · rename_i htable hsize f hplace found hfound htype
    simp [callee?, hcode, hoperands, htable, htype, hsize, hplace, hfound] at hcallee
  · exact Store.Alike.does ⟨⟨rfl, rfl, rfl⟩, rfl, rfl⟩
  · rename_i hbytes
    simp [storing?, hcode, hoperands, hbytes] at hstoring
  · rename_i hgrow
    exact Store.does_grow hgrow

/-- **One step** that calls no host function is one deed. -/
theorem does_step (h : m.hostCall? inst = none) :
    m.store.Does (m.deed inst) (m.step inst budget).store := by
  unfold deed
  cases hstoring : m.storing? with
  | some stored =>
    obtain ⟨arg, base, bytes⟩ := stored
    obtain ⟨hbytes, rest, operands, hstep⟩ := m.step_of_storing? inst budget hstoring
    rw [hstep]
    exact m.does_storeBytes inst hbytes rest operands
  | none =>
    dsimp only
    cases hcallee : m.callee? inst with
    | none =>
      unfold step
      split
      · rw [store_leave]
        exact (Store.Alike.refl m.store).does
      · rename_i hcode
        exact m.does_instr inst budget hcode hcallee hstoring
    | some called =>
      obtain ⟨callee, operands⟩ := called
      rw [m.step_of_callee inst budget hcallee, store_invoke]
      cases callee with
      | host function => simp [hostCall?, hcallee] at h
      | code type code size => exact (Store.Alike.refl m.store).does

/-- The trace of a step leads from the store before it to the store after. -/
theorem step_passes (hs : m.store.Attached) :
    m.store.Passes (m.stepInstants inst budget) (m.step inst budget).store := by
  unfold stepInstants
  rcases m.store_step inst budget with ⟨call, hcall, hstore⟩ | ⟨hcall, -⟩
  · rw [hcall, hstore]
    exact call.passes hs
  · rw [hcall]
    exact .single (m.does_step inst budget hcall)

/-- **Runs.** The trace of a run leads from the store before it to the store in the end, whether the
code finishes, is halted or runs out of steps. -/
theorem run_passes : ∀ (steps : Nat) {m : Machine}, m.store.Attached →
    m.store.Passes (runInstants inst budget steps m) (run inst budget steps m).store
  | 0, m, _ => .refl m.store
  | steps + 1, m, hs => by
    have hstep := m.step_passes inst budget hs
    rw [runInstants, run]
    cases hnext : m.step inst budget with
    | running next =>
      rw [hnext] at hstep
      exact hstep.trans (run_passes steps (hstep.attached hs))
    | finished results store =>
      rw [hnext] at hstep
      exact hstep.trans (.refl store)
    | halted halt store =>
      rw [hnext] at hstep
      exact hstep.trans (.refl store)

end Wasm.Machine

end SpiritHost
