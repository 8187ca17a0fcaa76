import SpiritHost.Memory.Heap
import SpiritHost.Proofs.Except
import SpiritHost.Proofs.Memory.Reservation

/-!
# Moves of a heap

Whatever happens to a heap is one of three events: a region is issued, every region is taken back,
or bytes change and pages are added. `Heap.Moves` says what each event may do to the memory and to
the allocator; every operation on a heap is such a move, and one that fails is none at all.
-/

namespace SpiritHost

/-- A region handed out by an allocation, with the alignment it was asked for. -/
structure Region where
  address : UInt32
  size : UInt32
  align : UInt32
deriving DecidableEq, Repr

/-- Where a region ends. -/
def Region.finish (r : Region) : Nat := r.address.toNat + r.size.toNat

/-- The byte at an address lies in a region. -/
def Region.Contains (r : Region) (address : Nat) : Prop :=
  r.address.toNat ≤ address ∧ address < r.finish

/-- What can happen to a heap. -/
inductive Event where
  | issued (region : Region)
  | reset
  /-- Bytes change or pages are added. -/
  | other
deriving DecidableEq, Repr

/-- The region that an event issues. -/
def Event.region? : Event → Option Region
  | issued r => some r
  | _ => none

/-! ## Memories -/

namespace LinearMemory

/-- A memory later in its life: the limit stays and no page is lost. -/
structure Extends (m n : LinearMemory) : Prop where
  limit : n.limit = m.limit
  pages : m.pages ≤ n.pages

variable {m n k : LinearMemory}

theorem Extends.refl (m : LinearMemory) : m.Extends m := ⟨rfl, Nat.le_refl _⟩

theorem Extends.trans (hmn : m.Extends n) (hnk : n.Extends k) : m.Extends k :=
  ⟨hnk.limit.trans hmn.limit, Nat.le_trans hmn.pages hnk.pages⟩

theorem Extends.size_le (hmn : m.Extends n) : m.size ≤ n.size := Nat.mul_le_mul_right _ hmn.pages

theorem extends_of_write? {address : Nat} {bytes : Bytes} (h : m.write? address bytes = some n) :
    m.Extends n := by
  unfold write? at h
  split at h
  · cases h; exact ⟨rfl, Nat.le_refl _⟩
  · cases h

theorem grow?_eq_some {more : Nat} (h : m.grow? more = some n) :
    n.limit = m.limit ∧ n.pages = m.pages + more := by
  unfold grow? at h
  split at h
  · cases h; exact ⟨rfl, rfl⟩
  · cases h

theorem extends_of_grow? {more : Nat} (h : m.grow? more = some n) : m.Extends n := by
  obtain ⟨hlimit, hpages⟩ := grow?_eq_some h
  exact ⟨hlimit, by omega⟩

theorem size_le_limit (m : LinearMemory) : m.size ≤ m.limit * Wasm.pageSize :=
  Nat.mul_le_mul_right _ m.pages_le_limit

end LinearMemory

/-! ## Allocators -/

/-- What an event does to an allocator. A region starts at the next aligned place, and the cursor
goes to its end. -/
inductive Allocator.Moves : Allocator → Event → Allocator → Prop where
  | issued {a b : Allocator} {r : Region} (place : r.address.toNat = a.place r.align)
      (finish : b.cursor.toNat = r.finish) (base : b.base = a.base)
      (generation : b.generation = a.generation) : Moves a (.issued r) b
  | reset (a : Allocator) : Moves a .reset a.reset
  | other (a : Allocator) : Moves a .other a

theorem Allocator.Moves.eq_of_other {a b : Allocator} (h : a.Moves .other b) : b = a := by
  cases h; rfl

namespace Heap

/-- What an event does to a heap. A region issued lies inside the memory that is there then. -/
structure Moves (h : Heap) (event : Event) (k : Heap) : Prop where
  allocator : h.allocator.Moves event k.allocator
  memory : h.memory.Extends k.memory
  inside : ∀ r ∈ event.region?, r.finish ≤ k.memory.size

variable {h k : Heap}

theorem Moves.refl (h : Heap) : h.Moves .other h := ⟨.other _, .refl _, by simp [Event.region?]⟩

theorem moves_reset (h : Heap) : h.Moves .reset h.reset :=
  ⟨.reset _, .refl _, by simp [Event.region?]⟩

theorem moves_of_memory (hmemory : h.memory.Extends k.memory)
    (hallocator : k.allocator = h.allocator) : h.Moves .other k :=
  ⟨hallocator ▸ .other _, hmemory, by simp [Event.region?]⟩

/-! ## Allocation -/

theorem le_size_of_grow_missing {m n : LinearMemory} {needed : Nat} (hlt : m.size < needed)
    (hgrow : m.grow? (missingPages m.size needed) = some n) : needed ≤ n.size := by
  have hpages := (LinearMemory.grow?_eq_some hgrow).2
  simp only [LinearMemory.size, hpages, missingPages, Wasm.pageSize] at hlt ⊢
  omega

/-- **Allocation.** A successful allocation issues exactly the region it returns, inside the memory
it leaves. -/
theorem moves_of_allocAligned {size align address : UInt32}
    (hok : h.allocAligned size align = .ok (address, k)) :
    h.Moves (.issued ⟨address, size, align⟩) k := by
  obtain ⟨⟨start, finish⟩, hreserve, hgranted⟩ := Except.bind_eq_ok_iff.1 hok
  rw [Allocator.reserve_eq] at hreserve
  split at hreserve
  · cases hreserve
  rename_i hspace
  have hlt : h.allocator.place align + size.toNat < addressSpace := Nat.lt_of_not_le hspace
  have haddress : (UInt32.ofNat (h.allocator.place align)).toNat = h.allocator.place align :=
    UInt32.toNat_ofNat_of_lt' (Nat.lt_of_le_of_lt (Nat.le_add_right _ _) hlt)
  have hfinish : (UInt64.ofNat (h.allocator.place align + size.toNat)).toNat =
      h.allocator.place align + size.toNat :=
    UInt64.toNat_ofNat_of_lt' (Nat.lt_of_lt_of_le hlt (by decide))
  have hcursor := h.allocator.cursor_commit
    (Nat.le_trans (h.allocator.cursor_le_place align) (Nat.le_add_right _ size.toNat)) hlt
  simp only [Except.ok.injEq, Prod.mk.injEq] at hreserve
  obtain ⟨rfl, rfl⟩ := hreserve
  dsimp only at hgranted
  rw [hfinish] at hgranted
  have hmemory : ∃ memory : LinearMemory, h.memory.Extends memory ∧
      h.allocator.place align + size.toNat ≤ memory.size ∧
      (UInt32.ofNat (h.allocator.place align), (⟨memory, h.allocator.commit
        (UInt64.ofNat (h.allocator.place align + size.toNat))⟩ : Heap)) = (address, k) := by
    split at hgranted
    · rename_i hsize
      split at hgranted
      · rename_i grown hgrow
        exact ⟨grown, LinearMemory.extends_of_grow? hgrow, le_size_of_grow_missing hsize hgrow,
          Except.ok.inj hgranted⟩
      · cases hgranted
    · rename_i hsize
      exact ⟨h.memory, .refl _, Nat.le_of_not_lt hsize, Except.ok.inj hgranted⟩
  obtain ⟨memory, hextends, hinside, hreply⟩ := hmemory
  cases hreply
  refine ⟨.issued haddress ?_ (by simp) (by simp), hextends, ?_⟩
  · rw [hcursor, Region.finish, haddress]
  · simpa [Event.region?, Region.finish, haddress] using hinside

/-! ## Writing -/

theorem moves_of_writeBytes {address : UInt32} {bytes : Bytes}
    (hok : h.writeBytes address bytes = .ok k) : h.Moves .other k := by
  unfold writeBytes at hok
  split at hok
  · rename_i written hwrite
    cases hok
    exact moves_of_memory (LinearMemory.extends_of_write? hwrite) rfl
  · cases hok

/-- A move and then a change of bytes is one move. -/
theorem Moves.then_write {event : Event} {l : Heap} (hmove : h.Moves event k)
    (hwrite : k.Moves .other l) : h.Moves event l := by
  obtain ⟨halloc, hmemory, -⟩ := hwrite
  have hsame : l.allocator = k.allocator := halloc.eq_of_other
  exact ⟨hsame ▸ hmove.allocator, hmove.memory.trans hmemory, fun r hr =>
    Nat.le_trans (hmove.inside r hr) hmemory.size_le⟩

theorem moves_of_writeAll : ∀ {parts : List (UInt32 × Bytes)} {h : Heap},
    writeAll parts h = .ok k → h.Moves .other k
  | [], h, hok => by cases hok; exact .refl _
  | (address, bytes) :: rest, h, hok => by
    obtain ⟨l, hwrite, hrest⟩ := Except.bind_eq_ok_iff.1 hok
    exact (moves_of_writeBytes hwrite).then_write (moves_of_writeAll hrest)

theorem moves_of_writeRecord {g : GeneLayout} {address : UInt32} {r : Record}
    (hok : h.writeRecord g address r = .ok k) : h.Moves .other k := by
  obtain ⟨encoded, -, hwrite⟩ := Except.bind_eq_ok_iff.1 hok
  split at hwrite
  · cases hwrite
  · exact moves_of_writeAll hwrite

/-- Bytes that a string takes with the length in front of it. -/
def stringSize (text : String) : UInt32 := UInt32.ofNat (Utf8.size text + lengthSize)

/-- The bytes of a string with its length in front. -/
def stored (text : String) : Bytes :=
  Bytes.ofNatLE lengthSize (Utf8.size text) ++ Utf8.encode text

/-- Encoding a string allocates room for it and writes it there. -/
theorem encodeString_eq_ok {text : String} {address : UInt32}
    (hok : h.encodeString text = .ok (address, k)) :
    Utf8.size text + lengthSize < UInt32.size ∧
      ∃ l, h.allocAligned (stringSize text) 4 = .ok (address, l) ∧
        l.writeBytes address (stored text) = .ok k := by
  unfold encodeString at hok
  dsimp only at hok
  split at hok
  · cases hok
  split at hok
  · cases hok
  rename_i hfits
  obtain ⟨⟨start, l⟩, halloc, hwritten⟩ := Except.bind_eq_ok_iff.1 hok
  obtain ⟨m, hwrite, hreply⟩ := Except.bind_eq_ok_iff.1 hwritten
  cases hreply
  exact ⟨Nat.lt_of_not_le hfits, l, halloc, hwrite⟩

/-- Encoding a string issues one region, in which the string is then written. -/
theorem moves_of_encodeString {text : String} {address : UInt32}
    (hok : h.encodeString text = .ok (address, k)) :
    h.Moves (.issued ⟨address, stringSize text, 4⟩) k := by
  obtain ⟨-, l, halloc, hwrite⟩ := encodeString_eq_ok hok
  exact (moves_of_allocAligned halloc).then_write (moves_of_writeBytes hwrite)

end Heap

end SpiritHost
