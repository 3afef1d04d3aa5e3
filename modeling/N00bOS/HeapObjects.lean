import N00bOS.HeapRuns
import N00bOS.Objects

/-!
# The heap is a store of objects

The runs of `N00bOS.HeapRuns` are sequences of `kmalloc` and `kfree`. Here the
clients also use what they have: they store bytes in the allocations that are
live, anywhere inside the size they asked for. The bytes of the allocations, of
the free blocks and of the block table all lie in one memory, and a store goes
wherever its address says. What the clients see is a store of objects all the
same (`N00bOS.Objects`): a byte that is read is the one that was stored last in
that allocation, or zero.

The proof is a refinement. `HeapClients.Inv` relates the memory to the store:
the live allocations are the objects, the heap invariant holds of their
extents, and the memory represents the store. Each of the three steps –
`kmalloc`, `kfree`, a store – keeps it, by the specification of the step and by
the fact that different allocations own different bytes; `HeapClients.inv` is
the induction over a run.

The model of the kernel rests on this: it keeps what the allocations hold
beside the heap, one store for each structure.
-/

namespace N00bOS

/-- **A run of the heap and its clients**: the memory, and the objects that the
clients have. Every request finds a run of blocks; a byte is stored only in a
live allocation, below the size it was asked with; and only live allocations
are freed. -/
inductive HeapClients (h : Heap) (m₀ : Memory) :
    Memory → Objects Word Byte → Prop where
  | init : HeapClients h m₀ m₀ Objects.empty
  | kmalloc {m m' : Memory} {σ : Objects Word Byte} {size ptr : Word} :
      HeapClients h m₀ m σ → size.toNat + 4096 < 2 ^ 32 →
      0 ≤ h.findFirstFitStartBlock m (alignToUpper size) →
      h.kmalloc m size = some (ptr, m') →
      HeapClients h m₀ m' (σ.make ptr size.toNat 0)
  | kfree {m : Memory} {σ : Objects Word Byte} {ptr : Word} {o : Object Byte} :
      HeapClients h m₀ m σ → σ ptr = some o →
      HeapClients h m₀ (h.kfree m ptr) (σ.drop ptr)
  | store {m : Memory} {σ : Objects Word Byte} {ptr : Word} {o : Object Byte}
      {i : ℕ} {v : Byte} :
      HeapClients h m₀ m σ → σ ptr = some o → i < o.size →
      HeapClients h m₀ (m.store8 (Memory.offset ptr i) v) (σ.store ptr i v)

/-! ## Where things lie

Addresses of the clients' bytes, and everything the heap may touch. -/

/-- A place below the size lies in the blocks. -/
theorem Allocation.offset_mem_blocks (a : Allocation) {i : ℕ}
    (hi : i < a.size.toNat) :
    Memory.offset a.ptr i ∈ a.blocks := by
  have := a.size.isLt
  rw [Allocation.blocks, Memory.offset_mem_region (by omega)]
  exact lt_of_lt_of_le hi (Heap.le_blocksFor a.size)

/-- The blocks have a first byte. -/
theorem Allocation.ptr_mem_blocks (a : Allocation) : a.ptr ∈ a.blocks := by
  rw [Allocation.blocks, Memory.mem_region, BitVec.sub_self]
  exact Nat.mul_pos (Nat.succ_pos _) (by decide)

/-- What the heap may touch: its table and its data. -/
def Heap.footprint (h : Heap) : Set Word :=
  Memory.region h.table.entries h.total ∪ Memory.region h.startAddress
    (h.total * 4096)

section Footprint

variable {h : Heap} {e : Extent}

theorem Heap.tableRegion_subset (hw : h.Wf) (he : e.stop ≤ h.total) :
    h.tableRegion e ⊆ h.footprint := by
  have := hw.table_le
  exact (Memory.region_add_subset he (by omega)).trans Set.subset_union_left

theorem Heap.dataRegion_subset (hw : h.Wf) (he : e.stop ≤ h.total) :
    h.dataRegion e ⊆ h.footprint := by
  have hstop : e.first + e.count ≤ h.total := he
  have hroom : e.first * 4096 + e.count * 4096 ≤ h.total * 4096 := by omega
  have hfit : h.total * 4096 ≤ 2 ^ 32 := hw.size_lt.le
  exact (Memory.region_add_subset hroom hfit).trans Set.subset_union_right

end Footprint

/-! ## The steps

One lemma for each step of a run, first for the heap and then for the heap with
its clients. -/

/-- The byte at a place of an allocation. -/
def byteAt (m : Memory) (ptr : Word) (i : ℕ) : Byte := m (Memory.offset ptr i)

/-- **What a run keeps**: the heap invariant for the allocations, which are the
objects, and the memory represents these. The bytes of an object are those of
its blocks, and different objects have different blocks. -/
structure HeapClients.Inv (h : Heap) (m₀ m : Memory) (σ : Objects Word Byte)
    (live : List Allocation) : Prop where
  /-- The table describes the allocations. -/
  heap : HeapState.Inv h ⟨m, live⟩
  /-- Every object is an allocation. -/
  object : ∀ p o, σ p = some o → ∃ a ∈ live, a.ptr = p ∧ a.size.toNat = o.size
  /-- Every allocation is an object. -/
  allocation : ∀ a ∈ live, ∃ o, σ a.ptr = some o
  /-- The bytes are those of the objects. -/
  bytes : Objects.Represents (byteAt m) σ
  /-- Nothing else is touched. -/
  frame : Set.EqOn m m₀ h.footprintᶜ

section Steps

variable {h : Heap} {m m' m₀ : Memory} {σ : Objects Word Byte}
  {live : List Allocation}

/-- An allocation takes a run of blocks: the invariant, and the bytes. -/
theorem HeapState.Inv.kmalloc (hs : HeapState.Inv h ⟨m, live⟩) (hw : h.Wf)
    {size ptr : Word} (hsize : size.toNat + 4096 < 2 ^ 32)
    (hfit : 0 ≤ h.findFirstFitStartBlock m (alignToUpper size))
    (hrun : h.kmalloc m size = some (ptr, m')) :
    HeapState.Inv h ⟨m', ⟨ptr, size⟩ :: live⟩
      ∧ (∀ x ∈ Allocation.blocks ⟨ptr, size⟩, m' x = 0)
      ∧ Set.EqOn m' m (h.tableRegion (Allocation.extent h ⟨ptr, size⟩)
          ∪ Allocation.blocks ⟨ptr, size⟩)ᶜ := by
  obtain ⟨i, m'', hrun', hroom, hinv, hframe, hzero⟩ :=
    Heap.kmalloc_spec hw hs.heap hsize hfit
  obtain ⟨rfl, rfl⟩ := Prod.mk.inj (Option.some.inj (hrun.symm.trans hrun'))
  have hi : i < h.total := by
    have := hroom.1.1
    have : 0 < Heap.blocksFor size := Nat.succ_pos _
    omega
  have hext := Allocation.extent_blockAddress hw hi size
  rw [hext]
  refine ⟨⟨?_, List.forall_mem_cons.mpr ⟨?_, hs.ptr⟩⟩, hzero, hframe⟩
  · rw [List.map_cons, hext]
    exact hinv
  · rw [hext]

/-- A free gives the blocks back: the invariant. -/
theorem HeapState.Inv.kfree (hs : HeapState.Inv h ⟨m, live⟩) (hw : h.Wf)
    {a : Allocation} (ha : a ∈ live) :
    HeapState.Inv h ⟨h.kfree m a.ptr, live.erase a⟩ := by
  have hmem := List.mem_map_of_mem (f := Allocation.extent h) ha
  obtain ⟨hinv, -⟩ := Heap.kfree_spec hw hs.heap hmem
  rw [← hs.ptr a ha] at hinv
  exact ⟨hinv.perm (map_extent_erase h ha), fun b hb =>
    hs.ptr b (List.mem_of_mem_erase hb)⟩

/-- Live allocations with different pointers do not overlap. -/
theorem HeapState.Inv.disjoint_blocks (hs : HeapState.Inv h ⟨m, live⟩)
    (hw : h.Wf) {a b : Allocation} (ha : a ∈ live) (hb : b ∈ live)
    (hne : a.ptr ≠ b.ptr) :
    Disjoint a.blocks b.blocks := by
  have hext : a.extent h ≠ b.extent h := by
    intro heq
    apply hne
    rw [hs.ptr a ha, hs.ptr b hb, heq]
  rw [hs.blocks_eq ha, hs.blocks_eq hb]
  exact hs.heap.disjoint_dataRegion hw (hs.extent_mem ha).1
    (hs.extent_mem hb).1 hext

/-- An allocation is listed once. -/
theorem HeapState.Inv.nodup (hs : HeapState.Inv h ⟨m, live⟩) : live.Nodup :=
  List.Nodup.of_map _ hs.heap.packed.nodup

/-- A pointer has one allocation. -/
theorem HeapState.Inv.eq_of_ptr (hs : HeapState.Inv h ⟨m, live⟩)
    {a b : Allocation} (ha : a ∈ live) (hb : b ∈ live) (heq : a.ptr = b.ptr) :
    a = b := by
  have hext : a.extent h = b.extent h := by
    have hstop := (hs.extent_mem ha).2
    have hstop' := (hs.extent_mem hb).2
    have hfirst : (a.extent h).first = (b.extent h).first := by
      rw [Allocation.extent, Allocation.extent, heq]
    refine hs.heap.packed.eq_of_covers (hs.extent_mem ha).1 (hs.extent_mem hb).1
      (Extent.covers_first hstop.2) ?_
    rw [hfirst]
    exact Extent.covers_first hstop'.2
  exact List.inj_on_of_nodup_map hs.heap.packed.nodup ha hb hext

/-- The blocks of an allocation do not meet the table entries of one. -/
theorem HeapState.Inv.disjoint_tableRegion (hs : HeapState.Inv h ⟨m, live⟩)
    (hw : h.Wf) {a b : Allocation} (ha : a ∈ live) (hb : b ∈ live) :
    Disjoint a.blocks (h.tableRegion (b.extent h)) := by
  rw [hs.blocks_eq ha]
  exact Heap.disjoint_dataRegion_tableRegion hw (hs.extent_mem ha).2.1
    (hs.extent_mem hb).2.1
    (hs.extent_mem hb).2.2

/-- The blocks of an allocation are in the data of the heap. -/
theorem HeapState.Inv.blocks_subset_footprint (hs : HeapState.Inv h ⟨m, live⟩)
    (hw : h.Wf) {a : Allocation} (ha : a ∈ live) : a.blocks ⊆ h.footprint := by
  rw [hs.blocks_eq ha]
  exact Heap.dataRegion_subset hw (hs.extent_mem ha).2.1

/-- A byte of an object of the clients lies in the blocks of its allocation. -/
theorem HeapClients.Inv.mem_blocks (hs : HeapClients.Inv h m₀ m σ live)
    {p : Word} {o : Object Byte} (ho : σ p = some o) :
    ∃ a ∈ live, a.ptr = p ∧ ∀ i, i < o.size → Memory.offset p i ∈ a.blocks := by
  obtain ⟨a, ha, rfl, hsize⟩ := hs.object p o ho
  exact ⟨a, ha, rfl, fun i hi => a.offset_mem_blocks (hsize ▸ hi)⟩

/-- `kmalloc` makes an object, under a name that is not in use. -/
theorem HeapClients.Inv.kmalloc (hs : HeapClients.Inv h m₀ m σ live) (hw : h.Wf)
    {size ptr : Word} (hsize : size.toNat + 4096 < 2 ^ 32)
    (hfit : 0 ≤ h.findFirstFitStartBlock m (alignToUpper size))
    (hrun : h.kmalloc m size = some (ptr, m')) :
    σ ptr = none
      ∧ HeapClients.Inv h m₀ m' (σ.make ptr size.toNat 0)
        (⟨ptr, size⟩ :: live) := by
  obtain ⟨hheap, hzero, hframe⟩ := hs.heap.kmalloc hw hsize hfit hrun
  let new : Allocation := ⟨ptr, size⟩
  -- the blocks are apart from those of the other allocations
  have hapart : ∀ a ∈ live, Disjoint new.blocks a.blocks :=
    (List.pairwise_cons.mp (hheap.disjoint hw)).1
  have hfresh : ∀ a ∈ live, a.ptr ≠ ptr := by
    rintro a ha rfl
    exact Set.disjoint_left.mp (hapart a ha) new.ptr_mem_blocks a.ptr_mem_blocks
  have hnone : σ ptr = none := by
    cases ho : σ ptr with
    | none => rfl
    | some o =>
      obtain ⟨a, ha, hptr, -⟩ := hs.object ptr o ho
      exact absurd hptr (hfresh a ha)
  have hnew : new ∈ new :: live := List.mem_cons_self
  refine ⟨hnone, hheap, ?_, ?_, ?_, ?_⟩
  · intro p o ho
    by_cases hp : p = ptr
    · subst hp
      obtain rfl := Option.some.inj (Objects.make_self.symm.trans ho)
      exact ⟨new, hnew, rfl, rfl⟩
    · rw [Objects.make_of_ne hp] at ho
      obtain ⟨a, ha, h'⟩ := hs.object p o ho
      exact ⟨a, List.mem_cons_of_mem _ ha, h'⟩
  · refine List.forall_mem_cons.mpr ⟨⟨_, Objects.make_self⟩, fun a ha => ?_⟩
    rw [Objects.make_of_ne (hfresh a ha)]
    exact hs.allocation a ha
  · refine hs.bytes.make (fun i hi => hzero _ (new.offset_mem_blocks hi))
      fun q o _ ho i hi => ?_
    obtain ⟨a, ha, rfl, hin⟩ := hs.mem_blocks ho
    refine hframe fun hx => ?_
    rcases hx with htable | hdata
    · have htable' := hheap.disjoint_tableRegion hw
        (List.mem_cons_of_mem _ ha) hnew
      exact Set.disjoint_left.mp htable' (hin i hi) htable
    · exact Set.disjoint_left.mp (hapart a ha) hdata (hin i hi)
  · refine Set.EqOn.trans (hframe.mono
      (Set.compl_subset_compl.mpr (Set.union_subset ?_ ?_))) hs.frame
    · exact Heap.tableRegion_subset hw (hheap.extent_mem hnew).2.1
    · exact hheap.blocks_subset_footprint hw hnew

/-- `kfree` drops an object. -/
theorem HeapClients.Inv.kfree (hs : HeapClients.Inv h m₀ m σ live) (hw : h.Wf)
    {ptr : Word} {o : Object Byte} (ho : σ ptr = some o) :
    ∃ live', HeapClients.Inv h m₀ (h.kfree m ptr) (σ.drop ptr) live' := by
  obtain ⟨a, ha, rfl, -⟩ := hs.object ptr o ho
  have hframe := hs.heap.kfree_frame hw ha
  have hother : ∀ b ∈ live.erase a, b ∈ live ∧ b.ptr ≠ a.ptr := fun b hb =>
    have hb' := (hs.heap.nodup.mem_erase_iff).mp hb
    ⟨hb'.2, fun heq => hb'.1 (hs.heap.eq_of_ptr hb'.2 ha heq)⟩
  refine ⟨live.erase a, hs.heap.kfree hw ha, ?_, ?_, ?_, ?_⟩
  · intro p o' ho'
    obtain ⟨hne, hp⟩ := Objects.of_drop ho'
    obtain ⟨b, hb, rfl, hsize⟩ := hs.object p o' hp
    have hba : b ≠ a := fun heq => hne (congrArg Allocation.ptr heq)
    exact ⟨b, (List.mem_erase_of_ne hba).mpr hb, rfl, hsize⟩
  · intro b hb
    obtain ⟨hmem, hne⟩ := hother b hb
    rw [Objects.drop_of_ne hne]
    exact hs.allocation b hmem
  · refine hs.bytes.drop fun q o' _ hq i hi => ?_
    obtain ⟨b, hb, rfl, hin⟩ := hs.mem_blocks hq
    exact hframe fun hx => Set.disjoint_left.mp
      (hs.heap.disjoint_tableRegion hw hb ha) (hin i hi) hx
  · refine Set.EqOn.trans (hframe.mono (Set.compl_subset_compl.mpr ?_)) hs.frame
    exact Heap.tableRegion_subset hw (hs.heap.extent_mem ha).2.1

/-- A byte that is stored changes one place of one object. -/
theorem HeapClients.Inv.store (hs : HeapClients.Inv h m₀ m σ live) (hw : h.Wf)
    {ptr : Word} {o : Object Byte} {i : ℕ} (ho : σ ptr = some o)
    (hi : i < o.size) (v : Byte) :
    HeapClients.Inv h m₀ (m.store8 (Memory.offset ptr i) v)
      (σ.store ptr i v) live := by
  obtain ⟨a, ha, rfl, hsize⟩ := hs.object ptr o ho
  have hbyte : Memory.offset a.ptr i ∈ a.blocks :=
    a.offset_mem_blocks (hsize ▸ hi)
  have hframe : Set.EqOn (m.store8 (Memory.offset a.ptr i) v) m
      (h.dataRegion (a.extent h))ᶜ := by
    intro x hx
    refine Memory.store8_of_ne fun heq => hx ?_
    rw [heq, ← hs.heap.blocks_eq ha]
    exact hbyte
  obtain ⟨hinv, -⟩ := hs.heap.heap.eqOn_dataRegion hw
    (hs.heap.extent_mem ha).1 hframe
  refine ⟨⟨hinv, hs.heap.ptr⟩, ?_, ?_, ?_, ?_⟩
  · intro p o' ho'
    obtain ⟨o'', ho'', hsize'⟩ := Objects.of_store ho'
    obtain ⟨b, hb, hptr, hb'⟩ := hs.object p o'' ho''
    exact ⟨b, hb, hptr, hb'.trans hsize'⟩
  · intro b hb
    obtain ⟨o', ho'⟩ := hs.allocation b hb
    by_cases hp : b.ptr = a.ptr
    · rw [hp]
      exact ⟨_, Objects.store_self ho⟩
    · exact ⟨o', (Objects.store_of_ne hp).trans ho'⟩
  · refine hs.bytes.store (Memory.store8_self _ _ _) fun q o' j hq hj hne => ?_
    refine Memory.store8_of_ne fun heq => ?_
    obtain ⟨b, hb, rfl, hbsize⟩ := hs.object q o' hq
    by_cases hp : b.ptr = a.ptr
    · -- the same object, another place
      have hji := hne.resolve_left (not_not.mpr hp)
      have := a.size.isLt
      have := b.size.isLt
      rw [hp] at heq
      exact hji ((Memory.offset_inj (by omega) (by omega)).mp heq)
    · have hjin := b.offset_mem_blocks (hbsize ▸ hj)
      rw [heq] at hjin
      exact Set.disjoint_left.mp
        (hs.heap.disjoint_blocks hw hb ha hp) hjin hbyte
  · refine Set.EqOn.trans (hframe.mono (Set.compl_subset_compl.mpr ?_)) hs.frame
    exact Heap.dataRegion_subset hw (hs.heap.extent_mem ha).2.1

end Steps

/-- **Every state of a run keeps the invariant.** The steps of a run are those
of the clients: an allocation, a free, or a byte that is written into an
object. -/
theorem HeapClients.inv {h : Heap} (hw : h.Wf) {m₀ m : Memory}
    {σ : Objects Word Byte} (h₀ : Heap.HeapInv h m₀ [])
    (hrun : HeapClients h m₀ m σ) :
    ∃ live, HeapClients.Inv h m₀ m σ live := by
  induction hrun with
  | init =>
    exact ⟨[], ⟨⟨h₀, fun _ => (nomatch ·)⟩, fun _ _ => (nomatch ·), fun _ =>
      (nomatch ·), Objects.Represents.empty _, Set.eqOn_refl _ _⟩⟩
  | kmalloc _ hsize hfit hrun ih =>
    obtain ⟨live, hs⟩ := ih
    exact ⟨_, (hs.kmalloc hw hsize hfit hrun).2⟩
  | kfree _ ho ih =>
    obtain ⟨live, hs⟩ := ih
    exact hs.kfree hw ho
  | store _ ho hi ih =>
    obtain ⟨live, hs⟩ := ih
    exact ⟨live, hs.store hw ho hi _⟩

/-- **The heap is a store of objects**, for every size of the table and after
every run of its clients. A byte that is read from an object is the one the
store has there. Two objects never share a byte. What `kmalloc` returns is a
name that is not in use. And nothing outside the table and the data of the
heap has changed. -/
theorem heap_is_object_store (c : HeapConfig) (m₀ m : Memory)
    (σ : Objects Word Byte)
    (hrun : HeapClients (kheapInit c m₀).1 (kheapInit c m₀).2 m σ) :
    (∀ p o, σ p = some o → ∀ i, i < o.size → m (Memory.offset p i) = o.bytes i)
      ∧ (∀ p q o o', p ≠ q → σ p = some o → σ q = some o' →
        Disjoint (Memory.region p o.size) (Memory.region q o'.size))
      ∧ (∀ size ptr m', size.toNat + 4096 < 2 ^ 32 →
        0 ≤ (kheapInit c m₀).1.findFirstFitStartBlock m (alignToUpper size) →
        (kheapInit c m₀).1.kmalloc m size = some (ptr, m') → σ ptr = none)
      ∧ Set.EqOn m m₀ (Memory.region c.heapTableAddress c.totalBlocks
          ∪ Memory.region c.heapAddress (c.totalBlocks * 4096))ᶜ := by
  obtain ⟨hheap, hinit, hframe⟩ := kheapInit_spec c m₀
  rw [hheap] at hrun ⊢
  have hw := c.heap_wf
  obtain ⟨live, hs⟩ := hrun.inv hw hinit
  refine ⟨hs.bytes, fun p q o o' hne ho ho' => ?_,
    fun size ptr m' hsize hfit hmalloc =>
      (hs.kmalloc hw hsize hfit hmalloc).1, ?_⟩
  · obtain ⟨a, ha, rfl, hsize⟩ := hs.object p o ho
    obtain ⟨b, hb, rfl, hsize'⟩ := hs.object q o' ho'
    rw [← hsize, ← hsize']
    exact (hs.heap.disjoint_blocks hw ha hb hne).mono
      (Memory.region_subset (Heap.le_blocksFor _))
        (Memory.region_subset (Heap.le_blocksFor _))
  · have hfoot := hs.frame
    rw [Heap.footprint, c.total_heap] at hfoot
    exact hfoot.trans
      (hframe.mono (Set.compl_subset_compl.mpr Set.subset_union_left))

/-- A byte stored at the end of an object of 5000 bytes is there when it is
read. -/
theorem heap_is_object_store_last_byte :
    ∃ m ptr, HeapClients (kheapInit fourBlockHeapConfig fun _ => 0).1
        (kheapInit fourBlockHeapConfig fun _ => 0).2 m
        ((Objects.empty.make ptr 5000 0).store ptr 4999 0x41)
      ∧ m (Memory.offset ptr 4999) = 0x41 := by
  obtain ⟨⟨ptr, m'⟩, hmalloc⟩ := Option.isSome_iff_exists.mp
    (show ((kheapInit fourBlockHeapConfig fun _ => 0).1.kmalloc
      (kheapInit fourBlockHeapConfig fun _ => 0).2 5000#32).isSome
        = true from by decide)
  have hmade := HeapClients.kmalloc HeapClients.init (by decide)
    (by decide) hmalloc
  have hrun := HeapClients.store (i := 4999) (v :=
    0x41) hmade Objects.make_self (by decide)
  refine ⟨_, ptr, hrun, ?_⟩
  rw [(heap_is_object_store fourBlockHeapConfig (fun _ => 0) _ _ hrun).1 ptr _
    (Objects.store_self Objects.make_self) 4999 (by decide)]
  dsimp only
  rw [Function.update_self]

end N00bOS
