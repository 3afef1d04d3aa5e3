import N00bOS.HeapSpec

/-!
# Runs of the heap

A run of the heap is a sequence of `kmalloc` and `kfree` calls after
`kheap_init` in which every `kmalloc` finds a run of blocks and every `kfree`
gets back a pointer that is live. `HeapReachable` is every state of such a run,
with the allocations live in it, and `heap_run_invariant` is what holds of all
of them.

The invariant of a run (`HeapState.Inv`) says that the table encodes the
extents of the live allocations, which are determined by their pointers and
sizes. Its two steps are the specifications of `kmalloc` and `kfree` in
`N00bOS.HeapSpec`, and `HeapReachable.inv` is the induction. What the run
theorem says of the allocations – that they are apart, that the table describes
them, that an operation changes nothing but the blocks and entries it is about
– are consequences of the invariant in one state, proved one by one before it.

The second half is the other case, a `kmalloc` that finds no run. The code does
not test the result of the search: `-ENOMEM` becomes the block index
`2 ^ 32 - 12`, and the caller gets the address 48KB below the heap
(`kmalloc_of_no_room`), or no answer at all. Neither is null
(`failed_allocation_not_null`).
-/

namespace N00bOS

/-- A live allocation: the pointer `kmalloc` returned, and the size it was
asked for. -/
structure Allocation where
  /-- The pointer returned. -/
  ptr : Word
  /-- The size asked for. -/
  size : Word
  deriving DecidableEq

/-- The table entries of an allocation. -/
def Allocation.extent (h : Heap) (a : Allocation) : Extent :=
  ⟨(h.blockAddress2BlockIdx a.ptr).toNat, Heap.blocksFor a.size⟩

/-- The bytes of an allocation's blocks. -/
def Allocation.blocks (a : Allocation) : Set Word :=
  Memory.region a.ptr (Heap.blocksFor a.size * 4096)

/-- A state of a run: the memory, and the allocations made and not freed
since. -/
structure HeapState where
  /-- The memory. -/
  mem : Memory
  /-- The live allocations, the latest first. -/
  live : List Allocation

/-- **The states of a run** that starts in the memory `m₀`, with no
allocation. -/
inductive HeapReachable (h : Heap) (m₀ : Memory) : HeapState → Prop where
  | init : HeapReachable h m₀ ⟨m₀, []⟩
  | kmalloc {s : HeapState} {size ptr : Word} {m' : Memory} :
      HeapReachable h m₀ s → size.toNat + 4096 < 2 ^ 32 →
      0 ≤ h.findFirstFitStartBlock s.mem (alignToUpper size) →
      h.kmalloc s.mem size = some (ptr, m') →
      HeapReachable h m₀ ⟨m', ⟨ptr, size⟩ :: s.live⟩
  | kfree {s : HeapState} {a : Allocation} :
      HeapReachable h m₀ s → a ∈ s.live →
      HeapReachable h m₀ ⟨h.kfree s.mem a.ptr, s.live.erase a⟩

/-- What a state of a run keeps: the heap invariant for the extents of its live
allocations, whose pointers are the addresses of their first blocks. The list
of live allocations is a ghost: no function of the heap has it. -/
structure HeapState.Inv (h : Heap) (s : HeapState) : Prop where
  heap : Heap.HeapInv h s.mem (s.live.map (Allocation.extent h))
  ptr : ∀ a ∈ s.live, a.ptr = h.blockAddress (a.extent h).first

/-- The extent of a fresh allocation is the one `kmalloc` took. -/
theorem Allocation.extent_blockAddress {h : Heap} (hw : h.Wf) {i : ℕ}
    (hi : i < h.total) (size : Word) :
    Allocation.extent h ⟨h.blockAddress i, size⟩
      = ⟨i, Heap.blocksFor size⟩ := by
  rw [Allocation.extent, Heap.blockAddress2BlockIdx_blockAddress hw hi]

/-- Dropping an allocation drops its extent. -/
theorem map_extent_erase (h : Heap) {live : List Allocation} {a : Allocation}
    (ha : a ∈ live) :
    ((live.map (Allocation.extent h)).erase (a.extent h)).Perm
      ((live.erase a).map (Allocation.extent h)) := by
  have hp := (List.perm_cons_erase ha).map (Allocation.extent h)
  have he := hp.erase (a.extent h)
  rwa [List.map_cons, List.erase_cons_head] at he

/-- **Every state of a run keeps the invariant.** The induction is on the run;
a call that fails is no step of it, and each of the two kinds of step is
`kmalloc_spec` or `kfree_spec`. -/
theorem HeapReachable.inv {h : Heap} (hw : h.Wf) {m₀ : Memory}
    (h₀ : Heap.HeapInv h m₀ []) {s : HeapState} (hs : HeapReachable h m₀ s) :
    s.Inv h := by
  induction hs with
  | init => exact ⟨h₀, fun a ha => absurd ha List.not_mem_nil⟩
  | @kmalloc s size ptr m' _ hsize hfit hrun ih =>
    obtain ⟨i, m'', hrun', hroom, hinv, -, -⟩ :=
      Heap.kmalloc_spec hw ih.heap hsize hfit
    rw [hrun] at hrun'
    obtain ⟨rfl, rfl⟩ := Prod.mk.inj (Option.some.inj hrun')
    have hi : i < h.total := by
      have := hroom.1.1
      have : 0 < Heap.blocksFor size := Nat.succ_pos _
      omega
    have hext := Allocation.extent_blockAddress hw hi size
    refine ⟨?_, List.forall_mem_cons.mpr ⟨?_, ih.ptr⟩⟩
    · rw [List.map_cons, hext]
      exact hinv
    · rw [hext]
  | @kfree s a _ ha ih =>
    have hmem := List.mem_map_of_mem (f := Allocation.extent h) ha
    obtain ⟨hinv, -⟩ := Heap.kfree_spec hw ih.heap hmem
    rw [← ih.ptr a ha] at hinv
    exact ⟨hinv.perm (map_extent_erase h ha),
      fun b hb => ih.ptr b (List.mem_of_mem_erase hb)⟩

/-- The blocks of an allocation are the data of its extent. -/
theorem HeapState.Inv.blocks_eq {h : Heap} {s : HeapState} (hs : s.Inv h)
    {a : Allocation} (ha : a ∈ s.live) :
    a.blocks = h.dataRegion (a.extent h) := by
  rw [Allocation.blocks, Heap.dataRegion, ← hs.ptr a ha]
  rfl

/-! ## What the invariant says of the live allocations

Consequences of the invariant in one state. The frame of an operation is stated
in terms of the clients' allocations: the blocks that are returned, and the
entries of the allocation that is taken or given back. -/

section Live

variable {h : Heap} {s : HeapState}

/-- The extent of a live allocation lies in the table. -/
theorem HeapState.Inv.extent_mem (hs : s.Inv h) {a : Allocation}
    (ha : a ∈ s.live) :
    a.extent h ∈ s.live.map (Allocation.extent h) ∧ (a.extent h).stop ≤ h.total
      ∧ 0 < (a.extent h).count :=
  have hmem : a.extent h ∈ s.live.map (Allocation.extent h) :=
    List.mem_map_of_mem ha
  ⟨hmem, hs.heap.packed.stop_le _ hmem, Nat.succ_pos _⟩

/-- Live allocations do not overlap. -/
theorem HeapState.Inv.disjoint (hs : s.Inv h) (hw : h.Wf) :
    s.live.Pairwise fun a b => Disjoint a.blocks b.blocks := by
  have hap := List.pairwise_map.mp hs.heap.packed.apart
  refine List.Pairwise.imp_of_mem (fun {a b} ha hb hab => ?_) hap
  obtain ⟨-, hstop, hpos⟩ := hs.extent_mem ha
  obtain ⟨-, hstop', hpos'⟩ := hs.extent_mem hb
  rw [hs.blocks_eq ha, hs.blocks_eq hb]
  exact Heap.disjoint_dataRegion hw hstop hstop' hpos hpos' hab

/-- The entries of a live allocation are taken, and all but the last go on. -/
theorem HeapState.Inv.entry_taken (hs : s.Inv h) {a : Allocation}
    (ha : a ∈ s.live) {i : ℕ} (hi : i < h.total) (hai : (a.extent h).Covers i) :
    getEntryType (h.entry s.mem i) = heapBlockTableEntryTaken
      ∧ (h.entry s.mem i &&& heapBlockHasNext ≠ 0
        ↔ i + 1 ≠ (a.extent h).stop) := by
  rw [hs.heap.encodes i hi,
    hs.heap.packed.markAt_of_covers (hs.extent_mem ha).1 hai, ne_eq,
    Heap.entryByte_hasNext, Extent.mark]
  split
  · next hlast => exact ⟨by decide,
      iff_of_false (by decide) (not_not.mpr hlast)⟩
  · next hlast => exact ⟨by decide, iff_of_true (by decide) hlast⟩

/-- All other entries are free. -/
theorem HeapState.Inv.entry_free (hs : s.Inv h) {i : ℕ} (hi : i < h.total)
    (hnone : ∀ a ∈ s.live, ¬ (a.extent h).Covers i) :
    h.entry s.mem i = heapBlockTableEntryFree := by
  have hfree : markAt (s.live.map (Allocation.extent h)) i = Mark.free := by
    rw [markAt_eq_free_iff, List.forall_mem_map]
    exact hnone
  rw [hs.heap.encodes i hi, hfree]
  rfl

/-- A `kmalloc` that finds a run changes no byte outside the blocks it returns
and their entries. -/
theorem HeapState.Inv.kmalloc_frame (hs : s.Inv h) (hw : h.Wf) {size : Word}
    (hsize : size.toNat + 4096 < 2 ^ 32)
    (hfit : 0 ≤ h.findFirstFitStartBlock s.mem (alignToUpper size)) :
    ∃ ptr m', h.kmalloc s.mem size = some (ptr, m')
      ∧ Set.EqOn m' s.mem (Allocation.blocks ⟨ptr, size⟩
          ∪ h.tableRegion (Allocation.extent h ⟨ptr, size⟩))ᶜ := by
  obtain ⟨i, m', hrun, hroom, -, hframe, -⟩ :=
    Heap.kmalloc_spec hw hs.heap hsize hfit
  have hi : i < h.total := by
    have := hroom.1.1
    have : 0 < Heap.blocksFor size := Nat.succ_pos _
    omega
  refine ⟨h.blockAddress i, m', hrun, ?_⟩
  rw [Allocation.extent_blockAddress hw hi, Set.union_comm]
  exact hframe

/-- A `kfree` of a live allocation changes no byte outside its entries. -/
theorem HeapState.Inv.kfree_frame (hs : s.Inv h) (hw : h.Wf) {a : Allocation}
    (ha : a ∈ s.live) :
    Set.EqOn (h.kfree s.mem a.ptr) s.mem (h.tableRegion (a.extent h))ᶜ := by
  obtain ⟨-, hframe⟩ := Heap.kfree_spec hw hs.heap (hs.extent_mem ha).1
  rw [← hs.ptr a ha] at hframe
  exact hframe

/-- The blocks of a live allocation lie in the data of the heap. -/
theorem HeapState.Inv.blocks_subset {c : HeapConfig} (hs : s.Inv c.heap)
    {a : Allocation} (ha : a ∈ s.live) :
    a.blocks ⊆ Memory.region c.heapAddress (c.totalBlocks * 4096) := by
  intro x hx
  obtain ⟨-, hstop, hpos⟩ := hs.extent_mem ha
  have hbase : c.heap.startAddress = c.heapAddress := rfl
  rw [hs.blocks_eq ha, Heap.mem_dataRegion c.heap_wf hstop hpos, hbase] at hx
  rw [c.total_heap] at hstop
  rw [Memory.mem_region_of_le c.data_le]
  omega

end Live

/-! ## The runs

The theorem collects them, for every state of every run. -/

/-- **The heap over whole runs.** In every state of every run, for every
table size:

* the live allocations occupy pairwise disjoint runs of blocks inside the
  heap's data, each at least as large as its request;
* the table describes exactly them – inside a live allocation every entry is
  taken and carries `HAS_NEXT` unless it is the last, and every other entry
  is free;
* a `kmalloc` that finds a run returns, and changes no byte outside the
  blocks it returns and their entries; a `kfree` of a live allocation
  changes no byte outside the entries of that allocation. -/
theorem heap_run_invariant (c : HeapConfig) (m₀ : Memory) (s : HeapState)
    (hs : HeapReachable (kheapInit c m₀).1 (kheapInit c m₀).2 s) :
    (s.live.Pairwise (fun a b => Disjoint a.blocks b.blocks)
      ∧ ∀ a ∈ s.live,
        a.blocks ⊆ Memory.region c.heapAddress (c.totalBlocks * 4096)
        ∧ a.ptr = (kheapInit c m₀).1.blockAddress
          (a.extent (kheapInit c m₀).1).first
        ∧ a.size.toNat ≤ (a.extent (kheapInit c m₀).1).count * 4096)
    ∧ (∀ i, i < c.totalBlocks →
        (∀ a ∈ s.live, (a.extent (kheapInit c m₀).1).Covers i →
          getEntryType ((kheapInit c m₀).1.entry s.mem i)
            = heapBlockTableEntryTaken
            ∧ ((kheapInit c m₀).1.entry s.mem i &&& heapBlockHasNext ≠ 0
                ↔ i + 1 ≠ (a.extent (kheapInit c m₀).1).stop))
        ∧ ((∀ a ∈ s.live, ¬ (a.extent (kheapInit c m₀).1).Covers i) →
          (kheapInit c m₀).1.entry s.mem i = heapBlockTableEntryFree))
    ∧ (∀ size : Word, size.toNat + 4096 < 2 ^ 32 →
        0 ≤ (kheapInit c m₀).1.findFirstFitStartBlock s.mem
          (alignToUpper size) →
        ∃ ptr m', (kheapInit c m₀).1.kmalloc s.mem size = some (ptr, m')
          ∧ Set.EqOn m' s.mem
            (Allocation.blocks ⟨ptr, size⟩
              ∪ (kheapInit c m₀).1.tableRegion
                  (Allocation.extent (kheapInit c m₀).1 ⟨ptr, size⟩))ᶜ)
    ∧ (∀ a ∈ s.live, Set.EqOn ((kheapInit c m₀).1.kfree s.mem a.ptr) s.mem
        ((kheapInit c m₀).1.tableRegion (a.extent (kheapInit c m₀).1))ᶜ) := by
  obtain ⟨hheap, hinit, -⟩ := kheapInit_spec c m₀
  rw [hheap] at hs ⊢
  have hw := c.heap_wf
  have htotal := c.total_heap
  have hinv := hs.inv hw hinit
  refine ⟨⟨hinv.disjoint hw,
      fun a ha => ⟨hinv.blocks_subset ha, hinv.ptr a ha,
        Heap.le_blocksFor a.size⟩⟩,
    fun i hi => ⟨fun a ha hai => ?_, fun hnone => ?_⟩,
    fun size hsize hfit => hinv.kmalloc_frame hw hsize hfit, fun a ha =>
      hinv.kfree_frame hw ha⟩
  · rw [← htotal] at hi
    exact hinv.entry_taken ha hi hai
  · rw [← htotal] at hi
    exact hinv.entry_free hi hnone

/-- A heap of four blocks. -/
def fourBlockHeapConfig : HeapConfig where
  totalBlocks := 4
  heapAddress := heapAddress
  heapTableAddress := heapTableAddress
  size_lt := by decide
  aligned := kernelHeapConfig.aligned
  data_le := by decide
  table_le := by decide
  apart := by decide

/-- The theorem after one `kmalloc` of 5000 bytes on a heap of four blocks:
what is live lies inside the heap. -/
theorem heap_run_invariant_one_live :
    ∃ s, HeapReachable (kheapInit fourBlockHeapConfig (fun _ => 0)).1
        (kheapInit fourBlockHeapConfig (fun _ => 0)).2 s
      ∧ s.live.length = 1
      ∧ ∀ a ∈ s.live, a.blocks ⊆ Memory.region heapAddress (4 * 4096) := by
  obtain ⟨⟨ptr, m'⟩, hrun⟩ := Option.isSome_iff_exists.mp
    (show ((kheapInit fourBlockHeapConfig (fun _ => 0)).1.kmalloc
      (kheapInit fourBlockHeapConfig (fun _ => 0)).2 5000#32).isSome
        = true from by decide)
  have hs := HeapReachable.kmalloc HeapReachable.init (by decide)
    (by decide) hrun
  exact ⟨_, hs, rfl, fun a ha =>
    ((heap_run_invariant fourBlockHeapConfig (fun _ => 0) _ hs).1.2 a ha).1⟩

/-! ## A `kmalloc` that finds no run

The failed search names an index outside the table, and everything after it is
computed from that index, in words. Two sizes are special: those that wrap when
they are rounded up. -/

/-- The blocks a size needs: `ceil(size / HEAP_BLOCK_SIZE)`. -/
def blocksNeeded (size : Word) : ℕ := (size.toNat + 4095) / 4096

/-- A size within a block of `2 ^ 32` is rounded to zero. -/
theorem alignToUpper_of_wrap {size : Word} (hs : 2 ^ 32 ≤ size.toNat + 4096) :
    alignToUpper size = 0 := by
  apply BitVec.eq_of_toNat_eq
  have := size.isLt
  unfold alignToUpper
  simp only [BitVec.toNat_add, BitVec.toNat_sub, BitVec.toNat_umod,
    heapBlockSize_toNat]
  show _ = 0
  omega

namespace Heap

/-- The marking loop does not end when its bound is the largest word. -/
theorem markEntries_allOnes (h : Heap) (bound : ℕ) (idx : Word) (m : Memory) :
    h.markEntries (BitVec.allOnes 32) bound idx m = none := by
  induction bound generalizing idx m with
  | zero => rfl
  | succ bound ih =>
    have hle : idx ≤ BitVec.allOnes 32 := by
      rw [BitVec.le_def, BitVec.toNat_allOnes]
      exact Nat.le_pred_of_lt idx.isLt
    rw [markEntries, if_pos hle]
    exact ih _ _

/-- A failed search becomes the address 48KB below the heap. -/
theorem kmalloc_of_enomem {h : Heap} {m m' : Memory} {size p : Word}
    (hfind : h.findFirstFitStartBlock m (alignToUpper size) = -enomem)
    (hrun : h.kmalloc m size = some (p, m')) :
    p = h.startAddress - 0xC000#32 := by
  rw [kmalloc, heapMalloc] at hrun
  simp only [hfind] at hrun
  obtain ⟨m'', -, heq⟩ := Option.map_eq_some_iff.mp hrun
  have hp := (Prod.mk.inj heq).1
  rw [← hp]
  unfold blockIdx2BlockAddress
  rw [show BitVec.ofInt 32 (-enomem) * heapBlockSize
    = - 0xC000#32 from by decide]
  exact (BitVec.sub_eq_add_neg _ _).symm

/-- A request whose size wraps when it is rounded up does not return: the
marking loop does not end. -/
theorem kmalloc_of_wrap {h : Heap} {m : Memory} {size : Word}
    (hwrap : 2 ^ 32 ≤ size.toNat + 4096) (htotal : 0 < h.total) :
    h.kmalloc m size = none := by
  have halign := alignToUpper_of_wrap hwrap
  have hfind : h.findFirstFitStartBlock m 0 = (0 : ℕ) := by
    rw [findFirstFitStartBlock, findFrom, if_pos htotal,
      if_pos (by rw [BitVec.le_def]; exact Nat.zero_le _)]
  rw [kmalloc, heapMalloc]
  simp only [halign, hfind]
  rw [show BitVec.ofInt 32 ((0 : ℕ) : ℤ) + 0 / heapBlockSize - 1
    = BitVec.allOnes 32 from
    by decide, markEntries_allOnes]
  rfl

/-- **A `kzalloc` that returns a run** was asked for a size that does not
wrap. -/
theorem size_lt_of_kzallocFit {h : Heap} {m : Memory} {size : Word}
    {r : Word × Memory} (hrun : h.kzallocFit m size = some r) :
    size.toNat + 4096 < 2 ^ 32 := by
  by_contra hsize
  have hwrap : 2 ^ 32 ≤ size.toNat + 4096 := Nat.le_of_not_lt hsize
  by_cases htotal : 0 < h.total
  · have hkzalloc := kzalloc_of_kzallocFit hrun
    rw [kzalloc, kmalloc_of_wrap hwrap htotal] at hkzalloc
    cases hkzalloc
  · rw [kzallocFit, findFirstFitStartBlock, findFrom, if_neg htotal,
      if_neg (by decide)] at hrun
    cases hrun

/-- **A `kmalloc` without room** either never returns, or returns the
address 48KB below the heap. -/
theorem kmalloc_of_no_room {h : Heap} (hw : h.Wf) {m m' : Memory}
    {size p : Word}
    (hnone : ∀ i, ¬ Room (h.Free m) h.total (blocksNeeded size) i)
    (hrun : h.kmalloc m size = some (p, m')) :
    p = h.startAddress - 0xC000#32 := by
  by_cases hwrap : 2 ^ 32 ≤ size.toNat + 4096
  · -- the size is rounded to zero: block 0 "fits", unless there is no block
    by_cases htotal : 0 < h.total
    · rw [kmalloc_of_wrap hwrap htotal] at hrun
      exact absurd hrun (by simp)
    · refine kmalloc_of_enomem ?_ hrun
      rw [findFirstFitStartBlock, findFrom, if_neg htotal]
  · have hsize : size.toNat + 4096 < 2 ^ 32 := Nat.lt_of_not_le hwrap
    rcases findFirstFitStartBlock_spec hw.size_lt m (alignToUpper_toNat hsize)
      (Nat.succ_pos _) with
      ⟨i, -, hroom⟩ | ⟨hfind, -⟩
    · refine absurd (hroom.1.mono ?_) (hnone i)
      unfold blocksNeeded blocksFor
      omega
    · exact kmalloc_of_enomem hfind hrun

/-- `kzalloc` returns the address `kmalloc` returns. -/
theorem kmalloc_of_kzalloc {h : Heap} {m m' : Memory} {size p : Word}
    (hrun : h.kzalloc m size = some (p, m')) :
    ∃ m'', h.kmalloc m size = some (p, m'') := by
  obtain ⟨⟨p', m''⟩, hrun', heq⟩ := Option.map_eq_some_iff.mp hrun
  exact ⟨m'', by rw [hrun', ← (Prod.mk.inj heq).1]⟩

end Heap

/-- **A failed allocation is never clean.** With the heap at `HEAP_ADDRESS`,
for every memory and every size for which no run of free blocks is long enough,
neither `kmalloc` nor `kzalloc` returns the null pointer – whatever they leave
in memory. The search answers `-ENOMEM`, which `kmalloc` takes for the number
of a block: the address is twelve blocks below the first one. For a size that
wraps around when it is aligned the search answers `0`, and `kmalloc` does not
return. -/
theorem failed_allocation_not_null (c : HeapConfig)
    (hc : c.heapAddress = heapAddress) (m : Memory) (size : Word)
    (hnone : ∀ i, ¬ Room (c.heap.Free m) c.totalBlocks (blocksNeeded size) i) :
    (∀ m', c.heap.kmalloc m size ≠ some (0, m'))
      ∧ ∀ m', c.heap.kzalloc m size ≠ some (0, m') := by
  have hne : ∀ m', c.heap.kmalloc m size ≠ some (0, m') := by
    intro m' hrun
    rw [← c.total_heap] at hnone
    have hp := Heap.kmalloc_of_no_room c.heap_wf hnone hrun
    rw [show c.heap.startAddress = heapAddress from hc] at hp
    exact absurd hp (by decide)
  refine ⟨hne, fun m' hrun => ?_⟩
  obtain ⟨m'', hrun'⟩ := Heap.kmalloc_of_kzalloc hrun
  exact hne m'' hrun'

/-- No heap has room for more blocks than it has. -/
theorem not_room_of_total_lt {free : ℕ → Prop} {n k : ℕ} (h : n < k) (i : ℕ) :
    ¬ Room free n k i := fun hroom => by
  have := hroom.1
  omega

/-- The theorem at a request for one byte more than the whole heap. -/
theorem failed_allocation_not_null_oversized :
    (∀ m', kernelHeapConfig.heap.kmalloc (fun _ => 0) 104857601#32
      ≠ some (0, m'))
      ∧ ∀ m', kernelHeapConfig.heap.kzalloc (fun _ =>
        0) 104857601#32 ≠ some (0, m') :=
  failed_allocation_not_null kernelHeapConfig rfl (fun _ => 0) 104857601#32
    (not_room_of_total_lt (by decide))

/-- On the kernel's own heap, just initialised, a request for one byte more
than the whole heap finds no run, and is not answered by the null pointer
with the memory as it was. -/
theorem oversized_request_not_clean :
    HeapReachable (kheapInit kernelHeapConfig (fun _ => 0)).1
        (kheapInit kernelHeapConfig (fun _ => 0)).2
        ⟨(kheapInit kernelHeapConfig (fun _ => 0)).2, []⟩
      ∧ (∀ i, ¬ Room ((kheapInit kernelHeapConfig (fun _ => 0)).1.Free
            (kheapInit kernelHeapConfig (fun _ => 0)).2)
          kernelHeapConfig.totalBlocks (blocksNeeded 104857601#32) i)
      ∧ (kheapInit kernelHeapConfig (fun _ => 0)).1.kmalloc
            (kheapInit kernelHeapConfig (fun _ => 0)).2 104857601#32
          ≠ some (0, (kheapInit kernelHeapConfig (fun _ => 0)).2) := by
  obtain ⟨hheap, -, -⟩ := kheapInit_spec kernelHeapConfig (fun _ => 0)
  refine ⟨HeapReachable.init, not_room_of_total_lt (by decide), fun hrun => ?_⟩
  rw [hheap] at hrun
  have hp := Heap.kmalloc_of_no_room kernelHeapConfig.heap_wf (fun i => by
    rw [kernelHeapConfig.total_heap]
    exact not_room_of_total_lt (by decide) i) hrun
  exact absurd hp (by decide)

end N00bOS
