import N00bOS.Items

/-!
# Counting free blocks

Almost everything the kernel allocates takes one block. For such a request
there is room exactly when a block is free, and it takes one away
(`allocate_one`), so that whether a sequence of them can be met is a matter of
counting: `Kernel.freeBlocks` is the budget, in the sense of `Machine.Spends`,
of every program that allocates such structures.

The blocks that are free and those that are held are all the blocks
(`Kernel.freeBlocks_add`), so that the count can also be read off the extents.
Buffers that are kept without looking whether a block was free are here too
(`kzalloc_kept`): they take a block where there is one.
-/

namespace N00bOS

open KernelM

/-- How many blocks of the heap are free. -/
def Kernel.freeBlocks (k : Kernel) : ℕ :=
  ((Finset.range k.heap.total).filter fun i => k.heap.Free k.mem i).card

theorem Kernel.hasFreeBlock_iff {k : Kernel} :
    k.HasFreeBlock ↔ 0 < k.freeBlocks := by
  rw [Kernel.freeBlocks, Finset.card_pos]
  refine ⟨fun ⟨i, hi, hf⟩ =>
    ⟨i, Finset.mem_filter.mpr ⟨Finset.mem_range.mpr hi, hf⟩⟩, ?_⟩
  rintro ⟨i, hmem⟩
  obtain ⟨hi, hf⟩ := Finset.mem_filter.mp hmem
  exact ⟨i, Finset.mem_range.mp hi, hf⟩

theorem Quiet.freeBlocks {k k' : Kernel} (h : Quiet k k') :
    k'.freeBlocks = k.freeBlocks := by
  rw [Kernel.freeBlocks, Kernel.freeBlocks, h.heap]
  exact congrArg Finset.card (Finset.filter_congr fun i hi =>
    h.table.free_iff (Finset.mem_range.mp hi))

theorem ReadFrame.freeBlocks {k k' : Kernel} (h : ReadFrame k k')
    (hk : k.HeapOk) :
    k'.freeBlocks = k.freeBlocks := by
  rw [Kernel.freeBlocks, Kernel.freeBlocks, h.heap]
  exact congrArg Finset.card (Finset.filter_congr fun i hi =>
    (h.table hk).free_iff (Finset.mem_range.mp hi))

/-- No block of a heap whose data is not at address `0` is at address `0`. -/
theorem blockAddress_ne_zero {h : Heap} (hw : h.Wf)
    (hstart : h.startAddress ≠ 0) {i : ℕ} (hi : i < h.total) :
    h.blockAddress i ≠ 0 := by
  intro hzero
  have hnat := Heap.blockAddress_toNat hw hi
  rw [hzero, show (0 : Word).toNat = 0 from rfl] at hnat
  refine hstart (BitVec.eq_of_toNat_eq ?_)
  rw [show (0 : Word).toNat = 0 from rfl]
  omega

/-- An allocation is not null. -/
theorem allocate_ne_null {k k' : Kernel} (hk : k.HeapOk) {size : Word} {p : Ptr}
    (h : allocate size k = Except.ok (p, k')) : p.addr ≠ 0 := by
  obtain ⟨hw, es, hinv⟩ := hk
  obtain ⟨-, ⟨m, rfl⟩, hholds⟩ := allocate_spec h
  obtain ⟨i, haddr, hes⟩ := hholds es ⟨hw, hinv⟩
  have hstop : i + Heap.blocksFor size ≤ k.heap.total :=
    hes.2.packed.stop_le _ List.mem_cons_self
  have hpos : 0 < Heap.blocksFor size := Nat.succ_pos _
  rw [haddr]
  exact blockAddress_ne_zero hw.toWf hw.start_ne_zero (by omega)

/-- **The blocks that are free and those that are held** are all the blocks.
This is where the table becomes a number: what an allocation takes, and what
freeing gives back, can be counted. -/
theorem Kernel.freeBlocks_add {k : Kernel} {es : List Extent}
    (h : Heap.HeapInv k.heap k.mem es) :
    k.freeBlocks + (es.map Extent.count).sum = k.heap.total := by
  rw [Kernel.freeBlocks, Finset.filter_congr fun i hi =>
    h.free_iff (Finset.mem_range.mp hi)]
  exact h.packed.card_free

/-- **A heap that holds one more block** has one free block less. It is all
that most lemmas about room need: nearly every structure of the kernel is
smaller than a block. -/
theorem Kernel.Holds.freeBlocks_cons {k k' : Kernel} {es : List Extent} {i : ℕ}
    (h : k.Holds es) (h' : k'.Holds (⟨i, 1⟩ :: es)) (hheap : k'.heap = k.heap) :
    k'.freeBlocks + 1 = k.freeBlocks := by
  have hold := Kernel.freeBlocks_add h.2
  have hnew := Kernel.freeBlocks_add h'.2
  rw [List.map_cons, List.sum_cons, hheap, show Extent.count ⟨i, 1⟩ = 1 from
    rfl] at hnew
  omega

/-- An allocation of one block takes one. -/
theorem allocate_freeBlocks {k k' : Kernel} (hk : k.HeapOk) {size : Word}
    (hsize : Heap.blocksFor size = 1) {p : Ptr}
    (h : allocate size k = Except.ok (p, k')) :
    k'.HeapOk ∧ k'.freeBlocks + 1 = k.freeBlocks := by
  obtain ⟨hw, es, hinv⟩ := hk
  obtain ⟨-, ⟨m, rfl⟩, hholds⟩ := allocate_spec h
  obtain ⟨i, -, hes⟩ := hholds es ⟨hw, hinv⟩
  rw [hsize] at hes
  exact ⟨⟨hw, _, hes.2⟩, Kernel.Holds.freeBlocks_cons ⟨hw, hinv⟩ hes rfl⟩

theorem allocate_of_kzallocFit {k : Kernel} {size a : Word} {m : Memory}
    (h : k.heap.kzallocFit k.mem size = some (a, m)) :
    allocate size k = Except.ok (⟨a, k.nextId⟩,
      { k with mem := m, nextId := k.nextId + 1 }) := by
  rw [allocate, h]

/-- With a free block, one block is allocated. -/
theorem allocate_of_free {k : Kernel} (hk : k.HeapOk) (hfree : k.HasFreeBlock)
    {size : Word} (hsize : size.toNat < 4096) :
    ∃ p k', allocate size k = Except.ok (p, k') := by
  obtain ⟨hw, es, hinv⟩ := hk
  have hfit := findFirstFit_of_free hw.toWf hfree size hsize
  obtain ⟨i, m, hrun, -⟩ := Heap.kzalloc_spec hw.toWf hinv (by omega) hfit
  exact ⟨_, _,
    allocate_of_kzallocFit (by rw [Heap.kzallocFit, if_pos hfit, hrun])⟩

/-- **A request for one block** spends one. If a block is free it returns an
address that is not null, and else it runs out of memory; no other outcome is
left. -/
theorem allocate_one {k : Kernel} (hk : k.HeapOk) {size : Word}
    (hsize : size.toNat < 4096) :
    Machine.Spends Kernel.freeBlocks Fault.outOfMemory 1
      (allocate size) k fun p k' =>
        p.id = k.nextId ∧ p.addr ≠ 0 ∧ k'.HeapOk
          ∧ ∃ m, k' = { k with mem := m, nextId := k.nextId + 1 } := by
  by_cases hfree : k.HasFreeBlock
  · obtain ⟨p, k', halloc⟩ := allocate_of_free hk hfree hsize
    obtain ⟨hid, hk', -⟩ := allocate_spec halloc
    have hone : Heap.blocksFor size = 1 := by
      unfold Heap.blocksFor
      omega
    obtain ⟨hok, hblocks⟩ := allocate_freeBlocks hk hone halloc
    exact Or.inr ⟨p, k', halloc, hblocks, hid,
      allocate_ne_null hk halloc, hok, hk'⟩
  · refine Or.inl ⟨?_, ?_⟩
    · rw [Kernel.hasFreeBlock_iff] at hfree
      omega
    · rw [allocate, kzallocFit_of_no_free hk.1.toWf hfree (by omega)]

/-- **A buffer of less than a block that is kept** is an allocation of one
block, or, when no block is free, none. -/
theorem kzalloc_holds {k k₁ : Kernel} {es : List Extent} (hes : k.Holds es)
    {size p : Word} (hsize : size.toNat < 4096)
    (h : KernelM.kzalloc size k = Except.ok (p, k₁)) :
    (k.freeBlocks = 0 ∧ k₁.Holds es) ∨ ∃ i, k₁.Holds (⟨i, 1⟩ :: es) := by
  obtain ⟨hp, hinv⟩ := hes
  obtain ⟨m₁, hrun, rfl⟩ := kzalloc_run h
  by_cases hfree : k.HasFreeBlock
  · have hfit : k.heap.kzallocFit k.mem size = some (p, m₁) := by
      rw [Heap.kzallocFit,
        if_pos (findFirstFit_of_free hp.toWf hfree size hsize), hrun]
    have hone : Heap.blocksFor size = 1 := by
      unfold Heap.blocksFor
      omega
    obtain ⟨i, -, -, hinv₁, -⟩ :=
      Heap.kzallocFit_spec hp.toWf hinv (by omega) hfit
    rw [hone] at hinv₁
    exact Or.inr ⟨i, hp, hinv₁⟩
  · -- `kfree` would do nothing with such a page, so the table is the same
    have htable := sameTable_kzalloc_kfree hp hinv hsize hrun
    have hfind : k.heap.findFirstFitStartBlock k.mem (alignToUpper size)
        = -enomem := by
      rcases Heap.search_cases hp.toWf k.mem hsize with
        ⟨i, hi, hf, -⟩ | ⟨hfind, -⟩
      · exact absurd ⟨i, hi, hf⟩ hfree
      · exact hfind
    rw [kzalloc_address hrun, hfind, show BitVec.ofInt 32 (-enomem)
      = Heap.failedIdx from rfl, Heap.kfree_failedIdx hp] at htable
    rw [Kernel.hasFreeBlock_iff] at hfree
    exact Or.inl ⟨by omega, hp, hinv.congr htable⟩

/-- What it does on any heap: the memory below the table stays, but for twelve
bytes when no block is free, and on a heap in use it takes a block when there
is one. -/
theorem kzalloc_kept {k : Kernel} (hp : k.heap.Placed) {size : Word}
    (hsize : size.toNat < 4096) :
    ∃ p m₁, KernelM.kzalloc size k = Except.ok (p, { k with mem := m₁ })
      ∧ SameBelow (heapTableAddress.toNat - 12) k.mem m₁
      ∧ (k.HasFreeBlock → SameBelow heapTableAddress.toNat k.mem m₁)
      ∧ (k.HeapOk → ({ k with mem := m₁ } : Kernel).HeapOk
        ∧ ({ k with mem := m₁ } : Kernel).freeBlocks = k.freeBlocks - 1) := by
  obtain ⟨p, m₁, hrun, hlow, hbelow, -⟩ := Heap.kzalloc_small hp k.mem hsize
  have hkzalloc : KernelM.kzalloc size k
      = Except.ok (p, { k with mem := m₁ }) := by
    rw [KernelM.kzalloc, hrun]
  refine ⟨p, m₁, hkzalloc, hlow, hbelow, ?_⟩
  rintro ⟨-, es, hinv⟩
  have hes : k.Holds es := ⟨hp, hinv⟩
  rcases kzalloc_holds hes hsize hkzalloc with ⟨hzero, hes₁⟩ | ⟨i, hes₁⟩
  · have hold := Kernel.freeBlocks_add hinv
    have hnew := Kernel.freeBlocks_add hes₁.2
    have hheap : ({ k with mem := m₁ } : Kernel).heap = k.heap := rfl
    rw [hheap] at hnew
    exact ⟨⟨hp, es, hes₁.2⟩, by omega⟩
  · have hblocks := hes.freeBlocks_cons hes₁ rfl
    exact ⟨⟨hp, _, hes₁.2⟩, by omega⟩

/-- On a heap with nothing allocated all blocks are free. -/
theorem Kernel.freeBlocks_of_empty {k : Kernel}
    (h : Heap.HeapInv k.heap k.mem []) :
    k.freeBlocks = k.heap.total :=
  Kernel.freeBlocks_add h

end N00bOS
