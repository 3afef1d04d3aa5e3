import Mathlib.Data.List.Nodup
import N00bOS.HeapRuns
import N00bOS.Paging

/-!
# Page tables as a map

What a walk finds is described by a function from pages to entries. An address
space is a chunk, a directory and 1024 tables, each a heap allocation of its
own (`SpaceLayout`), and `SpaceAt` says that they are in memory and hold that
function. Two facts carry everything: the bytes of distinct allocations are
disjoint, and the address of an allocation is a multiple of 4096, so that
or-ing flags into it and masking them off again gives it back.

`PagingReachable` is every state of a run of `paging_new` and `paging_set`
calls, and `page_tables_are_a_map` is what a walk finds in all of them. The
invariant of such a run says where each address space is and what it maps
(`PagingState.Inv`). A `paging_set` writes one word of one table, so it changes
the map of its address space at one page, and of the others nothing, since they
lie in other allocations (`SpaceAt.set`, `SpaceAt.congr`). A `paging_new`
writes to allocations that it makes (`pagingNew_spec`); its two loops are
followed from the entries and the tables that are still to be filled in.
-/

namespace N00bOS

open Memory (index region)

/-! ## Splitting a virtual address

An address is a directory index, a table index and an offset, and the first two
are the page. All of it is arithmetic modulo powers of two. -/

/-- The page of an address. -/
def pageBase (virtualAddress : Word) : Word :=
  virtualAddress &&& pagingAddressMask

/-- The page at a directory index and a table index. -/
def pageAddress (directoryIdx tableIdx : ℕ) : Word :=
  BitVec.ofNat 32 (directoryIdx * 4194304 + tableIdx * 4096)

/-- The directory index of an address. -/
def directoryIdxOf (virtualAddress : Word) : ℕ :=
  (virtualAddress / pagingTableSpan).toNat

/-- The table index of an address. -/
def tableIdxOf (virtualAddress : Word) : ℕ :=
  (virtualAddress % pagingTableSpan / pagingPageSize).toNat

theorem directoryIdxOf_eq (va : Word) :
    directoryIdxOf va = va.toNat / 4194304 :=
  BitVec.toNat_udiv

theorem tableIdxOf_eq (va : Word) :
    tableIdxOf va = va.toNat % 4194304 / 4096 := by
  rw [tableIdxOf, BitVec.toNat_udiv, BitVec.toNat_umod]
  rfl

theorem directoryIdxOf_lt (va : Word) : directoryIdxOf va < 1024 := by
  rw [directoryIdxOf_eq]
  omega

theorem tableIdxOf_lt (va : Word) : tableIdxOf va < 1024 := by
  rw [tableIdxOf_eq]
  omega

/-- `PAGING_ADDRESS_MASK` clears the low twelve bits. -/
theorem pagingAddressMask_getElem (i : ℕ) (hi : i < 32) :
    pagingAddressMask[i] = decide (12 ≤ i) := by
  have hall : ∀ j, j < 32 → pagingAddressMask.getLsbD j = decide (12 ≤ j) := by
    decide
  rw [← BitVec.getLsbD_eq_getElem hi]
  exact hall i hi

/-- Masking rounds down to a multiple of 4096. -/
theorem and_pagingAddressMask_toNat (x : Word) :
    (x &&& pagingAddressMask).toNat = x.toNat / 4096 * 4096 := by
  have hshift : x &&& pagingAddressMask = (x >>> 12) <<< 12 := by
    ext i hi
    rw [BitVec.getElem_and, pagingAddressMask_getElem i hi]
    by_cases h : 12 ≤ i
    · simp [h, Nat.not_lt.mpr h, BitVec.getLsbD_eq_getElem hi]
    · simp [h, Nat.lt_of_not_le h]
  rw [hshift, BitVec.toNat_shiftLeft, BitVec.toNat_ushiftRight,
    Nat.shiftLeft_eq, Nat.shiftRight_eq_div_pow]
  have := x.isLt
  omega

/-- **A table pointer survives its flags**: or-ing a byte of flags and
`PAGING_IS_WRITABLE` into a multiple of 4096, and masking, gives it back. -/
theorem tableEntry_and_mask {table : Word} (haligned : table.toNat % 4096 = 0)
    (flags : Byte) :
    (table ||| flags.setWidth 32 ||| pagingIsWritable.setWidth 32)
      &&& pagingAddressMask
      = table := by
  have hflags : ∀ f : Byte, f.setWidth 32 &&& pagingAddressMask = 0#32 := by
    decide
  have htable : table &&& pagingAddressMask = table := by
    apply BitVec.eq_of_toNat_eq
    rw [and_pagingAddressMask_toNat]
    omega
  rw [BitVec.and_or_distrib_right, BitVec.and_or_distrib_right, htable,
    hflags, hflags, BitVec.or_zero, BitVec.or_zero]

/-- **The index split is onto**: the indices of an address lead to its
page. -/
theorem pageAddress_idxOf (va : Word) :
    pageAddress (directoryIdxOf va) (tableIdxOf va) = pageBase va := by
  apply BitVec.eq_of_toNat_eq
  rw [pageBase, and_pagingAddressMask_toNat, pageAddress, BitVec.toNat_ofNat,
    directoryIdxOf_eq, tableIdxOf_eq]
  have := va.isLt
  omega

/-- **The index split is one to one** on 1024 × 1024. So an entry of a table is
the entry of one page only. -/
theorem pageAddress_inj {i j i' j' : ℕ} (hi : i < 1024) (hj : j < 1024)
    (hi' : i' < 1024) (hj' : j' < 1024)
    (h : pageAddress i j = pageAddress i' j') : i = i' ∧ j = j' := by
  have hnat := congrArg BitVec.toNat h
  rw [pageAddress, pageAddress, BitVec.toNat_ofNat, BitVec.toNat_ofNat] at hnat
  omega

theorem pageAddress_aligned (i j : ℕ) : (pageAddress i j).toNat % 4096 = 0 := by
  rw [pageAddress, BitVec.toNat_ofNat]
  omega

/-- An aligned address is its own page. -/
theorem pageBase_of_aligned {va : Word} (h : va.toNat % 4096 = 0) :
    pageBase va = va := by
  apply BitVec.eq_of_toNat_eq
  rw [pageBase, and_pagingAddressMask_toNat]
  omega

/-- `paging_is_aligned`, as a remainder. -/
theorem pagingIsAligned_iff (va : Word) :
    pagingIsAligned va = true ↔ va.toNat % 4096 = 0 := by
  rw [pagingIsAligned, decide_eq_true_iff, ← BitVec.toNat_inj,
    BitVec.toNat_umod]
  rfl

/-- **`paging_set` on an unaligned address** changes nothing. It returns
`-EINVAL`, before it looks at the directory. -/
theorem pagingSet_of_not_aligned {va : Word} (h : ¬ va.toNat % 4096 = 0)
    (m : Memory) (directory value : Word) :
    pagingSet m directory va value = (-einval, m) := by
  have hal : pagingIsAligned va = false := by
    rw [Bool.eq_false_iff, ne_eq, pagingIsAligned_iff]
    exact h
  rw [pagingSet, pagingGetIdxs, hal]
  rfl

/-- **`paging_set` on an aligned address** is one store. The entry is found as
a walk finds it: the table through the directory, with its flags masked off,
and the entry by the index. -/
theorem pagingSet_of_aligned {va : Word} (h : va.toNat % 4096 = 0) (m : Memory)
    (directory value : Word) : pagingSet m directory va value
      = (0, m.store32 (index (m.load32 (index directory (directoryIdxOf va))
          &&& pagingAddressMask) (tableIdxOf va)) value) := by
  rw [pagingSet, pagingGetIdxs, (pagingIsAligned_iff va).mpr h]
  rfl

/-! ## An address space in memory

Where the tables are, what they hold, and what a walk and a `paging_set` do
there. -/

/-- Where the allocations of an address space are, by their first blocks. -/
structure SpaceLayout where
  /-- The `paging_chunk`. -/
  chunk : ℕ
  /-- The directory. -/
  directory : ℕ
  /-- The tables. -/
  table : ℕ → ℕ

namespace SpaceLayout

/-- The allocation of the chunk. -/
def chunkExtent (L : SpaceLayout) : Extent := ⟨L.chunk, 1⟩

/-- The allocation of the directory. -/
def directoryExtent (L : SpaceLayout) : Extent := ⟨L.directory, 2⟩

/-- The allocation of a table. -/
def tableExtent (L : SpaceLayout) (i : ℕ) : Extent := ⟨L.table i, 2⟩

/-- All the allocations, the latest first. -/
def extents (L : SpaceLayout) : List Extent :=
  L.chunkExtent :: ((List.range' 0 1024).map L.tableExtent
    ++ [L.directoryExtent])

theorem chunkExtent_mem (L : SpaceLayout) : L.chunkExtent ∈ L.extents :=
  List.mem_cons_self

theorem directoryExtent_mem (L : SpaceLayout) : L.directoryExtent ∈ L.extents :=
  List.mem_cons_of_mem _ (List.mem_append_right _ (List.mem_singleton_self _))

theorem tableExtent_mem (L : SpaceLayout) {i : ℕ} (hi : i < 1024) :
    L.tableExtent i ∈ L.extents := by
  refine List.mem_cons_of_mem _ (List.mem_append_left _
    (List.mem_map_of_mem ?_))
  rw [List.mem_range'_1]
  omega

/-- Allocations that are all distinct: no table is the directory. -/
theorem directoryExtent_ne (L : SpaceLayout) (hnd : L.extents.Nodup) {i : ℕ}
    (hi : i < 1024) :
    L.directoryExtent ≠ L.tableExtent i := by
  have happ := (List.nodup_append.mp (List.nodup_cons.mp hnd).2).2.2
  refine (happ _ (List.mem_map_of_mem ?_) _ (List.mem_singleton_self _)).symm
  rw [List.mem_range'_1]
  omega

/-- Allocations that are all distinct: no table is another. -/
theorem tableExtent_ne (L : SpaceLayout) (hnd : L.extents.Nodup) {i j : ℕ}
    (hi : i < 1024) (hj : j < 1024) (hij : i ≠ j) :
    L.tableExtent i ≠ L.tableExtent j := by
  have hmap := (List.nodup_append.mp (List.nodup_cons.mp hnd).2).1
  intro heq
  refine hij (List.inj_on_of_nodup_map hmap ?_ ?_ heq)
  · rw [List.mem_range'_1]
    omega
  · rw [List.mem_range'_1]
    omega

end SpaceLayout

/-- **An address space in memory**: `page` is what it maps each page to. The
chunk has the address of the directory, the directory those of the tables with
flags in the low bits, and the tables have the values. -/
structure SpaceAt (h : Heap) (m : Memory) (chunk : Word) (L : SpaceLayout)
    (page : Word → Word) : Prop where
  chunk_eq : chunk = h.blockAddress L.chunk
  directory_eq : pagingDirectory m chunk = h.blockAddress L.directory
  table_eq : ∀ i, i < 1024 → m.load32 (index (h.blockAddress L.directory) i)
    &&& pagingAddressMask = h.blockAddress (L.table i)
  page_eq : ∀ i j, i < 1024 → j < 1024 →
    m.load32 (index (h.blockAddress (L.table i)) j) = page (pageAddress i j)

namespace SpaceAt

variable {h : Heap} {m m' : Memory} {chunk : Word} {L : SpaceLayout}
  {page : Word → Word}

/-- **A walk reads the map.** The flags in the entry of the directory are below
the address of the table, and are masked off. -/
theorem walk (hs : SpaceAt h m chunk L page) (va : Word) :
    pagingWalk m (pagingDirectory m chunk) va = page (pageBase va) := by
  have htable := hs.table_eq _ (directoryIdxOf_lt va)
  have hpage := hs.page_eq _ _ (directoryIdxOf_lt va) (tableIdxOf_lt va)
  rw [pageAddress_idxOf] at hpage
  rw [hs.directory_eq]
  show m.load32
    (index (m.load32 (index (h.blockAddress L.directory) (directoryIdxOf va))
    &&& pagingAddressMask) (tableIdxOf va)) = _
  rw [htable, hpage]

/-- A word of a table or a directory is part of its allocation. -/
theorem index_subset (h : Heap) (k : ℕ) {i : ℕ} (hi : i < 1024) :
    region (index (h.blockAddress k) i) 4 ⊆ h.dataRegion ⟨k, 2⟩ :=
  Memory.region_index_subset (show 4 * i + 4 ≤ 2 * 4096 from by omega)
    (show 2 * 4096 ≤ 2 ^ 32 from by decide)

/-- The word of a chunk is part of its allocation. -/
theorem chunk_subset (hs : SpaceAt h m chunk L page) :
    region chunk 4 ⊆ h.dataRegion L.chunkExtent := by
  rw [hs.chunk_eq]
  exact Memory.region_subset (show 4 ≤ 1 * 4096 from by decide)

/-- **An address space lives in its allocations only.** Whatever else is
written to memory, the map is the same as long as their bytes are. -/
theorem congr (hs : SpaceAt h m chunk L page)
    (heq : ∀ e ∈ L.extents, Set.EqOn m' m (h.dataRegion e)) :
    SpaceAt h m' chunk L page where
  chunk_eq := hs.chunk_eq
  directory_eq := by
    rw [← hs.directory_eq]
    exact Memory.load32_congr ((heq _ L.chunkExtent_mem).mono hs.chunk_subset)
  table_eq := fun i hi => by
    rw [← hs.table_eq i hi, Memory.load32_congr
      ((heq _ L.directoryExtent_mem).mono (index_subset h L.directory hi))]
  page_eq := fun i j hi hj => by
    rw [← hs.page_eq i j hi hj]
    exact Memory.load32_congr
      ((heq _ (L.tableExtent_mem hi)).mono (index_subset h (L.table i) hj))

/-- Only the values at pages matter. -/
theorem congr_page {page' : Word → Word} (hs : SpaceAt h m chunk L page)
    (heq : ∀ i j, i < 1024 → j < 1024 →
      page (pageAddress i j) = page' (pageAddress i j)) :
    SpaceAt h m chunk L page' :=
  ⟨hs.chunk_eq, hs.directory_eq, hs.table_eq, fun i j hi hj =>
    (hs.page_eq i j hi hj).trans (heq i j hi hj)⟩

/-- **`paging_set` on an aligned address** replaces one page of the map. It
writes inside one table of the address space. -/
theorem set (hw : h.Wf) {es : List Extent} (hinv : Heap.HeapInv h m es)
    (hs : SpaceAt h m chunk L page) (hmem : ∀ e ∈ L.extents, e ∈ es)
    (hnd : L.extents.Nodup) {va : Word} (hva : va.toNat % 4096 = 0)
    (value : Word) :
    (pagingSet m (pagingDirectory m chunk) va value).1 = 0
      ∧ Set.EqOn (pagingSet m (pagingDirectory m chunk) va value).2 m
          (h.dataRegion (L.tableExtent (directoryIdxOf va)))ᶜ
      ∧ SpaceAt h (pagingSet m (pagingDirectory m chunk) va value).2 chunk L
          (Function.update page va value) := by
  have hi := directoryIdxOf_lt va
  have hj := tableIdxOf_lt va
  have hva' : pageAddress (directoryIdxOf va) (tableIdxOf va) = va := by
    rw [pageAddress_idxOf, pageBase_of_aligned hva]
  rw [pagingSet_of_aligned hva, hs.directory_eq, hs.table_eq _ hi]
  generalize directoryIdxOf va = i at hi hva' ⊢
  generalize tableIdxOf va = j at hj hva' ⊢
  have hwrite : Set.EqOn
    (m.store32 (index (h.blockAddress (L.table i)) j) value) m
      (h.dataRegion (L.tableExtent i))ᶜ :=
    (Memory.eqOn_store32 m _ value).mono
      (Set.compl_subset_compl.mpr (index_subset h _ hj))
  obtain ⟨-, hother⟩ := hinv.eqOn_dataRegion hw
    (hmem _ (L.tableExtent_mem hi)) hwrite
  have hkeep : ∀ e ∈ L.extents, e ≠ L.tableExtent i →
      Set.EqOn (m.store32 (index (h.blockAddress (L.table i)) j) value) m
        (h.dataRegion e) :=
    fun e he hne => hother e (hmem e he) hne
  refine ⟨rfl, hwrite, hs.chunk_eq,
    ?_, fun i' hi' => ?_, fun i' j' hi' hj' => ?_⟩
  · -- the chunk has one block, a table has two
    have hne : L.chunkExtent ≠ L.tableExtent i := fun heq =>
      absurd (congrArg Extent.count heq) (show (1 : ℕ) ≠ 2 by decide)
    rw [← hs.directory_eq]
    exact Memory.load32_congr
      ((hkeep _ L.chunkExtent_mem hne).mono hs.chunk_subset)
  · rw [← hs.table_eq i' hi',
      Memory.load32_congr ((hkeep _ L.directoryExtent_mem
      (L.directoryExtent_ne hnd hi)).mono (index_subset h L.directory hi'))]
  · rw [← hva']
    by_cases hii : i' = i
    · rw [hii]
      by_cases hjj : j' = j
      · rw [hjj, Memory.load32_store32_self, Function.update_self]
      · rw [Memory.load32_store32_index_of_ne (by omega) (by omega) hjj,
          hs.page_eq i j' hi hj', Function.update_of_ne
            (fun heq => hjj (pageAddress_inj hi hj' hi hj heq).2)]
    · rw [Function.update_of_ne (fun heq =>
        hii (pageAddress_inj hi' hj' hi hj heq).1), ← hs.page_eq i' j' hi' hj',
          Memory.load32_congr ((hkeep _ (L.tableExtent_mem hi')
          (L.tableExtent_ne hnd hi' hi hii)).mono
            (index_subset h (L.table i') hj'))]

end SpaceAt

/-! ## `paging_new`

The two loops, from the inside out, and what the heap must have for them. -/

/-- The inner loop writes the entries of its table from `tableIdx` on. -/
theorem pagingFillTable_spec (table offset : Word) (flags : Byte)
    (left tableIdx : ℕ) (m : Memory) (hle : tableIdx + left ≤ 1024) :
    Set.EqOn (pagingFillTable table offset flags left tableIdx m) m
      (region table (2 * 4096))ᶜ
      ∧ (∀ j, j < tableIdx →
        (pagingFillTable table offset flags left tableIdx m).load32
          (index table j) = m.load32 (index table j))
      ∧ ∀ j, tableIdx ≤ j → j < tableIdx + left →
          (pagingFillTable table offset flags left tableIdx m).load32
            (index table j)
            = (offset + BitVec.ofNat 32 j * pagingPageSize)
              ||| flags.setWidth 32 := by
  induction left generalizing tableIdx m with
  | zero =>
    exact ⟨fun _ _ => rfl, fun _ _ => rfl, fun j h₁ h₂ => absurd h₂ (by omega)⟩
  | succ left ih =>
    rw [pagingFillTable]
    set entry :=
      (offset + BitVec.ofNat 32 tableIdx * pagingPageSize) ||| flags.setWidth 32
      with hentry
    obtain ⟨hframe, hbefore, hafter⟩ := ih (tableIdx + 1)
      (m.store32 (index table tableIdx) entry) (by omega)
    refine ⟨hframe.trans ?_, fun j hj => ?_, fun j h₁ h₂ => ?_⟩
    · refine (Memory.eqOn_store32 m _ entry).mono
        (Set.compl_subset_compl.mpr ?_)
      exact Memory.region_index_subset (by omega) (by decide)
    · rw [hbefore j (by omega),
        Memory.load32_store32_index_of_ne (by omega) (by omega) (by omega)]
    · rcases Nat.eq_or_lt_of_le h₁ with rfl | hlt
      · rw [hbefore tableIdx (by omega), Memory.load32_store32_self]
      · exact hafter j hlt (by omega)

/-- The entry `paging_new` writes for a page is the page itself, with the
flags. -/
theorem pagingEntry_eq (i j : ℕ) : BitVec.ofNat 32 (i * 4194304)
    + BitVec.ofNat 32 j * pagingPageSize = pageAddress i j := by
  rw [pageAddress, BitVec.ofNat_add, BitVec.ofNat_mul j 4096]
  rfl

theorem blocksFor_pagingTableSize :
    Heap.blocksFor pagingTableSize = 2 := by decide

theorem blocksFor_pagingChunkSize :
    Heap.blocksFor pagingChunkSize = 1 := by decide

/-- The address of a block is a multiple of 4096. -/
theorem blockAddress_aligned {h : Heap} (hw : h.Wf) {i : ℕ} (hi : i < h.total) :
    (h.blockAddress i).toNat % 4096 = 0 := by
  have := hw.aligned
  rw [Heap.blockAddress_toNat hw hi]
  omega

/-- What one round of the outer loop writes: the table, then the directory
entry. -/
def pagingFillEntry (table directory : Word) (flags : Byte) (dirIdx : ℕ)
    (m : Memory) : Memory :=
  (pagingFillTable table (BitVec.ofNat 32 (dirIdx * 4194304)) flags
    pagingTotalEntriesPerTable
    0 m).store32 (index directory dirIdx)
      (table ||| flags.setWidth 32 ||| pagingIsWritable.setWidth 32)

/-- The outer loop, one round at a time. -/
theorem pagingFillDirectory_succ
    (kzalloc : Memory → Word → Option (Word × Memory)) (directory : Word)
    (flags : Byte) (left dirIdx : ℕ) (m : Memory) :
    pagingFillDirectory kzalloc directory flags (left + 1) dirIdx
        (BitVec.ofNat 32 (dirIdx * 4194304)) m
      = (kzalloc m pagingTableSize).bind fun r =>
          pagingFillDirectory kzalloc directory flags left (dirIdx + 1)
            (BitVec.ofNat 32 ((dirIdx + 1) * 4194304))
            (pagingFillEntry r.1 directory flags dirIdx r.2) := by
  have hoffset : BitVec.ofNat 32 (dirIdx * 4194304) + pagingTableSpan
      = BitVec.ofNat 32 ((dirIdx + 1) * 4194304) := by
    rw [Nat.add_mul, BitVec.ofNat_add]
    rfl
  rw [← hoffset]
  rfl

/-- **One round of the outer loop**: a fresh table, filled in, that the
directory points to. -/
theorem pagingFillEntry_spec {h : Heap} (hw : h.Wf) {d dirIdx : ℕ}
    (flags : Byte) {m m₁ : Memory} {table : Word} {es : List Extent}
    (hdirIdx : dirIdx < 1024) (hinv : Heap.HeapInv h m es) (hd : ⟨d, 2⟩ ∈ es)
    (halloc : h.kzallocFit m pagingTableSize = some (table, m₁)) :
    ∃ k, table = h.blockAddress k
      ∧ FirstRoom (h.Free m) h.total 2 k
      ∧ Heap.HeapInv h (pagingFillEntry table (h.blockAddress d) flags dirIdx
        m₁) (⟨k, 2⟩ :: es)
      ∧ (∀ e ∈ es, e ≠ ⟨d, 2⟩ → Set.EqOn
          (pagingFillEntry table (h.blockAddress d) flags dirIdx m₁) m
            (h.dataRegion e))
      ∧ (∀ i, i < 1024 → i ≠ dirIdx →
          (pagingFillEntry table (h.blockAddress d) flags dirIdx m₁).load32
            (index (h.blockAddress d) i)
              = m.load32 (index (h.blockAddress d) i))
      ∧ (pagingFillEntry table (h.blockAddress d) flags dirIdx m₁).load32
          (index (h.blockAddress d) dirIdx) &&& pagingAddressMask
            = h.blockAddress k
      ∧ ∀ j, j < 1024 →
        (pagingFillEntry table (h.blockAddress d) flags dirIdx m₁).load32
          (index (h.blockAddress k) j)
            = pageAddress dirIdx j ||| flags.setWidth 32 := by
  obtain ⟨k, rfl, hroom, hinv₁, hkeep₁, -⟩ :=
    Heap.kzallocFit_spec hw hinv (by decide) halloc
  rw [blocksFor_pagingTableSize] at hroom hinv₁
  have hk : k < h.total := by
    have := hroom.1.1
    omega
  rw [pagingFillEntry]
  -- first the table is filled in
  set m₂ := pagingFillTable (h.blockAddress k)
    (BitVec.ofNat 32 (dirIdx * 4194304)) flags
    pagingTotalEntriesPerTable 0 m₁ with hm₂
  obtain ⟨hfill, -, hentries⟩ := pagingFillTable_spec (h.blockAddress k)
    (BitVec.ofNat 32 (dirIdx * 4194304)) flags pagingTotalEntriesPerTable 0
      m₁ (by decide)
  obtain ⟨hinv₂, hkeep₂⟩ := hinv₁.eqOn_dataRegion hw List.mem_cons_self hfill
  -- then the directory gets its pointer
  set entry :=
    h.blockAddress k ||| flags.setWidth 32 ||| pagingIsWritable.setWidth 32
    with hentry
  have hwrite : Set.EqOn (m₂.store32 (index (h.blockAddress d) dirIdx) entry) m₂
      (h.dataRegion ⟨d, 2⟩)ᶜ :=
    (Memory.eqOn_store32 m₂ _ entry).mono
      (Set.compl_subset_compl.mpr (SpaceAt.index_subset h d hdirIdx))
  have hd₁ := List.mem_cons_of_mem (⟨k, 2⟩ : Extent) hd
  obtain ⟨hinv₃, hkeep₃⟩ := hinv₂.eqOn_dataRegion hw hd₁ hwrite
  have hfresh : ∀ e ∈ es, e ≠ ⟨k, 2⟩ := fun e he heq =>
    (List.nodup_cons.mp hinv₁.packed.nodup).1 (heq ▸ he)
  refine ⟨k, rfl, hroom, hinv₃, fun e he hne => ?_, fun i hi hne => ?_,
    ?_, fun j hj => ?_⟩
  · have he₁ := List.mem_cons_of_mem (⟨k, 2⟩ : Extent) he
    exact (hkeep₃ e he₁ hne).trans
      ((hkeep₂ e he₁ (hfresh e he)).trans (hkeep₁ e he))
  · rw [Memory.load32_store32_index_of_ne (by omega) (by omega) hne]
    have hdir : Set.EqOn m₂ m (h.dataRegion ⟨d, 2⟩) :=
      (hkeep₂ _ hd₁ (hfresh _ hd)).trans (hkeep₁ _ hd)
    exact Memory.load32_congr (hdir.mono (SpaceAt.index_subset h d hi))
  · rw [Memory.load32_store32_self, hentry]
    exact tableEntry_and_mask (blockAddress_aligned hw hk) flags
  · rw [Memory.load32_congr
      ((hkeep₃ _ List.mem_cons_self (hfresh _ hd).symm).mono
      (SpaceAt.index_subset h k hj)), hentries j (Nat.zero_le j)
      (Nat.lt_of_lt_of_le hj (by decide)), pagingEntry_eq]

/-- **The outer loop** gives the directory, itself an allocation, the tables
from `dirIdx` on. Every other allocation keeps its bytes. -/
theorem pagingFillDirectory_spec {h : Heap} (hw : h.Wf) {d : ℕ} (flags : Byte)
    (left dirIdx : ℕ) {m m' : Memory} {es : List Extent}
    (hle : dirIdx + left ≤ 1024) (hinv : Heap.HeapInv h m es) (hd : ⟨d, 2⟩ ∈ es)
    (hrun : pagingFillDirectory h.kzallocFit (h.blockAddress d) flags
      left dirIdx (BitVec.ofNat 32 (dirIdx * 4194304)) m = some m') :
    ∃ t : ℕ → ℕ,
      Heap.HeapInv h m'
        ((List.range' dirIdx left).map (fun i => ⟨t i, 2⟩) ++ es)
      ∧ (∀ e ∈ es, e ≠ ⟨d, 2⟩ → Set.EqOn m' m (h.dataRegion e))
      ∧ (∀ i, i < dirIdx → m'.load32 (index (h.blockAddress d) i)
          = m.load32 (index (h.blockAddress d) i))
      ∧ ∀ i, dirIdx ≤ i → i < dirIdx + left →
          m'.load32 (index (h.blockAddress d) i) &&& pagingAddressMask
            = h.blockAddress (t i)
          ∧ ∀ j, j < 1024 → m'.load32 (index (h.blockAddress (t i)) j)
              = pageAddress i j ||| flags.setWidth 32 := by
  induction left generalizing dirIdx m es with
  | zero =>
    obtain rfl := Option.some.inj hrun
    exact ⟨fun _ => 0, hinv, fun _ _ _ _ _ => rfl, fun _ _ => rfl,
      fun i h₁ h₂ => absurd h₂ (by omega)⟩
  | succ left ih =>
    rw [pagingFillDirectory_succ] at hrun
    obtain ⟨⟨table, m₁⟩, halloc, hrest⟩ := Option.bind_eq_some_iff.mp hrun
    obtain ⟨k, -, -, hinv₁, hkeep₁, hdir₁, hentry, hpages⟩ :=
      pagingFillEntry_spec hw flags (show dirIdx < 1024 from by omega)
        hinv hd halloc
    have hd₁ := List.mem_cons_of_mem (⟨k, 2⟩ : Extent) hd
    have hfresh : ∀ e ∈ es, e ≠ ⟨k, 2⟩ := fun e he heq =>
      (List.nodup_cons.mp hinv₁.packed.nodup).1 (heq ▸ he)
    obtain ⟨t, hinv', hkeep', hbefore, hafter⟩ :=
      ih (dirIdx + 1) (by omega) hinv₁ hd₁ hrest
    have ht : ∀ i,
      dirIdx < i → Function.update t dirIdx k i = t i := fun i hi =>
        Function.update_of_ne (Nat.ne_of_gt hi) k t
    refine ⟨Function.update t dirIdx k,
      hinv'.perm ?_, fun e he hne => ?_, fun i hi => ?_, fun i h₁ h₂ => ?_⟩
    · have hmap : (List.range' (dirIdx + 1) left).map
        (fun i => (⟨t i, 2⟩ : Extent))
          = (List.range' (dirIdx + 1) left).map
              (fun i => (⟨Function.update t dirIdx k i, 2⟩ : Extent)) := by
        refine List.map_congr_left (fun i hi => ?_)
        rw [List.mem_range'_1] at hi
        rw [ht i (by omega)]
      rw [List.range'_succ, List.map_cons, Function.update_self,
        List.cons_append, hmap]
      exact List.perm_middle
    · exact (hkeep' e (List.mem_cons_of_mem _ he) hne).trans (hkeep₁ e he hne)
    · rw [hbefore i (by omega), hdir₁ i (by omega) (by omega)]
    · rcases Nat.eq_or_lt_of_le h₁ with rfl | hlt
      · rw [Function.update_self, hbefore dirIdx (by omega)]
        refine ⟨hentry, fun j hj => ?_⟩
        rw [← hpages j hj]
        exact Memory.load32_congr
          ((hkeep' _ List.mem_cons_self (hfresh _ hd).symm).mono
          (SpaceAt.index_subset h k hj))
      · rw [ht i hlt]
        exact hafter i hlt (by omega)

/-- **`paging_new`, every allocation succeeding**, makes an address space
that maps each page to itself with the flags. Every other allocation keeps
its bytes. -/
theorem pagingNew_spec {h : Heap} (hw : h.Wf) (flags : Byte) {m m' : Memory}
    {chunk : Word} {es : List Extent} (hinv : Heap.HeapInv h m es)
    (hrun : pagingNew h.kzallocFit flags m = some (chunk, m')) :
    ∃ L : SpaceLayout, Heap.HeapInv h m' (L.extents ++ es)
      ∧ SpaceAt h m' chunk L (fun a => a ||| flags.setWidth 32)
      ∧ ∀ e ∈ es, Set.EqOn m' m (h.dataRegion e) := by
  obtain ⟨⟨directory, m₁⟩, halloc, hrest⟩ := Option.bind_eq_some_iff.mp hrun
  obtain ⟨m₂, hfill, hrest⟩ := Option.bind_eq_some_iff.mp hrest
  obtain ⟨⟨c, m₃⟩, hchunk, hret⟩ := Option.bind_eq_some_iff.mp hrest
  obtain ⟨rfl, rfl⟩ := Prod.mk.inj (Option.some.inj hret)
  -- the directory
  obtain ⟨d, rfl, -, hinv₁, hkeep₁, -⟩ :=
    Heap.kzallocFit_spec hw hinv (by decide) halloc
  rw [blocksFor_pagingTableSize] at hinv₁
  have hfresh₁ : ∀ e ∈ es, e ≠ ⟨d, 2⟩ := fun e he heq =>
    (List.nodup_cons.mp hinv₁.packed.nodup).1 (heq ▸ he)
  -- its tables
  obtain ⟨t, hinv₂, hkeep₂, -, htables⟩ := pagingFillDirectory_spec hw flags
    pagingTotalEntriesPerTable 0 (by decide) hinv₁ List.mem_cons_self hfill
  -- the chunk
  obtain ⟨c, rfl, -, hinv₃, hkeep₃, -⟩ :=
    Heap.kzallocFit_spec hw hinv₂ (by decide) hchunk
  rw [blocksFor_pagingChunkSize] at hinv₃
  have hsubset : region (h.blockAddress c) 4 ⊆ h.dataRegion ⟨c, 1⟩ :=
    Memory.region_subset (show 4 ≤ 1 * 4096 from by decide)
  obtain ⟨hinv₄, hkeep₄⟩ := hinv₃.eqOn_dataRegion hw List.mem_cons_self
    ((Memory.eqOn_store32 m₃ (h.blockAddress c) (h.blockAddress d)).mono
      (Set.compl_subset_compl.mpr hsubset))
  have hkeep : ∀ e ∈ (List.range' 0 1024).map (fun i =>
    (⟨t i, 2⟩ : Extent)) ++ ⟨d, 2⟩ :: es,
      Set.EqOn (m₃.store32 (h.blockAddress c) (h.blockAddress d)) m₂
        (h.dataRegion e) :=
    fun e he => (hkeep₄ e (List.mem_cons_of_mem _ he) (fun heq =>
      (List.nodup_cons.mp hinv₃.packed.nodup).1 (heq ▸ he))).trans (hkeep₃ e he)
  refine ⟨⟨c, d, t⟩, ?_, ⟨rfl, Memory.load32_store32_self _ _ _, fun i hi => ?_,
    fun i j hi hj => ?_⟩, fun e he => ?_⟩
  · rw [SpaceLayout.extents, List.cons_append, List.append_assoc]
    exact hinv₄
  · rw [← (htables i (Nat.zero_le i) (Nat.lt_of_lt_of_le hi (by decide))).1]
    refine congrArg (· &&& pagingAddressMask) (Memory.load32_congr ?_)
    exact (hkeep _ (List.mem_append_right _ List.mem_cons_self)).mono
      (SpaceAt.index_subset h d hi)
  · rw [← (htables i (Nat.zero_le i) (Nat.lt_of_lt_of_le hi (by decide))).2 j
      hj]
    refine Memory.load32_congr
      ((hkeep _ (List.mem_append_left _ (List.mem_map.mpr
      ⟨i, ?_, rfl⟩))).mono (SpaceAt.index_subset h (t i) hj))
    rw [List.mem_range'_1]
    omega
  · exact (hkeep e (List.mem_append_right _ (List.mem_cons_of_mem _ he))).trans
      ((hkeep₂ e (List.mem_cons_of_mem _ he) (hfresh₁ e he)).trans
        (hkeep₁ e he))

/-! ### When `paging_new` succeeds

An address space takes 2051 blocks. A heap with that many at its end has room
for it, and takes no block behind them. -/

/-- The outer loop succeeds on a heap whose end is free. -/
theorem pagingFillDirectory_of_room {h : Heap} (hw : h.Wf) {d b : ℕ}
    (flags : Byte) (left dirIdx : ℕ) {m : Memory} {es : List Extent}
    (hle : dirIdx + left ≤ 1024) (hinv : Heap.HeapInv h m es) (hd : ⟨d, 2⟩ ∈ es)
    (hb : ∀ e ∈ es, e.stop ≤ b) (hroom : b + 2 * left ≤ h.total) :
    ∃ m' es', pagingFillDirectory h.kzallocFit
      (h.blockAddress d) flags left dirIdx
        (BitVec.ofNat 32 (dirIdx * 4194304)) m = some m'
      ∧ Heap.HeapInv h m' es' ∧ ∀ e ∈ es', e.stop ≤ b + 2 * left := by
  induction left generalizing dirIdx m es b with
  | zero => exact ⟨m, es, rfl, hinv, hb⟩
  | succ left ih =>
    have htable : b + Heap.blocksFor pagingTableSize ≤ h.total := by
      rw [blocksFor_pagingTableSize]
      omega
    obtain ⟨⟨table, m₁⟩, halloc⟩ :=
      Heap.kzallocFit_of_room hw hinv (by decide) hb htable
    obtain ⟨k, -, hfirst, hinv₁, -⟩ :=
      pagingFillEntry_spec hw flags (show dirIdx < 1024 from by omega)
        hinv hd halloc
    have hk := hfirst.le (hinv.room_of_stop_le hb (by omega))
    have hb₁ : ∀ e ∈ (⟨k, 2⟩ : Extent) :: es, e.stop ≤ b + 2 := by
      refine List.forall_mem_cons.mpr
        ⟨?_, fun e he => Nat.le_add_right_of_le (hb e he)⟩
      exact Nat.add_le_add_right hk 2
    obtain ⟨m', es', hrun, hinv', hb'⟩ := ih (dirIdx + 1) (by omega) hinv₁
      (List.mem_cons_of_mem _ hd) hb₁ (by omega)
    refine ⟨m', es', ?_, hinv', fun e he => ?_⟩
    · rw [pagingFillDirectory_succ, halloc]
      exact hrun
    · have := hb' e he
      omega

/-- **`paging_new` succeeds where 2051 blocks are free at the end** of the
heap, and takes no others behind them. -/
theorem pagingNew_below {h : Heap} (hw : h.Wf) {b : ℕ} (flags : Byte)
    {m : Memory} {es : List Extent} (hinv : Heap.HeapInv h m es)
    (hb : ∀ e ∈ es, e.stop ≤ b) (hroom : b + 2051 ≤ h.total) :
    ∃ chunk m' es', pagingNew h.kzallocFit flags m = some (chunk, m')
      ∧ Heap.HeapInv h m' es'
      ∧ ∀ e ∈ es', e.stop ≤ b + 2051 := by
  have hdirectory : b + Heap.blocksFor pagingTableSize ≤ h.total := by
    rw [blocksFor_pagingTableSize]
    omega
  obtain ⟨d, m₁, halloc, hinv₁, -, hb₁⟩ :=
    Heap.kzallocFit_below hw hinv (by decide) hb hdirectory
  rw [blocksFor_pagingTableSize] at hinv₁ hb₁
  have hentries : pagingTotalEntriesPerTable = 1024 := rfl
  obtain ⟨m₂, es₂, hfill, hinv₂, hb₂⟩ := pagingFillDirectory_of_room hw flags
    pagingTotalEntriesPerTable 0 (by decide) hinv₁ List.mem_cons_self
      hb₁ (by omega)
  obtain ⟨c, m₃, hchunk, hinv₃, -, hb₃⟩ := Heap.kzallocFit_below hw hinv₂
    (show pagingChunkSize.toNat + 4096 < 2 ^ 32 by decide) hb₂ (by
    rw [blocksFor_pagingChunkSize]
    omega)
  rw [blocksFor_pagingChunkSize] at hinv₃ hb₃
  have hsubset : region (h.blockAddress c) 4 ⊆ h.dataRegion ⟨c, 1⟩ :=
    Memory.region_subset (show 4 ≤ 1 * 4096 from by decide)
  obtain ⟨hinv₄, -⟩ := hinv₃.eqOn_dataRegion hw List.mem_cons_self
    ((Memory.eqOn_store32 m₃ (h.blockAddress c) (h.blockAddress d)).mono
      (Set.compl_subset_compl.mpr hsubset))
  refine ⟨h.blockAddress c, m₃.store32 (h.blockAddress c) (h.blockAddress d),
    _, ?_, hinv₄, fun e he => ?_⟩
  · refine Option.bind_eq_some_iff.mpr ⟨_, halloc, ?_⟩
    refine Option.bind_eq_some_iff.mpr ⟨_, hfill, ?_⟩
    exact Option.bind_eq_some_iff.mpr ⟨_, hchunk, rfl⟩
  · have := hb₃ e he
    omega

theorem pagingNew_of_room {h : Heap} (hw : h.Wf) {b : ℕ} (flags : Byte)
    {m : Memory} {es : List Extent} (hinv : Heap.HeapInv h m es)
    (hb : ∀ e ∈ es, e.stop ≤ b) (hroom : b + 2051 ≤ h.total) :
    (pagingNew h.kzallocFit flags m).isSome := by
  obtain ⟨chunk, m', es', hnew, -⟩ := pagingNew_below hw flags hinv hb hroom
  exact Option.isSome_iff_exists.mpr ⟨(chunk, m'), hnew⟩

/-- A run of the outer loop that only makes successful allocations is a run
of it. -/
theorem pagingFillDirectory_kzalloc {h : Heap} (directory : Word) (flags : Byte)
    (left dirIdx : ℕ) (offset : Word) {m m' : Memory}
    (hrun : pagingFillDirectory h.kzallocFit directory flags left dirIdx offset
      m = some m') :
    pagingFillDirectory h.kzalloc directory flags left dirIdx offset m
      = some m' := by
  induction left generalizing dirIdx offset m with
  | zero => exact hrun
  | succ left ih =>
    obtain ⟨r, halloc, hrest⟩ := Option.bind_eq_some_iff.mp hrun
    exact Option.bind_eq_some_iff.mpr ⟨r, Heap.kzalloc_of_kzallocFit halloc,
      ih _ _ hrest⟩

/-- A `paging_new` that only makes successful allocations is a
`paging_new`. -/
theorem pagingNew_kzalloc {h : Heap} {flags : Byte} {m : Memory}
    {r : Word × Memory} (hrun : pagingNew h.kzallocFit flags m = some r) :
    pagingNew h.kzalloc flags m = some r := by
  obtain ⟨d, halloc, hrest⟩ := Option.bind_eq_some_iff.mp hrun
  obtain ⟨m₂, hfill, hrest⟩ := Option.bind_eq_some_iff.mp hrest
  obtain ⟨c, hchunk, hret⟩ := Option.bind_eq_some_iff.mp hrest
  refine Option.bind_eq_some_iff.mpr ⟨d, Heap.kzalloc_of_kzallocFit halloc, ?_⟩
  refine Option.bind_eq_some_iff.mpr
    ⟨m₂, pagingFillDirectory_kzalloc _ _ _ _ _ hfill, ?_⟩
  exact Option.bind_eq_some_iff.mpr ⟨c, Heap.kzalloc_of_kzallocFit hchunk, hret⟩

/-! ## Runs

Any number of address spaces, and any calls on them, in any order. -/

/-- An address space of a run: its chunk, the flags it was made with, and
the `paging_set` calls made on it, the latest first. -/
structure AddressSpace where
  /-- What `paging_new` returned. -/
  chunk : Word
  /-- The flags it was given. -/
  flags : Byte
  /-- The virtual address and the value of each `paging_set`. -/
  sets : List (Word × Word)

/-- **The map of an address space**: the value last set for a page, or the
page itself with the flags. -/
def AddressSpace.page (a : AddressSpace) (p : Word) : Word :=
  match a.sets.find? (fun c => c.1 = p) with
  | some c => c.2
  | none => p ||| a.flags.setWidth 32

/-- One more `paging_set`. -/
def AddressSpace.set (a : AddressSpace) (va value : Word) : AddressSpace :=
  { a with sets := (va, value) :: a.sets }

/-- A `paging_set` replaces the page it names. -/
theorem AddressSpace.page_set (a : AddressSpace) (va value p : Word) :
    (a.set va value).page p = if va = p then value else a.page p := by
  unfold AddressSpace.page AddressSpace.set
  rw [List.find?_cons]
  by_cases h : va = p
  · rw [if_pos h, decide_eq_true h]
  · rw [if_neg h, decide_eq_false h]

/-- A state of a run: the memory, and the address spaces made so far,
numbered from `0`. -/
structure PagingState where
  /-- The memory. -/
  mem : Memory
  /-- How many address spaces there are. -/
  count : ℕ
  /-- The address spaces. -/
  spaces : ℕ → AddressSpace

/-- The directory of an address space. -/
def PagingState.directory (s : PagingState) (k : ℕ) : Word :=
  pagingDirectory s.mem (s.spaces k).chunk

/-- A new address space. -/
def PagingState.new (s : PagingState) (flags : Byte) (chunk : Word)
    (m' : Memory) :
    PagingState where
  mem := m'
  count := s.count + 1
  spaces := Function.update s.spaces s.count ⟨chunk, flags, []⟩

/-- `paging_set` on address space `k`. -/
def PagingState.set (s : PagingState) (k : ℕ)
    (va value : Word) : PagingState where
  mem := (pagingSet s.mem (s.directory k) va value).2
  count := s.count
  spaces := Function.update s.spaces k ((s.spaces k).set va value)

@[simp] theorem PagingState.new_spaces_count (s : PagingState) (flags : Byte)
    (chunk : Word) (m' : Memory) :
    (s.new flags chunk m').spaces s.count = ⟨chunk, flags, []⟩ :=
  Function.update_self _ _ _

theorem PagingState.new_spaces_of_lt (s : PagingState) (flags : Byte)
    (chunk : Word) (m' : Memory) {k : ℕ} (hk : k < s.count) :
    (s.new flags chunk m').spaces k = s.spaces k :=
  Function.update_of_ne (Nat.ne_of_lt hk) _ _

@[simp] theorem PagingState.set_spaces_self (s : PagingState) (k : ℕ)
    (va value : Word) :
    (s.set k va value).spaces k = (s.spaces k).set va value :=
  Function.update_self _ _ _

theorem PagingState.set_spaces_of_ne (s : PagingState) {j k : ℕ} (hjk : j ≠ k)
    (va value : Word) : (s.set k va value).spaces j = s.spaces j :=
  Function.update_of_ne hjk _ _

/-- **The states of a run** of `paging_new` calls whose allocations all
succeed and of `paging_set` calls, from the memory `m₀` with no address
space. -/
inductive PagingReachable (h : Heap) (m₀ : Memory) : PagingState → Prop where
  | init {spaces : ℕ → AddressSpace} : PagingReachable h m₀ ⟨m₀, 0, spaces⟩
  | pagingNew {s : PagingState} {flags : Byte} {chunk : Word} {m' : Memory} :
      PagingReachable h m₀ s →
      (N00bOS.pagingNew h.kzallocFit flags s.mem).isSome →
      N00bOS.pagingNew h.kzalloc flags s.mem = some (chunk, m') →
      PagingReachable h m₀ (s.new flags chunk m')
  | pagingSet {s : PagingState} {k : ℕ} {va value : Word} :
      PagingReachable h m₀ s → k < s.count →
      PagingReachable h m₀ (s.set k va value)

/-! ### The invariant

Every address space is in memory, with the map that the calls on it make, and
in allocations that no other has a part in. -/

/-- What a state of a run keeps: the address spaces are in memory, in
allocations of their own. -/
structure PagingState.Inv (h : Heap) (es : List Extent) (s : PagingState)
    (L : ℕ → SpaceLayout) : Prop where
  heap : Heap.HeapInv h s.mem
    ((List.range s.count).flatMap (fun k => (L k).extents) ++ es)
  space : ∀ k, k < s.count →
    SpaceAt h s.mem (s.spaces k).chunk (L k) (s.spaces k).page

namespace PagingState.Inv

variable {h : Heap} {es : List Extent} {s : PagingState} {L : ℕ → SpaceLayout}

/-- The allocations of an address space are among those in use. -/
theorem mem (_ : s.Inv h es L) {k : ℕ} (hk : k < s.count) {e : Extent}
    (he : e ∈ (L k).extents) :
    e ∈ (List.range s.count).flatMap (fun k => (L k).extents) ++ es :=
  List.mem_append_left _ (List.mem_flatMap.mpr ⟨k, List.mem_range.mpr hk, he⟩)

/-- The allocations of an address space are distinct. -/
theorem nodup (hs : s.Inv h es L) {k : ℕ} (hk : k < s.count) :
    (L k).extents.Nodup :=
  (List.nodup_flatMap.mp (List.nodup_append.mp hs.heap.packed.nodup).1).1 k
    (List.mem_range.mpr hk)

/-- Two address spaces share no allocation. -/
theorem ne (hs : s.Inv h es L) {j k : ℕ} (hj : j < s.count) (hk : k < s.count)
    (hjk : j ≠ k) {e f : Extent} (he : e ∈ (L j).extents)
    (hf : f ∈ (L k).extents) : e ≠ f := by
  have hpair :=
    (List.nodup_flatMap.mp (List.nodup_append.mp hs.heap.packed.nodup).1).2
  have : Std.Symm (Function.onFun List.Disjoint fun k => (L k).extents) :=
    ⟨fun _ _ hab _ hb ha => hab ha hb⟩
  have hdis := hpair.forall (List.mem_range.mpr hj) (List.mem_range.mpr hk) hjk
  rintro rfl
  exact hdis he hf

/-- **`paging_new` keeps the invariant.** The address spaces that there are
keep their bytes, and the new one has allocations that none of them has. -/
theorem new (hw : h.Wf) (hs : s.Inv h es L) {flags : Byte} {chunk : Word}
    {m' : Memory} (hrun : pagingNew h.kzallocFit flags s.mem
      = some (chunk, m')) :
    ∃ L', (s.new flags chunk m').Inv h es L' := by
  obtain ⟨L₀, hinv, hspace, hkeep⟩ := pagingNew_spec hw flags hs.heap hrun
  have hold : ∀ k, k < s.count →
    Function.update L s.count L₀ k = L k := fun k hk =>
      Function.update_of_ne (Nat.ne_of_lt hk) _ _
  refine ⟨Function.update L s.count L₀, hinv.perm ?_, fun k hk => ?_⟩
  · have hmap : (List.range s.count).flatMap
          (fun k => (Function.update L s.count L₀ k).extents)
        = (List.range s.count).flatMap (fun k => (L k).extents) := by
      rw [List.flatMap_def, List.flatMap_def]
      refine congrArg List.flatten (List.map_congr_left (fun k hk => ?_))
      rw [hold k (List.mem_range.mp hk)]
    rw [PagingState.new, List.range_succ, List.flatMap_append,
      List.flatMap_singleton, Function.update_self, hmap, ← List.append_assoc]
    exact List.perm_append_comm.append_right es
  · rcases Nat.lt_succ_iff_lt_or_eq.mp hk with hlt | rfl
    · rw [hold k hlt, s.new_spaces_of_lt flags chunk m' hlt]
      exact (hs.space k hlt).congr (fun e he => hkeep e (hs.mem hlt he))
    · rw [Function.update_self, PagingState.new_spaces_count]
      exact hspace

/-- **`paging_set` keeps the invariant**, and the layout. -/
theorem set (hw : h.Wf) (hs : s.Inv h es L) {k : ℕ} (hk : k < s.count)
    (va value : Word) :
    (s.set k va value).Inv h es L := by
  by_cases hva : va.toNat % 4096 = 0
  · obtain ⟨-, hwrite, hspace⟩ :=
      (hs.space k hk).set hw hs.heap (fun e he => hs.mem hk he)
        (hs.nodup hk) hva value
    have htable := (L k).tableExtent_mem (directoryIdxOf_lt va)
    obtain ⟨hinv, hother⟩ := hs.heap.eqOn_dataRegion hw
      (hs.mem hk htable) hwrite
    refine ⟨hinv, fun j hj => ?_⟩
    by_cases hjk : j = k
    · rw [hjk, PagingState.set_spaces_self]
      refine hspace.congr_page (fun i j _ _ => ?_)
      rw [AddressSpace.page_set, Function.update_apply]
      exact if_congr eq_comm rfl rfl
    · rw [s.set_spaces_of_ne hjk]
      exact (hs.space j hj).congr (fun e he =>
        hother e (hs.mem hj he) (hs.ne hj hk hjk he htable))
  · have hmem : (s.set k va value).mem = s.mem :=
      congrArg Prod.snd (pagingSet_of_not_aligned hva s.mem
        (s.directory k) value)
    refine ⟨hmem ▸ hs.heap, fun j hj => ?_⟩
    rw [hmem]
    by_cases hjk : j = k
    · rw [hjk, PagingState.set_spaces_self]
      refine (hs.space k hk).congr_page (fun i j hi hj => ?_)
      rw [AddressSpace.page_set, if_neg]
      rintro rfl
      exact hva (pageAddress_aligned i j)
    · rw [s.set_spaces_of_ne hjk]
      exact hs.space j hj

end PagingState.Inv

/-- **Every state of a run keeps the invariant.** The induction is on the run,
and the layout of the address spaces is found along with it. -/
theorem PagingReachable.inv {h : Heap} (hw : h.Wf) {m₀ : Memory}
    {es : List Extent} (h₀ : Heap.HeapInv h m₀ es) {s : PagingState}
    (hs : PagingReachable h m₀ s) :
    ∃ L, s.Inv h es L := by
  induction hs with
  | init =>
    exact ⟨fun _ => ⟨0, 0, fun _ => 0⟩, h₀, fun k hk =>
      absurd hk (Nat.not_lt_zero k)⟩
  | @pagingNew s flags chunk m' _ hfit hrun ih =>
    obtain ⟨L, hinv⟩ := ih
    obtain ⟨r, hfit⟩ := Option.isSome_iff_exists.mp hfit
    have hsame := (pagingNew_kzalloc hfit).symm.trans hrun
    rw [hsame] at hfit
    exact hinv.new hw hfit
  | @pagingSet s k va value _ hk ih =>
    obtain ⟨L, hinv⟩ := ih
    exact ⟨L, hinv.set hw hk va value⟩

/-- **Page tables are a map.** On every heap, after every run of `kmalloc`
and `kfree`, and in every state of every run of `paging_new` and
`paging_set` from there:

* a walk for an address finds the value last set for its page on that
  address space, or the page with the flags of the address space;
* a `paging_set` with an unaligned address returns `-EINVAL` and changes
  nothing, and with an aligned address it returns `0`;
* a `paging_set` on an address space changes no walk in another. -/
theorem page_tables_are_a_map (c : HeapConfig) (m : Memory) (s₀ : HeapState)
    (hs₀ : HeapReachable (kheapInit c m).1 (kheapInit c m).2 s₀)
    (s : PagingState) (hs : PagingReachable (kheapInit c m).1 s₀.mem s) :
    (∀ k, k < s.count → ∀ va,
        pagingWalk s.mem (s.directory k) va = (s.spaces k).page (pageBase va))
    ∧ (∀ k, k < s.count → ∀ va value,
        (pagingIsAligned va = false →
          pagingSet s.mem (s.directory k) va value = (-einval, s.mem))
        ∧ (pagingIsAligned va = true →
          (pagingSet s.mem (s.directory k) va value).1 = 0))
    ∧ ∀ j k, j < s.count → k < s.count → j ≠ k → ∀ va value va',
        pagingWalk (s.set k va value).mem ((s.set k va value).directory j) va'
          = pagingWalk s.mem (s.directory j) va' := by
  obtain ⟨hw, hinit⟩ := kheapInit_inv c m
  obtain ⟨L, hinv⟩ := hs.inv hw (hs₀.inv hw hinit).heap
  refine ⟨fun k hk va => (hinv.space k hk).walk va, fun k hk va value =>
    ⟨fun hva => ?_, fun hva => ?_⟩, fun j k hj hk hjk va value va' => ?_⟩
  · refine pagingSet_of_not_aligned (fun h => ?_) s.mem (s.directory k) value
    rw [← pagingIsAligned_iff, hva] at h
    exact Bool.false_ne_true h
  · rw [pagingSet_of_aligned ((pagingIsAligned_iff va).mp hva)]
  · have hset := (hinv.set hw hk va value).space j hj
    rw [s.set_spaces_of_ne hjk] at hset
    rw [PagingState.directory, PagingState.directory,
      s.set_spaces_of_ne hjk, hset.walk, (hinv.space j hj).walk]

/-- Right after boot there is room for an address space. -/
theorem pagingNew_booted (flags : Byte) :
    (pagingNew (kheapInit kernelHeapConfig fun _ => 0).1.kzallocFit flags
      (kheapInit kernelHeapConfig fun _ => 0).2).isSome := by
  obtain ⟨hw, hinit⟩ := kheapInit_inv kernelHeapConfig fun _ => 0
  have hroom : 0 + 2051 ≤ (kheapInit kernelHeapConfig fun _ => 0).1.total := by
    rw [(kheapInit_spec kernelHeapConfig fun _ => 0).1,
      kernelHeapConfig.total_heap]
    decide
  exact pagingNew_of_room hw flags hinit
    (fun e he => absurd he List.not_mem_nil) hroom

/-- The theorem on the kernel's heap with one address space, made with the
flags 3, and one `paging_set`. -/
theorem page_tables_are_a_map_one_set :
    ∃ s, PagingReachable (kheapInit kernelHeapConfig (fun _ => 0)).1
        (kheapInit kernelHeapConfig (fun _ => 0)).2 s
      ∧ pagingWalk s.mem (s.directory 0) 0x00400123#32 = 0x00ABC007#32
      ∧ pagingWalk s.mem (s.directory 0) 0x00401123#32 = 0x00401003#32 := by
  have hfit := pagingNew_booted 3#8
  obtain ⟨⟨chunk, m'⟩, hrun⟩ := Option.isSome_iff_exists.mp hfit
  have hstart : PagingReachable (kheapInit kernelHeapConfig (fun _ => 0)).1
      (kheapInit kernelHeapConfig (fun _ => 0)).2
      ⟨(kheapInit kernelHeapConfig (fun _ => 0)).2, 0, fun _ => ⟨0, 0, []⟩⟩ :=
        PagingReachable.init
  have hs := @PagingReachable.pagingSet _ _ _ 0 0x00400000#32 0x00ABC007#32
    (hstart.pagingNew hfit (pagingNew_kzalloc hrun)) (Nat.succ_pos _)
  have hmap := (page_tables_are_a_map kernelHeapConfig
    (fun _ => 0) _ HeapReachable.init _ hs).1 0
    (Nat.succ_pos _)
  refine ⟨_, hs, (hmap _).trans ?_, (hmap _).trans ?_⟩
  · rw [PagingState.set_spaces_self, AddressSpace.page_set, if_pos (by decide)]
  · rw [PagingState.set_spaces_self, AddressSpace.page_set, if_neg (by decide)]
    show pageBase 0x00401123#32 ||| (3#8).setWidth 32 = 0x00401003#32
    decide

end N00bOS
