import N00bOS.DiskStreamer
import N00bOS.Temporaries

/-!
# What the kernel's primitives do

The lemmas that every other module about the kernel starts from: how `int`
arithmetic reads as arithmetic, when a pointer can be read through, what an
allocation leaves behind, and what is left of a temporary buffer that is taken
and given back: the block table is the same before and after (`SameTable`), on
a full heap as on any other (`kzalloc_kfree`).

`Quiet` collects what every reading operation may do to the state: move stream
positions, and write memory that is neither the table nor below it. Two states
with `Quiet` between them have the same descriptors, directories, items and
disk, and the heap is in order in both or in neither. `Steady` is the part of
it that does not need the table to be in order, which is what is known while
the root directory is being scanned: its items may lie over the table.

Both relations are preorders, and the primitives of reading are the three
lemmas under them – a stream that moves, memory that is written, a buffer that
is taken and given back. The specification of a reading function therefore says
what it returns, and that the change is quiet.
-/

namespace N00bOS

/-! ## `int` arithmetic

Where no operation overflows the model's integers are those of the source, and
`omega` does the rest. -/

/-- The values of an `int`. -/
def IsInt32 (n : ℤ) : Prop := -2147483648 ≤ n ∧ n < 2147483648

/-- An operation that overflows is off by a multiple of `2 ^ 32`. -/
theorem wrap32_spec (n : ℤ) :
    ∃ q, wrap32 n = n + 4294967296 * q ∧ IsInt32 (wrap32 n) := by
  have hmod : wrap32 n % 4294967296 = n % 4294967296 := Int.bmod_emod
  have hle : -((2 ^ 32 : ℕ) / 2 : ℤ) ≤ wrap32 n := Int.le_bmod (by decide)
  have hlt : wrap32 n < (((2 ^ 32 : ℕ) : ℤ) + 1) / 2 := Int.bmod_lt (by decide)
  unfold IsInt32
  refine ⟨(wrap32 n - n) / 4294967296, ?_, ?_⟩ <;> omega

/-- An `int` stays as it is. -/
theorem wrap32_of_isInt32 {n : ℤ} (h : IsInt32 n) : wrap32 n = n := by
  obtain ⟨q, hq, hr⟩ := wrap32_spec n
  unfold IsInt32 at *
  omega

theorem isInt32_wrap32 (n : ℤ) :
    IsInt32 (wrap32 n) := (wrap32_spec n).choose_spec.2

/-- Wrapping a part first makes no difference. -/
theorem wrap32_add_wrap32 (a b : ℤ) :
    wrap32 (wrap32 a + b) = wrap32 (a + b) := by
  obtain ⟨q, hq, -⟩ := wrap32_spec a
  obtain ⟨r, hr, hri⟩ := wrap32_spec (wrap32 a + b)
  obtain ⟨t, ht, hti⟩ := wrap32_spec (a + b)
  unfold IsInt32 at *
  omega

/-- Truncating division by the sector size, without the sign cases. -/
theorem tdiv_sectorSize_spec (n : ℤ) :
    n = sectorSize * n.tdiv sectorSize + n.tmod sectorSize
    ∧ -512 < n.tmod sectorSize ∧ n.tmod sectorSize < 512
    ∧ (0 ≤ n → 0 ≤ n.tmod sectorSize) ∧ (n ≤ 0 → n.tmod sectorSize ≤ 0) := by
  refine ⟨(Int.mul_tdiv_add_tmod n sectorSize).symm,
    Int.lt_tmod_of_pos n (by decide), Int.tmod_lt_of_pos n (by decide),
    Int.tmod_nonneg sectorSize, fun h => ?_⟩
  have hneg := Int.tmod_nonneg sectorSize (Int.neg_nonneg.mpr h)
  rw [Int.neg_tmod] at hneg
  omega

/-! ## Pointers

What reading through a pointer needs, and what is known when it was read
through. -/

namespace KernelM

/-- A live pointer can be read through. -/
theorem deref_ok {T : Type} {store : Kernel → ℕ → Option T} {p : Ptr}
    {k : Kernel} {v : T} (hp : p.addr ≠ 0) (h : store k p.id = some v) :
    deref store p k = Except.ok (v, k) := by
  rw [deref, if_neg hp, h]

/-- What was read was there. -/
theorem deref_eq_ok {T : Type} {store : Kernel → ℕ → Option T} {p : Ptr}
    {k k' : Kernel} {v : T} (h : deref store p k = Except.ok (v, k')) :
    p.addr ≠ 0 ∧ store k p.id = some v ∧ k' = k := by
  rw [deref] at h
  by_cases hp : p.addr = 0
  · rw [if_pos hp] at h
    cases h
  · rw [if_neg hp] at h
    cases hs : store k p.id with
    | some w =>
      rw [hs] at h
      obtain ⟨rfl, rfl⟩ := Prod.mk.inj (Except.ok.inj h)
      exact ⟨hp, rfl, rfl⟩
    | none => rw [hs] at h; cases h

/-- A null pointer cannot be read through. -/
theorem deref_null {T : Type} {store : Kernel → ℕ → Option T} {p : Ptr}
    {k : Kernel} (hp : p.addr = 0) :
    deref store p k = Except.error Fault.nullDereference :=
  if_pos hp

/-! ## Allocations

The inversions of the three ways to allocate. -/

variable {k k' : Kernel} {size : Word}

/-- A temporary buffer changes the memory. -/
theorem kzalloc_run {p : Word} (h : kzalloc size k = Except.ok (p, k')) :
    ∃ m, k.heap.kzalloc k.mem size = some (p, m)
      ∧ k' = { k with mem := m } := by
  rw [kzalloc] at h
  cases hrun : k.heap.kzalloc k.mem size with
  | none =>
    rw [hrun] at h
    cases h
  | some r =>
    rw [hrun] at h
    obtain ⟨rfl, rfl⟩ := Prod.mk.inj (Except.ok.inj h)
    exact ⟨r.2, rfl, rfl⟩

/-- **A buffer that is kept** has found a run of blocks. It is no structure, so
that no number goes with it. -/
theorem allocateBuffer_run {p : Word}
    (h : allocateBuffer size k = Except.ok (p, k')) :
    ∃ m, k.heap.kzallocFit k.mem size = some (p, m)
      ∧ k' = { k with mem := m } := by
  rw [allocateBuffer] at h
  cases hfit : k.heap.kzallocFit k.mem size with
  | none =>
    rw [hfit] at h
    cases h
  | some r =>
    rw [hfit] at h
    obtain ⟨rfl, rfl⟩ := Prod.mk.inj (Except.ok.inj h)
    exact ⟨r.2, rfl, rfl⟩

/-- **An allocation that returned** has found a run of blocks, and has the next
number. -/
theorem allocate_run {p : Ptr} (h : allocate size k = Except.ok (p, k')) :
    ∃ m, k.heap.kzallocFit k.mem size = some (p.addr, m) ∧ p.id = k.nextId
      ∧ k' = { k with mem := m, nextId := k.nextId + 1 } := by
  rw [allocate] at h
  cases hfit : k.heap.kzallocFit k.mem size with
  | none =>
    rw [hfit] at h
    cases h
  | some r =>
    rw [hfit] at h
    obtain ⟨rfl, rfl⟩ := Prod.mk.inj (Except.ok.inj h)
    exact ⟨r.2, rfl, rfl, rfl⟩

end KernelM

/-! ## Temporaries

What is needed of the heap: that it is in use (`HeapOk`), and at times that a
block is free (`HasFreeBlock`). The page that the next temporary buffer goes to
(`freshBlock`) is the same as long as the table is. -/

/-- Two memories with the same block table. Everything that is known of a heap
in use is known from its table, so two such memories have the same allocations,
and the same blocks are free. -/
def SameTable (h : Heap) (m m' : Memory) : Prop :=
  ∀ i, i < h.total → h.entry m' i = h.entry m i

namespace SameTable

variable {h : Heap} {m m' m'' : Memory}

theorem refl (h : Heap) (m : Memory) : SameTable h m m := fun _ _ => rfl

theorem trans (h₁ : SameTable h m m') (h₂ : SameTable h m' m'') :
    SameTable h m m'' :=
  fun i hi => (h₂ i hi).trans (h₁ i hi)

theorem symm (hs : SameTable h m m') :
    SameTable h m' m := fun i hi => (hs i hi).symm

theorem free_iff (hs : SameTable h m m') {i : ℕ} (hi : i < h.total) :
    h.Free m' i ↔ h.Free m i := by
  rw [Heap.Free, Heap.Free, hs i hi]

theorem contiguousBlockCount (hs : SameTable h m m') (left idx : ℕ)
    (hle : idx + left ≤ h.total) :
    h.contiguousBlockCount m' left idx = h.contiguousBlockCount m left idx := by
  induction left generalizing idx with
  | zero => rfl
  | succ left ih =>
    rw [Heap.contiguousBlockCount, Heap.contiguousBlockCount, hs idx (by omega),
      ih (idx + 1) (by omega)]

theorem findFrom (hs : SameTable h m m') (blockSize : Word) (rounds idx : ℕ) :
    h.findFrom m' blockSize rounds idx = h.findFrom m blockSize rounds idx := by
  induction rounds generalizing idx with
  | zero => rfl
  | succ rounds ih =>
    rw [Heap.findFrom, Heap.findFrom]
    by_cases hidx : idx < h.total
    · rw [if_pos hidx, if_pos hidx]
      simp only [hs.contiguousBlockCount (h.total - idx) idx (by omega), ih]
    · rw [if_neg hidx, if_neg hidx]

/-- **The search reads the table only.** So it finds the same on two memories
with the same table, and all that follows from the search does as well. -/
theorem findFirstFitStartBlock (hs : SameTable h m m') (blockSize : Word) :
    h.findFirstFitStartBlock m' blockSize
      = h.findFirstFitStartBlock m blockSize :=
  hs.findFrom blockSize _ _

end SameTable

namespace Kernel

/-- A heap in use: where the kernel has it, its table encoding some
allocations. -/
def HeapOk (k : Kernel) : Prop :=
  k.heap.Placed ∧ ∃ es, Heap.HeapInv k.heap k.mem es

/-- A free block. -/
def HasFreeBlock (k : Kernel) : Prop :=
  ∃ i, i < k.heap.total ∧ k.heap.Free k.mem i

/-- Where the next temporary buffer goes. -/
def freshBlock (k : Kernel) : Word :=
  k.heap.blockIdx2BlockAddress
    (BitVec.ofInt 32 (k.heap.findFirstFitStartBlock k.mem (alignToUpper 512)))

end Kernel

/-- With a free block, one block is found. -/
theorem findFirstFit_of_free {h : Heap} (hw : h.Wf) {m : Memory}
    (hfree : ∃ i, i < h.total ∧ h.Free m i) (size : Word)
    (hsize : size.toNat < 4096) :
    0 ≤ h.findFirstFitStartBlock m (alignToUpper size) := by
  have hwrap : size.toNat + 4096 < 2 ^ 32 := by omega
  rcases Heap.findFirstFitStartBlock_spec hw.size_lt m
    (Heap.alignToUpper_toNat hwrap)
    (Nat.succ_pos _) with ⟨i, hi, -⟩ | ⟨-, hnone⟩
  · rw [hi]
    exact Int.natCast_nonneg i
  · obtain ⟨i, hi, hf⟩ := hfree
    refine absurd ⟨by unfold Heap.blocksFor; omega, fun j h₁ h₂ => ?_⟩ (hnone i)
    have : j = i := by unfold Heap.blocksFor at h₂; omega
    rw [this]
    exact hf

/-- Without a free block, nothing is found. -/
theorem kzallocFit_of_no_free {h : Heap} (hw : h.Wf) {m : Memory}
    (hfree : ¬ ∃ i, i < h.total ∧ h.Free m i) {size : Word}
    (hsize : size.toNat + 4096 < 2 ^ 32) : h.kzallocFit m size = none := by
  rcases Heap.findFirstFitStartBlock_spec hw.size_lt m
    (Heap.alignToUpper_toNat hsize)
    (Nat.succ_pos _) with ⟨i, -, hroom⟩ | ⟨hi, -⟩
  · refine absurd ⟨i, ?_, hroom.1.2 i (Nat.le_refl _) ?_⟩ hfree
    · have := hroom.1.1
      unfold Heap.blocksFor at this
      omega
    · unfold Heap.blocksFor
      omega
  · rw [Heap.kzallocFit, hi, if_neg (by decide)]

/-- `kzalloc` returns the address that the search leads to. -/
theorem kzalloc_address {h : Heap} {m m' : Memory} {size p : Word}
    (hrun : h.kzalloc m size = some (p, m')) : p = h.blockIdx2BlockAddress
      (BitVec.ofInt 32 (h.findFirstFitStartBlock m (alignToUpper size))) := by
  obtain ⟨r, hrun', heq⟩ := Option.map_eq_some_iff.mp hrun
  obtain ⟨m'', -, hr⟩ := Option.map_eq_some_iff.mp hrun'
  rw [← (Prod.mk.inj heq).1, ← (Prod.mk.inj hr).1]

/-- Less than a block is rounded to a block. -/
theorem alignToUpper_of_lt {size : Word} (hsize : size.toNat < 4096) :
    alignToUpper size = alignToUpper 512 := by
  refine BitVec.eq_of_toNat_eq ?_
  rw [Heap.alignToUpper_toNat (by omega), Heap.alignToUpper_toNat (by decide)]
  unfold Heap.blocksFor
  rw [Nat.div_eq_of_lt hsize]
  rfl

/-- **A temporary buffer on a heap in use**: the table is the same after it is
given back, whether a block was free or not. -/
theorem sameTable_kzalloc_kfree {h : Heap} (hp : h.Placed) {m m₁ : Memory}
    {es : List Extent} (hinv : Heap.HeapInv h m es) {size p : Word}
    (hsize : size.toNat < 4096) (hrun : h.kzalloc m size = some (p, m₁)) :
    SameTable h m (h.kfree m₁ p) := by
  rcases Heap.search_cases hp.toWf m hsize with ⟨i, -, -, hfind⟩ | ⟨hfind, -⟩
  · -- the block is taken, and free again
    obtain ⟨i, m', hrun', -, hinv₁, -⟩ :=
      Heap.kzalloc_spec hp.toWf hinv (by omega)
      (show 0 ≤ h.findFirstFitStartBlock m (alignToUpper size) by
        rw [hfind]
        exact Int.natCast_nonneg i)
    obtain ⟨rfl, rfl⟩ := Prod.mk.inj (Option.some.inj (hrun.symm.trans hrun'))
    obtain ⟨hinv₂, -⟩ := Heap.kfree_spec hp.toWf hinv₁ List.mem_cons_self
    rw [List.erase_cons_head] at hinv₂
    exact fun j hj => hinv₂.entry_eq hinv (fun _ => Iff.rfl) hj
  · -- the page below the heap and the entry below the table are not part of it
    have hpage := Heap.pageAt_failedIdx hp
    obtain ⟨m', hrun', -, hrest⟩ := Heap.kzalloc_page hsize
      (show BitVec.ofInt 32 _ = Heap.failedIdx by rw [hfind, Heap.failedIdx])
        hpage
    obtain ⟨rfl, rfl⟩ := Prod.mk.inj (Option.some.inj (hrun.symm.trans hrun'))
    rw [Heap.kfree_failedIdx hp]
    intro j hj
    have hentry := Heap.entryAddress_toNat hp.toWf hj
    have hbelow := Heap.entryAddress_failedIdx hp
    have hge := hpage.page_ge
    rw [Heap.entry, hrest _ (fun heq => by rw [heq] at hentry; omega), if_neg]
    · rfl
    · rw [Memory.mem_region_of_le hpage.page_le]
      omega

/-! ## Reading changes little

The two relations, and what is the same on both sides of them. -/

/-- **What a temporary buffer and a stream that moves may change**, whatever
the block table holds: stream positions, and memory, but none of it below the
table, except for the twelve bytes there that an allocation on a full heap
writes to. -/
structure Steady (k k' : Kernel) : Prop where
  /-- Nothing else changes. -/
  eq : k' = { k with mem := k'.mem, diskStreams := k'.diskStreams }
  /-- The streams stay, on their disks. -/
  streams : ∀ id d, (∃ pos, k'.diskStreams id = some ⟨pos, d⟩)
    ↔ ∃ pos, k.diskStreams id = some ⟨pos, d⟩
  /-- The memory below the table stays. -/
  low : SameBelow (heapTableAddress.toNat - 12) k.mem k'.mem

namespace Steady

variable {k k' k'' : Kernel}

theorem refl (k : Kernel) :
    Steady k k := ⟨rfl, fun _ _ => Iff.rfl, SameBelow.refl _ _⟩

theorem heap (h : Steady k k') : k'.heap = k.heap := by rw [h.eq]

theorem sectors (h : Steady k k') : k'.sectors = k.sectors := by rw [h.eq]

theorem trans (h₁ : Steady k k') (h₂ : Steady k' k'') : Steady k k'' := by
  refine ⟨?_, fun id d => (h₂.streams id d).trans (h₁.streams id d),
    h₁.low.trans h₂.low⟩
  rw [h₂.eq, h₁.eq]

/-- A stream that moves. -/
theorem setDiskStream {id : ℕ} {pos : ℤ} {d : DiskRef}
    (h : k.diskStreams id = some ⟨pos, d⟩) (pos' : ℤ) :
    Steady k (k.setDiskStream id (some ⟨pos', d⟩)) := by
  refine ⟨rfl, fun id' d' => ?_, SameBelow.refl _ _⟩
  show (∃ p, Function.update k.diskStreams id _ id' = _) ↔ _
  by_cases hid : id' = id
  · rw [hid, Function.update_self, h]
    constructor
    · rintro ⟨p, hp⟩
      exact ⟨pos, by rw [(DiskStream.mk.inj (Option.some.inj hp)).2]⟩
    · rintro ⟨p, hp⟩
      exact ⟨pos', by rw [(DiskStream.mk.inj (Option.some.inj hp)).2]⟩
  · rw [Function.update_of_ne hid]

/-- Memory that is not below the table. -/
theorem setMem {m : Memory}
    (h : SameBelow (heapTableAddress.toNat - 12) k.mem m) :
    Steady k { k with mem := m } :=
  ⟨rfl, fun _ _ => Iff.rfl, h⟩

end Steady

/-- **A quiet change**: stream positions, and memory outside the table and,
with a free block, not below it. Behind the table it is the page that the next
temporary buffer goes to. -/
structure Quiet (k k' : Kernel) : Prop extends Steady k k' where
  /-- The table does not change. -/
  table : SameTable k.heap k.mem k'.mem
  /-- With a free block, nothing below the table does. -/
  below : k.HasFreeBlock → SameBelow heapTableAddress.toNat k.mem k'.mem
  /-- Behind the table, one page may. -/
  behind : ∀ x : Word, k.heap.table.entries.toNat + k.heap.total ≤ x.toNat →
    x ∉ Memory.region k.freshBlock 4096 → k'.mem x = k.mem x

/-- The table says whether a block is free. -/
theorem SameTable.hasFreeBlock_iff {k k' : Kernel}
    (h : SameTable k.heap k.mem k'.mem) (hheap : k'.heap = k.heap) :
    k'.HasFreeBlock ↔ k.HasFreeBlock := by
  rw [Kernel.HasFreeBlock, Kernel.HasFreeBlock, hheap]
  exact exists_congr fun _ => and_congr_right fun hi => h.free_iff hi

namespace Quiet

variable {k k' k'' : Kernel}

theorem refl (k : Kernel) : Quiet k k :=
  ⟨Steady.refl k, SameTable.refl _ _, fun _ =>
    SameBelow.refl _ _, fun _ _ _ => rfl⟩

/-- Free blocks stay free. -/
theorem hasFreeBlock (h : Quiet k k') (hk : k.HasFreeBlock) : k'.HasFreeBlock :=
  (h.table.hasFreeBlock_iff h.heap).mpr hk

/-- The next temporary buffer goes where it would have gone. -/
theorem freshBlock (h : Quiet k k') : k'.freshBlock = k.freshBlock := by
  rw [Kernel.freshBlock, Kernel.freshBlock, h.heap,
    h.table.findFirstFitStartBlock]

theorem trans (h₁ : Quiet k k') (h₂ : Quiet k' k'') : Quiet k k'' := by
  refine ⟨h₁.toSteady.trans h₂.toSteady, h₁.table.trans ?_,
    fun hk => (h₁.below hk).trans (h₂.below (h₁.hasFreeBlock hk)),
    fun x hx hout => ?_⟩
  · rw [← h₁.heap]
    exact h₂.table
  · rw [h₂.behind x (by rw [h₁.heap]; exact hx)
      (by rw [h₁.freshBlock]; exact hout), h₁.behind x hx hout]

/-- A stream that moves. -/
theorem setDiskStream {id : ℕ} {pos : ℤ} {d : DiskRef}
    (h : k.diskStreams id = some ⟨pos, d⟩) (pos' : ℤ) :
    Quiet k (k.setDiskStream id (some ⟨pos', d⟩)) :=
  ⟨Steady.setDiskStream h pos', SameTable.refl _ _, fun _ =>
    SameBelow.refl _ _, fun _ _ _ => rfl⟩

/-- A heap in use stays one. -/
theorem heapOk (h : Quiet k k') (hk : k.HeapOk) : k'.HeapOk := by
  obtain ⟨hp, es, hinv⟩ := hk
  refine ⟨h.heap ▸ hp, es, ?_⟩
  rw [h.heap]
  exact hinv.congr h.table

end Quiet

/-! ## Temporary buffers

Taken and given back, on any heap. -/

/-- **A temporary buffer**, taken where the search says and given back, is a
steady change of the memory, and on a heap in use a quiet one. Where nothing is
free the buffer is below the heap, and `kfree` of it changes nothing in the
table. -/
theorem kzalloc_kfree {k : Kernel} (hp : k.heap.Placed) {size : Word}
    (hsize : size.toNat < 4096) :
    ∃ m₁, KernelM.kzalloc size k
      = Except.ok (k.freshBlock, { k with mem := m₁ })
      ∧ Steady k { k with mem := k.heap.kfree m₁ k.freshBlock }
      ∧ (k.HeapOk →
        Quiet k { k with mem := k.heap.kfree m₁ k.freshBlock }) := by
  obtain ⟨p, m₁, hrun, hlow, hbelow, hbehind⟩ :=
    Heap.kzalloc_small hp k.mem hsize
  have haddr : p = k.freshBlock := by
    rw [kzalloc_address hrun, Kernel.freshBlock, alignToUpper_of_lt hsize]
  subst haddr
  have hfree := Heap.kfree_sameBelow hp m₁ k.freshBlock
  have hsteady : Steady k { k with mem := k.heap.kfree m₁ k.freshBlock } :=
    Steady.setMem (hlow.trans (hfree.mono (Nat.sub_le _ _)))
  refine ⟨m₁, ?_, hsteady, ?_⟩
  · rw [KernelM.kzalloc, hrun]
  · rintro ⟨-, es, hinv⟩
    refine ⟨hsteady, sameTable_kzalloc_kfree hp hinv hsize hrun,
      fun hk => (hbelow hk).trans hfree, fun x hx hout => ?_⟩
    exact (Heap.kfree_of_notMem hp m₁ _ (Or.inr hx)).trans (hbehind x hx hout)

end N00bOS
