import N00bOS.Extents
import N00bOS.Heap

/-!
# What the heap operations do

One specification per heap function, over the abstract picture of
`N00bOS.Extents`: the allocations in use are extents of blocks, and the table
encodes them (`HeapInv`). The byte of an entry is a function of its mark, so
two states with the same allocations have the same table.

`kmalloc_spec` and `kfree_spec` are the two steps: a successful `kmalloc` adds
a first-fit extent, a `kfree` of an allocation removes it, and each changes
only the bytes it names. The first is assembled from what the search returns
(`findFirstFitStartBlock_spec`), what the marking loop leaves in the entries
(`markEntries_spec`) and what the block of the data is filled with; the second
from what the freeing loop does inside a chain of entries (`freeFrom_spec`).
What `kmalloc` does when no run fits is in `N00bOS.HeapRuns`.

A client of the heap needs less than that. `kzallocFit_spec` is what the owner
of a fresh allocation gets – blocks of zeros that are its own, while every
other allocation keeps its bytes – and `HeapInv.eqOn_dataRegion` is what it may
do with them: a write inside an allocation keeps the heap, and the bytes of
every other allocation.
-/

namespace N00bOS

namespace Heap

/-! ## Addresses

The arithmetic of entries and blocks. On a well-formed heap no address of it
wraps around, entries are different bytes, and the table and the blocks do not
meet. -/

/-- **A heap laid out in memory**: block numbers and addresses fit in a
word, the data is block-aligned, and the table is not part of the data. -/
structure Wf (h : Heap) : Prop where
  size_lt : h.total * 4096 < 2 ^ 32
  aligned : h.startAddress.toNat % 4096 = 0
  data_le : h.startAddress.toNat + h.total * 4096 ≤ 2 ^ 32
  table_le : h.table.entries.toNat + h.total ≤ 2 ^ 32
  apart : h.table.entries.toNat + h.total ≤ h.startAddress.toNat
    ∨ h.startAddress.toNat + h.total * 4096 ≤ h.table.entries.toNat

/-- The address of block `i`. -/
def blockAddress (h : Heap) (i : ℕ) : Word :=
  h.startAddress + BitVec.ofNat 32 (i * 4096)

/-- The table entries of an extent. -/
def tableRegion (h : Heap) (e : Extent) : Set Word :=
  Memory.region (h.entryAddress e.first) e.count

/-- The data blocks of an extent. -/
def dataRegion (h : Heap) (e : Extent) : Set Word :=
  Memory.region (h.blockAddress e.first) (e.count * 4096)

instance (h : Heap) (e : Extent) (x : Word) : Decidable (x ∈ h.dataRegion e) :=
  inferInstanceAs (Decidable (x ∈ Memory.region _ _))

/-- The entry is free, as `find_first_fit_start_block` tests it: by its low
nibble. -/
def Free (h : Heap) (m : Memory) (idx : ℕ) : Prop :=
  getEntryType (h.entry m idx) = heapBlockTableEntryFree

instance (h : Heap) (m : Memory) : DecidablePred (h.Free m) :=
  fun _ => inferInstanceAs (Decidable (_ = _))

section Addresses

variable {h : Heap}

theorem entryAddress_toNat (hw : h.Wf) {i : ℕ} (hi : i < h.total) :
    (h.entryAddress i).toNat = h.table.entries.toNat + i := by
  have := hw.table_le
  unfold entryAddress
  bv_omega

/-- Distinct entries have distinct addresses. -/
theorem entryAddress_inj (hw : h.Wf) {i j : ℕ} (hi : i < h.total)
    (hj : j < h.total) (hij : h.entryAddress i = h.entryAddress j) : i = j := by
  have h₁ := entryAddress_toNat hw hi
  have h₂ := entryAddress_toNat hw hj
  rw [hij] at h₁
  omega

theorem blockAddress_toNat (hw : h.Wf) {i : ℕ} (hi : i < h.total) :
    (h.blockAddress i).toNat = h.startAddress.toNat + i * 4096 := by
  have := hw.data_le
  have := hw.size_lt
  unfold blockAddress
  bv_omega

theorem blockIdx2BlockAddress_ofNat (h : Heap) (i : ℕ) :
    h.blockIdx2BlockAddress (BitVec.ofNat 32 i) = h.blockAddress i := by
  unfold blockIdx2BlockAddress blockAddress heapBlockSize
  rw [BitVec.ofNat_mul]

/-- An address inside block `i` is mapped back to `i`. -/
theorem blockAddress2BlockIdx_add (hw : h.Wf) {i d : ℕ} (hi : i < h.total)
    (hd : d < 4096) :
    (h.blockAddress2BlockIdx (h.blockAddress i + BitVec.ofNat 32 d)).toNat
      = i := by
  have := hw.size_lt
  have hoff : h.blockAddress i + BitVec.ofNat 32 d - h.startAddress
      = BitVec.ofNat 32 (i * 4096 + d) := by
    unfold blockAddress
    bv_omega
  unfold blockAddress2BlockIdx
  simp only [hoff, BitVec.toNat_udiv, BitVec.toNat_ofNat, heapBlockSize_toNat]
  omega

theorem blockAddress2BlockIdx_blockAddress (hw : h.Wf) {i : ℕ}
    (hi : i < h.total) :
    (h.blockAddress2BlockIdx (h.blockAddress i)).toNat = i := by
  have := blockAddress2BlockIdx_add hw hi (show 0 < 4096 by decide)
  rwa [BitVec.add_zero] at this

/-- Different blocks have different addresses. -/
theorem blockAddress_inj (hw : h.Wf) {i j : ℕ} (hi : i < h.total)
    (hj : j < h.total) (heq : h.blockAddress i = h.blockAddress j) : i = j := by
  have hnat := congrArg BitVec.toNat heq
  rw [Heap.blockAddress_toNat hw hi, Heap.blockAddress_toNat hw hj] at hnat
  omega

/-- A table entry of an extent is the address of one of its cells. -/
theorem mem_tableRegion (hw : h.Wf) {e : Extent} (he : e.stop ≤ h.total)
    (hpos : 0 < e.count) {x : Word} :
    x ∈ h.tableRegion e ↔ ∃ i, e.Covers i ∧ x = h.entryAddress i := by
  have htab := hw.table_le
  unfold Extent.stop at he
  have hfirst := entryAddress_toNat hw (show e.first < h.total by omega)
  rw [tableRegion, Memory.mem_region_of_le (by omega), hfirst]
  constructor
  · intro hx
    refine ⟨x.toNat - h.table.entries.toNat, ?_, ?_⟩
    · unfold Extent.Covers Extent.stop
      omega
    · apply BitVec.eq_of_toNat_eq
      rw [entryAddress_toNat hw (by omega)]
      omega
  · rintro ⟨i, hi, rfl⟩
    unfold Extent.Covers Extent.stop at hi
    rw [entryAddress_toNat hw (by omega)]
    omega

/-- An entry of the table is not a byte of the data. -/
theorem entryAddress_notMem_dataRegion (hw : h.Wf) {e : Extent}
    (he : e.stop ≤ h.total) {i : ℕ} (hi : i < h.total) :
    h.entryAddress i ∉ h.dataRegion e := by
  have hdata := hw.data_le
  have htab := entryAddress_toNat hw hi
  unfold Extent.stop at he
  by_cases hpos : e.first < h.total
  · have hfirst := blockAddress_toNat hw hpos
    rw [dataRegion, Memory.mem_region_of_le (by omega), hfirst, htab]
    have := hw.apart
    omega
  · rw [dataRegion, show e.count = 0 from by omega, Memory.mem_region]
    omega

/-- Where the data of an extent lies. -/
theorem mem_dataRegion (hw : h.Wf) {e : Extent} (he : e.stop ≤ h.total)
    (hpos : 0 < e.count) {x : Word} : x ∈ h.dataRegion e ↔
      h.startAddress.toNat + e.first * 4096 ≤ x.toNat
        ∧ x.toNat < h.startAddress.toNat + e.stop * 4096 := by
  have hdata := hw.data_le
  unfold Extent.stop at he ⊢
  rw [dataRegion, Memory.mem_region_of_le, blockAddress_toNat hw (by omega)]
  · omega
  · rw [blockAddress_toNat hw (by omega)]
    omega

/-- Extents that lie apart have disjoint data. -/
theorem disjoint_dataRegion (hw : h.Wf) {e f : Extent} (he : e.stop ≤ h.total)
    (hf : f.stop ≤ h.total) (hepos : 0 < e.count) (hfpos : 0 < f.count)
    (hap : e.Apart f) :
    Disjoint (h.dataRegion e) (h.dataRegion f) := by
  rw [Set.disjoint_left]
  intro x hxe hxf
  rw [mem_dataRegion hw he hepos] at hxe
  rw [mem_dataRegion hw hf hfpos] at hxf
  unfold Extent.Apart at hap
  omega

end Addresses

/-! ## The search

The two loops of the search together return the first fit in the sense of
`N00bOS.Extents`, and `-ENOMEM` exactly when there is none. -/

/-- The inner loop stops at the first entry that is not free, or at the end
of the table. -/
theorem contiguousBlockCount_spec (h : Heap) (m : Memory) (left idx : ℕ) :
    h.contiguousBlockCount m left idx ≤ left
      ∧ (∀ j, idx ≤ j → j < idx + h.contiguousBlockCount m left idx →
        h.Free m j)
      ∧ (h.contiguousBlockCount m left idx < left →
          ¬ h.Free m (idx + h.contiguousBlockCount m left idx)) := by
  induction left generalizing idx with
  | zero =>
    refine ⟨Nat.le_refl _, fun j h₁ h₂ => ?_, fun hlt =>
      absurd hlt (Nat.lt_irrefl _)⟩
    exact absurd (Nat.lt_of_le_of_lt h₁ h₂) (Nat.lt_irrefl _)
  | succ left ih =>
    obtain ⟨hle, hfree, hstop⟩ := ih (idx + 1)
    rw [contiguousBlockCount]
    by_cases hf : getEntryType (h.entry m idx) = heapBlockTableEntryFree
    · rw [if_pos hf]
      refine ⟨by omega, fun j h₁ h₂ => ?_, fun hlt => ?_⟩
      · rcases Nat.eq_or_lt_of_le h₁ with rfl | hlt
        · exact hf
        · exact hfree j hlt (by omega)
      · rw [show idx + (h.contiguousBlockCount m left (idx + 1) + 1)
          = idx + 1 + h.contiguousBlockCount m left (idx + 1) from by omega]
        exact hstop (by omega)
    · rw [if_neg hf]
      exact ⟨Nat.zero_le _, fun j h₁ h₂ =>
        absurd (Nat.lt_of_le_of_lt h₁ h₂) (by omega), fun _ => hf⟩

/-- No run that starts inside or right after a too short run of free
entries is long enough. -/
theorem not_room_of_count_lt {h : Heap} {m : Memory} {n idx i : ℕ}
    (hn : h.contiguousBlockCount m (h.total - idx) idx < n)
    (hidx : idx < h.total) (hi : idx ≤ i)
    (hi' : i ≤ idx + h.contiguousBlockCount m (h.total - idx) idx) :
    ¬ Room (h.Free m) h.total n i := by
  obtain ⟨hle, -, hstop⟩ := contiguousBlockCount_spec h m (h.total - idx) idx
  intro hroom
  by_cases hend : h.contiguousBlockCount m (h.total - idx) idx < h.total - idx
  · have := hroom.le_of_not_free (hstop hend)
    omega
  · have := hroom.1
    omega

/-- The outer loop, from `idx`, finds the first room at or after `idx`. -/
theorem findFrom_spec {h : Heap} (hsize : h.total * 4096 < 2 ^ 32) (m : Memory)
    {blockSize : Word} {n : ℕ} (hn : blockSize.toNat = n * 4096)
    (rounds idx : ℕ) (hr : h.total < idx + rounds) :
    (∃ i : ℕ, h.findFrom m blockSize rounds idx = i ∧ idx ≤ i ∧ i < h.total
        ∧ Room (h.Free m) h.total n i
        ∧ ∀ i', idx ≤ i' → i' < i → ¬ Room (h.Free m) h.total n i')
      ∨ (h.findFrom m blockSize rounds idx = -enomem
        ∧ ∀ i', idx ≤ i' → i' < h.total → ¬ Room (h.Free m) h.total n i') := by
  induction rounds generalizing idx with
  | zero =>
    exact Or.inr ⟨rfl, fun i' h₁ h₂ => absurd h₂ (by omega)⟩
  | succ rounds ih =>
    rw [findFrom]
    by_cases hidx : idx < h.total
    · rw [if_pos hidx]
      obtain ⟨hle, hfree, -⟩ := contiguousBlockCount_spec h m
        (h.total - idx) idx
      generalize hc : h.contiguousBlockCount m (h.total - idx) idx
        = count at hle hfree
      have henough : blockSize ≤ BitVec.ofNat 32 count * heapBlockSize
          ↔ n ≤ count := by
        rw [BitVec.le_def, BitVec.toNat_mul, BitVec.toNat_ofNat,
          heapBlockSize_toNat, hn]
        omega
      by_cases hfit : n ≤ count
      · simp only [henough, hfit, if_true]
        refine Or.inl ⟨idx, rfl, Nat.le_refl _, hidx, ⟨by omega, fun j h₁ h₂ =>
          hfree j h₁ (by omega)⟩, fun i' h₁ h₂ => absurd h₂ (by omega)⟩
      · simp only [henough, hfit, if_false]
        have hskip : ∀ i', idx ≤ i' → i' < idx + count + 1 →
            ¬ Room (h.Free m) h.total n i' := fun i' h₁ h₂ =>
          not_room_of_count_lt (by omega) hidx h₁ (by omega)
        rcases ih (idx + count + 1) (by omega) with
          ⟨i, hi, hle', hlt, hroom, hfirst⟩ | ⟨hi, hnone⟩
        · refine Or.inl ⟨i, hi, by omega, hlt, hroom, fun i' h₁ h₂ => ?_⟩
          by_cases hi' : i' < idx + count + 1
          · exact hskip i' h₁ hi'
          · exact hfirst i' (by omega) h₂
        · refine Or.inr ⟨hi, fun i' h₁ h₂ => ?_⟩
          by_cases hi' : i' < idx + count + 1
          · exact hskip i' h₁ hi'
          · exact hnone i' (by omega) h₂
    · rw [if_neg hidx]
      exact Or.inr ⟨rfl, fun i' h₁ h₂ => absurd h₂ (by omega)⟩

/-- **The search returns a first fit, or `-ENOMEM` where nothing fits.** The
size is a number of blocks that is not zero; what the search returns for zero
blocks is not a fit. -/
theorem findFirstFitStartBlock_spec {h : Heap} (hsize : h.total * 4096 < 2 ^ 32)
    (m : Memory) {blockSize : Word} {n : ℕ} (hn : blockSize.toNat = n * 4096)
    (hpos : 0 < n) :
    (∃ i : ℕ, h.findFirstFitStartBlock m blockSize = i
        ∧ FirstRoom (h.Free m) h.total n i)
      ∨ (h.findFirstFitStartBlock m blockSize = -enomem
        ∧ ∀ i, ¬ Room (h.Free m) h.total n i) := by
  rcases findFrom_spec hsize m hn (h.total + 1) 0 (by omega) with
    ⟨i, hi, -, -, hroom, hfirst⟩ | ⟨hi, hnone⟩
  · exact Or.inl ⟨i, hi, hroom, fun i' h' => hfirst i' (Nat.zero_le _) h'⟩
  · refine Or.inr ⟨hi, fun i hroom => hnone i (Nat.zero_le _) ?_ hroom⟩
    have := hroom.1
    omega

/-- **First fit is first fit.** For every content of the table and every size
of at least a block, the search returns `i` exactly when `i` is the first index
from which on enough blocks exist and are free, and `-ENOMEM` exactly when
there is none. The loop keeps the start of the run of free blocks that it is
in, and its length; what it has passed holds no run that is long enough. -/
theorem find_first_fit_is_first_fit (h : Heap) (hsize : h.total * 4096 < 2 ^ 32)
    (m : Memory) {n : ℕ} (hpos : 1 ≤ n) (hn : n * 4096 < 2 ^ 32) :
    (∀ i : ℕ, h.findFirstFitStartBlock m (BitVec.ofNat 32 (n * 4096)) = i
        ↔ FirstRoom (h.Free m) h.total n i)
      ∧ (h.findFirstFitStartBlock m (BitVec.ofNat 32 (n * 4096)) = -enomem
        ↔ ∀ i, ¬ Room (h.Free m) h.total n i) := by
  have hword : (BitVec.ofNat 32 (n * 4096)).toNat = n * 4096 := by
    rw [BitVec.toNat_ofNat, Nat.mod_eq_of_lt hn]
  have hneg : ∀ i : ℕ, (i : ℤ) ≠ -enomem := fun i heq => by
    unfold enomem at heq
    omega
  rcases findFirstFitStartBlock_spec hsize m hword hpos with
    ⟨i, hi, hroom⟩ | ⟨hi, hnone⟩
  · rw [hi]
    refine ⟨fun j => ⟨fun heq => ?_, fun hj => ?_⟩, fun heq =>
      absurd heq (hneg i), fun hnone => absurd hroom.1 (hnone i)⟩
    · rw [← Int.natCast_inj.mp heq]
      exact hroom
    · exact Int.natCast_inj.mpr (Nat.le_antisymm (hroom.le hj.1)
        (hj.le hroom.1))
  · rw [hi]
    exact ⟨fun j => ⟨fun heq => absurd heq.symm (hneg j), fun hj =>
      absurd hj.1 (hnone j)⟩, fun _ => hnone, fun _ => rfl⟩

/-- The theorem on a table of four entries, the second of them taken, for two
blocks. -/
theorem find_first_fit_is_first_fit_fragmented :
    (⟨⟨0x1000#32, 4#32⟩, 0x100000#32⟩ : Heap).findFirstFitStartBlock
      (fun a => if a = 0x1001#32 then heapBlockTableEntryTaken else 0) 8192#32
        = 2 :=
  ((find_first_fit_is_first_fit ⟨⟨0x1000#32, 4#32⟩, 0x100000#32⟩ (by decide)
    (fun a => if a = 0x1001#32 then heapBlockTableEntryTaken else 0)
      (show 1 ≤ 2 by decide)
    (by decide)).1 2).mpr
    ⟨⟨by decide, fun j h₁ h₂ => by
      obtain rfl | rfl : j = 2 ∨ j = 3 := by omega
      · decide
      · decide⟩, fun i hi hroom => by
      have hfree := hroom.2 1 (by omega) (by omega)
      exact absurd hfree (by decide)⟩

/-! ## The table encodes the extents in use

The invariant of the heap. The allocations are a list of extents, and the table
holds the marks of that list, each as a byte. -/

/-- The byte `heap_malloc` leaves in an entry. `HEAP_BLOCK_IS_FIRST` is not
in it: the marking loop overwrites it. -/
def entryByte : Mark → Byte
  | Mark.free => heapBlockTableEntryFree
  | Mark.last => heapBlockTableEntryTaken
  | Mark.more => heapBlockTableEntryTaken ||| heapBlockHasNext

/-- **The heap invariant**: the allocations in use are extents of blocks packed
into the heap, and the table encodes exactly them. So an entry that is taken
belongs to one allocation, and its end can be found from there. -/
structure HeapInv (h : Heap) (m : Memory) (es : List Extent) : Prop where
  /-- The allocations do not overlap. -/
  packed : Packed h.total es
  /-- The table says so. -/
  encodes : ∀ i, i < h.total → h.entry m i = entryByte (markAt es i)

/-- The type of an entry tells free from taken. -/
theorem getEntryType_entryByte (k : Mark) :
    getEntryType (entryByte k) = heapBlockTableEntryFree ↔ k = Mark.free := by
  cases k <;> decide

/-- The `HAS_NEXT` bit tells the cells that have a successor. -/
theorem entryByte_hasNext (k : Mark) :
    entryByte k &&& heapBlockHasNext = 0 ↔ k ≠ Mark.more := by
  cases k <;> decide

section Invariant

variable {h : Heap} {m : Memory} {es : List Extent}

/-- Under the invariant, free means in no allocation. -/
theorem HeapInv.free_iff (hinv : HeapInv h m es) {i : ℕ} (hi : i < h.total) :
    h.Free m i ↔ markAt es i = Mark.free := by
  rw [Free, hinv.encodes i hi, getEntryType_entryByte]

/-- The invariant reads the table only. -/
theorem HeapInv.congr {m' : Memory} (hinv : HeapInv h m es)
    (heq : ∀ i, i < h.total → h.entry m' i = h.entry m i) : HeapInv h m' es :=
  ⟨hinv.packed, fun i hi => (heq i hi).trans (hinv.encodes i hi)⟩

/-- **The table is a function of the allocations**, in whatever order they
are listed. -/
theorem HeapInv.entry_eq {m' : Memory} {es' : List Extent}
    (hinv : HeapInv h m es) (hinv' : HeapInv h m' es')
    (hmem : ∀ e, e ∈ es ↔ e ∈ es') {i : ℕ} (hi : i < h.total) :
    h.entry m i = h.entry m' i := by
  rw [hinv.encodes i hi, hinv'.encodes i hi,
    hinv.packed.markAt_congr hinv'.packed (fun e _ => hmem e)]

theorem HeapInv.perm {es' : List Extent} (hinv : HeapInv h m es)
    (hp : es.Perm es') :
    HeapInv h m es' :=
  ⟨hinv.packed.perm hp, fun i hi => by
    rw [hinv.encodes i hi, hinv.packed.markAt_congr (hinv.packed.perm hp)
      (fun _ _ => hp.mem_iff)]⟩

end Invariant

/-! ## Taking an extent

The entries of the extent get their marks and its blocks their zeros; every
other byte stays. The invariant then holds with the extent in front of the
others. -/

/-- How many blocks `align_to_upper` rounds a size to. -/
def blocksFor (size : Word) : ℕ := size.toNat / 4096 + 1

theorem alignToUpper_toNat {size : Word} (hs : size.toNat + 4096 < 2 ^ 32) :
    (alignToUpper size).toNat = blocksFor size * 4096 := by
  unfold alignToUpper blocksFor
  simp only [BitVec.toNat_add, BitVec.toNat_sub, BitVec.toNat_umod,
    heapBlockSize_toNat]
  omega

/-- The blocks hold the bytes asked for. -/
theorem le_blocksFor (size : Word) : size.toNat ≤ blocksFor size * 4096 := by
  unfold blocksFor
  omega

/-- The marking loop, from the cell `idx` of `e` on: the entries of `e` from
there get their marks, and nothing else changes. -/
theorem markEntries_spec {h : Heap} (hw : h.Wf) {e : Extent}
    (he : e.stop ≤ h.total) (hpos : 0 < e.stop) (left bound idx : ℕ)
    (m : Memory) (hidx : idx + left = e.stop) (hbound : left < bound) :
    ∃ m', h.markEntries (BitVec.ofNat 32 (e.stop - 1)) bound
      (BitVec.ofNat 32 idx) m = some m'
      ∧ (∀ i, idx ≤ i → i < e.stop →
        m' (h.entryAddress i) = entryByte (e.mark i))
      ∧ ∀ x, (∀ i, idx ≤ i → i < e.stop → x ≠ h.entryAddress i) →
        m' x = m x := by
  have hsize := hw.size_lt
  induction left generalizing bound idx m with
  | zero =>
    obtain ⟨bound, rfl⟩ := Nat.exists_eq_succ_of_ne_zero (Nat.ne_of_gt hbound)
    refine ⟨m, ?_, fun i h₁ h₂ => absurd h₂ (by omega), fun _ _ => rfl⟩
    rw [markEntries, if_neg]
    bv_omega
  | succ left ih =>
    obtain ⟨bound, rfl⟩ := Nat.exists_eq_succ_of_ne_zero
      (Nat.ne_of_gt (Nat.lt_trans
      (Nat.succ_pos left) hbound))
    have hidx32 : (BitVec.ofNat 32 idx).toNat = idx := by
      rw [BitVec.toNat_ofNat]
      omega
    have hle : BitVec.ofNat 32 idx ≤ BitVec.ofNat 32 (e.stop - 1) := by bv_omega
    have hne : BitVec.ofNat 32 idx ≠ BitVec.ofNat 32 (e.stop - 1)
        ↔ idx + 1 ≠ e.stop := by
      bv_omega
    have hsucc : BitVec.ofNat 32 idx + 1 = BitVec.ofNat 32 (idx + 1) := by
      bv_omega
    rw [markEntries, if_pos hle, hidx32, hsucc]
    dsimp only
    -- the byte left in entry `idx`
    generalize hm₁ : (if BitVec.ofNat 32 idx ≠ BitVec.ofNat 32 (e.stop - 1) then
        (m.store8 (h.entryAddress idx) heapBlockTableEntryTaken).store8
          (h.entryAddress idx)
          (h.entry (m.store8 (h.entryAddress idx) heapBlockTableEntryTaken) idx
            ||| heapBlockHasNext)
      else m.store8 (h.entryAddress idx) heapBlockTableEntryTaken) = m₁
    have hself : m₁ (h.entryAddress idx) = entryByte (e.mark idx) := by
      rw [← hm₁, Extent.mark]
      by_cases hlast : idx + 1 = e.stop
      · rw [if_neg (fun hc => hne.mp hc hlast), if_pos hlast,
          Memory.store8_self]
        rfl
      · rw [if_pos (hne.mpr hlast), if_neg hlast, Memory.store8_self, entry,
          Memory.store8_self]
        rfl
    have hother : ∀ x, x ≠ h.entryAddress idx → m₁ x = m x := by
      intro x hx
      rw [← hm₁]
      split
      · rw [Memory.store8_of_ne hx, Memory.store8_of_ne hx]
      · rw [Memory.store8_of_ne hx]
    obtain ⟨m', hrun, hmarks, hframe⟩ :=
      ih bound (idx + 1) m₁ (by omega) (by omega)
    refine ⟨m', hrun, fun i h₁ h₂ => ?_, fun x hx => ?_⟩
    · rcases Nat.eq_or_lt_of_le h₁ with rfl | hlt
      · rw [hframe _ (fun i h₁ h₂ heq => ?_), hself]
        exact absurd (entryAddress_inj hw (by omega) (by omega) heq) (by omega)
      · exact hmarks i hlt h₂
    · rw [hframe x (fun i h₁ h₂ => hx i (by omega) h₂),
        hother x (hx idx (Nat.le_refl _) (by omega))]

/-- The entries of an extent are those of the blocks that it covers. -/
theorem entryAddress_mem_tableRegion_iff {h : Heap} (hw : h.Wf) {e : Extent}
    (hstop : e.stop ≤ h.total) (hpos : 0 < e.count) {i : ℕ} (hi : i < h.total) :
    h.entryAddress i ∈ h.tableRegion e ↔ e.Covers i := by
  rw [mem_tableRegion hw hstop hpos]
  constructor
  · rintro ⟨j, hj, heq⟩
    exact entryAddress_inj hw hi (Nat.lt_of_lt_of_le hj.2 hstop) heq ▸ hj
  · intro hi
    exact ⟨i, hi, rfl⟩

/-- **An extent of free blocks is added**: its entries get their marks, its
blocks are zeroed, and nothing else changes. -/
theorem HeapInv.cons {h : Heap} (hw : h.Wf) {m m' : Memory} {es : List Extent}
    (hinv : HeapInv h m es) {e : Extent} (hpos : 0 < e.count)
    (hstop : e.stop ≤ h.total)
    (hfree : ∀ j, e.Covers j → markAt es j = Mark.free)
    (hmarks : ∀ j, e.Covers j → m' (h.entryAddress j) = entryByte (e.mark j))
    (hrest : ∀ x, x ∉ h.tableRegion e →
      m' x = if x ∈ h.dataRegion e then 0 else m x) :
    HeapInv h m' (e :: es) := by
  refine ⟨hinv.packed.cons hpos hstop hfree, fun j hj => ?_⟩
  rw [markAt]
  by_cases hc : e.Covers j
  · rw [if_pos hc, entry, hmarks j hc]
  · rw [if_neg hc, entry,
      hrest _ (fun hmem =>
        hc ((entryAddress_mem_tableRegion_iff hw hstop hpos hj).mp hmem)),
      if_neg (entryAddress_notMem_dataRegion hw hstop hj)]
    exact hinv.encodes j hj

/-- What `kmalloc` does to the memory, once the first run of free blocks is
found. -/
theorem kmalloc_run {h : Heap} (hw : h.Wf) {m : Memory} {size : Word}
    (hsize : size.toNat + 4096 < 2 ^ 32) {i : ℕ}
    (hstop : Extent.stop ⟨i, blocksFor size⟩ ≤ h.total)
    (hi : h.findFirstFitStartBlock m (alignToUpper size) = i) :
    ∃ m', h.kmalloc m size = some (h.blockAddress i, m')
      ∧ (∀ j, Extent.Covers ⟨i, blocksFor size⟩ j →
        m' (h.entryAddress j) = entryByte (Extent.mark ⟨i, blocksFor size⟩ j))
      ∧ ∀ x, x ∉ h.tableRegion ⟨i, blocksFor size⟩ →
        m' x = if x ∈ h.dataRegion ⟨i, blocksFor size⟩ then 0 else m x := by
  have halign := alignToUpper_toNat hsize
  have hn : 0 < blocksFor size := Nat.succ_pos _
  have hlt := hw.size_lt
  have hle : i + blocksFor size ≤ h.total := hstop
  have hfinal : BitVec.ofNat 32 i + alignToUpper size / heapBlockSize - 1
      = BitVec.ofNat 32 (Extent.stop ⟨i, blocksFor size⟩ - 1) := by
    have hdiv : (alignToUpper size / heapBlockSize).toNat = blocksFor size := by
      rw [BitVec.toNat_udiv, halign, heapBlockSize_toNat,
        Nat.mul_div_cancel _ (by decide)]
    unfold Extent.stop
    bv_omega
  have hdata : ∀ x,
    x ∈ Memory.region (h.blockIdx2BlockAddress (BitVec.ofNat 32 i))
      (alignToUpper size).toNat ↔ x ∈ h.dataRegion ⟨i, blocksFor size⟩ := by
    intro x
    rw [blockIdx2BlockAddress_ofNat, halign, dataRegion]
  have hi32 : (BitVec.ofNat 32 i).toNat = i := by
    rw [BitVec.toNat_ofNat]
    omega
  obtain ⟨m', hrun, hmarks, hframe⟩ := markEntries_spec hw hstop
    (show 0 < i + blocksFor size by omega) (blocksFor size) (2 ^ 32) i
    ((memset m (h.blockIdx2BlockAddress (BitVec.ofNat 32 i)) 0x00
      (alignToUpper size)).store8
      (h.entryAddress i) heapBlockIsFirst) rfl (by omega)
  refine ⟨m', ?_, fun j hj => hmarks j hj.1 hj.2, fun x hx => ?_⟩
  · rw [kmalloc, heapMalloc]
    simp only [hi, BitVec.ofInt_natCast, hfinal, hi32]
    rw [hrun, Option.map_some, blockIdx2BlockAddress_ofNat]
  · -- outside the entries, the loop leaves what the zeroing of the data left
    have hx' : ∀ j, i ≤ j → j < Extent.stop ⟨i, blocksFor size⟩ →
        x ≠ h.entryAddress j :=
      fun j h₁ h₂ heq =>
        hx ((mem_tableRegion hw hstop hn).mpr ⟨j, ⟨h₁, h₂⟩, heq⟩)
    rw [hframe x hx',
      Memory.store8_of_ne (hx' i (Nat.le_refl _) (Nat.lt_add_of_pos_right hn)),
      memset]
    by_cases hd : x ∈ h.dataRegion ⟨i, blocksFor size⟩
    · rw [if_pos hd, Memory.fill_of_mem ((hdata x).mpr hd)]
    · rw [if_neg hd, Memory.fill_of_notMem (fun hc => hd ((hdata x).mp hc))]

/-- **A `kmalloc` that finds a run** takes the first fit: the address is its
first block's, the allocation joins the others, its blocks are zeroed, and
no byte outside them and their entries changes. -/
theorem kmalloc_spec {h : Heap} (hw : h.Wf) {m : Memory} {es : List Extent}
    (hinv : HeapInv h m es) {size : Word} (hsize : size.toNat + 4096 < 2 ^ 32)
    (hfit : 0 ≤ h.findFirstFitStartBlock m (alignToUpper size)) :
    ∃ i m', h.kmalloc m size = some (h.blockAddress i, m')
      ∧ FirstRoom (h.Free m) h.total (blocksFor size) i
      ∧ HeapInv h m' (⟨i, blocksFor size⟩ :: es)
      ∧ Set.EqOn m' m (h.tableRegion ⟨i, blocksFor size⟩ ∪ h.dataRegion ⟨i,
        blocksFor size⟩)ᶜ
      ∧ ∀ x ∈ h.dataRegion ⟨i, blocksFor size⟩, m' x = 0 := by
  have hn : 0 < blocksFor size := Nat.succ_pos _
  rcases findFirstFitStartBlock_spec hw.size_lt m
    (alignToUpper_toNat hsize) hn with
    ⟨i, hi, hroom⟩ | ⟨hi, -⟩
  swap
  · rw [hi] at hfit
    exact absurd hfit (by decide)
  have hstop : Extent.stop ⟨i, blocksFor size⟩ ≤ h.total := hroom.1.1
  obtain ⟨m', hmalloc, hmarks, hrest⟩ := kmalloc_run hw hsize hstop hi
  have hfree : ∀ j, Extent.Covers ⟨i, blocksFor size⟩ j →
    markAt es j = Mark.free := fun j hj =>
      (hinv.free_iff (Nat.lt_of_lt_of_le hj.2 hstop)).mp (hroom.1.2 j hj.1 hj.2)
  refine ⟨i, m', hmalloc, hroom, hinv.cons hw hn hstop hfree hmarks hrest,
    fun x hx => ?_, fun x hx => ?_⟩
  · rw [hrest x (fun hc => hx (Or.inl hc)), if_neg (fun hc => hx (Or.inr hc))]
  · have hnt : x ∉ h.tableRegion ⟨i, blocksFor size⟩ := by
      rw [mem_tableRegion hw hstop hn]
      rintro ⟨j, hj, rfl⟩
      exact entryAddress_notMem_dataRegion hw hstop
        (Nat.lt_of_lt_of_le hj.2 hstop) hx
    rw [hrest x hnt, if_pos hx]

/-- **A `kzalloc` that finds a run** is a `kmalloc`: the blocks are zero
already. -/
theorem kzalloc_spec {h : Heap} (hw : h.Wf) {m : Memory} {es : List Extent}
    (hinv : HeapInv h m es) {size : Word} (hsize : size.toNat + 4096 < 2 ^ 32)
    (hfit : 0 ≤ h.findFirstFitStartBlock m (alignToUpper size)) :
    ∃ i m', h.kzalloc m size = some (h.blockAddress i, m')
      ∧ FirstRoom (h.Free m) h.total (blocksFor size) i
      ∧ HeapInv h m' (⟨i, blocksFor size⟩ :: es)
      ∧ Set.EqOn m' m (h.tableRegion ⟨i, blocksFor size⟩ ∪ h.dataRegion ⟨i,
        blocksFor size⟩)ᶜ
      ∧ ∀ x ∈ h.dataRegion ⟨i, blocksFor size⟩, m' x = 0 := by
  obtain ⟨i, m', hrun, hroom, hinv', hframe, hzero⟩ :=
    kmalloc_spec hw hinv hsize hfit
  refine ⟨i, m', ?_, hroom, hinv', hframe, hzero⟩
  rw [kzalloc, hrun, Option.map_some]
  refine congrArg some (Prod.ext rfl ?_)
  funext x
  show memset m' (h.blockAddress i) 0x00 size x = m' x
  by_cases hx : x ∈ Memory.region (h.blockAddress i) size.toNat
  · rw [memset, Memory.fill_of_mem hx]
    exact (hzero x (Memory.region_subset (le_blocksFor size) hx)).symm
  · rw [memset, Memory.fill_of_notMem hx]

/-! ## Giving an extent back

The loop frees entries up to the first that has no successor, which is the last
entry of the allocation, because the table encodes allocations. -/

/-- The loop of `heap_free`, started inside a chain of entries that ends
before `stop`: it frees the entries up to there and nothing else. -/
theorem freeFrom_spec {h : Heap} (hw : h.Wf) {stop : ℕ} (hstop : stop ≤ h.total)
    (left idx : ℕ) (m : Memory) (hidx : idx < stop)
    (hleft : idx + left = h.total)
    (hnext : ∀ i, idx ≤ i → i + 1 < stop → h.entry m i &&& heapBlockHasNext ≠ 0)
    (hlast : h.entry m (stop - 1) &&& heapBlockHasNext = 0) (x : Word) :
    (∀ i, idx ≤ i → i < stop → x = h.entryAddress i →
        h.freeFrom left idx m x = heapBlockTableEntryFree)
      ∧ ((∀ i, idx ≤ i → i < stop → x ≠ h.entryAddress i) →
        h.freeFrom left idx m x = m x) := by
  induction left generalizing idx m with
  | zero => exact absurd hleft (by omega)
  | succ left ih =>
    have hother : ∀ j, idx < j → j < stop →
        h.entry (m.store8 (h.entryAddress idx) heapBlockTableEntryFree) j
          = h.entry m j := by
      intro j h₁ h₂
      refine Memory.store8_of_ne (fun heq => ?_)
      exact absurd (entryAddress_inj hw (by omega) (by omega) heq) (by omega)
    rw [freeFrom]
    by_cases hend : idx + 1 = stop
    · have hzero : h.entry m idx &&& heapBlockHasNext = 0 := by
        rwa [show idx = stop - 1 from by omega]
      rw [if_pos hzero]
      refine ⟨fun i h₁ h₂ hx => ?_, fun hx =>
        Memory.store8_of_ne (hx idx (Nat.le_refl _) hidx)⟩
      rw [hx, show i = idx from by omega, Memory.store8_self]
    · rw [if_neg (hnext idx (Nat.le_refl _) (by omega))]
      obtain ⟨hin, hout⟩ :=
        ih (idx + 1) (m.store8 (h.entryAddress idx) heapBlockTableEntryFree)
        (by omega) (by omega)
        (fun i h₁
          h₂ => by rw [hother i h₁ (by omega)]; exact hnext i (by omega) h₂)
        (by rw [hother (stop - 1) (by omega) (by omega)]; exact hlast)
      refine ⟨fun i h₁ h₂ hx => ?_, fun hx => ?_⟩
      · rcases Nat.eq_or_lt_of_le h₁ with rfl | hlt
        · rw [hout (fun j h₃ h₄ hxj => ?_), hx, Memory.store8_self]
          exact absurd (entryAddress_inj hw (by omega) (by omega)
            (hx.symm.trans hxj)) (by omega)
        · exact hin i hlt h₂ hx
      · rw [hout (fun j h₃ h₄ => hx j (by omega) h₄),
          Memory.store8_of_ne (hx idx (Nat.le_refl _) hidx)]

/-- **A `kfree` of an allocation** gives back exactly its extent, and changes
only its table entries. The loop goes on while an entry has a successor, and
the last entry of an extent has none. -/
theorem kfree_spec {h : Heap} (hw : h.Wf) {m : Memory} {es : List Extent}
    (hinv : HeapInv h m es) {e : Extent} (he : e ∈ es) :
    HeapInv h (h.kfree m (h.blockAddress e.first)) (es.erase e)
      ∧ Set.EqOn (h.kfree m (h.blockAddress e.first)) m (h.tableRegion e)ᶜ := by
  have hstop := hinv.packed.stop_le e he
  have hpos := hinv.packed.pos e he
  have hentry : ∀ i, e.Covers i →
      h.entry m i = entryByte (e.mark i) := fun i hi => by
        rw [hinv.encodes i (Nat.lt_of_lt_of_le hi.2 hstop),
          hinv.packed.markAt_of_covers he hi]
  have hfirst : e.first < h.total := by unfold Extent.stop at hstop; omega
  have hfree := freeFrom_spec hw hstop (h.total - e.first) e.first m
    (Nat.lt_add_of_pos_right hpos) (by omega)
    (fun i h₁ h₂ => by
      rw [hentry i ⟨h₁, by omega⟩, ne_eq, entryByte_hasNext, not_not,
        Extent.mark, if_neg (by omega)])
    (by
      have hcov : e.Covers (e.stop - 1) := by
        unfold Extent.Covers Extent.stop; omega
      rw [hentry _ hcov, entryByte_hasNext, Extent.mark,
        if_pos (by unfold Extent.stop; omega)]
      exact Mark.noConfusion)
  have hrun : h.kfree m (h.blockAddress e.first)
      = h.freeFrom (h.total - e.first) e.first m := by
    rw [kfree, heapFree]
    simp only [blockAddress2BlockIdx_blockAddress hw hfirst]
  rw [hrun]
  refine ⟨⟨hinv.packed.erase e, fun i hi => ?_⟩, fun x hx => ?_⟩
  · rw [hinv.packed.markAt_erase he]
    by_cases hc : e.Covers i
    · rw [if_pos hc, entry, (hfree _).1 i hc.1 hc.2 rfl]
      rfl
    · rw [if_neg hc, entry, (hfree _).2 (fun j h₁ h₂ heq => ?_)]
      · exact hinv.encodes i hi
      · exact hc (entryAddress_inj hw hi (by omega) heq ▸ ⟨h₁, h₂⟩)
  · refine (hfree x).2 (fun i h₁ h₂ heq => hx ?_)
    exact (mem_tableRegion hw hstop hpos).mpr ⟨i, ⟨h₁, h₂⟩, heq⟩

/-- A `kfree` of an address past the table does nothing. -/
theorem kfree_of_total_le {h : Heap} {m : Memory} {ptr : Word}
    (hle : h.total ≤ (h.blockAddress2BlockIdx ptr).toNat) :
    h.kfree m ptr = m := by
  rw [kfree, heapFree]
  simp only [Nat.sub_eq_zero_of_le hle, freeFrom]

/-- A `kfree` inside a block that is free already does nothing. -/
theorem kfree_of_free {h : Heap} {m : Memory} {es : List Extent}
    (hinv : HeapInv h m es) {ptr : Word} {i : ℕ} (hi : i < h.total)
    (hptr : (h.blockAddress2BlockIdx ptr).toNat = i)
    (hfree : markAt es i = Mark.free) : h.kfree m ptr = m := by
  have hentry : h.entry m i = heapBlockTableEntryFree := by
    rw [hinv.encodes i hi, hfree]
    rfl
  rw [kfree, heapFree]
  simp only [hptr]
  rw [show h.total - i = (h.total - i - 1) + 1 from by omega, freeFrom, hentry]
  rw [if_pos (by decide)]
  funext x
  by_cases hx : x = h.entryAddress i
  · rw [hx, Memory.store8_self]
    exact hentry.symm
  · rw [Memory.store8_of_ne hx]

/-! ## What an allocation owns

The table is not data, and the data of two allocations do not meet. -/

section Ownership

variable {h : Heap} {m m' : Memory} {es : List Extent}

/-- The table and the data of allocations never meet. -/
theorem disjoint_dataRegion_tableRegion (hw : h.Wf) {e f : Extent}
    (he : e.stop ≤ h.total) (hf : f.stop ≤ h.total) (hfpos : 0 < f.count) :
    Disjoint (h.dataRegion e) (h.tableRegion f) := by
  rw [Set.disjoint_left]
  intro x hxe hxf
  obtain ⟨i, hi, rfl⟩ := (mem_tableRegion hw hf hfpos).mp hxf
  exact entryAddress_notMem_dataRegion hw he (Nat.lt_of_lt_of_le hi.2 hf) hxe

/-- Two allocations in use own disjoint bytes. -/
theorem HeapInv.disjoint_dataRegion (hw : h.Wf) (hinv : HeapInv h m es)
    {e f : Extent} (he : e ∈ es) (hf : f ∈ es) (hne : e ≠ f) :
    Disjoint (h.dataRegion e) (h.dataRegion f) := by
  refine Heap.disjoint_dataRegion hw (hinv.packed.stop_le e he)
    (hinv.packed.stop_le f hf)
    (hinv.packed.pos e he) (hinv.packed.pos f hf) ?_
  exact hinv.packed.apart.forall he hf hne

/-- **A write inside an allocation** keeps the heap, and the bytes of every
other allocation. -/
theorem HeapInv.eqOn_dataRegion (hw : h.Wf) (hinv : HeapInv h m es) {e : Extent}
    (he : e ∈ es) (heq : Set.EqOn m' m (h.dataRegion e)ᶜ) :
    HeapInv h m' es ∧ ∀ f ∈ es, f ≠ e → Set.EqOn m' m (h.dataRegion f) := by
  refine ⟨hinv.congr (fun i hi => heq ?_), fun f hf hne => heq.mono ?_⟩
  · exact entryAddress_notMem_dataRegion hw (hinv.packed.stop_le e he) hi
  · exact Set.subset_compl_iff_disjoint_right.mpr
      (hinv.disjoint_dataRegion hw hf he hne)

/-- A `kzalloc` that finds a run is a `kzalloc`. -/
theorem kzalloc_of_kzallocFit {size : Word} {r : Word × Memory}
    (hrun : h.kzallocFit m size = some r) : h.kzalloc m size = some r := by
  rw [kzallocFit] at hrun
  split at hrun
  · exact hrun
  · exact absurd hrun (by simp)

/-- **What the owner of a fresh allocation gets**: blocks of zeros that are its
own, while every other allocation keeps its bytes. This is the one lemma that
clients of the heap need of an allocation. -/
theorem kzallocFit_spec (hw : h.Wf) (hinv : HeapInv h m es) {size p : Word}
    (hsize : size.toNat + 4096 < 2 ^ 32)
    (hrun : h.kzallocFit m size = some (p, m')) :
    ∃ i, p = h.blockAddress i
      ∧ FirstRoom (h.Free m) h.total (blocksFor size) i
      ∧ HeapInv h m' (⟨i, blocksFor size⟩ :: es)
      ∧ (∀ f ∈ es, Set.EqOn m' m (h.dataRegion f))
      ∧ ∀ x ∈ h.dataRegion ⟨i, blocksFor size⟩, m' x = 0 := by
  rw [kzallocFit] at hrun
  split at hrun
  · rename_i hfit
    obtain ⟨i, m'', hrun', hroom, hinv', hframe, hzero⟩ :=
      kzalloc_spec hw hinv hsize hfit
    rw [hrun] at hrun'
    obtain ⟨rfl, rfl⟩ := Prod.mk.inj (Option.some.inj hrun')
    refine ⟨i, rfl, hroom, hinv', fun f hf => hframe.mono ?_, hzero⟩
    have hnew := List.mem_cons_self (a :=
      (⟨i, blocksFor size⟩ : Extent)) (l := es)
    have hold := List.mem_cons_of_mem (⟨i, blocksFor size⟩ : Extent) hf
    have hne : f ≠ ⟨i, blocksFor size⟩ := fun heq =>
      (List.nodup_cons.mp hinv'.packed.nodup).1 (heq ▸ hf)
    rw [Set.subset_compl_iff_disjoint_right, Set.disjoint_union_right]
    have hpacked := hinv'.packed
    exact ⟨disjoint_dataRegion_tableRegion hw (hpacked.stop_le f hold)
      (hpacked.stop_le _ hnew)
      (hpacked.pos _ hnew), hinv'.disjoint_dataRegion hw hold hnew hne⟩
  · exact absurd hrun (by simp)

/-- The blocks after the last allocation are room. -/
theorem HeapInv.room_of_stop_le (hinv : HeapInv h m es) {b k : ℕ}
    (hb : ∀ e ∈ es, e.stop ≤ b) (hroom : b + k ≤ h.total) :
    Room (h.Free m) h.total k b := by
  refine ⟨hroom, fun j hj hlt => ?_⟩
  rw [hinv.free_iff (by omega), markAt_eq_free_iff]
  intro e he hcov
  exact absurd (Nat.lt_of_lt_of_le hcov.2 (hb e he)) (Nat.not_lt_of_le hj)

/-- A request that fits after the last allocation succeeds. -/
theorem kzallocFit_of_room (hw : h.Wf) (hinv : HeapInv h m es) {size : Word}
    {b : ℕ} (hsize : size.toNat + 4096 < 2 ^ 32) (hb : ∀ e ∈ es, e.stop ≤ b)
    (hroom : b + blocksFor size ≤ h.total) :
    ∃ r, h.kzallocFit m size = some r := by
  rcases findFirstFitStartBlock_spec hw.size_lt m (alignToUpper_toNat hsize)
    (Nat.succ_pos _) with
    ⟨i, hi, -⟩ | ⟨-, hnone⟩
  · have hfit : 0 ≤ h.findFirstFitStartBlock m (alignToUpper size) := by
      rw [hi]
      exact Int.natCast_nonneg i
    obtain ⟨j, m', hrun, -⟩ := kzalloc_spec hw hinv hsize hfit
    exact ⟨_, by rw [kzallocFit, if_pos hfit, hrun]⟩
  · exact absurd (hinv.room_of_stop_le hb hroom) (hnone b)

/-- What is allocated then ends with the room that was asked for, at the
latest. -/
theorem kzallocFit_below (hw : h.Wf) (hinv : HeapInv h m es) {size : Word}
    {b : ℕ} (hsize : size.toNat + 4096 < 2 ^ 32) (hb : ∀ e ∈ es, e.stop ≤ b)
    (hroom : b + blocksFor size ≤ h.total) :
    ∃ i m', h.kzallocFit m size = some (h.blockAddress i, m')
      ∧ HeapInv h m' (⟨i, blocksFor size⟩ :: es)
      ∧ (∀ f ∈ es, Set.EqOn m' m (h.dataRegion f))
      ∧ ∀ e ∈ (⟨i, blocksFor size⟩ :: es : List Extent),
        e.stop ≤ b + blocksFor size := by
  obtain ⟨⟨p, m'⟩, hfit⟩ := kzallocFit_of_room hw hinv hsize hb hroom
  obtain ⟨i, rfl, hfirst, hinv', hdata, -⟩ := kzallocFit_spec hw hinv hsize hfit
  have hi := hfirst.le (hinv.room_of_stop_le hb hroom)
  exact ⟨i, m', hfit, hinv', hdata, List.forall_mem_cons.mpr
    ⟨Nat.add_le_add_right hi _, fun e he => Nat.le_add_right_of_le (hb e he)⟩⟩

end Ownership

/-! ## Initialisation

The layout's fields are what `create` checks, so it accepts every layout. -/

end Heap

/-- The heap structure a layout gives. -/
def HeapConfig.heap (c : HeapConfig) : Heap :=
  ⟨⟨c.heapTableAddress, BitVec.ofNat 32 c.totalBlocks⟩, c.heapAddress⟩

theorem HeapConfig.total_heap (c : HeapConfig) :
    c.heap.total = c.totalBlocks := by
  have := c.size_lt
  show (BitVec.ofNat 32 c.totalBlocks).toNat = _
  rw [BitVec.toNat_ofNat]
  omega

theorem HeapConfig.heap_wf (c : HeapConfig) : c.heap.Wf := by
  have htotal := c.total_heap
  refine ⟨?_, c.aligned, ?_, ?_, ?_⟩
  · rw [htotal]; exact c.size_lt
  · rw [htotal]; exact c.data_le
  · rw [htotal]; exact c.table_le
  · rw [htotal]; exact c.apart

/-- **`kheap_init` accepts every layout** and leaves a heap with no
allocation, having changed only the table. -/
theorem kheapInit_spec (c : HeapConfig) (m : Memory) :
    (kheapInit c m).1 = c.heap ∧ Heap.HeapInv c.heap (kheapInit c m).2 []
      ∧ Set.EqOn (kheapInit c m).2 m
        (Memory.region c.heapTableAddress c.totalBlocks)ᶜ := by
  have hlt := c.size_lt
  have haligned := c.aligned
  have hblocks : BitVec.ofNat 32 (c.totalBlocks * 4096) / heapBlockSize
      = BitVec.ofNat 32 c.totalBlocks := by
    apply BitVec.eq_of_toNat_eq
    rw [BitVec.toNat_udiv, BitVec.toNat_ofNat, BitVec.toNat_ofNat,
      heapBlockSize_toNat]
    omega
  have hstart : validateAlignment c.heapAddress = true := by
    unfold validateAlignment
    rw [decide_eq_true_iff]
    apply BitVec.eq_of_toNat_eq
    rw [BitVec.toNat_umod, heapBlockSize_toNat]
    exact haligned
  have hend : validateAlignment
    (c.heapAddress + BitVec.ofNat 32 (c.totalBlocks * 4096))
      = true := by
    unfold validateAlignment
    rw [decide_eq_true_iff]
    apply BitVec.eq_of_toNat_eq
    rw [BitVec.toNat_umod, heapBlockSize_toNat, BitVec.toNat_add,
      BitVec.toNat_ofNat]
    show _ = 0
    omega
  have hvalid : validateHeapTable c.heapAddress
      (c.heapAddress + BitVec.ofNat 32 (c.totalBlocks * 4096)) c.heap.table
        = true := by
    unfold validateHeapTable
    rw [decide_eq_true_iff,
      show c.heapAddress + BitVec.ofNat 32 (c.totalBlocks * 4096)
      - c.heapAddress = BitVec.ofNat 32 (c.totalBlocks * 4096) from by bv_omega]
    exact hblocks
  have hinit : kheapInit c m = (c.heap,
    memset m c.heapTableAddress heapBlockTableEntryFree
      (BitVec.ofNat 32 c.totalBlocks)) := by
    unfold kheapInit defaultHeapCreate
    simp only [hblocks, hstart, hend]
    rw [if_neg (by decide), if_neg (by
      rw [show (⟨c.heapTableAddress, BitVec.ofNat 32 c.totalBlocks⟩ : HeapTable)
        = c.heap.table from rfl, hvalid]
      decide)]
    rfl
  have hn : (BitVec.ofNat 32 c.totalBlocks).toNat = c.totalBlocks :=
    c.total_heap
  rw [hinit]
  refine ⟨rfl, ⟨Packed.nil _, fun i hi => ?_⟩, ?_⟩
  · rw [c.total_heap] at hi
    refine Memory.fill_of_mem ?_
    rw [hn, Memory.mem_region]
    show (c.heapTableAddress + BitVec.ofNat 32 i - c.heapTableAddress).toNat < _
    bv_omega
  · rw [memset, hn]
    exact Memory.eqOn_fill _ _ _ _

/-- So the heap it makes is in order, with no allocation. -/
theorem kheapInit_inv (c : HeapConfig) (m : Memory) :
    (kheapInit c m).1.Wf
      ∧ Heap.HeapInv (kheapInit c m).1 (kheapInit c m).2 [] := by
  obtain ⟨hheap, hinit, -⟩ := kheapInit_spec c m
  rw [hheap]
  exact ⟨c.heap_wf, hinit⟩

end N00bOS
