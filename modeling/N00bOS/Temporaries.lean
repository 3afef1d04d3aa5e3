import N00bOS.HeapRuns

/-!
# Blocks for a moment

A function of the kernel that needs a buffer for a moment asks `kzalloc` for
less than a block and gives it back to `kfree` before it returns. What such a
request does is the same for every content of the block table, also for one
that some other part of the kernel has written over (`kzalloc_page`): the entry
that the search names is taken, and the page that belongs to it is zeroed.

The search may name no block. The code does not look at its result, so
`-ENOMEM` is a block index like any other: the page lies twelve blocks below
the data, and the entry twelve bytes below the table. Neither is part of the
heap, as long as the heap lies where the kernel has it (`Placed`). A request on
a full heap therefore returns a page of zeros, `kfree` does nothing with it,
and the block table never changes; that the byte below the table does is what
`SameBelow` leaves out.

So a function that takes such a buffer and gives it back works on a full heap
as it does on any other, and what it reads and returns does not depend on the
heap. `kzalloc_small` and `kfree_sameBelow` are the two halves of that
argument: the request always returns, and the two together leave the memory
below the table alone, up to twelve bytes.
-/

namespace N00bOS

/-- Two memories that agree below an address. What lies below the table of the
heap is not the heap's, but the kernel writes there: the items of the root
directory start at address `0`. -/
def SameBelow (n : ℕ) (m m' : Memory) : Prop :=
  ∀ x : Word, x.toNat < n → m' x = m x

namespace SameBelow

variable {n n' : ℕ} {m m' m'' : Memory}

theorem refl (n : ℕ) (m : Memory) : SameBelow n m m := fun _ _ => rfl

theorem trans (h₁ : SameBelow n m m') (h₂ : SameBelow n m' m'') :
    SameBelow n m m'' :=
  fun x hx => (h₂ x hx).trans (h₁ x hx)

theorem mono (h : SameBelow n m m') (hle : n' ≤ n) : SameBelow n' m m' :=
  fun x hx => h x (Nat.lt_of_lt_of_le hx hle)

end SameBelow

namespace Heap

/-- **A heap where the kernel has it**: the table starts at
`HEAP_TABLE_ADDRESS` or above, and there are twelve blocks of memory between
the table and the data, so that the page of a failed search is neither. -/
structure Placed (h : Heap) : Prop extends Wf h where
  table_ge : heapTableAddress.toNat ≤ h.table.entries.toNat
  gap : h.table.entries.toNat + h.total + 12 * 4096 ≤ h.startAddress.toNat

/-- The data of such a heap is not at address `0`. -/
theorem Placed.start_ne_zero {h : Heap} (hp : h.Placed) :
    h.startAddress ≠ 0 := by
  intro hzero
  have hgap := hp.gap
  rw [hzero, show (0 : Word).toNat = 0 from rfl] at hgap
  omega

/-- The block index that a failed search becomes. -/
def failedIdx : Word := BitVec.ofInt 32 (-enomem)

/-- **A block index whose page is not part of the table**, and whose entry is
at most twelve bytes below it. -/
structure PageAt (h : Heap) (idx : Word) : Prop where
  ne_last : idx ≠ BitVec.allOnes 32
  page_ge : h.table.entries.toNat + h.total
    ≤ (h.blockIdx2BlockAddress idx).toNat
  page_le : (h.blockIdx2BlockAddress idx).toNat + 4096 ≤ 2 ^ 32
  entry_ge : h.table.entries.toNat ≤ (h.entryAddress idx.toNat).toNat + 12
  entry_lt : (h.entryAddress idx.toNat).toNat < h.table.entries.toNat + h.total

section Pages

variable {h : Heap}

/-- A block of the heap. -/
theorem pageAt_ofNat (hp : h.Placed) {i : ℕ} (hi : i < h.total) :
    h.PageAt (BitVec.ofNat 32 i) := by
  have hgap := hp.gap
  have hdata := hp.data_le
  have hsize := hp.size_lt
  have haddr := blockAddress_toNat hp.toWf hi
  have hentry := entryAddress_toNat hp.toWf hi
  have hidx : (BitVec.ofNat 32 i).toNat = i := by
    rw [BitVec.toNat_ofNat]
    omega
  rw [← blockIdx2BlockAddress_ofNat] at haddr
  refine ⟨fun hlast => ?_, by omega, by omega, ?_, ?_⟩
  · rw [hlast, BitVec.toNat_allOnes] at hidx
    omega
  · rw [hidx]
    omega
  · rw [hidx]
    omega

/-- The entry twelve bytes below the table. -/
theorem entryAddress_failedIdx (hp : h.Placed) :
    (h.entryAddress failedIdx.toNat).toNat + 12 = h.table.entries.toNat := by
  have htable := hp.table_ge
  have h12 : (12 : ℕ) ≤ heapTableAddress.toNat := by decide
  unfold entryAddress
  rw [show BitVec.ofNat 32 failedIdx.toNat = - 12#32 from by decide]
  bv_omega

/-- The page twelve blocks below the data. -/
theorem pageAt_failedIdx (hp : h.Placed) : h.PageAt failedIdx := by
  have hgap := hp.gap
  have hdata := hp.data_le
  have hentry := entryAddress_failedIdx hp
  have haddr : (h.blockIdx2BlockAddress failedIdx).toNat + 0xC000
      = h.startAddress.toNat := by
    unfold blockIdx2BlockAddress
    rw [show failedIdx * heapBlockSize = - 0xC000#32 from by decide]
    bv_omega
  exact ⟨by decide, by omega, by omega, by omega, by omega⟩

/-- The entry of a page is not in the page. -/
theorem PageAt.entry_notMem {idx : Word} (hpage : h.PageAt idx) :
    h.entryAddress idx.toNat
      ∉ Memory.region (h.blockIdx2BlockAddress idx) 4096 := by
  rw [Memory.mem_region_of_le hpage.page_le]
  have := hpage.entry_lt
  have := hpage.page_ge
  omega

/-- **What the search names**: a free block, or nothing, and then there is
none. -/
theorem search_cases (hw : h.Wf) (m : Memory) {size : Word}
    (hsize : size.toNat < 4096) :
    (∃ i, i < h.total ∧ h.Free m i
      ∧ h.findFirstFitStartBlock m (alignToUpper size) = i)
      ∨ (h.findFirstFitStartBlock m (alignToUpper size) = -enomem
        ∧ ∀ i, i < h.total → ¬ h.Free m i) := by
  have hone : blocksFor size = 1 := by
    unfold blocksFor
    omega
  have halign := alignToUpper_toNat (show size.toNat + 4096 < 2 ^ 32 by omega)
  rcases findFirstFitStartBlock_spec hw.size_lt m halign (Nat.succ_pos _) with
    ⟨i, hi, hroom⟩ | ⟨hi, hnone⟩
  · rw [hone] at hroom
    have hlt : i < h.total := hroom.1.1
    exact Or.inl ⟨i, hlt, hroom.1.2 i (Nat.le_refl _) (Nat.lt_succ_self _), hi⟩
  · rw [hone] at hnone
    refine Or.inr ⟨hi, fun i hlt hfree => hnone i ⟨hlt, fun j h₁ h₂ => ?_⟩⟩
    obtain rfl : j = i := by omega
    exact hfree

/-- The marking loop, for one entry. -/
theorem markEntries_self (h : Heap) {idx : Word}
    (hidx : idx ≠ BitVec.allOnes 32) (bound : ℕ) (m : Memory) :
    h.markEntries idx (bound + 2) idx m
      = some (m.store8 (h.entryAddress idx.toNat)
        heapBlockTableEntryTaken) := by
  have hstop : ¬ idx + 1 ≤ idx := by
    intro hle
    refine hidx (BitVec.eq_of_toNat_eq ?_)
    rw [BitVec.toNat_allOnes]
    bv_omega
  rw [markEntries, if_pos (BitVec.le_refl idx)]
  simp only [ne_eq, not_true_eq_false, if_false]
  rw [markEntries, if_neg hstop]

/-- **A request for less than a block**, for every content of the table: the
page that the search names is zeroed, its entry is taken, and no other byte
changes. -/
theorem kzalloc_page {m : Memory} {size idx : Word} (hsize : size.toNat < 4096)
    (hfind : BitVec.ofInt 32 (h.findFirstFitStartBlock m (alignToUpper size))
      = idx)
    (hpage : h.PageAt idx) :
    ∃ m', h.kzalloc m size = some (h.blockIdx2BlockAddress idx, m')
      ∧ m' (h.entryAddress idx.toNat) = heapBlockTableEntryTaken
      ∧ ∀ x, x ≠ h.entryAddress idx.toNat →
        m' x = if x ∈ Memory.region (h.blockIdx2BlockAddress idx) 4096 then 0
          else m x := by
  have halign : (alignToUpper size).toNat = 4096 := by
    rw [alignToUpper_toNat (show size.toNat + 4096 < 2 ^ 32 by omega)]
    unfold blocksFor
    omega
  have hone : alignToUpper size / heapBlockSize = 1 := by
    refine BitVec.eq_of_toNat_eq ?_
    rw [BitVec.toNat_udiv, halign]
    rfl
  have hfinal : idx + 1 - 1 = idx := BitVec.add_sub_cancel idx 1
  have hentry := hpage.entry_notMem
  have hmem : ∀ {x},
    x ∈ Memory.region (h.blockIdx2BlockAddress idx) size.toNat →
      x ∈ Memory.region (h.blockIdx2BlockAddress idx) 4096 := fun hx =>
    Memory.region_subset (Nat.le_of_lt hsize) hx
  refine ⟨memset
    (((memset m (h.blockIdx2BlockAddress idx) 0 (alignToUpper size)).store8
    (h.entryAddress idx.toNat) heapBlockIsFirst).store8
      (h.entryAddress idx.toNat)
      heapBlockTableEntryTaken) (h.blockIdx2BlockAddress idx) 0 size, ?_,
      ?_, fun x hx => ?_⟩
  · rw [kzalloc, kmalloc, heapMalloc]
    simp only [hfind, hone, hfinal]
    rw [show (2 ^ 32 : ℕ) = 4294967294 + 2 from rfl,
      markEntries_self h hpage.ne_last]
    rfl
  · rw [memset, Memory.fill_of_notMem (fun hx => hentry (hmem hx)),
      Memory.store8_self]
  · by_cases hin : x ∈ Memory.region (h.blockIdx2BlockAddress idx) size.toNat
    · rw [memset, Memory.fill_of_mem hin, if_pos (hmem hin)]
    · rw [memset, Memory.fill_of_notMem hin, Memory.store8_of_ne hx,
        Memory.store8_of_ne hx, memset, Memory.fill, halign]
      rfl

/-- **Such a request always returns**, and leaves the memory below the table
alone: all of it when a block is free, and all but twelve bytes when none
is. Behind the table it writes to the page that it returns only. -/
theorem kzalloc_small (hp : h.Placed) (m : Memory) {size : Word}
    (hsize : size.toNat < 4096) :
    ∃ p m', h.kzalloc m size = some (p, m')
      ∧ SameBelow (heapTableAddress.toNat - 12) m m'
      ∧ ((∃ i, i < h.total ∧ h.Free m i) →
        SameBelow heapTableAddress.toNat m m')
      ∧ ∀ x : Word, h.table.entries.toNat + h.total ≤ x.toNat →
        x ∉ Memory.region p 4096 → m' x = m x := by
  have htable := hp.table_ge
  have hbelow : ∀ {idx : Word} {m' : Memory} {n : ℕ}, h.PageAt idx →
      n ≤ h.table.entries.toNat →
      (∀ x : Word, x.toNat < n → x ≠ h.entryAddress idx.toNat) →
      (∀ x, x ≠ h.entryAddress idx.toNat →
        m' x = if x ∈ Memory.region (h.blockIdx2BlockAddress idx) 4096 then 0
          else m x) →
      SameBelow n m m' := by
    intro idx m' n hpage hn hne hrest x hx
    have := hpage.page_ge
    rw [hrest x (hne x hx), if_neg]
    rw [Memory.mem_region_of_le hpage.page_le]
    omega
  have hbehind : ∀ {idx : Word} {m' : Memory}, h.PageAt idx →
      (∀ x, x ≠ h.entryAddress idx.toNat →
        m' x = if x ∈ Memory.region (h.blockIdx2BlockAddress idx) 4096 then 0
          else m x) →
      ∀ x : Word, h.table.entries.toNat + h.total ≤ x.toNat →
        x ∉ Memory.region (h.blockIdx2BlockAddress idx) 4096 → m' x = m x := by
    intro idx m' hpage hrest x hx hout
    have hlt := hpage.entry_lt
    rw [hrest x (fun heq => by rw [heq] at hx; omega), if_neg hout]
  rcases search_cases hp.toWf m hsize with
    ⟨i, hi, hfree, hfind⟩ | ⟨hfind, hnone⟩
  · have hpage := pageAt_ofNat hp hi
    obtain ⟨m', hrun, -, hrest⟩ := kzalloc_page hsize
      (show BitVec.ofInt 32 _
        = BitVec.ofNat 32 i by rw [hfind, BitVec.ofInt_natCast]) hpage
    have hall : SameBelow heapTableAddress.toNat m m' :=
      hbelow hpage htable (fun x hx heq => by
        have hentry := entryAddress_toNat hp.toWf hi
        have hidx : (BitVec.ofNat 32 i).toNat = i := by
          have := hp.size_lt
          rw [BitVec.toNat_ofNat]
          omega
        rw [heq, hidx] at hx
        omega) hrest
    exact ⟨_, m', hrun, hall.mono (Nat.sub_le _ _), fun _ => hall,
      hbehind hpage hrest⟩
  · have hpage := pageAt_failedIdx hp
    obtain ⟨m', hrun, -, hrest⟩ := kzalloc_page hsize
      (show BitVec.ofInt 32 _ = failedIdx by rw [hfind, failedIdx]) hpage
    refine ⟨_, m', hrun, hbelow hpage (by omega) (fun x hx heq => ?_) hrest, ?_,
      hbehind hpage hrest⟩
    · have := hpage.entry_ge
      rw [heq] at hx
      omega
    · rintro ⟨i, hi, hfree⟩
      exact absurd hfree (hnone i hi)

/-- **An allocation that finds room** leaves the memory below the table alone,
whatever its size. -/
theorem kzallocFit_sameBelow (hp : h.Placed) {m m' : Memory} {size p : Word}
    (hrun : h.kzallocFit m size = some (p, m')) :
    SameBelow heapTableAddress.toNat m m' := by
  have htable := hp.table_ge
  have hgap := hp.gap
  have hsize := size_lt_of_kzallocFit hrun
  have hpos : 0 < blocksFor size := Nat.succ_pos _
  rcases findFirstFitStartBlock_spec hp.size_lt m
    (alignToUpper_toNat hsize) hpos with
    ⟨i, hi, hroom⟩ | ⟨hnone, -⟩
  · have hstop : Extent.stop ⟨i, blocksFor size⟩ ≤ h.total := hroom.1.1
    obtain ⟨m'', hkmalloc, -, hrest⟩ := kmalloc_run hp.toWf hsize hstop hi
    have hkzalloc := kzalloc_of_kzallocFit hrun
    rw [kzalloc, hkmalloc] at hkzalloc
    obtain ⟨rfl, rfl⟩ := Prod.mk.inj (Option.some.inj hkzalloc)
    intro x hx
    have hdata : x ∉ h.dataRegion ⟨i, blocksFor size⟩ := by
      rw [mem_dataRegion hp.toWf hstop hpos]
      omega
    have hentry : x ∉ h.tableRegion ⟨i, blocksFor size⟩ := by
      rw [mem_tableRegion hp.toWf hstop hpos]
      rintro ⟨j, hj, rfl⟩
      rw [entryAddress_toNat hp.toWf (Nat.lt_of_lt_of_le hj.2 hstop)] at hx
      omega
    have hbuffer : x ∉ Memory.region (h.blockAddress i) size.toNat := fun hin =>
      hdata (Memory.region_subset (le_blocksFor size) hin)
    rw [show memset m'' (h.blockAddress i) 0x00 size x = m'' x from
      Memory.fill_of_notMem hbuffer, hrest x hentry, if_neg hdata]
  · rw [kzallocFit, hnone, if_neg (by decide)] at hrun
    cases hrun

/-- **`kfree` changes the table only**, whatever it is given. The index that it
computes is compared with the number of entries before anything is written. -/
theorem kfree_of_notMem (hp : h.Placed) (m : Memory) (ptr : Word) {x : Word}
    (hx : x.toNat < h.table.entries.toNat
      ∨ h.table.entries.toNat + h.total ≤ x.toNat) :
    h.kfree m ptr x = m x := by
  have hloop : ∀ left idx (m : Memory), idx + left ≤ h.total →
      h.freeFrom left idx m x = m x := by
    intro left
    induction left with
    | zero => exact fun _ m _ => rfl
    | succ left ih =>
      intro idx m hle
      have hentry := entryAddress_toNat hp.toWf (show idx < h.total by omega)
      have hstore : (m.store8 (h.entryAddress idx) heapBlockTableEntryFree) x
          = m x :=
        Memory.store8_of_ne fun heq => by
          rw [heq] at hx
          omega
      rw [freeFrom]
      split
      · exact hstore
      · rw [ih (idx + 1) _ (by omega), hstore]
  rw [kfree, heapFree]
  rcases Nat.le_total (h.blockAddress2BlockIdx ptr).toNat h.total with hle | hge
  · exact hloop _ _ m (by omega)
  · rw [Nat.sub_eq_zero_of_le hge]
    rfl

/-- In particular it leaves the memory below the table alone. -/
theorem kfree_sameBelow (hp : h.Placed) (m : Memory) (ptr : Word) :
    SameBelow heapTableAddress.toNat m (h.kfree m ptr) := fun x hx => by
  have htable := hp.table_ge
  exact kfree_of_notMem hp m ptr (Or.inl (by omega))

/-- The page below the data is not a block, and `kfree` does nothing with
it. -/
theorem kfree_failedIdx (hp : h.Placed) (m : Memory) :
    h.kfree m (h.blockIdx2BlockAddress failedIdx) = m := by
  refine kfree_of_total_le ?_
  have hsize := hp.size_lt
  have hsub : h.blockIdx2BlockAddress failedIdx - h.startAddress
      = - 0xC000#32 := by
    unfold blockIdx2BlockAddress
    rw [show failedIdx * heapBlockSize = - 0xC000#32 from by decide]
    bv_omega
  have hidx : (h.blockAddress2BlockIdx
      (h.blockIdx2BlockAddress failedIdx)).toNat = 0xFFFF4 := by
    unfold blockAddress2BlockIdx
    rw [hsub]
    decide
  have hdata := hp.data_le
  have hgap := hp.gap
  rw [hidx]
  omega

end Pages

end Heap

end N00bOS
