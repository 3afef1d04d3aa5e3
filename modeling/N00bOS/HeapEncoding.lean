import Mathlib.Data.Finset.Card
import Mathlib.Data.Finset.Range
import Mathlib.Order.Interval.Finset.Nat
import N00bOS.HeapRuns

/-!
# How many blocks an allocation takes, and how the table marks them

`align_to_upper` adds a block to a size that is a multiple of the block size.
Such a size takes a block more than it needs, and is turned away when the run
that would just hold it is the longest one; on every other size `kmalloc` takes
what is needed (`allocations_not_oversized_iff`).

`heap_malloc` stores `HEAP_BLOCK_IS_FIRST` in the first entry of a run, and its
marking loop then stores over it. No entry ever carries the flag, so the table
tells where allocations start only as long as there are none
(`first_block_marking_iff`).

Both are about every state of every run (`HeapReachable`). They come from the
run invariant: the entries that a call takes are those of the extent that it
adds (`KmallocSucceeds.newlyTaken_eq`), and the byte of an entry is that of its
mark, which has no bit for the first block (`Heap.entryByte_isFirst`).
-/

namespace N00bOS

/-! ## The blocks that are taken

What a call takes is read off the table, as the difference between what is free
before and after it. -/

namespace Heap

/-- The entries that were free and are taken. -/
def newlyTaken (h : Heap) (m m' : Memory) : Finset ℕ :=
  (Finset.range h.total).filter fun i =>
    h.Free m i ∧ getEntryType (h.entry m' i) = heapBlockTableEntryTaken

/-- A `kmalloc` that succeeds: the search finds a run, and the call returns. -/
def KmallocSucceeds (h : Heap) (m : Memory) (size ptr : Word)
    (m' : Memory) : Prop :=
  0 ≤ h.findFirstFitStartBlock m (alignToUpper size)
    ∧ h.kmalloc m size = some (ptr, m')

/-- **Allocations are not oversized**: a `kmalloc` that succeeds takes the
blocks that are needed and no other, and it succeeds whenever there is a run of
so many free blocks. -/
structure NotOversized (h : Heap) (m : Memory) (size : Word) : Prop where
  taken : ∀ ptr m', h.KmallocSucceeds m size ptr m' →
    (h.newlyTaken m m').card = blocksNeeded size
  succeeds : (∃ i, Room (h.Free m) h.total (blocksNeeded size) i) →
    ∃ ptr m', h.KmallocSucceeds m size ptr m'

section Sizes

variable {h : Heap} {m : Memory} {es : List Extent} {size : Word}

/-- The mark of a taken block. -/
theorem getEntryType_mark (e : Extent) (i : ℕ) :
    getEntryType (entryByte (e.mark i)) = heapBlockTableEntryTaken := by
  unfold Extent.mark
  split <;> decide

/-- **A `kmalloc` that succeeds** takes the blocks that its rounded size has.
These were all free before, so the blocks that are newly taken are the whole
run. -/
theorem KmallocSucceeds.newlyTaken_eq (hw : h.Wf) (hinv : HeapInv h m es)
    (hsize : size.toNat + 4096 < 2 ^ 32) {ptr : Word} {m' : Memory}
    (hrun : h.KmallocSucceeds m size ptr m') :
    ∃ i, h.newlyTaken m m' = Finset.Ico i (i + blocksFor size) := by
  obtain ⟨i, m'', hmalloc, hroom, hinv', -, -⟩ :=
    kmalloc_spec hw hinv hsize hrun.1
  obtain ⟨-, rfl⟩ := Prod.mk.inj (Option.some.inj (hrun.2.symm.trans hmalloc))
  refine ⟨i, Finset.ext fun j => ?_⟩
  rw [newlyTaken, Finset.mem_filter, Finset.mem_range, Finset.mem_Ico]
  constructor
  · rintro ⟨hj, hfree, htaken⟩
    -- a block outside the new extent is as free as before
    by_contra hout
    have hcov : ¬ Extent.Covers ⟨i, blocksFor size⟩ j := hout
    rw [hinv'.encodes j hj, markAt, if_neg hcov,
      (hinv.free_iff hj).mp hfree] at htaken
    exact absurd htaken (by decide)
  · intro hin
    have hj : j < h.total := Nat.lt_of_lt_of_le hin.2 hroom.1.1
    have hcov : Extent.Covers ⟨i, blocksFor size⟩ j := hin
    refine ⟨hj, hroom.1.2 j hin.1 hin.2, ?_⟩
    rw [hinv'.encodes j hj, markAt, if_pos hcov]
    exact getEntryType_mark _ _

/-- It succeeds exactly when there is a run of so many free blocks. -/
theorem exists_kmallocSucceeds_iff (hw : h.Wf) (hinv : HeapInv h m es)
    (hsize : size.toNat + 4096 < 2 ^ 32) :
    (∃ ptr m', h.KmallocSucceeds m size ptr m')
      ↔ ∃ i, Room (h.Free m) h.total (blocksFor size) i := by
  rcases findFirstFitStartBlock_spec hw.size_lt m (alignToUpper_toNat hsize)
    (Nat.succ_pos _) with ⟨i, hi, hroom⟩ | ⟨hi, hnone⟩
  · refine iff_of_true ?_ ⟨i, hroom.1⟩
    have hfit : 0 ≤ h.findFirstFitStartBlock m (alignToUpper size) := by
      rw [hi]
      exact Int.natCast_nonneg i
    obtain ⟨i, m', hrun, -⟩ := kmalloc_spec hw hinv hsize hfit
    exact ⟨_, m', hfit, hrun⟩
  · refine iff_of_false ?_ fun ⟨i, hroom⟩ => hnone i hroom
    rintro ⟨ptr, m', hfit, -⟩
    rw [hi] at hfit
    exact absurd hfit (by decide)

/-- A size that is no multiple of the block size gets the blocks it needs. -/
theorem blocksNeeded_eq (hmod : size.toNat % 4096 ≠ 0) :
    blocksNeeded size = blocksFor size := by
  unfold blocksNeeded blocksFor
  omega

/-- A multiple of the block size gets one more. -/
theorem blocksFor_of_multiple (hmod : size.toNat % 4096 = 0) :
    blocksFor size = blocksNeeded size + 1 := by
  unfold blocksNeeded blocksFor
  omega

/-- **An allocation is not oversized exactly when** its size is no multiple of
the block size, or no run would hold it. -/
theorem notOversized_iff (hw : h.Wf) (hinv : HeapInv h m es)
    (hsize : size.toNat + 4096 < 2 ^ 32) :
    h.NotOversized m size ↔ size.toNat % 4096 ≠ 0
      ∨ ∀ i, ¬ Room (h.Free m) h.total (blocksNeeded size) i := by
  have hsucceeds := exists_kmallocSucceeds_iff hw hinv hsize
  by_cases hmod : size.toNat % 4096 = 0
  · have hmore := blocksFor_of_multiple hmod
    constructor
    · rintro ⟨htaken, hfits⟩
      refine Or.inr fun i hroom => ?_
      obtain ⟨ptr, m', hrun⟩ := hfits ⟨i, hroom⟩
      obtain ⟨j, hj⟩ := hrun.newlyTaken_eq hw hinv hsize
      have hcard := htaken ptr m' hrun
      rw [hj, Nat.card_Ico] at hcard
      omega
    · rintro (hne | hnone)
      · exact absurd hmod hne
      · refine ⟨fun ptr m' hrun => ?_, fun ⟨i, hroom⟩ => absurd hroom (hnone i)⟩
        obtain ⟨i, hroom⟩ := hsucceeds.mp ⟨ptr, m', hrun⟩
        exact absurd (hroom.mono (by omega)) (hnone i)
  · refine iff_of_true ⟨fun ptr m' hrun => ?_, fun hroom => ?_⟩ (Or.inl hmod)
    · obtain ⟨i, hi⟩ := hrun.newlyTaken_eq hw hinv hsize
      rw [hi, Nat.card_Ico, blocksNeeded_eq hmod]
      omega
    · rw [blocksNeeded_eq hmod] at hroom
      exact hsucceeds.mpr hroom

end Sizes

end Heap

/-- **Allocations are not oversized, in every state of every run**, exactly for
the sizes that are no multiple of the block size – or that no run of free
blocks would hold. `align_to_upper` adds a block to a size that is aligned
already, so `kmalloc` takes one block more than is needed; and where there is a
run of just as many free blocks as are needed, and none that is longer, it
fails. -/
theorem allocations_not_oversized_iff (c : HeapConfig) (m₀ : Memory)
    (s : HeapState) (hs : HeapReachable (kheapInit c m₀).1 (kheapInit c m₀).2 s)
    (size : Word) (hsize : size.toNat + 4096 < 2 ^ 32) :
    (kheapInit c m₀).1.NotOversized s.mem size
      ↔ size.toNat % 4096 ≠ 0 ∨ ∀ i, ¬ Room ((kheapInit c m₀).1.Free s.mem)
          (kheapInit c m₀).1.total (blocksNeeded size) i := by
  obtain ⟨hheap, hinit, -⟩ := kheapInit_spec c m₀
  rw [hheap] at hs ⊢
  exact Heap.notOversized_iff c.heap_wf (hs.inv c.heap_wf hinit).heap hsize

/-- The theorem for 5000 bytes, on a heap of four free blocks. -/
theorem allocations_not_oversized_iff_5000_bytes :
    (kheapInit fourBlockHeapConfig fun _ => 0).1.NotOversized
      (kheapInit fourBlockHeapConfig fun _ => 0).2 5000#32 :=
  (allocations_not_oversized_iff fourBlockHeapConfig
    (fun _ => 0) _ HeapReachable.init 5000#32
    (by decide)).mpr (Or.inl (by decide))

/-- 4096 bytes take two blocks of the four. -/
theorem one_block_request_oversized :
    HeapReachable (kheapInit fourBlockHeapConfig fun _ => 0).1
        (kheapInit fourBlockHeapConfig fun _ => 0).2
        ⟨(kheapInit fourBlockHeapConfig fun _ => 0).2, []⟩
      ∧ ¬ (kheapInit fourBlockHeapConfig fun _ => 0).1.NotOversized
        (kheapInit fourBlockHeapConfig fun _ => 0).2 4096#32 := by
  refine ⟨HeapReachable.init, fun hright => ?_⟩
  obtain ⟨hheap, hinit, -⟩ := kheapInit_spec fourBlockHeapConfig fun _ => 0
  rw [hheap] at hright
  have hwhen := (Heap.notOversized_iff fourBlockHeapConfig.heap_wf hinit
    (by decide)).mp hright
  rcases hwhen with hmod | hnone
  · exact hmod (by decide)
  · refine hnone 0 ⟨by decide, fun j _ hj => ?_⟩
    have hj : j < 0 + 1 := hj
    obtain rfl : j = 0 := by omega
    decide

/-! ## The first block of an allocation

What the header promises of an entry, against what the marking loop leaves in
it. -/

/-- **The first blocks are marked**: an entry carries `HEAP_BLOCK_IS_FIRST`
exactly when its block is the first of a live allocation. -/
def FirstMarked (h : Heap) (s : HeapState) : Prop :=
  ∀ i, i < h.total →
    (h.entry s.mem i &&& heapBlockIsFirst ≠ 0 ↔ ∃ a ∈ s.live,
      (a.extent h).first = i)

/-- No mark has the flag. -/
theorem Heap.entryByte_isFirst (k : Mark) :
    entryByte k &&& heapBlockIsFirst = 0 := by
  cases k <;> decide

/-- No entry has it. -/
theorem HeapState.Inv.entry_isFirst {h : Heap} {s : HeapState} (hs : s.Inv h)
    {i : ℕ} (hi : i < h.total) : h.entry s.mem i &&& heapBlockIsFirst = 0 := by
  rw [hs.heap.encodes i hi, Heap.entryByte_isFirst]

/-- A live allocation has a first block, which is not marked. -/
theorem HeapState.Inv.not_firstMarked {h : Heap} {s : HeapState} (hs : s.Inv h)
    {a : Allocation} (ha : a ∈ s.live) : ¬ FirstMarked h s := by
  intro hmarked
  obtain ⟨-, hstop, hpos⟩ := hs.extent_mem ha
  have hfirst : (a.extent h).first < h.total :=
    Nat.lt_of_lt_of_le (Extent.covers_first hpos).2 hstop
  exact (hmarked _ hfirst).mpr ⟨a, ha, rfl⟩ (hs.entry_isFirst hfirst)

/-- **The first blocks are marked in no state of a run but those in which
nothing is live.** `heap_malloc` sets the mark before its loop, and the loop
assigns the entry again, the first one included. So no entry ever carries it,
and every live allocation has a first block without it. -/
theorem first_block_marking_iff (c : HeapConfig) (m₀ : Memory) (s : HeapState)
    (hs : HeapReachable (kheapInit c m₀).1 (kheapInit c m₀).2 s) :
    FirstMarked (kheapInit c m₀).1 s ↔ s.live = [] := by
  obtain ⟨hheap, hinit, -⟩ := kheapInit_spec c m₀
  rw [hheap] at hs ⊢
  have hinv := hs.inv c.heap_wf hinit
  constructor
  · intro hmarked
    exact List.eq_nil_iff_forall_not_mem.mpr fun a ha =>
      hinv.not_firstMarked ha hmarked
  · intro hnone i hi
    refine iff_of_false (not_not.mpr (hinv.entry_isFirst hi)) ?_
    rintro ⟨a, ha, -⟩
    rw [hnone] at ha
    exact List.not_mem_nil ha

/-- The theorem before the first `kmalloc`. -/
theorem first_block_marking_iff_nothing_live :
    FirstMarked (kheapInit fourBlockHeapConfig fun _ => 0).1
      ⟨(kheapInit fourBlockHeapConfig fun _ => 0).2, []⟩ :=
  (first_block_marking_iff fourBlockHeapConfig
    (fun _ => 0) _ HeapReachable.init).mpr rfl

/-- After one `kmalloc` the first block of the allocation is not marked. -/
theorem first_block_not_marked :
    ∃ s, HeapReachable (kheapInit fourBlockHeapConfig fun _ => 0).1
        (kheapInit fourBlockHeapConfig fun _ => 0).2 s
      ∧ s.live.length = 1
      ∧ ¬ FirstMarked (kheapInit fourBlockHeapConfig fun _ => 0).1 s := by
  obtain ⟨⟨ptr, m'⟩, hrun⟩ := Option.isSome_iff_exists.mp
    (show ((kheapInit fourBlockHeapConfig (fun _ => 0)).1.kmalloc
      (kheapInit fourBlockHeapConfig (fun _ => 0)).2 5000#32).isSome
        = true from by decide)
  have hs := HeapReachable.kmalloc HeapReachable.init (by decide)
    (by decide) hrun
  refine ⟨_, hs, rfl, ?_⟩
  obtain ⟨hheap, hinit, -⟩ := kheapInit_spec fourBlockHeapConfig fun _ => 0
  rw [hheap] at hs ⊢
  exact (hs.inv fourBlockHeapConfig.heap_wf hinit).not_firstMarked
    List.mem_cons_self

end N00bOS
