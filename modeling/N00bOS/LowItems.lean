import N00bOS.Blocks
import N00bOS.DirectoryScan

/-!
# Items from address 0 on

`fat16_resolve` never allocates the array of the root directory: its pointer is
null, and the scan that loads it stores the items from address `0` on. The
first 1008 of them lie below the heap table, which starts at `0x7E00`, and each
further one is stored over a part of the table.

What such a scan leaves in memory (`Stored`) is therefore said index by index
(`Listed`), up to a bound. The items below index 1007 are the live entries of
the directory whatever becomes of the table: the only other bytes of that
memory that the scan writes to are the twelve below the table, where an
allocation that finds no block marks its entry. With a free block for the
sector buffer to the end, the item at index 1007 is right as well, and as long
as no item lies over the table, the table counts the clones that were made
(`countItems_some_spec`).

An item over the table is harmless when its bytes read as marks of blocks in
use (`SparesTable`): no block is handed out that was not free before. Of other
items nothing is said. One that makes a block in use look free gives that block
to the next buffer, with the structure that lies in it, and the scan of the
code goes on with whatever the structure then holds.

The steps of the scan are two. Reading an entry is a steady change, whatever
the table holds, and a quiet one on a heap in use (`Stored.of_steady`); putting
a live one in place is a clone that is kept and an item that is stored
(`populateItem_eq`). What they leave composes (`Stored.trans`), and the scan
is the induction over the entries.

The scan itself goes on for as long as it finds no free entry, and a scan that
was stopped after some rounds has found one within them (`countItems_within`).
-/

namespace N00bOS

open KernelM Listing

namespace Fat16

/-- The item at an index of the array at address `0`. -/
def lowItem (m : Memory) (idx : ℕ) : FatDirectoryItem :=
  loadItem m (BitVec.ofNat 32 (32 * idx))

/-- How many items no allocation can write to. -/
def quietItems : ℕ := 1007

/-- **An item that spares the heap table**, at an index of the array at address
`0`: it lies below the kernel, and each byte of it that lies in the table reads
as the mark of a block that is in use and has no link to the next. -/
def SparesTable (h : Heap) (idx : ℕ) (item : FatDirectoryItem) : Prop :=
  32 * (idx + 1) ≤ kernelAddress.toNat
    ∧ ∀ j : Fin 32, (Memory.offset (BitVec.ofNat 32 (32 * idx)) j
        - h.table.entries).toNat < h.total →
      getEntryType (item j) ≠ heapBlockTableEntryFree
        ∧ item j &&& heapBlockHasNext = 0

/-- **Items that spare the heap table**, from an index on. -/
def SpareTable (h : Heap) (numItems : ℕ) (items : List FatDirectoryItem) :
    Prop :=
  ∀ i (hi : i < items.length), SparesTable h (numItems + i) items[i]

/-! ## Items in memory

The item at an index of the array at address `0`, and what storing one does to
the others. -/

section Memory

variable {m m' m'' : Memory} {numItems n : ℕ}
  {items items' : List FatDirectoryItem}

/-- Memory that stays keeps its items. -/
theorem lowItem_congr (h : SameBelow n m m') (hn : n ≤ 2 ^ 32) {idx : ℕ}
    (hidx : 32 * (idx + 1) ≤ n) : lowItem m' idx = lowItem m idx := by
  funext j
  have hj := j.isLt
  refine h _ ?_
  unfold Memory.offset
  bv_omega

/-- The address of an item. -/
theorem toNat_lowAddress {idx : ℕ} (hidx : idx < 2 ^ 27) :
    (BitVec.ofNat 32 (32 * idx)).toNat = 32 * idx := by
  rw [BitVec.toNat_ofNat]
  omega

/-- Storing an item leaves the ones before it alone. -/
theorem lowItem_storeItem_of_lt {item : FatDirectoryItem} {idx : ℕ}
    (hlt : idx < numItems) (hnum : numItems < 2 ^ 27) :
    lowItem (storeItem m (BitVec.ofNat 32 (32 * numItems)) item) idx
      = lowItem m idx := by
  have haddr := toNat_lowAddress hnum
  refine lowItem_congr (n := 32 * numItems) (fun x hx => ?_) (by omega)
    (by omega)
  exact storeItem_of_notMem (by omega) (Or.inl (by omega))

/-- **Items put in place**: below index `n`, the items before `numItems` are as
they were, and from `numItems` on come `items`. The array is at the null
pointer, so that the items lie from address `0` on. -/
structure Listed (m m' : Memory) (numItems : ℕ) (items : List FatDirectoryItem)
    (n : ℕ) : Prop where
  /-- The items that were there. -/
  old : ∀ idx, idx < numItems → idx < n → lowItem m' idx = lowItem m idx
  /-- The items that are new. -/
  new : ∀ i (hi : i < items.length), numItems + i < n →
    lowItem m' (numItems + i) = items[i]

/-- No items are put in place where the memory stays. -/
theorem Listed.nil (h : SameBelow (32 * n) m m') (hn : 32 * n ≤ 2 ^ 32)
    (numItems : ℕ) : Listed m m' numItems [] n :=
  ⟨fun _ _ hidx => lowItem_congr h hn (by omega),
    fun _ hi => absurd hi (Nat.not_lt_zero _)⟩

/-- Items are put in place one after the other. -/
theorem Listed.trans (h₁ : Listed m m' numItems items n)
    (h₂ : Listed m' m'' (numItems + items.length) items' n) :
    Listed m m'' numItems (items ++ items') n := by
  refine ⟨fun idx hidx hn => ?_, fun i hi hn => ?_⟩
  · rw [h₂.old idx (by omega) hn, h₁.old idx hidx hn]
  · rcases Nat.lt_or_ge i items.length with hlt | hge
    · rw [h₂.old _ (by omega) hn, h₁.new i hlt hn, List.getElem_append_left]
    · have hi' : i - items.length < items'.length := by
        rw [List.length_append] at hi
        omega
      have hnew := h₂.new (i - items.length) hi' (by omega)
      rw [show numItems + items.length + (i - items.length) = numItems + i
        by omega] at hnew
      rw [hnew, List.getElem_append_right hge]

/-- One item, stored after memory that stays. -/
theorem Listed.storeItem (h : SameBelow (32 * n) m m') (hn : 32 * n ≤ 2 ^ 32)
    (hnum : numItems < 2 ^ 27) (item : FatDirectoryItem) :
    Listed m (N00bOS.storeItem m' (BitVec.ofNat 32 (32 * numItems)) item)
      numItems [item] n := by
  refine ⟨fun idx hidx hlt => ?_, fun i hi _ => ?_⟩
  · rw [lowItem_storeItem_of_lt hidx hnum, lowItem_congr h hn (by omega)]
  · obtain rfl : i = 0 := Nat.lt_one_iff.mp hi
    exact loadItem_storeItem _ _ _

/-- An item below the table spares it. -/
theorem sparesTable_of_lt {h : Heap} (hp : h.Placed) {idx : ℕ}
    (hidx : idx < lowItemsCapacity) (item : FatDirectoryItem) :
    SparesTable h idx item := by
  have hcap : lowItemsCapacity = 1008 := rfl
  have htable : (0x7E00 : ℕ) ≤ h.table.entries.toNat := hp.table_ge
  have haddr := toNat_lowAddress (show idx < 2 ^ 27 by omega)
  have hend : h.table.entries.toNat + h.total ≤ 2 ^ 32 := hp.toWf.table_le
  have hkernel : kernelAddress.toNat = 1048576 := rfl
  refine ⟨by omega, fun j hin => absurd hin ?_⟩
  have hj := j.isLt
  unfold Memory.offset
  bv_omega

/-- So do items that all lie below it. -/
theorem spareTable_of_le {h : Heap} (hp : h.Placed)
    (hle : numItems + items.length ≤ lowItemsCapacity) :
    SpareTable h numItems items :=
  fun _ _ => sparesTable_of_lt hp (by omega) _

/-- So a directory of few items spares it. -/
theorem spareTable_of_quiet {h : Heap} (hp : h.Placed)
    (hle : items.length ≤ quietItems) : SpareTable h 0 items := by
  have hcap : lowItemsCapacity = 1008 := rfl
  have hquiet : quietItems = 1007 := rfl
  exact spareTable_of_le hp (by omega)

/-- The first of items that spare the table. -/
theorem SpareTable.head {h : Heap} {item : FatDirectoryItem}
    (hspare : SpareTable h numItems (item :: items)) :
    SparesTable h numItems item :=
  hspare 0 (Nat.succ_pos _)

/-- And those after it. -/
theorem SpareTable.tail {h : Heap} {item : FatDirectoryItem}
    (hspare : SpareTable h numItems (item :: items)) :
    SpareTable h (numItems + 1) items := fun i hi => by
  have hnext := hspare (i + 1) (Nat.succ_lt_succ hi)
  rwa [Nat.add_left_comm, Nat.add_comm i] at hnext

/-- An item that spares the table may be stored, whatever the table holds. -/
theorem SparesTable.spared {k : Kernel} {idx : ℕ} {item : FatDirectoryItem}
    (h : SparesTable k.heap idx item) :
    k.Spared (BitVec.ofNat 32 (32 * idx)) item := by
  have hkernel : kernelAddress.toNat = 1048576 := rfl
  have hend := h.1
  have haddr := toNat_lowAddress (show idx < 2 ^ 27 by omega)
  refine ⟨by omega, fun j hin => Or.inr ?_⟩
  obtain ⟨htype, hnext⟩ := h.2 j hin
  exact ⟨htype, fun _ => hnext⟩

/-- An item below the table is not part of it. -/
theorem sameTable_storeItem {h : Heap} (hp : h.Placed)
    (hlow : numItems < lowItemsCapacity) (item : FatDirectoryItem) :
    SameTable h m (storeItem m (BitVec.ofNat 32 (32 * numItems)) item) := by
  intro i hi
  have hcap : lowItemsCapacity = 1008 := rfl
  have htable : (0x7E00 : ℕ) ≤ h.table.entries.toNat := hp.table_ge
  have hentry := Heap.entryAddress_toNat hp.toWf hi
  have haddr := toNat_lowAddress (show numItems < 2 ^ 27 by omega)
  exact storeItem_of_notMem (by omega) (Or.inr (by omega))

end Memory

/-! ## The scan of the root directory

What is known after some entries, in two layers: of the memory below the table,
always; and of the table, as long as no item lies over it. -/

/-- **What a scan that stores items leaves**: the items, up to the bound below
which nothing else is written; and, when the table is in order and none of
them lies over it, a table in order, a block less for each item that found
one, and with a block left the last item below the table too. -/
structure Stored (k k' : Kernel) (numItems : ℕ)
    (items : List FatDirectoryItem) : Prop where
  /-- The open files stay. -/
  frame : OpenFrame k k'
  /-- The items are in place. -/
  listed : Listed k.mem k'.mem numItems items quietItems
  /-- Below the table, the table is kept. -/
  table : k.HeapOk → numItems + items.length ≤ lowItemsCapacity →
    k'.HeapOk ∧ k'.freeBlocks = k.freeBlocks - items.length
      ∧ (items.length < k.freeBlocks →
        Listed k.mem k'.mem numItems items lowItemsCapacity)

section Root

variable {k k' k'' : Kernel} {directory : FatDirectory} {stream : Ptr}
  {numItems : ℕ} {items items' : List FatDirectoryItem}

/-- Storing items after items. -/
theorem Stored.trans (h₁ : Stored k k' numItems items)
    (h₂ : Stored k' k'' (numItems + items.length) items') :
    Stored k k'' numItems (items ++ items') := by
  refine ⟨Trans.trans h₁.frame h₂.frame, h₁.listed.trans h₂.listed,
    fun hk hlow => ?_⟩
  rw [List.length_append] at hlow ⊢
  obtain ⟨hk', hblocks', hlisted'⟩ := h₁.table hk (by omega)
  obtain ⟨hk'', hblocks'', hlisted''⟩ := h₂.table hk' (by omega)
  exact ⟨hk'', by omega, fun hlt =>
    (hlisted' (by omega)).trans (hlisted'' (by omega))⟩

/-- A change that is steady, and quiet on a heap in use, stores no items. -/
theorem Stored.of_steady (hs : Steady k k') (hq : k.HeapOk → Quiet k k')
    (numItems : ℕ) : Stored k k' numItems [] := by
  refine ⟨OpenFrame.of_eq (by rw [hs.eq]), Listed.nil ?_ (by decide) _,
    fun hk _ => ⟨(hq hk).heapOk hk, (hq hk).freeBlocks, fun hlt => ?_⟩⟩
  · exact hs.low.mono (by decide)
  · exact Listed.nil ((hq hk).below (Kernel.hasFreeBlock_iff.mpr
      (Nat.zero_lt_of_lt hlt))) (by decide) _

/-- **An item is stored** at the null pointer, if what is in use is spared. -/
theorem writeItem_null {array : Ptr} (harray : array.addr = 0) (idx : ℕ)
    (item : FatDirectoryItem) :
    writeItem array idx item k
      = if k.Spared (BitVec.ofNat 32 (32 * idx)) item then
          Except.ok ((), { k with
            mem := storeItem k.mem (BitVec.ofNat 32 (32 * idx)) item })
        else Except.error Fault.overwritten := by
  rw [writeItem, if_pos harray, harray,
    show (0 : Word) + BitVec.ofNat 32 (32 * idx) = BitVec.ofNat 32 (32 * idx)
      from BitVec.zero_add _]
  simp only [Machine.get_bind]
  split
  · rfl
  · rfl

/-- **One live entry**: a clone of it is made, and the item is in place, if what
is in use is spared. The clone is in a block of its own if there is one, and
else in the page below the blocks; the item is copied from it at once. -/
theorem populateItem_eq (hp : k.heap.Placed) (hitem : directory.item.addr = 0)
    (hnum : numItems < 2 ^ 27) (item : FatDirectoryItem) :
    ∃ k₁ k' : Kernel, k₁.heap = k.heap
      ∧ populateItem (some directory) numItems item k
        = (if k₁.Spared (BitVec.ofNat 32 (32 * numItems)) item then
            Except.ok ((), k')
          else Except.error Fault.overwritten)
      ∧ k'.diskStreams = k.diskStreams ∧ Stored k k' numItems [item] := by
  obtain ⟨p, m₁, halloc, hlow, hbelow, hblocks⟩ :=
    kzalloc_kept hp (show (32 : Word).toNat < 4096 by decide)
  refine ⟨{ k with mem := m₁ }, { k with
      mem := storeItem m₁ (BitVec.ofNat 32 (32 * numItems)) item }, rfl, ?_,
    rfl, OpenFrame.of_eq rfl, Listed.storeItem (hlow.mono (by decide))
      (by decide) hnum item, fun hk hle => ?_⟩
  · rw [populateItem, Machine.bind_ok halloc, writeItem_null hitem]
  · obtain ⟨hk₁, hfree₁⟩ := hblocks hk
    have hlow : numItems < lowItemsCapacity := by
      rw [List.length_singleton] at hle
      omega
    have htable := sameTable_storeItem (m := m₁) hp hlow item
    refine ⟨⟨hp, hk₁.2.choose, hk₁.2.choose_spec.congr htable⟩,
      ?_, fun hlt => ?_⟩
    · rw [List.length_singleton, ← hfree₁, Kernel.freeBlocks, Kernel.freeBlocks]
      exact congrArg Finset.card (Finset.filter_congr fun i hi =>
        htable.free_iff (Finset.mem_range.mp hi))
    · exact Listed.storeItem (hbelow (Kernel.hasFreeBlock_iff.mpr
        (Nat.zero_lt_of_lt hlt))) (by decide) hnum item

/-- An item that spares the table is put in place. -/
theorem populateItem_spec (hp : k.heap.Placed) (hitem : directory.item.addr = 0)
    {item : FatDirectoryItem} (hspares : SparesTable k.heap numItems item) :
    ∃ k', populateItem (some directory) numItems item k = Except.ok ((), k')
      ∧ k'.diskStreams = k.diskStreams ∧ Stored k k' numItems [item] := by
  have hkernel : kernelAddress.toNat = 1048576 := rfl
  have hend := hspares.1
  obtain ⟨k₁, k', hheap, hrun, hrest⟩ :=
    populateItem_eq hp hitem (show numItems < 2 ^ 27 by omega) item
  rw [← hheap] at hspares
  rw [if_pos hspares.spared] at hrun
  exact ⟨k', hrun, hrest⟩

/-- What has been put in place is in place. -/
theorem populateItem_run (hp : k.heap.Placed) (hitem : directory.item.addr = 0)
    (hnum : numItems < 2 ^ 27) {item : FatDirectoryItem} {u : Unit}
    (hrun : populateItem (some directory) numItems item k
      = Except.ok (u, k')) :
    k'.diskStreams = k.diskStreams ∧ Stored k k' numItems [item] := by
  obtain ⟨k₁, k₂, -, heq, hrest⟩ := populateItem_eq hp hitem hnum item
  rw [heq] at hrun
  obtain ⟨-, hpair⟩ := Machine.ite_error_eq_ok.mp hrun
  obtain ⟨-, rfl⟩ := Prod.mk.inj hpair
  exact hrest

variable {pos : ℤ} {entries : List FatDirectoryItem}

/-- **The scan of the root directory** counts its live entries and puts them in
place, one after the other, when all of them spare the table. The place of an
item is an address, and that is below the heap table as long as there are few
enough. -/
theorem countItems_some_spec
    (h : Entries IsFree (scanned k.sectors pos) entries) (hp : k.heap.Placed)
    (hne : stream.addr ≠ 0)
    (hs : k.diskStreams stream.id = some ⟨pos, DiskRef.primary⟩)
    (hpos : IsInt32 pos) {rounds : ℕ} (hrounds : entries.length < rounds)
    (hitem : directory.item.addr = 0)
    (hspare : SpareTable k.heap numItems (liveItems entries)) :
    ∃ k', countItems stream (some directory) rounds numItems k
        = Except.ok (((numItems + (liveItems entries).length : ℕ) : ℤ), k')
      ∧ Stored k k' numItems (liveItems entries) := by
  generalize hslots : scanned k.sectors pos = slots at h
  induction h generalizing k pos rounds numItems with
  | @last slots a ha hstop =>
    obtain ⟨rounds, rfl⟩ :=
      Nat.exists_eq_add_one.mpr (Nat.zero_lt_of_lt hrounds)
    obtain ⟨k₁, item, hsteady, hquiet, -, hitem₁, hround⟩ :=
      countItems_round hp hne hs hpos (some directory) rounds numItems
    subst hslots
    rw [scanned_zero _ hpos] at ha
    rw [hitem₁ a ha, if_pos hstop] at hround
    exact ⟨k₁, hround, Stored.of_steady hsteady hquiet numItems⟩
  | @next slots a rest ha hgo _ ih =>
    obtain ⟨rounds, rfl⟩ :=
      Nat.exists_eq_add_one.mpr (Nat.zero_lt_of_lt hrounds)
    obtain ⟨k₁, item, hsteady, hquiet, hs₁, hitem₁, hround⟩ :=
      countItems_round hp hne hs hpos (some directory) rounds numItems
    subst hslots
    rw [scanned_zero _ hpos] at ha
    rw [hitem₁ a ha, if_neg hgo] at hround
    have hread := Stored.of_steady hsteady hquiet numItems
    have hp₁ : k₁.heap.Placed := hsteady.heap ▸ hp
    have hnext : ∀ k₂ : Kernel, k₂.sectors = k₁.sectors →
        scanned k₂.sectors (wrap32 (pos + 32))
          = fun i => scanned k.sectors pos (i + 1) := fun k₂ hsectors => by
      rw [hsectors, hsteady.sectors, scanned_succ]
    by_cases hskip : IsDeleted a
    · rw [if_pos hskip] at hround
      simp only [liveItems, kept_cons_of_skip hskip] at hspare ⊢
      obtain ⟨k₂, hcount, hstored⟩ := ih hp₁ hs₁ (isInt32_wrap32 _)
        (Nat.lt_of_succ_lt_succ hrounds) (hsteady.heap ▸ hspare) (hnext k₁ rfl)
      exact ⟨k₂, hround.trans hcount, hread.trans hstored⟩
    · rw [if_neg hskip] at hround
      simp only [liveItems, kept_cons_of_not_skip hskip, List.length_cons]
        at hspare ⊢
      rw [← hsteady.heap] at hspare
      -- the clone, and then the rest of the scan
      obtain ⟨k₂, hpopulate, hstreams₂, hone⟩ :=
        populateItem_spec hp₁ hitem hspare.head
      obtain ⟨k₃, hcount, hstored⟩ := ih (hone.frame.heap ▸ hp₁)
        (by rw [hstreams₂]; exact hs₁) (isInt32_wrap32 _)
        (Nat.lt_of_succ_lt_succ hrounds) (hone.frame.heap ▸ hspare.tail)
        (hnext k₂ hone.frame.sectors)
      rw [Machine.bind_ok hpopulate, hcount, Nat.add_assoc,
        Nat.add_comm 1] at hround
      exact ⟨k₃, hround, hread.trans (hone.trans hstored)⟩

/-- **A scan that was stopped after some rounds**, all of them over entries of
the disk, and that returned, has found the end of the directory within
them. -/
theorem countItems_within (hp : k.heap.Placed) (hne : stream.addr ≠ 0)
    (hs : k.diskStreams stream.id = some ⟨pos, DiskRef.primary⟩)
    (hpos : IsInt32 pos) (hitem : directory.item.addr = 0) {rounds : ℕ}
    (hdisk : ∀ i, i < rounds → ∃ entry, scanned k.sectors pos i = some entry)
    (hnum : numItems + rounds ≤ 2 ^ 27) {r : ℤ × Kernel}
    (hrun : countItems stream (some directory) rounds numItems k
      = Except.ok r) :
    ∃ entries, Entries IsFree (scanned k.sectors pos) entries
      ∧ entries.length < rounds := by
  induction rounds generalizing k pos numItems with
  | zero => cases hrun
  | succ rounds ih =>
    obtain ⟨k₁, item, hsteady, -, hs₁, hitem₁, hround⟩ :=
      countItems_round hp hne hs hpos (some directory) rounds numItems
    have hp₁ : k₁.heap.Placed := hsteady.heap ▸ hp
    obtain ⟨entry, hfirst⟩ := hdisk 0 (Nat.succ_pos _)
    obtain rfl := hitem₁ entry ((scanned_zero _ hpos).symm.trans hfirst)
    rw [hrun] at hround
    split at hround
    · next hstop => exact ⟨[], Entries.last hfirst hstop, Nat.succ_pos _⟩
    · next hgo =>
      -- the rest of the scan ends within the rest of the rounds
      have hrest : ∀ (k₂ : Kernel) (numItems' : ℕ), k₂.heap.Placed →
          k₂.diskStreams stream.id
            = some ⟨wrap32 (pos + 32), DiskRef.primary⟩ →
          k₂.sectors = k.sectors → numItems' + rounds ≤ 2 ^ 27 →
          countItems stream (some directory) rounds numItems' k₂
            = Except.ok r →
          ∃ entries, Entries IsFree (scanned k.sectors pos) entries
            ∧ entries.length < rounds + 1 := by
        intro k₂ numItems' hp₂ hs₂ hsectors₂ hnum₂ hrun₂
        have hshift : (fun i => scanned k.sectors pos (i + 1))
            = scanned k₂.sectors (wrap32 (pos + 32)) := by
          rw [hsectors₂, scanned_succ]
        obtain ⟨rest, hrest, hlen⟩ := ih hp₂ hs₂ (isInt32_wrap32 _)
          (fun i hi => congrFun hshift i ▸ hdisk (i + 1) (by omega)) hnum₂ hrun₂
        rw [← hshift] at hrest
        exact ⟨item :: rest, Entries.next hfirst hgo hrest,
          Nat.succ_lt_succ hlen⟩
      split at hround
      · exact hrest k₁ numItems hp₁ hs₁ hsteady.sectors (by omega) hround.symm
      · obtain ⟨u, k₂, hpopulate, hround⟩ :=
          Machine.bind_eq_ok.mp hround.symm
        obtain ⟨hstreams₂, hone⟩ := populateItem_run hp₁ hitem
          (show numItems < 2 ^ 27 by omega) hpopulate
        exact hrest k₂ (numItems + 1) (hone.frame.heap ▸ hp₁)
          (by rw [hstreams₂]; exact hs₁)
          (hone.frame.sectors.trans hsteady.sectors) (by omega) hround

end Root

end Fat16

end N00bOS
