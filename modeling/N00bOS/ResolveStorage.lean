import N00bOS.Items
import N00bOS.Resolve

/-!
# What a mounted volume owns

`fat16_resolve` allocates the private data and its three streams, and a stream
that it closes again. The items of the root directory get no storage: their
pointer stays null, so that the scan writes them from address `0` on
(`root_items_have_no_storage`). Each of them is written from a clone, and no
clone is freed: of the blocks that are taken afterwards, those of the live
entries can be reached from nowhere (`newBlocksReachable_iff`).

What a run holds is followed from step to step as a list of extents: four
blocks to which the private data leads, and a clone for each entry as long as
there is a block for it (`fat16Resolve_holds`). What can be reached is then a
question about numbers of blocks (`MountedBlocks`), and there is a clone unless
there is no entry or no block was left for one.
-/

namespace N00bOS

open KernelM

namespace Fat16

/-! ## The law

What storage of their own would be: an allocation that is large enough, nothing
written below the heap, and no block that is lost. -/

/-- The pointers in the private data of a volume, with the one to it: all but
the one to the items of the root directory. -/
def volumePtrs (k : Kernel) (pd : FatPrivate) : List Ptr :=
  [k.disk.fsPrivateData, pd.clusterReadStream, pd.fatReadStream,
    pd.directoryReadStream]

/-- **The items are stored**: their pointer is that of an allocation in use,
which has room for them. -/
def ItemsStored (k : Kernel) (pd : FatPrivate) : Prop :=
  ∃ es, k.Holds es ∧ ∃ e ∈ es,
    pd.rootDirectory.item.addr = k.heap.blockAddress e.first
    ∧ pd.rootDirectory.total * directoryItemSize ≤ (e.count * 4096 : ℕ)

/-- **Every new block can be reached**: an allocation in use whose blocks were
free before is one that the private data leads to. -/
def NewBlocksReachable (k k' : Kernel) (pd : FatPrivate) : Prop :=
  ∀ es, k'.Holds es → ∀ e ∈ es, k.heap.Free k.mem e.first →
    ∃ p ∈ pd.rootDirectory.item :: volumePtrs k' pd,
    p.addr = k'.heap.blockAddress e.first

/-- **The root directory items have storage of their own**, between the state
before `fat16_resolve` and the one after it: they are stored, nothing was
written below the heap table, and every new block can be reached. -/
def OwnStorage (k k' : Kernel) : Prop :=
  ∃ pd, k'.fatPrivates k'.disk.fsPrivateData.id = some pd ∧ ItemsStored k' pd
    ∧ SameBelow heapTableAddress.toNat k.mem k'.mem ∧ NewBlocksReachable k k' pd

/-! ## The allocations of a run

From a stream to a whole mount. Blocks are listed by their numbers, because
everything that is allocated here is smaller than a block. -/

/-- Allocations of one block each. -/
def oneBlocks (firsts : List ℕ) : List Extent := firsts.map fun i => ⟨i, 1⟩

section Ledger

variable {k k' : Kernel} {es : List Extent}

/-- A new stream is an allocation of one block. -/
theorem newStream_holds {s : Ptr}
    (h : Streamer.newStream primaryDiskId k = Except.ok (s, k'))
    (hes : k.Holds es) :
    ∃ i, s.addr = k.heap.blockAddress i ∧ k'.Holds (oneBlocks [i] ++ es) := by
  obtain ⟨p, k₁, halloc, h₁⟩ := Machine.bind_eq_ok.mp
    (show (allocate 8 >>= fun stream => _) k = Except.ok (s, k') from h)
  obtain ⟨rfl, rfl⟩ := Prod.mk.inj (Except.ok.inj h₁)
  obtain ⟨-, -, hholds⟩ := allocate_spec halloc
  exact hholds es hes

/-- **A live entry** leaves its clone behind, when there is a block for it. The
clone is copied into the array, and nobody has the address of its block after
that. -/
theorem populateItem_holds {directory : FatDirectory} {numItems : ℕ}
    {item : FatDirectoryItem} (hitem : directory.item.addr = 0)
    (hlow : numItems < lowItemsCapacity) {u : Unit}
    (h : populateItem (some directory) numItems item k = Except.ok (u, k'))
    (hes : k.Holds es) :
    (k.freeBlocks = 0 ∧ k'.Holds es) ∨ ∃ i, k'.Holds (oneBlocks [i] ++ es) := by
  obtain ⟨copy, k₁, hclone, h₁⟩ := Machine.bind_eq_ok.mp h
  rw [writeItem_null hitem] at h₁
  obtain ⟨-, hpair⟩ := Machine.ite_error_eq_ok.mp h₁
  obtain ⟨-, rfl⟩ := Prod.mk.inj hpair
  -- the item lies below the table
  have hstore : ∀ {es : List Extent}, k₁.Holds es → ({ k₁ with
      mem := storeItem k₁.mem (BitVec.ofNat 32 (32 * numItems))
          item } : Kernel).Holds es :=
    fun hes => ⟨hes.1, hes.2.congr (sameTable_storeItem hes.1 hlow item)⟩
  rcases kzalloc_holds hes (by decide) hclone with ⟨hzero, hes₁⟩ | ⟨i, hes₁⟩
  · exact Or.inl ⟨hzero, hstore hes₁⟩
  · exact Or.inr ⟨i, hstore hes₁⟩

/-- **The scan of the root directory** leaves clones behind: one for each entry,
as long as there is a block for it. -/
theorem countItems_holds {stream : Ptr} {directory : FatDirectory}
    (hitem : directory.item.addr = 0) {rounds numItems : ℕ} {r : ℤ}
    (hes : k.Holds es) (hlow : r ≤ lowItemsCapacity)
    (h : countItems stream (some directory) rounds numItems k
      = Except.ok (r, k')) :
    ∃ clones : List ℕ, (clones.length : ℤ) = min (r - numItems) k.freeBlocks
      ∧ k'.Holds (oneBlocks clones ++ es) := by
  induction rounds generalizing k numItems es with
  | zero => cases h
  | succ rounds ih =>
    obtain ⟨k₁, hread, ⟨rfl, rfl⟩ | hskip | ⟨item, k₂, hpopulate, hnext⟩⟩ :=
      countItems_cases h
    · refine ⟨[], ?_, hes.readFrame hread⟩
      rw [List.length_nil]
      omega
    · rw [← hread.freeBlocks hes.heapOk]
      exact ih (hes.readFrame hread) hskip
    · have hbound := (countItems_bounds hnext).1
      have hes₁ := hes.readFrame hread
      rw [← hread.freeBlocks hes.heapOk]
      have hlt : numItems < lowItemsCapacity := by omega
      rcases populateItem_holds hitem hlt hpopulate hes₁ with
        ⟨hzero, hes₂⟩ | ⟨i, hes₂⟩
      · -- no block is free, and none will be
        obtain ⟨clones, hclones, hes₃⟩ := ih hes₂ hnext
        have hold := Kernel.freeBlocks_add hes₁.2
        have hnew := Kernel.freeBlocks_add hes₂.2
        rw [(OpenFrame.populateItem _ _ _ _ _ _ hpopulate).heap] at hnew
        exact ⟨clones, by omega, hes₃⟩
      · obtain ⟨clones, hclones, hes₃⟩ := ih hes₂ hnext
        have hblocks := hes₁.freeBlocks_cons hes₂
          (OpenFrame.populateItem _ _ _ _ _ _ hpopulate).heap
        refine ⟨clones ++ [i], ?_, ?_⟩
        · rw [List.length_append, List.length_singleton]
          omega
        · rwa [oneBlocks, List.map_append, List.append_assoc]

/-- **`get_root_directory`** leaves clones behind, and allocates nothing
else. -/
theorem getRootDirectory_holds {d : DiskRef} {p : Ptr} {pd : FatPrivate}
    (hpd : k.fatPrivates p.id = some pd)
    (hitem : pd.rootDirectory.item.addr = 0)
    (h : getRootDirectory d p k = Except.ok (0, k')) (hes : k.Holds es) :
    ∃ total, k'.fatPrivates p.id = some (withRootDirectory pd total)
      ∧ (total ≤ lowItemsCapacity → ∃ clones : List ℕ,
        (clones.length : ℤ) = min total k.freeBlocks
          ∧ k'.Holds (oneBlocks clones ++ es)) := by
  obtain ⟨total, k₁, hcount, -, rfl⟩ := getRootDirectory_run hpd h
  obtain ⟨stream, k₂, hread, hrun⟩ := getDirectoryTotalItems_run hcount
  refine ⟨total, Function.update_self _ _ _, fun hlow => ?_⟩
  obtain ⟨clones, hclones, hes₁⟩ :=
    countItems_holds hitem (hes.readFrame hread) hlow hrun
  rw [hread.freeBlocks hes.heapOk] at hclones
  exact ⟨clones, by omega, hes₁⟩

/-- **`init_fat_private`** allocates the three streams, and the private data
has their addresses. -/
theorem initFatPrivate_holds {d : DiskRef} {p : Ptr} {pd : FatPrivate}
    {u : Unit} (hpd : k.fatPrivates p.id = some pd)
    (h : initFatPrivate d p k = Except.ok (u, k')) (hes : k.Holds es) :
    ∃ s₁ s₂ s₃ i₁ i₂ i₃, k'.fatPrivates p.id = some { pd with
        clusterReadStream := s₁, fatReadStream :=
          s₂, directoryReadStream := s₃ }
      ∧ s₁.addr = k.heap.blockAddress i₁ ∧ s₂.addr = k.heap.blockAddress i₂
      ∧ s₃.addr = k.heap.blockAddress i₃ ∧ k'.heap = k.heap
      ∧ k'.Holds (oneBlocks [i₃, i₂, i₁] ++ es) := by
  obtain ⟨s₁, s₂, s₃, k₁, k₂, k₃, hnew₁, hnew₂, hnew₃, rfl⟩ :=
    initFatPrivate_run hpd h
  have hheap₁ := (OpenFrame.newStream _ _ _ _ hnew₁).heap
  have hheap₂ := (OpenFrame.newStream _ _ _ _ hnew₂).heap.trans hheap₁
  have hheap₃ := (OpenFrame.newStream _ _ _ _ hnew₃).heap.trans hheap₂
  obtain ⟨i₁, haddr₁, hes₁⟩ := newStream_holds hnew₁ hes
  obtain ⟨i₂, haddr₂, hes₂⟩ := newStream_holds hnew₂ hes₁
  obtain ⟨i₃, haddr₃, hes₃⟩ := newStream_holds hnew₃ hes₂
  refine ⟨s₁, s₂, s₃, i₁, i₂, i₃, Function.update_self _ _ _, haddr₁, ?_, ?_,
    hheap₃, hes₃⟩
  · rw [haddr₂]
    exact congrArg (Heap.blockAddress · i₂) hheap₁
  · rw [haddr₃]
    exact congrArg (Heap.blockAddress · i₃) hheap₂

/-- **What there is before the volume is read**: the private data with its three
streams, and the stream of the call, one block each. -/
structure MountStarted (k k' : Kernel) (es : List Extent) (p s : Ptr)
    (pd : FatPrivate) (i₀ i₁ i₂ i₃ i : ℕ) : Prop where
  heap : k'.heap = k.heap
  disk : k'.disk = ⟨FilesystemRef.fat16, p⟩
  privateData : k'.fatPrivates p.id = some pd
  root : pd.rootDirectory = zeroPrivate.rootDirectory
  addr_private : p.addr = k.heap.blockAddress i₀
  addr_cluster : pd.clusterReadStream.addr = k.heap.blockAddress i₁
  addr_fat : pd.fatReadStream.addr = k.heap.blockAddress i₂
  addr_directory : pd.directoryReadStream.addr = k.heap.blockAddress i₃
  addr : s.addr = k.heap.blockAddress i
  ne_null : p.addr ≠ 0 ∧ s.addr ≠ 0
  holds : k'.Holds (oneBlocks [i] ++ (oneBlocks [i₀, i₁, i₂, i₃] ++ es))

/-- **The allocations of `fat16_resolve`** before it looks at the disk: the
private data, its three streams, and the stream of the call. -/
theorem mount_started {d : DiskRef} {p s : Ptr} {k₁ k₂ k₃ : Kernel}
    (hes : k.Holds es)
    (halloc : allocate 92 k = Except.ok (p, k₁))
    (hinit : initFatPrivate d p (k₁.setFatPrivate p.id (some zeroPrivate))
      = Except.ok ((), k₂))
    (hstream : Streamer.newStream primaryDiskId
      { k₂ with disk := ⟨FilesystemRef.fat16, p⟩ }
      = Except.ok (s, k₃)) :
    ∃ pd i₀ i₁ i₂ i₃ i, MountStarted k k₃ es p s pd i₀ i₁ i₂ i₃ i := by
  -- the private data, and its streams
  have hheap₁ := (OpenFrame.allocate _ _ _ _ halloc).heap
  obtain ⟨-, -, hholds⟩ := allocate_spec halloc
  obtain ⟨i₀, haddr₀, hes₁⟩ := hholds es hes
  obtain ⟨s₁, s₂, s₃, i₁, i₂, i₃, hpd₂, haddr₁, haddr₂, haddr₃, hheap₂, hes₂⟩ :=
    initFatPrivate_holds (k := k₁.setFatPrivate p.id (some zeroPrivate))
      (Function.update_self _ _ _)
      hinit hes₁
  -- the stream of the call
  have hframe₃ := OpenFrame.newStream _ _ _ _ hstream
  obtain ⟨i, haddr, hes₃⟩ := newStream_holds hstream hes₂
  have hheap₂' : k₂.heap = k.heap := hheap₂.trans hheap₁
  have hheap₃ : k₃.heap = k.heap := hframe₃.heap.trans hheap₂'
  have haddr' : s.addr = k.heap.blockAddress i := by
    rw [haddr]
    exact congrArg (Heap.blockAddress · i) hheap₂'
  have hblock : ∀ {a : Word} {j : ℕ}, a = k₁.heap.blockAddress j →
      a = k.heap.blockAddress j :=
    fun ha => by rw [ha, hheap₁]
  -- blocks of the heap are not at address `0`
  have hne : ∀ {a : Word} {j : ℕ}, a = k.heap.blockAddress j →
      (⟨j, 1⟩ : Extent) ∈ oneBlocks
        [i] ++ (oneBlocks [i₃, i₂, i₁] ++ ⟨i₀, 1⟩ :: es) → a ≠ 0 := by
    intro a j ha hj
    have hstop : j + 1 ≤ k₃.heap.total := hes₃.2.packed.stop_le _ hj
    rw [ha]
    exact blockAddress_ne_zero hes.wf hes.1.start_ne_zero
      (by rw [hheap₃] at hstop; omega)
  refine ⟨{ zeroPrivate with
      clusterReadStream := s₁, fatReadStream := s₂, directoryReadStream := s₃ },
    i₀, i₁, i₂, i₃, i, hheap₃, hframe₃.disk, ?_, rfl, haddr₀, hblock haddr₁,
      hblock haddr₂,
    hblock haddr₃, haddr',
      ⟨hne haddr₀ (by simp [oneBlocks]), hne haddr' (by simp [oneBlocks])⟩, ?_⟩
  · rw [hframe₃.fatPrivates]
    exact hpd₂
  · exact hes₃.perm
      (((List.reverse_perm (oneBlocks [i₀, i₁, i₂, i₃])).append_right
        es).append_left _)

/-- **What a mounted volume holds**: the four blocks its pointers go to, and
clones of items of the root directory, to which there is no pointer. -/
structure MountedBlocks (k' : Kernel) (es : List Extent) (pd : FatPrivate)
    (own clones : List ℕ) : Prop where
  item_null : pd.rootDirectory.item = Ptr.null
  own_addr : (volumePtrs k' pd).map Ptr.addr = own.map k'.heap.blockAddress
  holds : k'.Holds (oneBlocks clones ++ (oneBlocks own ++ es))

/-- **The allocations of `fat16_resolve`**, of any run that returns `0`: the
items have none, and when they do not lie over the heap table, there is a clone
for each of them for which a block is left. -/
theorem fat16Resolve_holds {d : DiskRef} (hes : k.Holds es)
    (h : fat16Resolve d k = Except.ok (0, k')) :
    k'.heap = k.heap ∧ ∃ pd, k'.fatPrivates k'.disk.fsPrivateData.id = some pd
      ∧ pd.rootDirectory.item = Ptr.null
      ∧ (pd.rootDirectory.total ≤ lowItemsCapacity → ∃ own clones,
        (clones.length : ℤ) = min pd.rootDirectory.total (k.freeBlocks - 5)
          ∧ MountedBlocks k' es pd own clones) := by
  obtain ⟨p, s, k₁, k₂, k₃, k₄, halloc, hinit, hstream, hvolume, hclose⟩ :=
    fat16Resolve_run h
  obtain ⟨pd, i₀, i₁, i₂, i₃, i, hmount⟩ :=
    mount_started hes halloc hinit hstream
  -- the scan
  obtain ⟨-, pd₃, k₅, hpd₃, hframe₅, hroot⟩ :=
    readVolume_run (newStream_eq_ok hstream) hvolume
  obtain rfl := Option.some.inj (hmount.privateData.symm.trans hpd₃)
  have hes₅ := hmount.holds.readFrame hframe₅
  have hnull : pd.rootDirectory.item = Ptr.null := by
    rw [hmount.root]
    rfl
  have hpd₅ : (k₅.setFatPrivate p.id
      (some { pd with header := fatHeaderOf (k₃.sectors 0) })).fatPrivates p.id
        = some { pd with header := fatHeaderOf (k₃.sectors 0) } :=
          Function.update_self _ _ _
  obtain ⟨total, hpd₄, hclones⟩ :=
    getRootDirectory_holds hpd₅ (congrArg Ptr.addr hnull) hroot hes₅
  obtain ⟨total₆, k₆, -, hframe₆, hk₄⟩ := getRootDirectory_run hpd₅ hroot
  have hheap₄ : k₄.heap = k.heap := by
    rw [hk₄]
    exact hframe₆.heap.trans (hframe₅.heap.trans hmount.heap)
  have hdisk₄ : k₄.disk = ⟨FilesystemRef.fat16, p⟩ := by
    rw [hk₄]
    refine hframe₆.disk.trans (Eq.trans ?_ hmount.disk)
    show k₅.disk = k₃.disk
    rw [hframe₅.eq]
  -- the stream is closed
  rw [if_pos hmount.ne_null.2] at hclose
  obtain ⟨-, rfl⟩ := Prod.mk.inj (Except.ok.inj hclose)
  have hown : [p.addr, pd.clusterReadStream.addr, pd.fatReadStream.addr,
      pd.directoryReadStream.addr]
        = [i₀, i₁, i₂, i₃].map k₄.heap.blockAddress := by
    rw [hmount.addr_private, hmount.addr_cluster, hmount.addr_fat,
      hmount.addr_directory, hheap₄]
    rfl
  -- five blocks are taken before the scan
  have hblocks : (k₅.setFatPrivate p.id
      (some { pd with header := fatHeaderOf (k₃.sectors 0) })).freeBlocks + 5
        = k.freeBlocks := by
    have hold := Kernel.freeBlocks_add hes.2
    have hnew := Kernel.freeBlocks_add hes₅.2
    rw [show k₅.heap = k.heap from hframe₅.heap.trans hmount.heap,
      List.map_append, List.map_append, List.sum_append,
      List.sum_append] at hnew
    have hfive : ((oneBlocks [i]).map Extent.count).sum
        + ((oneBlocks [i₀, i₁, i₂, i₃]).map Extent.count).sum = 5 := rfl
    show k₅.freeBlocks + 5 = k.freeBlocks
    omega
  rw [show p = k₄.disk.fsPrivateData by rw [hdisk₄]] at hpd₄ hown
  refine ⟨hheap₄, _, hpd₄, hnull, fun hlow => ?_⟩
  obtain ⟨clones, hlen, hes₄⟩ := hclones hlow
  have hes₄' : k₄.Holds
      (⟨i, 1⟩ :: (oneBlocks clones ++ (oneBlocks [i₀, i₁, i₂, i₃] ++ es))) :=
    hes₄.perm List.perm_middle
  refine ⟨[i₀, i₁, i₂, i₃], clones, ?_, hnull, hown,
    hes₄'.freed (hmount.addr.trans (by rw [hheap₄]))⟩
  show (clones.length : ℤ) = min total (k.freeBlocks - 5)
  omega

end Ledger

/-! ## The law fails

The first part for every disk, since the pointer is null; the last for every
disk with an entry and a block for its clone. -/

section Law

variable {k k' : Kernel} {es : List Extent} {pd : FatPrivate}
  {own clones : List ℕ}

/-- Items without a pointer are not stored: null is no allocation. -/
theorem not_itemsStored (hnull : pd.rootDirectory.item = Ptr.null) :
    ¬ ItemsStored k' pd := by
  rintro ⟨es, hes, e, he, haddr, -⟩
  have hstop := hes.2.packed.stop_le e he
  have hpos := hes.2.packed.pos e he
  unfold Extent.stop at hstop
  rw [hnull] at haddr
  exact blockAddress_ne_zero hes.wf hes.1.start_ne_zero (by omega) haddr.symm

namespace MountedBlocks

/-- A block of the heap is that of a pointer of the volume exactly when it is
among its own. -/
theorem mem_own_iff (h : MountedBlocks k' es pd own clones) {i : ℕ}
    (hi : i < k'.heap.total) :
    (∃ p ∈ volumePtrs k' pd, p.addr = k'.heap.blockAddress i) ↔ i ∈ own := by
  have hmem : (∃ p ∈ volumePtrs k' pd, p.addr = k'.heap.blockAddress i)
      ↔ k'.heap.blockAddress i ∈ own.map k'.heap.blockAddress := by
    rw [← h.own_addr, List.mem_map]
  rw [hmem]
  refine ⟨fun hin => ?_, List.mem_map_of_mem⟩
  obtain ⟨j, hj, haddr⟩ := List.mem_map.mp hin
  have hstop : j + 1 ≤ k'.heap.total := h.holds.2.packed.stop_le ⟨j, 1⟩
    (List.mem_append_right _ (List.mem_append_left _ (List.mem_map_of_mem hj)))
  rwa [← Heap.blockAddress_inj h.holds.wf (by omega) hi haddr]

/-- A clone is in a block that was free, and that no pointer of the volume
goes to. -/
theorem clone_fresh (h : MountedBlocks k' es pd own clones) {i : ℕ}
    (hi : i ∈ clones) :
    i < k'.heap.total ∧ markAt es i = Mark.free ∧ i ∉ own := by
  have hclone : (⟨i, 1⟩ : Extent) ∈ oneBlocks clones := List.mem_map_of_mem hi
  have hstop : i + 1 ≤ k'.heap.total :=
    h.holds.2.packed.stop_le ⟨i, 1⟩ (List.mem_append_left _ hclone)
  have happart := (List.pairwise_append.mp h.holds.2.packed.apart).2.2 _ hclone
  have hcovers : (⟨i, 1⟩ : Extent).Covers i := Extent.covers_first Nat.one_pos
  refine ⟨hstop, markAt_eq_free_iff.mpr fun e he => ?_, fun hown => ?_⟩
  · exact (happart e (List.mem_append_right _ he)).not_covers hcovers
  · exact (happart ⟨i,
      1⟩ (List.mem_append_left _ (List.mem_map_of_mem hown))).not_covers hcovers
      hcovers

/-- **Every new block can be reached exactly when there is no clone.** The four
blocks of the volume are at addresses that the disk or the private data has; a
clone is at none. -/
theorem newBlocksReachable_iff (h : MountedBlocks k' es pd own clones)
    (hes : k.Holds es) (hheap : k'.heap = k.heap) :
    NewBlocksReachable k k' pd ↔ clones = [] := by
  constructor
  · intro hreach
    by_contra hne
    obtain ⟨i, hi⟩ := List.exists_mem_of_ne_nil _ hne
    obtain ⟨hlt, hfree, hnot⟩ := h.clone_fresh hi
    obtain ⟨p, hp, haddr⟩ := hreach _ h.holds ⟨i, 1⟩
      (List.mem_append_left _ (List.mem_map_of_mem hi))
      ((hes.2.free_iff (hheap ▸ hlt)).mpr hfree)
    rcases List.mem_cons.mp hp with rfl | hp
    · rw [h.item_null] at haddr
      exact blockAddress_ne_zero h.holds.wf h.holds.1.start_ne_zero
        hlt haddr.symm
    · exact hnot ((h.mem_own_iff hlt).mp ⟨p, hp, haddr⟩)
  · rintro rfl es' hes' e he hfree
    have hstop := hes'.2.packed.stop_le e he
    have hpos := hes'.2.packed.pos e he
    have hlt : e.first < k'.heap.total := by
      unfold Extent.stop at hstop
      omega
    -- the block is taken afterwards, by an allocation of the call
    have htaken : ¬ markAt (oneBlocks own ++ es) e.first = Mark.free := by
      rw [show oneBlocks own ++ es = oneBlocks [] ++ (oneBlocks own ++ es) from
        rfl, ← h.holds.2.free_iff hlt, hes'.2.free_iff hlt, markAt_eq_free_iff]
      exact fun hall => hall e he (Extent.covers_first hpos)
    rw [hes.2.free_iff (hheap ▸ hlt), markAt_eq_free_iff] at hfree
    rw [markAt_eq_free_iff] at htaken
    push Not at htaken
    obtain ⟨f, hf, hcovers⟩ := htaken
    rcases List.mem_append.mp hf with hf | hf
    · obtain ⟨j, hj, rfl⟩ := List.mem_map.mp hf
      have hcovers : j ≤ e.first ∧ e.first < j + 1 := hcovers
      have hfirst : e.first = j := by omega
      obtain ⟨p, hp, haddr⟩ := (h.mem_own_iff hlt).mpr (hfirst ▸ hj)
      exact ⟨p, List.mem_cons_of_mem _ hp, haddr⟩
    · exact absurd hcovers (hfree f hf)

end MountedBlocks

/-- **The root directory items have no storage of their own**, on any disk that
is mounted: no allocation is theirs. What the call has allocated can all be
reached only when there are no items, or no block was left for a clone of one;
this is about directories that do not lie over the heap table. -/
theorem root_items_have_no_storage (hk : k.HeapOk)
    (h : fat16Resolve DiskRef.primary k = Except.ok (0, k')) :
    ¬ OwnStorage k k' ∧ ∃ pd, k'.fatPrivates k'.disk.fsPrivateData.id = some pd
      ∧ ¬ ItemsStored k' pd
      ∧ (pd.rootDirectory.total ≤ lowItemsCapacity →
        (NewBlocksReachable k k' pd ↔ pd.rootDirectory.total = 0
          ∨ k.freeBlocks = 5)) := by
  obtain ⟨hp, es, hinv⟩ := hk
  have hes : k.Holds es := ⟨hp, hinv⟩
  obtain ⟨hheap, pd, hpd, hnull, hblocks⟩ := fat16Resolve_holds hes h
  refine ⟨?_, pd, hpd, not_itemsStored hnull, fun hlow => ?_⟩
  · rintro ⟨pd', hpd', hstored, -, -⟩
    obtain rfl := Option.some.inj (hpd'.symm.trans hpd)
    exact not_itemsStored hnull hstored
  · obtain ⟨own, clones, hclones, hmounted⟩ := hblocks hlow
    rw [hmounted.newBlocksReachable_iff hes hheap, ← List.length_eq_zero_iff]
    omega

/-- A sector `0` with the signature that is its own root directory, with one
live entry. -/
def oneEntrySector : ℕ → Byte := fun i =>
  if i = 0 then 0x42#8 else if i = 38 then fat16Signature else 0x00#8

/-- The theorem on a disk whose root directory has one entry. -/
theorem root_items_have_no_storage_one_entry :
    ∃ k' pd, fat16Resolve DiskRef.primary (bootedWith oneEntrySector)
      = Except.ok (0, k')
      ∧ k'.fatPrivates k'.disk.fsPrivateData.id = some pd
      ∧ ¬ ItemsStored k' pd := by
  obtain ⟨k', hrun⟩ := fat16Resolve_bootedWith
    (show (fatHeaderOf oneEntrySector).signature
    = fat16Signature from rfl)
  obtain ⟨-, pd, hpd, hnot, -⟩ :=
    root_items_have_no_storage (k := bootedWith oneEntrySector)
    PathParser.bootedKernel_heapOk hrun
  exact ⟨k', pd, hrun, hpd, hnot⟩

/-- On that disk there is no storage for the entry. -/
theorem one_entry_without_storage :
    ∃ k', fat16Resolve DiskRef.primary (bootedWith oneEntrySector)
      = Except.ok (0, k')
      ∧ ¬ OwnStorage (bootedWith oneEntrySector) k' := by
  obtain ⟨k', hrun⟩ := fat16Resolve_bootedWith
    (show (fatHeaderOf oneEntrySector).signature
    = fat16Signature from rfl)
  obtain ⟨hp, es, hinv⟩ := PathParser.bootedKernel_heapOk
  obtain ⟨-, pd, hpd, hnull, -⟩ :=
    fat16Resolve_holds (k := bootedWith oneEntrySector)
    ⟨hp, hinv⟩ hrun
  refine ⟨k', hrun, ?_⟩
  rintro ⟨pd', hpd', hstored, -, -⟩
  obtain rfl := Option.some.inj (hpd'.symm.trans hpd)
  exact not_itemsStored hnull hstored

end Law

end Fat16

end N00bOS
