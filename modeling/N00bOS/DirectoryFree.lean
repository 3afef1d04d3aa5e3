import N00bOS.DirectoryLoaders

/-!
# Freeing a directory

`load_directory` makes two allocations, one for the directory and one for the
array of its items, whatever the number of items is. `directory_free` calls
`kfree` on every item. The first of these calls gives back all blocks of the
array, and the others find blocks that are free already. A directory of no
items has no first call, and its array is never given back: freeing a loaded
directory releases exactly its memory when it has an item
(`directory_free_exact_iff`).

The theorem is about the directories that `load_directory` has returned, its
two allocations having gone through, and about every later state in which they
are still live (`LoadedDirectory`): what else is allocated in between does not
matter. That exactly this memory is released is read off the table, entry by
entry.
-/

namespace N00bOS

open KernelM Listing

namespace Fat16

/-- The extent of a directory. -/
def directoryExtent (h : Heap) (directory : Ptr) : Extent :=
  Allocation.extent h ⟨directory.addr, 16⟩

/-- The extent of its array. -/
def itemsExtent (h : Heap) (dir : FatDirectory) : Extent :=
  Allocation.extent h ⟨dir.item.addr,
    BitVec.ofInt 32 (dir.total * directoryItemSize)⟩

/-- **A directory that was loaded**: it is there, and its two allocations are
live beside some others. -/
structure LoadedDirectory (k : Kernel) (directory : Ptr) (dir : FatDirectory)
    (others : List Extent) : Prop where
  ne_null : directory.addr ≠ 0
  contents : k.fatDirectories directory.id = some dir
  total : 0 ≤ dir.total ∧ dir.total < 2 ^ 27
  addr : directory.addr
    = k.heap.blockAddress (directoryExtent k.heap directory).first
  item_ne_null : dir.item.addr ≠ 0
  item_addr : dir.item.addr = k.heap.blockAddress (itemsExtent k.heap dir).first
  holds : k.Holds
    (directoryExtent k.heap directory :: itemsExtent k.heap dir :: others)

/-- **Freeing releases exactly the directory**: the call returns, all blocks of
the directory and of its array are free, and no entry of another allocation has
changed. -/
def FreesExactly (k : Kernel) (directory : Ptr) (dir : FatDirectory)
    (others : List Extent) : Prop :=
  ∃ k', directoryFree directory k = Except.ok ((), k')
    ∧ (∀ e ∈ [directoryExtent k.heap directory, itemsExtent k.heap dir], ∀ i,
      e.Covers i →
      k.heap.entry k'.mem i = heapBlockTableEntryFree)
    ∧ ∀ e ∈ others, ∀ i, e.Covers i →
      k.heap.entry k'.mem i = k.heap.entry k.mem i

/-! ## Loading

What the heap holds after a load is what it held, and the two extents of the
directory. -/

section Load

variable {d : DiskRef} {v : FatDirectoryItem} {k k' : Kernel} {p : Ptr}
  {es : List Extent}

/-- The extent of an allocation that is held. -/
theorem extent_of_holds {e : Extent} (h : k.Holds (e :: es)) {ptr : Word}
    (hptr : ptr = k.heap.blockAddress e.first) {size : Word}
    (hcount : e.count = Heap.blocksFor size) :
    Allocation.extent k.heap ⟨ptr, size⟩ = e := by
  have hstop := h.2.packed.stop_le e List.mem_cons_self
  have hpos := h.2.packed.pos e List.mem_cons_self
  have hlt : e.first < k.heap.total :=
    Nat.lt_of_lt_of_le (Extent.covers_first hpos).2 hstop
  rw [hptr, Allocation.extent_blockAddress h.wf hlt, ← hcount]

/-- **A directory that `load_directory` returns** is loaded, and nothing else
is allocated. -/
theorem loadDirectory_loaded (hes : k.Holds es)
    (h : loadDirectory d v k = Except.ok (p, k')) (hp : p.addr ≠ 0) :
    ∃ dir, LoadedDirectory k' p dir es := by
  have hheap := (OpenFrame.loadDirectory _ _ _ _ _ h).heap
  obtain ⟨rfl, -⟩ | ⟨directory, items, total, k₅,
    ⟨k₁, k₂, k₃, k₄, hread₁, halloc, hread₃, hbounds, halloc', hread₅⟩, hend⟩ :=
      loadDirectory_cases h
  · exact absurd rfl hp
  obtain ⟨rfl, -⟩ | ⟨rfl, loaded, rfl⟩ := hend
  · exact absurd rfl hp
  obtain ⟨-, ⟨m₂, hk₂⟩, hholds₂⟩ := allocate_spec halloc
  obtain ⟨-, ⟨m₄, hk₄⟩, hholds₄⟩ := allocate_spec halloc'
  have hheap₃ : k₃.heap = k.heap := by
    rw [hread₃.heap]
    show k₂.heap = k.heap
    rw [hk₂, ← hread₁.heap]
  obtain ⟨i, haddr, h₂⟩ := hholds₂ es (hes.readFrame hread₁)
  have h₃ := Kernel.Holds.readFrame (k := k₂.setFatDirectory _ _) h₂ hread₃
  obtain ⟨j, haddr', h₄⟩ := hholds₄ _ h₃
  have h₅ := Kernel.Holds.readFrame (k :=
    (k₄.setItemArray _ _).setFatDirectory _ _) h₄ hread₅
  have hheap₅ : k₅.heap = k.heap := hheap
  rw [hread₁.heap, ← hheap₅] at haddr
  rw [hheap₃, ← hheap₅] at haddr'
  have hswap := h₅.perm (List.Perm.swap _ _ es)
  have hitems := extent_of_holds h₅ haddr' rfl
  have hdirectory := extent_of_holds hswap haddr rfl
  have hdir : k₅.fatDirectories p.id = some ⟨items, total, 0, 0⟩ := by
    rw [hread₅.eq]
    exact Function.update_self _ _ _
  have hne : items.addr ≠ 0 := by
    have hlt : j < k₅.heap.total :=
      h₅.2.packed.stop_le ⟨j, _⟩ List.mem_cons_self
        |> Nat.lt_of_lt_of_le (Nat.lt_add_of_pos_right (Nat.succ_pos _))
    rw [haddr']
    exact blockAddress_ne_zero h₅.1.toWf h₅.1.start_ne_zero hlt
  refine ⟨⟨items, total, 0, 0⟩, hp, hdir, hbounds, ?_, hne, ?_, ?_⟩
  · show p.addr
      = k₅.heap.blockAddress (Allocation.extent k₅.heap ⟨p.addr, 16⟩).first
    rw [hdirectory]
    exact haddr
  · show items.addr
      = k₅.heap.blockAddress (Allocation.extent k₅.heap ⟨items.addr, _⟩).first
    rw [hitems]
    exact haddr'
  · show k₅.Holds (Allocation.extent k₅.heap ⟨p.addr, 16⟩
      :: Allocation.extent k₅.heap ⟨items.addr, _⟩ :: es)
    rw [hdirectory, hitems]
    exact hswap

end Load

/-! ## Freeing

One run for every directory, and then the two cases. -/

section Free

variable {k k' : Kernel} {p : Ptr} {dir : FatDirectory}
  {es others : List Extent}

/-- The blocks that no extent covers are free. -/
theorem entry_of_holds_of_free (h : k.Holds es) {i : ℕ} (hi : i < k.heap.total)
    (hnone : ∀ e ∈ es, ¬ e.Covers i) :
    k.heap.entry k.mem i = heapBlockTableEntryFree := by
  rw [h.2.encodes i hi, markAt_eq_free_iff.mpr hnone]
  rfl

/-- The entries of an extent say nothing about the other extents. -/
theorem entry_of_holds {e : Extent} (h : k.Holds es) (he : e ∈ es) {i : ℕ}
    (hi : e.Covers i) :
    k.heap.entry k.mem i = Heap.entryByte (e.mark i) := by
  rw [h.2.encodes i (Nat.lt_of_lt_of_le hi.2 (h.2.packed.stop_le e he)),
    h.2.packed.markAt_of_covers he hi]

/-- **The run of `directory_free`**: the items, and then the directory. It
frees the address of each item, and these lie one after the other in one array.
-/
theorem LoadedDirectory.directoryFree (h : LoadedDirectory k p dir others) :
    ∃ k₁, freeItems dir.item dir.total.toNat 0 k = Except.ok ((), k₁)
      ∧ Fat16.directoryFree p k = Except.ok ((),
        (k₁.freed p.addr).setFatDirectory p.id none) := by
  obtain ⟨k₁, hitems, -⟩ := freeItems_ok dir.item dir.total.toNat 0 k
  refine ⟨k₁, hitems, ?_⟩
  rw [Fat16.directoryFree, if_pos h.ne_null,
    Machine.bind_ok (deref_ok h.ne_null h.contents),
    Machine.bind_ok hitems, kfree_bind]
  rfl

/-- **With an item, exactly the directory is released.** The first item has the
address of the array, and the others are inside it; a `kfree` of those frees at
most what is free already. -/
theorem LoadedDirectory.freesExactly (h : LoadedDirectory k p dir others)
    (htotal : 1 ≤ dir.total) :
    FreesExactly k p dir others := by
  obtain ⟨k₁, hitems, hrun⟩ := h.directoryFree
  have hheap : k₁.heap = k.heap := (OpenFrame.freeItems _ _ _ _ _ _ hitems).heap
  obtain ⟨left, hleft⟩ : ∃ left, dir.total.toNat = left + 1 :=
    ⟨dir.total.toNat - 1, by omega⟩
  have hsize := le_blocksFor_items h.total
  rw [hleft] at hitems hsize
  have h₁ : k₁.Holds (directoryExtent k.heap p :: others) :=
    freeItems_heap_of_pos h.item_addr h.item_ne_null hsize
      (h.holds.perm (List.Perm.swap _ _ others))
      hitems
  have h₂ := h₁.freed (show p.addr
    = k₁.heap.blockAddress (directoryExtent k.heap p).first by
      rw [hheap]
      exact h.addr)
  have hapart := List.pairwise_cons.mp h.holds.2.packed.apart
  have hapart' := List.pairwise_cons.mp hapart.2
  have hcovered : ∀ e ∈ [directoryExtent k.heap p, itemsExtent k.heap dir], ∀ i,
    e.Covers i →
      i < k.heap.total ∧ ∀ f ∈ others, ¬ f.Covers i := by
    intro e he i hi
    have hmem : e ∈ directoryExtent k.heap p :: itemsExtent k.heap dir
        :: others :=
      List.mem_append_left others he
    refine ⟨Nat.lt_of_lt_of_le hi.2 (h.holds.2.packed.stop_le e hmem),
      fun f hf => ?_⟩
    rcases List.mem_pair.mp he with rfl | rfl
    · exact (hapart.1 f (List.mem_cons_of_mem _ hf)).not_covers hi
    · exact (hapart'.1 f hf).not_covers hi
  refine ⟨_, hrun, fun e he i hi => ?_, fun e he i hi => ?_⟩
  · obtain ⟨hlt, hnone⟩ := hcovered e he i hi
    rw [← hheap] at hlt ⊢
    exact entry_of_holds_of_free h₂ hlt hnone
  · have hafter := entry_of_holds h₂ he hi
    have hbefore := entry_of_holds h.holds
      (List.mem_cons_of_mem _ (List.mem_cons_of_mem _ he)) hi
    rw [hbefore, ← hafter, ← hheap]
    rfl

/-- **Without one, the array stays.** It was allocated for no bytes at all,
which takes a block, and the loop over the items does not get to it. -/
theorem LoadedDirectory.not_freesExactly (h : LoadedDirectory k p dir others)
    (htotal : dir.total = 0) : ¬ FreesExactly k p dir others := by
  rintro ⟨k', hrun', hfree, -⟩
  obtain ⟨k₁, hitems, hrun⟩ := h.directoryFree
  rw [htotal] at hitems
  obtain ⟨-, rfl⟩ := Prod.mk.inj (Except.ok.inj hitems)
  obtain ⟨-, rfl⟩ := Prod.mk.inj (Except.ok.inj (hrun'.symm.trans hrun))
  have h₁ := h.holds.freed h.addr
  have hpos : 0 < (itemsExtent k.heap dir).count := Nat.succ_pos _
  have hentry := entry_of_holds h₁ List.mem_cons_self (Extent.covers_first hpos)
  have hzero := hfree _ (List.mem_cons_of_mem _ List.mem_cons_self) _
    (Extent.covers_first hpos)
  have hmark := (Heap.getEntryType_entryByte _).mp
    (show getEntryType (Heap.entryByte _) = heapBlockTableEntryFree by
      rw [← hentry]
      exact congrArg getEntryType hzero)
  exact Extent.mark_ne_free _ _ hmark

end Free

/-- **Freeing a loaded directory releases exactly its memory when it has an
item, and only then.** For every heap with some allocations, every directory
that `load_directory` returns, whose structure and array have therefore found
room, and every later state in which these two allocations are live beside any
others. An array of no items is an allocation of a block as well, and
`directory_free` does not free an array when there are no items. -/
theorem directory_free_exact_iff {d : DiskRef} {v : FatDirectoryItem}
    {k₀ k₁ : Kernel} {p : Ptr} {es : List Extent} (hes : k₀.Holds es)
    (hload : loadDirectory d v k₀ = Except.ok (p, k₁)) (hp : p.addr ≠ 0) :
    ∃ dir, LoadedDirectory k₁ p dir es ∧ ∀ k others,
    LoadedDirectory k p dir others →
      (FreesExactly k p dir others ↔ 1 ≤ dir.total) := by
  obtain ⟨dir, hloaded⟩ := loadDirectory_loaded hes hload hp
  refine ⟨dir, hloaded, fun k others h => ⟨fun hfrees => ?_, h.freesExactly⟩⟩
  by_contra hnone
  exact h.not_freesExactly (by have := h.total.1; omega) hfrees

/-- A directory of the disk of the two clusters, loaded: of two entries, or of
none. -/
theorem pair_loadDirectory {first second : Byte}
    {entries : List FatDirectoryItem}
    (hsub : Subdirectory (pairKernel first second) File.twoClusterPrivate
      pairDirectory 2 File.twoClusterChain entries)
    (hlive : ∀ a ∈ entries, ¬ IsDeleted a) (hlen : entries.length < 16) :
    ∃ p k₁ dir, loadDirectory DiskRef.primary pairDirectory
      (pairKernel first second)
        = Except.ok (p, k₁)
      ∧ p.addr ≠ 0 ∧ k₁.fatDirectories p.id = some dir
      ∧ dir.total = entries.length := by
  have hkept : liveItems entries = entries :=
    List.filter_eq_self.mpr fun a ha => decide_eq_true (hlive a ha)
  have hcluster : File.clusterSize File.twoClusterPrivate = 512 := by decide
  have hroom : RoomFor (pairKernel first second) entries.length :=
    roomFor_of_freeBlocks hsub.mounted.heap
      (show 1 < File.twoClusterKernel.freeBlocks by decide +kernel) (by omega)
  have hinside : 32 * entries.length
      < File.clusterSize File.twoClusterPrivate := by
    rw [hcluster]
    omega
  obtain ⟨p, k₁, dir, hrun, hp, hdir, htotal, -⟩ := (loadRight_iff hsub
    (by rw [hkept]; exact hroom) ⟨_, hsub.scan_of_inside hinside⟩).mpr
      ⟨kept_prefix_iff.mp ⟨[], by rw [← liveItems, hkept, List.append_nil]⟩,
        by rw [hkept]; exact Nat.le_of_lt hinside, Or.inl hinside⟩
  exact ⟨p, k₁, dir, hrun, hp, hdir, by rw [htotal, hkept]⟩

/-- The theorem on the directory of two entries. -/
theorem directory_free_exact_iff_two_items :
    ∃ k p dir others, LoadedDirectory k p dir others ∧ dir.total = 2
      ∧ FreesExactly k p dir others := by
  have hsub := pair_subdirectory 0x42#8 0x43#8 (by decide) (by decide)
  have hlive : ∀ a ∈ [plainEntry 0x42#8, plainEntry 0x43#8], ¬ IsDeleted a :=
    List.forall_mem_cons.mpr ⟨by decide,
      List.forall_mem_singleton.mpr (by decide)⟩
  obtain ⟨p, k₁, dir, hrun, hp, hdir, htotal⟩ :=
    pair_loadDirectory hsub hlive (by decide)
  obtain ⟨hwf, es, hinv⟩ := hsub.mounted.heap
  obtain ⟨dir', hloaded, hiff⟩ := directory_free_exact_iff ⟨hwf, hinv⟩ hrun hp
  obtain rfl := Option.some.inj (hdir.symm.trans hloaded.contents)
  have htwo : dir.total = 2 := htotal
  exact ⟨k₁, p, dir, es, hloaded, htwo, (hiff k₁ es hloaded).mpr (by omega)⟩

/-- The directory of no entries keeps its array. -/
theorem empty_directory_array_kept :
    ∃ es p k₁ dir, (pairKernel 0 0).Holds es
      ∧ loadDirectory DiskRef.primary pairDirectory (pairKernel 0 0)
        = Except.ok (p, k₁)
      ∧ LoadedDirectory k₁ p dir es ∧ dir.total = 0
      ∧ ¬ FreesExactly k₁ p dir es := by
  have hsub := pairKernel_subdirectory 0 0 (Entries.last rfl rfl)
    (show 32 * (0 + 1) ≤ 2 * File.clusterSize File.twoClusterPrivate by decide)
  obtain ⟨p, k₁, dir, hrun, hp, hdir, htotal⟩ :=
    pair_loadDirectory hsub (by simp) (by decide)
  obtain ⟨hwf, es, hinv⟩ := hsub.mounted.heap
  obtain ⟨dir', hloaded⟩ := loadDirectory_loaded ⟨hwf, hinv⟩ hrun hp
  obtain rfl := Option.some.inj (hdir.symm.trans hloaded.contents)
  exact ⟨es, p, k₁, dir, ⟨hwf, hinv⟩, hrun, hloaded, htotal,
    hloaded.not_freesExactly htotal⟩

end Fat16

end N00bOS
