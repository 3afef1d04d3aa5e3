import N00bOS.Frames
import N00bOS.HeapRuns

/-!
# Making and freeing items

What the file system builds for one component of a path: an item, and for a
directory the directory and its array. A new item is live, its allocations are
new (`LiveItem`), and it owns extents of the heap (`OwnsItem`) which
`item_free` gives back (`itemFree_heap`). Whatever an item is made of, what was
allocated before stays allocated.

An array of items is freed item by item. Every address but the first is inside
the array, whose blocks the first `kfree` has freed already, so the others do
nothing (`freeItems_heap`). A directory of no items is not freed that way, and
its array is lost.

The two sides meet in `FoundItem`, which is the specification of a lookup:
nothing older than the lookup has changed, and the item that it returns is live
and owns extents that are new. It is proved of the functions from the inside
out – scanning a directory, loading one (`NewDirectory`), searching in it – and
last of the walk over a path, whose loop frees each item but the last
(`walkPath_spec`). Allocations are told apart by their numbers: what is new has
a number from the start of the call on, so what is old is what lies below.
-/

namespace N00bOS

open KernelM Fat16

/-! ## Allocating

What the heap holds, and how an allocation and a `kfree` change it. -/

/-- **The heap holds some extents**: the table encodes exactly them. It is the
heap invariant, with what a heap of this kernel is placed at. -/
def Kernel.Holds (k : Kernel) (es : List Extent) : Prop :=
  k.heap.Placed ∧ Heap.HeapInv k.heap k.mem es

theorem Kernel.Holds.wf {k : Kernel} {es : List Extent} (h : k.Holds es) :
    k.heap.Wf := h.1.toWf

/-- A heap that holds extents is one in use. -/
theorem Kernel.Holds.heapOk {k : Kernel} {es : List Extent}
    (h : k.Holds es) : k.HeapOk :=
  ⟨h.1, es, h.2⟩

/-- **What an allocation does**: a new number, and a new extent. The number has
not been used for a structure before, and never will be again. -/
theorem allocate_spec {k k' : Kernel} {size : Word} {p : Ptr}
    (h : allocate size k = Except.ok (p, k')) :
    p.id = k.nextId ∧ (∃ m, k' = { k with mem := m, nextId := k.nextId + 1 })
      ∧ ∀ es, k.Holds es → ∃ i, p.addr = k.heap.blockAddress i
        ∧ k'.Holds (⟨i, Heap.blocksFor size⟩ :: es) := by
  obtain ⟨m, hfit, hid, rfl⟩ := allocate_run h
  refine ⟨hid, ⟨m, rfl⟩, ?_⟩
  rintro es ⟨hp, hinv⟩
  obtain ⟨i, haddr, -, hinv', -⟩ :=
    Heap.kzallocFit_spec hp.toWf hinv (Heap.size_lt_of_kzallocFit hfit) hfit
  exact ⟨i, haddr, hp, hinv'⟩

/-- The state after a `kfree`. -/
def Kernel.freed (k : Kernel) (ptr : Word) : Kernel :=
  { k with mem := k.heap.kfree k.mem ptr }

namespace Kernel.Holds

variable {k k' : Kernel} {es rest : List Extent} {e : Extent}

theorem perm {es' : List Extent} (h : k.Holds es) (hp : es.Perm es') :
    k.Holds es' :=
  ⟨h.1, h.2.perm hp⟩

/-- A function that reads leaves the table as it was. -/
theorem readFrame (h : k.Holds es) (hr : ReadFrame k k') : k'.Holds es := by
  refine ⟨hr.heap ▸ h.1, ?_⟩
  rw [hr.heap]
  exact h.2.congr (hr.table ⟨h.1, es, h.2⟩)

/-- **An extent given back**, through an address in its first block. The
address of a block is rounded down to its number, so it need not be where the
block starts. -/
theorem freed_add (h : k.Holds (e :: rest)) {d : ℕ} (hd : d < 4096) :
    (k.freed (k.heap.blockAddress e.first + BitVec.ofNat 32 d)).Holds rest := by
  obtain ⟨hinv, -⟩ := Heap.kfree_spec h.wf h.2 List.mem_cons_self
  rw [List.erase_cons_head] at hinv
  have hfirst : e.first < k.heap.total := by
    have hstop := h.2.packed.stop_le e List.mem_cons_self
    have hpos := h.2.packed.pos e List.mem_cons_self
    unfold Extent.stop at hstop
    omega
  have hsame : k.heap.kfree k.mem
    (k.heap.blockAddress e.first + BitVec.ofNat 32 d)
      = k.heap.kfree k.mem (k.heap.blockAddress e.first) := by
    rw [Heap.kfree, Heap.kfree, Heap.heapFree, Heap.heapFree]
    simp only [Heap.blockAddress2BlockIdx_add h.wf hfirst hd,
      Heap.blockAddress2BlockIdx_blockAddress h.wf hfirst]
  refine ⟨h.1, ?_⟩
  show Heap.HeapInv k.heap (k.heap.kfree k.mem _) rest
  rw [hsame]
  exact hinv

/-- **An extent given back.** -/
theorem freed (h : k.Holds (e :: rest)) {ptr : Word}
    (hptr : ptr = k.heap.blockAddress e.first) :
    (k.freed ptr).Holds rest := by
  have hfreed := h.freed_add (show 0 < 4096 by decide)
  rwa [BitVec.add_zero, ← hptr] at hfreed

/-- **A `kfree` inside an extent that has been given back** does nothing. The
entry is free already, and it has no successor for the loop to go on with. -/
theorem freed_inside (h : k.Holds rest) (hstop : e.stop ≤ k.heap.total)
    (hfree : ∀ i, e.Covers i → markAt rest i = Mark.free) {d : ℕ}
    (hd : d < e.count * 4096) :
    k.freed (k.heap.blockAddress e.first + BitVec.ofNat 32 d) = k := by
  have hcov : e.Covers (e.first + d / 4096) := by
    unfold Extent.Covers Extent.stop
    omega
  have hblock : e.first + d / 4096 < k.heap.total :=
    Nat.lt_of_lt_of_le hcov.2 hstop
  have haddr : k.heap.blockAddress e.first + BitVec.ofNat 32 d
      = k.heap.blockAddress (e.first + d / 4096) + BitVec.ofNat 32
        (d % 4096) := by
    have hsplit : e.first * 4096 + d
      = (e.first + d / 4096) * 4096 + d % 4096 := by omega
    unfold Heap.blockAddress
    rw [BitVec.add_assoc, BitVec.add_assoc, ← BitVec.ofNat_add,
      ← BitVec.ofNat_add, hsplit]
  have hsame := Heap.kfree_of_free h.2 hblock
    (Heap.blockAddress2BlockIdx_add h.wf hblock (Nat.mod_lt d (by decide)))
      (hfree _ hcov)
  rw [haddr, Kernel.freed, hsame]

end Kernel.Holds

theorem kfree_bind {α : Type} (ptr : Word) (f : Unit → KernelM α) (k : Kernel) :
    (kfree ptr >>= f) k = f () (k.freed ptr) := rfl

/-! ## The stores of items

The structures at the allocations of a set are the same; a change at an
allocation outside the set is none. -/

/-- Items, directories and arrays are the same, at the allocations of `P`. -/
structure SameItems (P : ℕ → Prop) (k k' : Kernel) : Prop where
  fatItems : ∀ id, P id → k'.fatItems id = k.fatItems id
  fatDirectories : ∀ id, P id → k'.fatDirectories id = k.fatDirectories id
  itemArrays : ∀ id, P id → k'.itemArrays id = k.itemArrays id

namespace SameItems

variable {P Q : ℕ → Prop} {k k' k'' : Kernel}

theorem refl (P : ℕ → Prop) (k : Kernel) : SameItems P k k :=
  ⟨fun _ _ => rfl, fun _ _ => rfl, fun _ _ => rfl⟩

theorem trans (h₁ : SameItems P k k') (h₂ : SameItems P k' k'') :
    SameItems P k k'' :=
  ⟨fun id hid => (h₂.fatItems id hid).trans (h₁.fatItems id hid),
    fun id hid => (h₂.fatDirectories id hid).trans (h₁.fatDirectories id hid),
    fun id hid => (h₂.itemArrays id hid).trans (h₁.itemArrays id hid)⟩

theorem mono (h : SameItems P k k') (hle : ∀ id, Q id → P id) :
    SameItems Q k k' :=
  ⟨fun id hid => h.fatItems id (hle id hid), fun id hid =>
    h.fatDirectories id (hle id hid), fun id hid =>
      h.itemArrays id (hle id hid)⟩

theorem of_readFrame (h : ReadFrame k k') : SameItems P k k' := by
  rw [h.eq]
  exact ⟨fun _ _ => rfl, fun _ _ => rfl, fun _ _ => rfl⟩

theorem allocate {size : Word} {p : Ptr}
    (h : allocate size k = Except.ok (p, k')) :
    SameItems P k k' := by
  obtain ⟨-, ⟨m, rfl⟩, -⟩ := allocate_spec h
  exact ⟨fun _ _ => rfl, fun _ _ => rfl, fun _ _ => rfl⟩

/-- A `kfree` is about memory only. -/
theorem freed (h : SameItems P k k') (ptr : Word) :
    SameItems P k (k'.freed ptr) :=
  ⟨h.fatItems, h.fatDirectories, h.itemArrays⟩

/-- An item put at, or taken from, an allocation outside `P`. -/
theorem setFatItem (h : SameItems P k k') {id : ℕ} (hid : ¬ P id)
    (v : Option FatItem) :
    SameItems P k (k'.setFatItem id v) :=
  ⟨fun id' h' => (Function.update_of_ne (by rintro rfl; exact hid h') _ _).trans
    (h.fatItems id' h'), h.fatDirectories, h.itemArrays⟩

/-- A directory put at, or taken from, an allocation outside `P`. -/
theorem setFatDirectory (h : SameItems P k k') {id : ℕ} (hid : ¬ P id)
    (v : Option FatDirectory) :
    SameItems P k (k'.setFatDirectory id v) :=
  ⟨h.fatItems, fun id' h' =>
    (Function.update_of_ne (by rintro rfl; exact hid h') _ _).trans
      (h.fatDirectories id' h'),
    h.itemArrays⟩

/-- An array put at, or taken from, an allocation outside `P`. -/
theorem setItemArray (h : SameItems P k k') {id : ℕ} (hid : ¬ P id)
    (v : Option (List FatDirectoryItem)) :
    SameItems P k (k'.setItemArray id v) :=
  ⟨h.fatItems, h.fatDirectories, fun id' h' =>
    (Function.update_of_ne (by rintro rfl; exact hid h') _ _).trans
      (h.itemArrays id' h')⟩

end SameItems

/-! ## Live items, and what they own

Two views of an item: that its pointers can be read through, and which extents
of the heap are its own. Both depend on the item's own allocations only. -/

/-- A directory that can be read through, its allocations from `lo` on and
below `hi`; or none. -/
def LiveDirectory (lo hi : ℕ) (k : Kernel) (p : Ptr) : Prop :=
  p.addr ≠ 0 → lo ≤ p.id ∧ p.id < hi
    ∧ ∃ dir, k.fatDirectories p.id = some dir ∧ lo ≤ dir.item.id
    ∧ dir.item.id < hi

/-- **A live item**, its allocations from `lo` on and below `hi`. Its pointers
lead to what is there, and the bounds tell it from what is older or newer. -/
structure LiveItem (lo hi : ℕ) (k : Kernel) (p : Ptr) : Prop where
  le : lo ≤ p.id
  lt : p.id < hi
  item : ∃ i, k.fatItems p.id = some i
    ∧ match i.type with
      | FatItemType.file => lo ≤ i.entry.id ∧ i.entry.id < hi
      | FatItemType.directory => LiveDirectory lo hi k i.entry

/-- The extents of a directory: its own and its array's. -/
inductive OwnsDirectory (k : Kernel) (p : Ptr) : List Extent → Prop where
  | null : p.addr = 0 → OwnsDirectory k p []
  | loaded {dir : FatDirectory} {e e' : Extent} : p.addr ≠ 0 →
      p.addr = k.heap.blockAddress e.first → k.fatDirectories p.id = some dir →
      dir.item.addr = k.heap.blockAddress e'.first →
      dir.total.toNat * 32 ≤ e'.count * 4096 → OwnsDirectory k p [e, e']

/-- **The extents of an item**: its own, and those of its directory entry or
its directory. It is what freeing the item gives back, as `itemFree_heap`
shows. -/
inductive OwnsItem (k : Kernel) (p : Ptr) : List Extent → Prop where
  | file {entry : Ptr} {e e' : Extent} : p.addr = k.heap.blockAddress e.first →
      k.fatItems p.id = some ⟨entry, FatItemType.file⟩ →
      entry.addr = k.heap.blockAddress e'.first → OwnsItem k p [e, e']
  | directory {entry : Ptr} {e : Extent} {own : List Extent} :
      p.addr = k.heap.blockAddress e.first →
      k.fatItems p.id = some ⟨entry, FatItemType.directory⟩ →
      OwnsDirectory k entry own → OwnsItem k p (e :: own)

section Congr

variable {lo hi : ℕ} {k k' : Kernel} {p : Ptr}

/-- What a directory owns depends on the directories only. -/
theorem OwnsDirectory.of_eq {own : List Extent} (h : OwnsDirectory k p own)
    (hheap : k'.heap = k.heap) (hdirs : k'.fatDirectories = k.fatDirectories) :
    OwnsDirectory k' p own := by
  cases h with
  | null hnull => exact OwnsDirectory.null hnull
  | loaded hne haddr hdir hitems hsize =>
    exact OwnsDirectory.loaded hne (hheap ▸ haddr) (hdirs ▸ hdir)
      (hheap ▸ hitems) hsize

theorem LiveDirectory.congr (h : LiveDirectory lo hi k p)
    (hsame : SameItems (fun id => lo ≤ id ∧ id < hi) k k') :
    LiveDirectory lo hi k' p := by
  intro hp
  obtain ⟨hlo, hhi, dir, hdir, hitem⟩ := h hp
  exact ⟨hlo, hhi, dir, (hsame.fatDirectories _ ⟨hlo, hhi⟩).trans hdir, hitem⟩

theorem LiveDirectory.mono {lo' hi' : ℕ} (h : LiveDirectory lo hi k p)
    (hlo : lo' ≤ lo) (hhi : hi ≤ hi') : LiveDirectory lo' hi' k p := by
  intro hp
  obtain ⟨h₁, h₂, dir, hdir, h₃, h₄⟩ := h hp
  exact ⟨hlo.trans h₁, Nat.lt_of_lt_of_le h₂ hhi, dir, hdir, hlo.trans h₃,
    Nat.lt_of_lt_of_le h₄ hhi⟩

/-- An item is live as long as its own allocations are left alone. -/
theorem LiveItem.congr (h : LiveItem lo hi k p)
    (hsame : SameItems (fun id => lo ≤ id ∧ id < hi) k k') :
    LiveItem lo hi k' p := by
  obtain ⟨i, hi', hrest⟩ := h.item
  refine ⟨h.le, h.lt, i, (hsame.fatItems _ ⟨h.le, h.lt⟩).trans hi', ?_⟩
  cases htype : i.type with
  | file => rw [htype] at hrest; exact hrest
  | directory => rw [htype] at hrest; exact hrest.congr hsame

theorem LiveItem.mono {lo' hi' : ℕ} (h : LiveItem lo hi k p) (hlo : lo' ≤ lo)
    (hhi : hi ≤ hi') :
    LiveItem lo' hi' k p := by
  obtain ⟨i, hi'', hrest⟩ := h.item
  refine ⟨hlo.trans h.le, Nat.lt_of_lt_of_le h.lt hhi, i, hi'', ?_⟩
  cases htype : i.type with
  | file =>
    rw [htype] at hrest
    exact ⟨hlo.trans hrest.1, Nat.lt_of_lt_of_le hrest.2 hhi⟩
  | directory =>
    rw [htype] at hrest
    exact hrest.mono hlo hhi

/-- A live item owns what it owned as long as its allocations are left
alone. -/
theorem OwnsItem.congr {own : List Extent} (h : OwnsItem k p own)
    (hlive : LiveItem lo hi k p)
    (hsame : SameItems (fun id => lo ≤ id ∧ id < hi) k k')
    (hheap : k'.heap = k.heap) :
    OwnsItem k' p own := by
  obtain ⟨i, hi', hrest⟩ := hlive.item
  have hitem := (hsame.fatItems _ ⟨hlive.le, hlive.lt⟩).trans hi'
  cases h with
  | file hp hfile hentry =>
    rw [hfile] at hi'
    obtain rfl := Option.some.inj hi'
    exact OwnsItem.file (hheap ▸ hp) hitem (hheap ▸ hentry)
  | @directory entry e own hp hdir hown =>
    rw [hdir] at hi'
    obtain rfl := Option.some.inj hi'
    refine OwnsItem.directory (hheap ▸ hp) hitem ?_
    cases hown with
    | null hnull => exact OwnsDirectory.null hnull
    | @loaded dir e e' hne haddr hdirs hitems hsize =>
      obtain ⟨h₁, h₂, -⟩ := hrest hne
      exact OwnsDirectory.loaded hne (hheap ▸ haddr)
        ((hsame.fatDirectories _ ⟨h₁, h₂⟩).trans hdirs) (hheap ▸ hitems) hsize

end Congr

/-! ## Freeing returns

A live item is freed without reading through a pointer that is null or
dangling. -/

theorem kfreeItem_ok (item : Ptr) (idx : ℕ) (k : Kernel) :
    ∃ k', kfreeItem item idx k = Except.ok ((), k')
      ∧ SameItems (fun id => id ≠ item.id) k k' := by
  rw [kfreeItem, kfree_bind]
  have hfree := (SameItems.refl (fun id => id ≠ item.id) k).freed
    (item.addr + BitVec.ofNat 32 (32 * idx))
  by_cases hidx : idx = 0
  · rw [if_pos hidx]
    exact ⟨_, rfl, hfree.setItemArray (not_not.mpr rfl) none⟩
  · rw [if_neg hidx]
    exact ⟨_, rfl, hfree⟩

theorem freeItems_ok (item : Ptr) (left idx : ℕ) (k : Kernel) :
    ∃ k', freeItems item left idx k = Except.ok ((), k')
      ∧ SameItems (fun id => id ≠ item.id) k k' := by
  induction left generalizing idx k with
  | zero => exact ⟨k, rfl, SameItems.refl _ k⟩
  | succ left ih =>
    rw [freeItems]
    by_cases hnull : item.addr + BitVec.ofNat 32 (32 * idx) ≠ 0
    · obtain ⟨k₁, hfree, hsame⟩ := kfreeItem_ok item idx k
      obtain ⟨k₂, hrest, hsame'⟩ := ih (idx + 1) k₁
      rw [if_pos hnull, Machine.bind_ok hfree]
      exact ⟨k₂, hrest, hsame.trans hsame'⟩
    · rw [if_neg hnull]
      exact ih (idx + 1) k

section Free

variable {lo hi : ℕ} {k : Kernel} {p : Ptr}

theorem directoryFree_ok (h : LiveDirectory lo hi k p) :
    ∃ k', directoryFree p k = Except.ok ((), k')
      ∧ SameItems (fun id => id < lo ∨ hi ≤ id) k k' := by
  rw [directoryFree]
  by_cases hp : p.addr ≠ 0
  · obtain ⟨hlo, hhi, dir, hdir, hlo', hhi'⟩ := h hp
    obtain ⟨k₁, hitems, hsame⟩ := freeItems_ok dir.item dir.total.toNat 0 k
    rw [if_pos hp, Machine.bind_ok (deref_ok hp hdir),
      Machine.bind_ok hitems, kfree_bind]
    have hsame' := (hsame.mono (Q := fun id => id < lo ∨ hi ≤ id)
      fun id hid => by omega).freed
      p.addr
    exact ⟨_, rfl, hsame'.setFatDirectory (by omega) none⟩
  · rw [if_neg hp]
    exact ⟨k, rfl, SameItems.refl _ k⟩

/-- **`item_free` of a live item returns**, and touches no other. What it frees
has numbers between the bounds, and every structure with another number stays.
-/
theorem itemFree_ok (h : LiveItem lo hi k p) (hp : p.addr ≠ 0) :
    ∃ k', itemFree p k = Except.ok ((), k')
      ∧ SameItems (fun id => id < lo ∨ hi ≤ id) k k' := by
  obtain ⟨i, hi', hrest⟩ := h.item
  have hlo := h.le
  have hhi := h.lt
  rw [itemFree, Machine.bind_ok (deref_ok hp hi')]
  cases htype : i.type with
  | file =>
    rw [htype] at hrest
    simp only
    rw [kfree_bind, Machine.modify_bind, kfree_bind]
    have hentry := ((SameItems.refl (fun id => id < lo ∨ hi ≤ id) k).freed
      i.entry.addr).setItemArray
      (show ¬ (i.entry.id < lo ∨ hi ≤ i.entry.id) by omega) none
    exact ⟨_, rfl, (hentry.freed p.addr).setFatItem (by omega) none⟩
  | directory =>
    rw [htype] at hrest
    simp only
    obtain ⟨k₁, hfree, hsame⟩ := directoryFree_ok hrest
    rw [Machine.bind_ok hfree, kfree_bind]
    exact ⟨_, rfl, (hsame.freed p.addr).setFatItem (by omega) none⟩

end Free

/-! ## Freeing gives the extents back

What is freed twice is freed once; what has no address of its own is not freed
at all. -/

section Heap

variable {k k' : Kernel} {rest : List Extent}

/-- The items after the first one, whose blocks are free already. -/
theorem freeItems_heap_after {item : Ptr} {e : Extent}
    (haddr : item.addr = k.heap.blockAddress e.first)
    (hstop : e.stop ≤ k.heap.total)
    (hfree : ∀ i, e.Covers i → markAt rest i = Mark.free) (left idx : ℕ)
    (hidx : (idx + left) * 32 ≤ e.count * 4096) (hpos : 0 < idx)
    (h : k.Holds rest) (hrun : freeItems item left idx k = Except.ok ((), k')) :
    k'.Holds rest := by
  induction left generalizing idx with
  | zero =>
    obtain ⟨-, rfl⟩ := Prod.mk.inj (Except.ok.inj hrun)
    exact h
  | succ left ih =>
    rw [freeItems] at hrun
    split at hrun
    · rw [Machine.bind_ok (show kfreeItem item idx k = Except.ok ((), k) by
        rw [kfreeItem, kfree_bind, if_neg (by omega), haddr,
          h.freed_inside hstop hfree (by omega)]
        rfl)] at hrun
      exact ih (idx + 1) (by omega) (by omega) hrun
    · exact ih (idx + 1) (by omega) (by omega) hrun

/-- **The first `kfree` that is made** inside an array of items gives it back,
and the ones after it do nothing. -/
theorem freeItems_heap_first {item : Ptr} {e : Extent}
    (haddr : item.addr = k.heap.blockAddress e.first) (left idx : ℕ)
    (hidx : 32 * idx < 4096) (hsize : (idx + (left + 1)) * 32 ≤ e.count * 4096)
    (h : k.Holds (e :: rest))
    (hrun : (kfreeItem item idx >>= fun _ => freeItems item left (idx + 1)) k
      = Except.ok ((), k')) :
    k'.Holds rest := by
  have hstop := h.2.packed.stop_le e List.mem_cons_self
  have hfree : ∀ i, e.Covers i → markAt rest i = Mark.free := fun i hi =>
    h.2.packed.markAt_tail hi
  obtain ⟨u, k₁, hitem, hrest⟩ := Machine.bind_eq_ok.mp hrun
  have hheap : k₁.heap = k.heap :=
    (OpenFrame.kfreeItem item idx _ _ _ hitem).heap
  refine freeItems_heap_after (by rw [hheap]; exact haddr)
    (by rw [hheap]; exact hstop) hfree left
    (idx + 1) (by omega) (by omega) ?_ hrest
  have hfreed := h.freed_add hidx
  rw [kfreeItem, kfree_bind, haddr] at hitem
  split at hitem
  · obtain ⟨-, rfl⟩ := Prod.mk.inj (Except.ok.inj hitem)
    exact hfreed
  · obtain ⟨-, rfl⟩ := Prod.mk.inj (Except.ok.inj hitem)
    exact hfreed

/-- **An array with an item is given back**, unless it is at address `0`. The
first round gives the extent back, and the others are inside what is free by
then. -/
theorem freeItems_heap_of_pos {item : Ptr} {e : Extent}
    (haddr : item.addr = k.heap.blockAddress e.first) (hne : item.addr ≠ 0)
    {left : ℕ} (hsize : (left + 1) * 32 ≤ e.count * 4096)
    (h : k.Holds (e :: rest))
    (hrun : freeItems item (left + 1) 0 k = Except.ok ((), k')) :
    k'.Holds rest := by
  rw [freeItems, if_pos (by rwa [Nat.mul_zero, BitVec.add_zero])] at hrun
  exact freeItems_heap_first haddr left 0 (by decide) (by omega) h hrun

/-- An array of items is given back, or is lost. -/
theorem freeItems_heap {item : Ptr} {e : Extent}
    (haddr : item.addr = k.heap.blockAddress e.first) {total : ℕ}
    (hsize : total * 32 ≤ e.count * 4096) (h : k.Holds (e :: rest))
    (hrun : freeItems item total 0 k = Except.ok ((), k')) :
    ∃ lost, k'.Holds (lost ++ rest) := by
  cases total with
  | zero =>
    obtain ⟨-, rfl⟩ := Prod.mk.inj (Except.ok.inj hrun)
    exact ⟨[e], h⟩
  | succ left =>
    have hle : ∀ n, left = n + 1 → (0 + 1 + (n + 1)) * 32 ≤ e.count * 4096 := by
      omega
    by_cases hnull : item.addr = 0
    · -- an array at address 0: its second item is the first that is freed
      have hfirst : ¬ item.addr + BitVec.ofNat 32 (32 * 0) ≠ 0 := by
        rw [hnull]
        decide
      rw [freeItems, if_neg hfirst] at hrun
      cases left with
      | zero =>
        obtain ⟨-, rfl⟩ := Prod.mk.inj (Except.ok.inj hrun)
        exact ⟨[e], h⟩
      | succ left =>
        have hsecond : item.addr + BitVec.ofNat 32 (32 * (0 + 1)) ≠ 0 := by
          rw [hnull]
          decide
        rw [freeItems, if_pos hsecond] at hrun
        exact ⟨[], freeItems_heap_first haddr left (0 + 1) (by decide)
          (hle left rfl) h hrun⟩
    · exact ⟨[], freeItems_heap_of_pos haddr hnull hsize h hrun⟩

/-- **A directory is freed** with its array. An array without items is not
freed, and stays among what is lost. -/
theorem directoryFree_heap {p : Ptr} {own : List Extent}
    (howns : OwnsDirectory k p own) (h : k.Holds (own ++ rest))
    (hrun : directoryFree p k = Except.ok ((), k')) :
    ∃ lost, k'.Holds (lost ++ rest) := by
  cases howns with
  | null hnull =>
    rw [directoryFree, if_neg (not_not.mpr hnull)] at hrun
    obtain ⟨-, rfl⟩ := Prod.mk.inj (Except.ok.inj hrun)
    exact ⟨[], h⟩
  | @loaded dir e e' hne haddr hdir hitems hsize =>
    rw [directoryFree, if_pos hne, Machine.bind_ok (deref_ok hne hdir)] at hrun
    obtain ⟨u, k₁, hfree, hrest⟩ := Machine.bind_eq_ok.mp hrun
    have hheap : k₁.heap = k.heap :=
      (OpenFrame.freeItems _ _ _ _ _ _ hfree).heap
    have hswap : k.Holds (e' :: (e :: rest)) :=
      h.perm (List.Perm.swap e' e rest)
    obtain ⟨lost, h₁⟩ := freeItems_heap hitems hsize hswap hfree
    rw [kfree_bind] at hrest
    obtain ⟨-, rfl⟩ := Prod.mk.inj (Except.ok.inj hrest)
    have h₂ := (h₁.perm List.perm_middle).freed
      (show p.addr = k₁.heap.blockAddress e.first from hheap ▸ haddr)
    exact ⟨lost, h₂⟩

/-- **An item is freed** with all it owns, but for an array without items,
which is lost. All that was held beside the item is held afterwards. -/
theorem itemFree_heap {p : Ptr} {own : List Extent} (howns : OwnsItem k p own)
    (h : k.Holds (own ++ rest)) (hrun : itemFree p k = Except.ok ((), k')) :
    ∃ lost, k'.Holds (lost ++ rest) := by
  rw [itemFree] at hrun
  obtain ⟨i, k₁, hderef, hrest⟩ := Machine.bind_eq_ok.mp hrun
  obtain ⟨-, hi, rfl⟩ := deref_eq_ok hderef
  cases howns with
  | @file entry e e' haddr hitem hentry =>
    rw [hitem] at hi
    obtain rfl := Option.some.inj hi
    simp only at hrest
    rw [kfree_bind, Machine.modify_bind, kfree_bind] at hrest
    obtain ⟨-, rfl⟩ := Prod.mk.inj (Except.ok.inj hrest)
    have h₁ := (h.perm (List.Perm.swap e' e rest)).freed hentry
    exact ⟨[], h₁.freed haddr⟩
  | @directory entry e own haddr hitem hown =>
    rw [hitem] at hi
    obtain rfl := Option.some.inj hi
    simp only at hrest
    obtain ⟨u, k₂, hfree, hrest⟩ := Machine.bind_eq_ok.mp hrest
    have hheap : k₂.heap = k₁.heap :=
      (OpenFrame.directoryFree _ _ _ _ hfree).heap
    have hswap : k₁.Holds (own ++ (e :: rest)) := h.perm List.perm_middle.symm
    obtain ⟨lost, h₂⟩ := directoryFree_heap hown hswap hfree
    rw [kfree_bind] at hrest
    obtain ⟨-, rfl⟩ := Prod.mk.inj (Except.ok.inj hrest)
    exact ⟨lost, (h₂.perm List.perm_middle).freed
      (show p.addr = k₂.heap.blockAddress e.first from hheap ▸ haddr)⟩

end Heap

/-! ## Making items

A directory is scanned, its array is allocated, and its entries are read. -/

/-- **A round of a scan that returns** has read an entry, and is the last one,
or passes over the entry, or has put it in the directory. -/
theorem countItems_cases {stream : Ptr} {directory : Option FatDirectory}
    {rounds numItems : ℕ} {k k' : Kernel} {r : ℤ}
    (h : countItems stream directory (rounds + 1) numItems k
      = Except.ok (r, k')) :
    ∃ k₁, ReadFrame k k₁ ∧ ((r = numItems ∧ k' = k₁)
      ∨ countItems stream directory rounds numItems k₁ = Except.ok (r, k')
      ∨ ∃ item k₂, populateItem directory numItems item k₁ = Except.ok ((), k₂)
        ∧ countItems stream directory rounds (numItems + 1) k₂ = Except.ok
          (r, k')) := by
  rw [countItems, Machine.get_bind] at h
  obtain ⟨⟨result, out⟩, k₁, hread, h₁⟩ := Machine.bind_eq_ok.mp h
  have hzero : result = 0 := (Streamer.read_eq_ok hread).1
  simp only [hzero, ne_eq, not_true_eq_false, if_false] at h₁
  obtain ⟨item, k₂, hlocal, h₂⟩ := Machine.bind_eq_ok.mp h₁
  refine ⟨k₂, Trans.trans (ReadFrame.read _ _ _ _ _ _ _ hread)
    (ReadFrame.localItem _ _ _ _ hlocal), ?_⟩
  split at h₂
  · obtain ⟨rfl, rfl⟩ := Prod.mk.inj (Except.ok.inj h₂)
    exact Or.inl ⟨rfl, rfl⟩
  · split at h₂
    · exact Or.inr (Or.inl h₂)
    · obtain ⟨u, k₃, hpopulate, h₃⟩ := Machine.bind_eq_ok.mp h₂
      exact Or.inr (Or.inr ⟨item, k₃, hpopulate, h₃⟩)

/-- A count of items goes on from where it is, and is below the number of rounds
there are for it. -/
theorem countItems_bounds {stream : Ptr} {directory : Option FatDirectory}
    {rounds numItems : ℕ} {k k' : Kernel} {r : ℤ}
    (h : countItems stream directory rounds numItems k = Except.ok (r, k')) :
    (numItems : ℤ) ≤ r ∧ r < numItems + rounds := by
  induction rounds generalizing numItems k with
  | zero => cases h
  | succ rounds ih =>
    obtain ⟨k₁, -, ⟨rfl, -⟩ | hskip | ⟨item, k₂, -, hnext⟩⟩ :=
      countItems_cases h
    · omega
    · have := ih hskip
      omega
    · have := ih hnext
      omega

/-- **A scan that returns** is a count from the start of the directory. What
comes before the count moves a stream, and changes nothing else. -/
theorem getDirectoryTotalItems_run {d : DiskRef} {sector : Word}
    {directory : Option FatDirectory} {k k' : Kernel} {r : ℤ}
    (h : getDirectoryTotalItems d sector directory k = Except.ok (r, k')) :
    ∃ stream k₁, ReadFrame k k₁
      ∧ countItems stream directory (2 ^ 27) 0 k₁ = Except.ok (r, k') := by
  obtain ⟨pd, k₁, hprivate, h₁⟩ := Machine.bind_eq_ok.mp h
  obtain ⟨result, k₂, hseek, h₂⟩ := Machine.bind_eq_ok.mp h₁
  obtain ⟨s, k₃, -, hset⟩ := Machine.bind_eq_ok.mp hseek
  obtain ⟨rfl, -⟩ := Prod.mk.inj (Except.ok.inj hset)
  rw [if_neg (by decide)] at h₂
  exact ⟨_, k₂, Trans.trans (ReadFrame.privateData _ _ _ _ hprivate)
    (ReadFrame.seek _ _ _ _ _ hseek), h₂⟩

theorem getDirectoryTotalItems_bounds {d : DiskRef} {sector : Word}
    {directory : Option FatDirectory} {k k' : Kernel} {r : ℤ}
    (h : getDirectoryTotalItems d sector directory k = Except.ok (r, k')) :
    0 ≤ r ∧ r < 2 ^ 27 := by
  obtain ⟨stream, k₁, -, hcount⟩ := getDirectoryTotalItems_run h
  have hbounds := countItems_bounds hcount
  omega

/-- **What `load_directory` leaves**: nothing old has changed; the directory,
if there is one, is live, and owns new extents. -/
structure NewDirectory (k k' : Kernel) (p : Ptr) : Prop where
  frame : OpenFrame k k'
  old : SameItems (fun id => id < k.nextId) k k'
  live : LiveDirectory k.nextId k'.nextId k' p
  heap : ∀ es, k.Holds es → ∃ own lost, OwnsDirectory k' p own
    ∧ k'.Holds (own ++ (lost ++ es))

/-- A directory that is not there. -/
theorem NewDirectory.null {k k' : Kernel} (hframe : OpenFrame k k')
    (hold : SameItems (fun id => id < k.nextId) k k')
    (hheap : ∀ es, k.Holds es → ∃ lost, k'.Holds (lost ++ es)) :
    NewDirectory k k' Ptr.null :=
  ⟨hframe, hold, fun hne => absurd rfl hne, fun es hes => by
    obtain ⟨lost, h⟩ := hheap es hes
    exact ⟨[], lost, OwnsDirectory.null rfl, h⟩⟩

/-- A new directory that is freed again. -/
theorem NewDirectory.freed {k k₁ k' : Kernel} {p : Ptr}
    (h : NewDirectory k k₁ p) (hrun : directoryFree p k₁ = Except.ok ((), k')) :
    NewDirectory k k' Ptr.null := by
  obtain ⟨k₂, hfree, hsame⟩ := directoryFree_ok h.live
  obtain ⟨-, rfl⟩ := Prod.mk.inj (Except.ok.inj (hrun.symm.trans hfree))
  refine NewDirectory.null (Trans.trans h.frame
    (OpenFrame.directoryFree _ _ _ _ hrun))
    (h.old.trans (hsame.mono fun id hid => Or.inl hid)) fun es hes => ?_
  obtain ⟨own, lost, howns, h₁⟩ := h.heap es hes
  obtain ⟨lost', h₂⟩ := directoryFree_heap howns h₁ hrun
  exact ⟨lost' ++ lost, by rwa [List.append_assoc]⟩

/-- The items of a new array are set. -/
theorem NewDirectory.setItemArray {k k₁ : Kernel} {p : Ptr}
    (h : NewDirectory k k₁ p) {id : ℕ} (hid : ¬ id < k.nextId)
    (v : Option (List FatDirectoryItem)) :
    NewDirectory k (k₁.setItemArray id v) p := by
  refine ⟨Trans.trans h.frame (OpenFrame.setItemArray _ _ _ _ _ rfl),
    h.old.setItemArray hid _, h.live, fun es hes => ?_⟩
  obtain ⟨own, lost, howns, h₁⟩ := h.heap es hes
  exact ⟨own, lost, howns.of_eq rfl rfl, h₁⟩

/-- The blocks of the array of items hold them. -/
theorem le_blocksFor_items {total : ℤ} (h : 0 ≤ total ∧ total < 2 ^ 27) :
    total.toNat * 32
      ≤ Heap.blocksFor (BitVec.ofInt 32 (total * directoryItemSize))
        * 4096 := by
  refine le_trans (le_of_eq ?_) (Heap.le_blocksFor _)
  rw [BitVec.toNat_ofInt, directoryItemSize]
  omega

/-- **The directory and its array are allocated**, with a scan of the disk in
between, and the array is read into. -/
def DirectoryAllocated (k k' : Kernel) (directory items : Ptr)
    (total : ℤ) : Prop :=
  ∃ k₁ k₂ k₃ k₄, ReadFrame k k₁ ∧ allocate 16 k₁ = Except.ok (directory, k₂)
    ∧ ReadFrame (k₂.setFatDirectory directory.id (some ⟨Ptr.null, 0, 0, 0⟩)) k₃
    ∧ (0 ≤ total ∧ total < 2 ^ 27)
    ∧ allocate (BitVec.ofInt 32 (total * directoryItemSize)) k₃
      = Except.ok (items, k₄)
    ∧ ReadFrame ((k₄.setItemArray items.id (some (List.replicate
        ((BitVec.ofInt 32 (total * directoryItemSize)).toNat / 32) fun _ =>
          0))).setFatDirectory
      directory.id (some ⟨items, total, 0, 0⟩)) k'

/-- **A run of `load_directory`** does nothing for what is no directory; it
frees the directory that it could not read; or it sets the items. -/
theorem loadDirectory_cases {d : DiskRef} {v : FatDirectoryItem} {k k' : Kernel}
    {p : Ptr} (h : loadDirectory d v k = Except.ok (p, k')) :
    (p = Ptr.null ∧ k' = k) ∨ ∃ directory items total k₁,
      DirectoryAllocated k k₁ directory items total
        ∧ ((p = Ptr.null ∧ directoryFree directory k₁ = Except.ok ((), k'))
          ∨ (p = directory ∧ ∃ loaded,
            k' = k₁.setItemArray items.id (some loaded))) := by
  rw [loadDirectory] at h
  split at h
  · obtain ⟨rfl, rfl⟩ := Prod.mk.inj (Except.ok.inj h)
    exact Or.inl ⟨rfl, rfl⟩
  obtain ⟨pd, k₁, hpd, h₁⟩ := Machine.bind_eq_ok.mp h
  obtain ⟨directory, k₂, halloc, h₂⟩ := Machine.bind_eq_ok.mp h₁
  rw [Machine.modify_bind] at h₂
  obtain ⟨total, k₃, htotal, h₃⟩ := Machine.bind_eq_ok.mp h₂
  obtain ⟨items, k₄, halloc', h₄⟩ := Machine.bind_eq_ok.mp h₃
  rw [Machine.modify_bind, Machine.modify_bind, Machine.get_bind] at h₄
  obtain ⟨⟨res, out⟩, k₅, hread, h₅⟩ := Machine.bind_eq_ok.mp h₄
  refine Or.inr ⟨directory, items, total, k₅,
    ⟨k₁, k₂, k₃, k₄, ReadFrame.privateData _ _ _ _ hpd, halloc,
      ReadFrame.getDirectoryTotalItems _ _ _ _ _ htotal,
      getDirectoryTotalItems_bounds htotal,
    halloc', ReadFrame.readInternal _ _ _ _ _ _ _ _ _ hread⟩, ?_⟩
  simp only at h₅
  split at h₅
  · -- not read: the directory is freed
    obtain ⟨u, k₆, hfree, h₆⟩ := Machine.bind_eq_ok.mp h₅
    obtain ⟨rfl, rfl⟩ := Prod.mk.inj (Except.ok.inj h₆)
    exact Or.inl ⟨rfl, hfree⟩
  · rw [Machine.get_bind] at h₅
    rw [Machine.modify_bind] at h₅
    obtain ⟨rfl, rfl⟩ := Prod.mk.inj (Except.ok.inj h₅)
    exact Or.inr ⟨rfl, _, rfl⟩

/-- The directory is there, and new. -/
theorem NewDirectory.allocated {k k₅ : Kernel} {directory items : Ptr}
    {total : ℤ} (h : DirectoryAllocated k k₅ directory items total) :
    NewDirectory k k₅ directory ∧ ¬ items.id < k.nextId := by
  obtain ⟨k₁, k₂, k₃, k₄, hread₁, halloc, hread₃, hbounds, halloc', hread₅⟩ := h
  obtain ⟨hid, ⟨m₂, hk₂⟩, hholds₂⟩ := allocate_spec halloc
  obtain ⟨hid', ⟨m₄, hk₄⟩, hholds₄⟩ := allocate_spec halloc'
  -- the number of the array is new as well
  have hnext₃ : k₃.nextId = k₂.nextId := by rw [hread₃.eq]; rfl
  have hnext₁ : k₁.nextId = k.nextId := by rw [hread₁.eq]
  have hid₂ : directory.id = k.nextId ∧ k₂.nextId = k.nextId + 1 := by
    rw [hid, hk₂, hnext₁]
    exact ⟨rfl, rfl⟩
  have hid₄ : items.id = k.nextId + 1 ∧ k₄.nextId = k.nextId + 2 := by
    rw [hid', hk₄, hnext₃, hid₂.2]
    exact ⟨rfl, rfl⟩
  -- what is old stays
  have hold₂ : SameItems (fun id => id < k.nextId) k k₂ :=
    (SameItems.of_readFrame hread₁).trans (SameItems.allocate halloc)
  have hold₄ :=
    ((hold₂.setFatDirectory (show ¬ directory.id < k.nextId by omega)
    (some ⟨Ptr.null, 0, 0, 0⟩)).trans (SameItems.of_readFrame hread₃)).trans
    (SameItems.allocate halloc')
  have hold₅ :=
    ((hold₄.setItemArray (show ¬ items.id < k.nextId by omega)
      _).setFatDirectory
    (show ¬ directory.id < k.nextId by omega) _).trans
      (SameItems.of_readFrame hread₅)
  have hframe₂ : OpenFrame k k₂ :=
    Trans.trans (OpenFrame.of_readFrame hread₁)
      (OpenFrame.allocate _ _ _ _ halloc)
  have hframe₄ : OpenFrame k k₄ := Trans.trans (Trans.trans (Trans.trans hframe₂
    (OpenFrame.setFatDirectory _ _ _ _ _ rfl)) (OpenFrame.of_readFrame hread₃))
    (OpenFrame.allocate _ _ _ _ halloc')
  have hframe₅ : OpenFrame k k₅ := Trans.trans (Trans.trans (Trans.trans hframe₄
    (OpenFrame.setItemArray _ _ _ _ _ rfl))
      (OpenFrame.setFatDirectory _ _ _ _ _ rfl))
    (OpenFrame.of_readFrame hread₅)
  -- the directory is there
  have hdir₅ : k₅.fatDirectories directory.id = some ⟨items, total, 0, 0⟩ := by
    rw [hread₅.eq]
    exact Function.update_self _ _ _
  have hnext₅ : k₅.nextId = k.nextId + 2 := by
    rw [hread₅.eq]
    exact hid₄.2
  have hlive₅ : LiveDirectory k.nextId k₅.nextId k₅ directory := fun _ =>
    ⟨by omega, by omega, _, hdir₅, by show k.nextId ≤ items.id; omega,
      by show items.id < k₅.nextId; omega⟩
  refine ⟨⟨hframe₅, hold₅, hlive₅, fun es hes => ?_⟩, by omega⟩
  -- the two extents, and who has them
  obtain ⟨i, haddr, h₂⟩ := hholds₂ es (hes.readFrame hread₁)
  have h₃ := Kernel.Holds.readFrame (k := k₂.setFatDirectory _ _) h₂ hread₃
  obtain ⟨j, haddr', h₄⟩ := hholds₄ _ h₃
  have h₅ :=
    (Kernel.Holds.readFrame (k := (k₄.setItemArray _ _).setFatDirectory _ _) h₄
    hread₅).perm (List.Perm.swap _ _ es)
  by_cases hnull : directory.addr = 0
  · exact ⟨[], [⟨i, _⟩, ⟨j, _⟩], OwnsDirectory.null hnull, h₅⟩
  · refine ⟨[⟨i, _⟩, ⟨j, _⟩], [],
      OwnsDirectory.loaded hnull ?_ hdir₅ ?_ (le_blocksFor_items hbounds), h₅⟩
    · rw [hframe₅.heap, haddr, hread₁.heap]
    · rw [hframe₅.heap, haddr', hread₃.heap]
      show k₂.heap.blockAddress j = k.heap.blockAddress j
      rw [hk₂, hread₁.heap]

theorem loadDirectory_spec {d : DiskRef} {v : FatDirectoryItem} {k k' : Kernel}
    {p : Ptr} (h : loadDirectory d v k = Except.ok (p, k')) :
    NewDirectory k k' p := by
  obtain ⟨rfl, rfl⟩ | ⟨directory, items, total, k₁, halloc, hend⟩ :=
    loadDirectory_cases h
  · exact NewDirectory.null (refl_of OpenFrame k') (SameItems.refl _ _)
      fun es hes => ⟨[], hes⟩
  obtain ⟨hnew, hitems⟩ := NewDirectory.allocated halloc
  obtain ⟨rfl, hfree⟩ | ⟨rfl, loaded, rfl⟩ := hend
  · exact hnew.freed hfree
  · exact hnew.setItemArray hitems _

/-- **What a lookup leaves**: nothing old has changed; the item, if there is
one, is live, and owns new extents. A walk goes on from this, since the item of
the next name is newer than the item before. -/
structure FoundItem (k k' : Kernel) (p : Ptr) : Prop where
  frame : OpenFrame k k'
  old : SameItems (fun id => id < k.nextId) k k'
  live : p.addr ≠ 0 → LiveItem k.nextId k'.nextId k' p
  heap : ∀ es, k.Holds es → ∃ own lost, (p.addr ≠ 0 → OwnsItem k' p own)
    ∧ k'.Holds (own ++ (lost ++ es))

/-- No item. -/
theorem FoundItem.null (k : Kernel) : FoundItem k k Ptr.null :=
  ⟨refl_of OpenFrame k, SameItems.refl _ k, fun hne => absurd rfl hne,
    fun _ hes => ⟨[], [], fun hne => absurd rfl hne, hes⟩⟩

/-- What was only read before does not matter. -/
theorem FoundItem.of_readFrame {k₀ k k' : Kernel} {p : Ptr}
    (h : FoundItem k k' p) (hr : ReadFrame k₀ k) : FoundItem k₀ k' p := by
  have hnext : k.nextId = k₀.nextId := by rw [hr.eq]
  refine ⟨Trans.trans (OpenFrame.of_readFrame hr) h.frame, ?_, hnext ▸ h.live,
    fun es hes => h.heap es (hes.readFrame hr)⟩
  exact (SameItems.of_readFrame hr).trans (hnext ▸ h.old)

theorem newItem_spec {d : DiskRef} {v : FatDirectoryItem} {k k' : Kernel}
    {p : Ptr} (h : newItem d v k = Except.ok (p, k')) : FoundItem k k' p := by
  have hframe := OpenFrame.newItem _ _ _ _ _ h
  rw [newItem] at h
  obtain ⟨item, k₁, halloc, h₁⟩ := Machine.bind_eq_ok.mp h
  obtain ⟨hid, ⟨m₁, hk₁⟩, hholds₁⟩ := allocate_spec halloc
  rw [Machine.modify_bind] at h₁
  have hnext₁ : k₁.nextId = k.nextId + 1 := by rw [hk₁]
  have hold₁ : SameItems (fun id => id < k.nextId) k
      (k₁.setFatItem item.id _) :=
    (SameItems.allocate halloc).setFatItem (by omega)
      (some ⟨Ptr.null, FatItemType.directory⟩)
  split at h₁
  · -- a directory
    obtain ⟨directory, k₂, hload, h₂⟩ := Machine.bind_eq_ok.mp h₁
    have hdir := loadDirectory_spec hload
    rw [Machine.modify_bind] at h₂
    obtain ⟨rfl, rfl⟩ := Prod.mk.inj (Except.ok.inj h₂)
    have hnext₂ : k.nextId + 1 ≤ k₂.nextId := hnext₁ ▸ hdir.frame.nextId
    have hitem : (k₂.setFatItem item.id
      (some ⟨directory, FatItemType.directory⟩)).fatItems item.id
        = some ⟨directory, FatItemType.directory⟩ := Function.update_self _ _ _
    refine ⟨hframe, ?_, fun _ =>
      ⟨by omega, by show item.id < k₂.nextId; omega, _, hitem, ?_⟩,
        fun es hes => ?_⟩
    · exact (hold₁.trans (hdir.old.mono fun id hlt => by
        show id < k₁.nextId
        omega)).setFatItem (by omega) _
    · exact LiveDirectory.mono hdir.live
        (by show k.nextId ≤ k₁.nextId; omega) le_rfl
    · obtain ⟨i, haddr, h₃⟩ := hholds₁ es hes
      obtain ⟨own, lost, howns, h₄⟩ := hdir.heap _ h₃
      refine ⟨⟨i, Heap.blocksFor 8⟩ :: own, lost,
        fun _ => OwnsItem.directory ?_ hitem (howns.of_eq rfl rfl), h₄.perm ?_⟩
      · exact haddr.trans (by rw [← hframe.heap])
      · rw [← List.append_assoc]
        exact List.perm_middle.trans (by rw [List.append_assoc]; rfl)
  · -- a file
    obtain ⟨copy, k₂, hclone, h₂⟩ := Machine.bind_eq_ok.mp h₁
    obtain ⟨copy', k₃, halloc', h₃⟩ := Machine.bind_eq_ok.mp hclone
    obtain ⟨hid', ⟨m₃, hk₃⟩, hholds₃⟩ := allocate_spec halloc'
    rw [Machine.modify_bind] at h₃
    obtain ⟨rfl, rfl⟩ := Prod.mk.inj (Except.ok.inj h₃)
    rw [Machine.modify_bind] at h₂
    obtain ⟨rfl, rfl⟩ := Prod.mk.inj (Except.ok.inj h₂)
    have hnext₃ : copy'.id = k.nextId + 1 ∧ k₃.nextId = k.nextId + 2 := by
      rw [hid', hk₃]
      exact ⟨hnext₁, congrArg (· + 1) hnext₁⟩
    refine ⟨hframe, ?_, fun _ =>
      ⟨by omega, by show item.id < k₃.nextId; omega, _,
        Function.update_self _ _ _, by show k.nextId ≤ copy'.id; omega,
      by show copy'.id < k₃.nextId; omega⟩, fun es hes => ?_⟩
    · exact ((hold₁.trans (SameItems.allocate halloc')).setItemArray
        (by omega) _).setFatItem
        (by omega) _
    · obtain ⟨i, haddr, h₄⟩ := hholds₁ es hes
      obtain ⟨j, haddr', h₅⟩ := hholds₃ _ h₄
      refine ⟨[⟨i, Heap.blocksFor 8⟩, ⟨j, Heap.blocksFor 32⟩], [],
        fun _ => OwnsItem.file ?_ (Function.update_self _ _ _) ?_,
        h₅.perm (List.Perm.swap _ _ es)⟩
      · exact haddr.trans (by rw [← hframe.heap])
      · rw [haddr', hframe.heap]
        show k₁.heap.blockAddress j = k.heap.blockAddress j
        rw [hk₁]

/-- A lookup leaves what `FoundItem` says. -/
theorem findFromItem_spec {d : DiskRef} {directory : FatDirectory} {name : Ptr}
    {left idx : ℕ} {k k' : Kernel} {p : Ptr}
    (h : findFromItem d directory name left idx k = Except.ok (p, k')) :
    FoundItem k k' p := by
  induction left generalizing idx k with
  | zero =>
    obtain ⟨rfl, rfl⟩ := Prod.mk.inj (Except.ok.inj h)
    exact FoundItem.null k
  | succ left ih =>
    rw [findFromItem] at h
    obtain ⟨v, k₁, hitem, h₁⟩ := Machine.bind_eq_ok.mp h
    obtain ⟨partName, k₂, hname, h₂⟩ := Machine.bind_eq_ok.mp h₁
    have hread := ReadFrame.readItem _ _ _ _ _ hitem
    obtain ⟨-, -, rfl⟩ := deref_eq_ok hname
    split at h₂
    · exact (newItem_spec h₂).of_readFrame hread
    · exact (ih h₂).of_readFrame hread

theorem findItemInDirectory_spec {d : DiskRef} {directory : FatDirectory}
    {name : Ptr} {k k' : Kernel} {p : Ptr}
    (h : findItemInDirectory d directory name k = Except.ok (p, k')) :
    FoundItem k k' p :=
  findFromItem_spec h

/-! ## Looking a path up

The walk over the components, with an item for each. -/

/-- **The loop of `get_item`**: what is older than the current item is left
alone, and what that owns may be given back. The induction is on the names to
go; each round frees an item that is older than the one it goes on with. -/
theorem walkPath_spec {d : DiskRef} (parts : List PathPart) {lo : ℕ}
    {item p : Ptr} {k k' : Kernel} (hlo : lo ≤ k.nextId)
    (hlive : item.addr ≠ 0 → LiveItem lo k.nextId k item)
    (h : walkPath (findItemInDirectory d) item parts k = Except.ok (p, k')) :
    SameItems (fun id => id < lo) k k'
      ∧ (p.addr ≠ 0 → LiveItem lo k'.nextId k' p)
      ∧ ∀ own base, (item.addr ≠ 0 → OwnsItem k item own) →
        k.Holds (own ++ base) →
        ∃ own' lost, (p.addr ≠ 0 → OwnsItem k' p own')
          ∧ k'.Holds (own' ++ (lost ++ base)) := by
  induction parts generalizing item k with
  | nil =>
    obtain ⟨rfl, rfl⟩ := Prod.mk.inj (Except.ok.inj h)
    exact ⟨SameItems.refl _ _, hlive, fun own base howns hholds =>
      ⟨own, [], howns, hholds⟩⟩
  | cons part rest ih =>
    rw [walkPath] at h
    obtain ⟨current, k₁, hcurrent, h₁⟩ := Machine.bind_eq_ok.mp h
    obtain ⟨hitem, hcurrent, rfl⟩ := deref_eq_ok hcurrent
    split at h₁
    · -- not a directory: there is no item
      obtain ⟨rfl, rfl⟩ := Prod.mk.inj (Except.ok.inj h₁)
      exact ⟨SameItems.refl _ _, fun hne => absurd rfl hne,
        fun own base _ hholds => ⟨[], own, fun hne => absurd rfl hne, hholds⟩⟩
    obtain ⟨directory, k₂, hdir, h₂⟩ := Machine.bind_eq_ok.mp h₁
    obtain ⟨hentry, hdir, rfl⟩ := deref_eq_ok hdir
    obtain ⟨tmpItem, k₃, hlookup, h₃⟩ := Machine.bind_eq_ok.mp h₂
    obtain ⟨u, k₄, hfree, h₄⟩ := Machine.bind_eq_ok.mp h₃
    have hfound := findItemInDirectory_spec hlookup
    have hitemLive := hlive hitem
    -- the lookup leaves the item alone, and freeing the item what is not its
    -- own
    have hsame : SameItems (fun id => lo ≤ id ∧ id < k₂.nextId) k₂ k₃ :=
      hfound.old.mono fun id hid => hid.2
    obtain ⟨k₅, hfree', hsame'⟩ := itemFree_ok (hitemLive.congr hsame) hitem
    obtain ⟨-, rfl⟩ := Prod.mk.inj (Except.ok.inj (hfree'.symm.trans hfree))
    have hframe := OpenFrame.itemFree _ _ _ _ hfree
    have hnext := hfound.frame.nextId
    have hnext' := hframe.nextId
    have hnew : SameItems (fun id => k₂.nextId ≤ id ∧ id < k₃.nextId) k₃ k₅ :=
      hsame'.mono fun id hid => Or.inr hid.1
    obtain ⟨hold, hlive', hheap⟩ := ih (hlo.trans (hnext.trans hnext'))
      (fun hne => ((hfound.live hne).congr hnew).mono hlo hnext') h₄
    refine ⟨((hfound.old.mono fun id hid => Nat.lt_of_lt_of_le hid hlo).trans
      (hsame'.mono fun id hid => Or.inl hid)).trans hold,
      hlive', fun own base howns hholds => ?_⟩
    obtain ⟨own', lost, howns', hholds₃⟩ := hfound.heap _ hholds
    have hholds₃ : k₃.Holds (own ++ (own' ++ (lost ++ base))) := hholds₃.perm
      (((List.perm_append_comm_assoc lost own base).append_left own').trans
        (List.perm_append_comm_assoc own' own _))
    obtain ⟨lost', hholds₅⟩ := itemFree_heap
      ((howns hitem).congr hitemLive hsame hfound.frame.heap) hholds₃ hfree
    obtain ⟨own'', lost'', howns'', hholds'⟩ :=
      hheap own' (lost' ++ (lost ++ base))
      (fun hne => (howns' hne).congr (hfound.live hne) hnew hframe.heap)
      (hholds₅.perm (List.perm_append_comm_assoc lost' own' _))
    refine ⟨own'', lost'' ++ (lost' ++ lost), howns'', ?_⟩
    rw [List.append_assoc, List.append_assoc]
    exact hholds'

/-- **`get_item`** leaves what a lookup leaves. In between it has made and
freed an item for each name but the last. -/
theorem getItem_spec {d : DiskRef} {parts : List PathPart} {k k' : Kernel}
    {p : Ptr} (h : getItem d parts k = Except.ok (p, k')) :
    FoundItem k k' p := by
  have hframe := OpenFrame.getItem _ _ _ _ _ h
  cases parts with
  | nil => cases h
  | cons part rest =>
    obtain ⟨pd, k₀, hpd, h₀⟩ := Machine.bind_eq_ok.mp h
    have hread := ReadFrame.privateData _ _ _ _ hpd
    obtain ⟨rootItem, k₁, hlookup, h₁⟩ := Machine.bind_eq_ok.mp h₀
    have hfound := (findItemInDirectory_spec hlookup).of_readFrame hread
    split at h₁
    · obtain ⟨rfl, rfl⟩ := Prod.mk.inj (Except.ok.inj h₁)
      exact ⟨hframe, hfound.old, fun hne => absurd rfl hne, fun es hes => by
        obtain ⟨own, lost, -, hholds⟩ := hfound.heap es hes
        exact ⟨own, lost, fun hne => absurd rfl hne, hholds⟩⟩
    · obtain ⟨hold, hlive, hheap⟩ :=
        walkPath_spec rest hfound.frame.nextId hfound.live h₁
      refine ⟨hframe, hfound.old.trans hold, hlive, fun es hes => ?_⟩
      obtain ⟨own, lost, howns, hholds⟩ := hfound.heap es hes
      obtain ⟨own', lost', howns', hholds'⟩ :=
        hheap own (lost ++ es) howns hholds
      refine ⟨own', lost' ++ lost, howns', ?_⟩
      rw [List.append_assoc]
      exact hholds'

end N00bOS
