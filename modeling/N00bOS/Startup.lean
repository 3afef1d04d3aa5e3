import N00bOS.Filesystems
import N00bOS.PagingWalk
import N00bOS.RejectedDisk
import N00bOS.SessionRuns
import N00bOS.Tasks

/-!
# From the start of the kernel to the files

What `kernel_main` does before the first call of the file interface, as far as
memory and the disk are concerned: it makes the heap, registers the filesystem,
builds its address space on the heap, and looks for the filesystem of the disk.
It goes through on every disk without the signature of a FAT16 volume, and on
those with it whose root directory ends and has at most `lowItemsCapacity` live
entries. The kernel has then just mounted a FAT16 volume, and what every run of
calls answers after that is said by the sectors alone; or it has no filesystem,
and serves no call (`storage_serves_the_disk`).

The proof takes the steps one by one. The heap is new, so the address space fits
in it (`pagingNew_looking`), and the one filesystem is registered (`load_eq`);
what is left is a run of `fat16_resolve` from such a kernel
(`startStorage_eq_ok`), and that has been settled for every disk.

`init` is to clear the table of descriptors, and clears four of its slots: it
takes the size of a descriptor for that of the table. That the others are free
is due to the table being static.
-/

namespace N00bOS

open KernelM Machine Listing Fat16

/-- **The state while the kernel starts**: the kernel's, and the table of
filesystems. -/
structure Startup where
  /-- Heap, disk and files. -/
  kernel : Kernel
  /-- `filesystems`. -/
  filesystems : List (Option FilesystemRef)

/-- **A program that starts the kernel.** It works on the kernel and on the
table of filesystems, which nothing looks at after the start. -/
abbrev StartupM := Machine Fault Startup

namespace Startup

/-- A program of the kernel. -/
def onKernel {α : Type} (x : KernelM α) : StartupM α :=
  zoom Startup.kernel (fun k s => { s with kernel := k }) x

/-- A program on the table of filesystems. -/
def onFilesystems {α : Type}
    (x : Machine Fault (List (Option FilesystemRef)) α) :
    StartupM α :=
  zoom Startup.filesystems (fun filesystems s =>
    { s with filesystems := filesystems }) x

/-- The kernel with a new heap. -/
def newHeap (k : Kernel) : Kernel :=
  { k with
    heap := (N00bOS.kheapInit kernelHeapConfig k.mem).1
    mem := (N00bOS.kheapInit kernelHeapConfig k.mem).2 }

/-- `kheap_init`, on the kernel. -/
def kheapInit : StartupM Unit := onKernel (modify newHeap)

/-- `load`. -/
def load : StartupM Unit := do
  onFilesystems (set (File.clearedFilesystems : List (Option FilesystemRef)))
  onFilesystems (File.insertFilesystem FilesystemRef.fat16)

/-- The slots of the table that `init` clears: `sizeof(file_descriptor)` bytes,
at four for a pointer. -/
def clearedSlots : ℕ := 16 / 4

/-- The table of descriptors, after the `memset` of `init`. -/
def clearDescriptors (k : Kernel) : Kernel :=
  { k with
    fileDescriptors := fun i => if i < clearedSlots then Ptr.null
      else k.fileDescriptors i }

/-- `fs::init`. -/
def init : StartupM Unit := do
  onKernel (modify clearDescriptors)
  load

/-- `resolve` of a filesystem, called through the pointer to it. -/
def resolveOf : FilesystemRef → DiskRef → KernelM ℤ
  | FilesystemRef.null, _ => fault Fault.nullDereference
  | FilesystemRef.fat16, d => fat16Resolve d

/-- `primary_disk`, cleared. -/
def clearDisk (k : Kernel) : Kernel :=
  { k with disk := ⟨FilesystemRef.null, Ptr.null⟩ }

/-- The filesystem of `primary_disk`, assigned. -/
def setFilesystem (fs : FilesystemRef) (k : Kernel) : Kernel :=
  { k with disk := { k.disk with fs := fs } }

/-- `search_and_initialize`. -/
def searchAndInitialize : StartupM Unit := do
  onKernel (modify clearDisk)
  let s ← get
  let fs ← onKernel (File.resolve resolveOf DiskRef.primary s.filesystems)
  onKernel (modify (setFilesystem (fs.getD FilesystemRef.null)))

/-- **What `kernel_main` does for the files**, up to the first call: the
`paging_chunk` of the kernel. -/
def startStorage : StartupM Word := do
  kheapInit
  init
  let kernelPagingChunk ← onKernel (Task.pagingNew
    (pagingIsWritable ||| pagingIsPresent ||| pagingAccessFromAll))
  searchAndInitialize
  return kernelPagingChunk

end Startup

/-! ## The kernel when the disk is looked at

What `kernel_main` has done when it looks for a filesystem: a heap that has
given the blocks of one address space, and a table with one filesystem. -/

/-- The blocks of an address space: one for the chunk, and two for the directory
and for each of the tables. -/
theorem SpaceLayout.sum_count (L : SpaceLayout) :
    (L.extents.map Extent.count).sum = 2051 := by
  have htables : ((List.range' 0 1024).map L.tableExtent).map Extent.count
      = List.replicate 1024 2 := by
    rw [List.map_map]
    show (List.range' 0 1024).map (fun _ => 2) = _
    rw [List.map_const', List.length_range']
  rw [extents, List.map_cons, List.map_append, htables, List.sum_cons,
    List.sum_append, List.sum_replicate_nat]
  rfl

namespace Startup

/-- **The kernel when it looks at the disk**: its heap is new but for the
address space, and no descriptor has been handed out. -/
structure Looking (k k' : Kernel) : Prop where
  heapOk : k'.HeapOk
  below : k'.HeapBelow
  freeBlocks : k'.freeBlocks = 23549
  sectors : k'.sectors = k.sectors
  noFiles : ∀ i, i < File.fsMaxFileDescriptors → (k'.fileDescriptors i).addr = 0

variable {s s' : Startup}

theorem onKernel_ok {α : Type} {x : KernelM α} {a : α} {k : Kernel}
    (h : x s.kernel = Except.ok (a, k)) :
    onKernel x s = Except.ok (a, { s with kernel := k }) :=
  zoom_ok h

theorem onKernel_eq_ok {α : Type} {x : KernelM α} {a : α} :
    onKernel x s = Except.ok (a, s')
      ↔ ∃ k, x s.kernel = Except.ok (a, k) ∧ s' = { s with kernel := k } :=
  zoom_eq_ok

theorem onKernel_modify_bind {α : Type} (f : Kernel → Kernel)
    (g : Unit → StartupM α) (s : Startup) :
    (onKernel (modify f) >>= g) s = g () { s with kernel := f s.kernel } :=
  rfl

/-- The one filesystem is registered. -/
theorem load_eq (s : Startup) : ∃ filesystems,
    File.Registered [FilesystemRef.fat16] filesystems
      ∧ load s = Except.ok ((), { s with filesystems := filesystems }) := by
  obtain ⟨filesystems, hinsert, hregistered⟩ := File.registered_cleared.insert
    (by decide) FilesystemRef.fat16
  refine ⟨filesystems, hregistered, ?_⟩
  show onFilesystems (File.insertFilesystem FilesystemRef.fat16)
    { s with filesystems := File.clearedFilesystems } = _
  exact zoom_ok hinsert

/-- **The address space of the kernel** fits in a new heap. It takes 2051
blocks of it, and many more than the volume will need are left. -/
theorem pagingNew_looking (k k₀ : Kernel)
    (hheap : k₀.heap = kernelHeapConfig.heap)
    (hinv : Heap.HeapInv k₀.heap k₀.mem []) (hsectors : k₀.sectors = k.sectors)
    (hfree : ∀ i, i < File.fsMaxFileDescriptors →
      (k₀.fileDescriptors i).addr = 0)
    (flags : Byte) :
    ∃ chunk m, Task.pagingNew flags k₀ = Except.ok (chunk, { k₀ with mem := m })
      ∧ Looking k { k₀ with mem := m } := by
  have hp : k₀.heap.Placed := by
    rw [hheap]
    exact ⟨kernelHeapConfig.heap_wf, by decide, by decide⟩
  have htotal : k₀.heap.total = 25600 := by rw [hheap]; rfl
  obtain ⟨⟨chunk, m⟩, hnew⟩ := Option.isSome_iff_exists.mp
    (pagingNew_of_room hp.toWf (b := 0) flags
    hinv (fun e he => absurd he List.not_mem_nil) (by omega))
  obtain ⟨L, hheld, -⟩ := pagingNew_spec hp.toWf flags hinv hnew
  refine ⟨chunk, m, by rw [Task.pagingNew, hnew], ⟨hp, _, hheld⟩, ?_, ?_,
    hsectors, hfree⟩
  · unfold Kernel.HeapBelow
    rw [show Kernel.heap { k₀ with mem := m } = kernelHeapConfig.heap from
      hheap]
    decide
  · have hcount := Kernel.freeBlocks_add (k := { k₀ with mem := m }) hheld
    rw [List.append_nil, SpaceLayout.sum_count] at hcount
    rw [show Kernel.heap { k₀ with mem := m } = k₀.heap from rfl,
      htotal] at hcount
    omega

/-- **Everything before the search** goes through. What is left is the search,
from a kernel that looks at its disk, with the one filesystem registered. -/
theorem startStorage_eq
    (hfree : ∀ i, clearedSlots ≤ i → i < File.fsMaxFileDescriptors →
      (s.kernel.fileDescriptors i).addr = 0) :
    ∃ chunk k filesystems, Looking s.kernel k
      ∧ File.Registered [FilesystemRef.fat16] filesystems
      ∧ startStorage s = (searchAndInitialize >>= fun _ => pure chunk) ⟨k,
        filesystems⟩ := by
  obtain ⟨hheap, hinv, -⟩ := kheapInit_spec kernelHeapConfig s.kernel.mem
  obtain ⟨filesystems, hregistered, hload⟩ :=
    load_eq { s with kernel := clearDescriptors (newHeap s.kernel) }
  have hnoFiles : ∀ i, i < File.fsMaxFileDescriptors →
      ((clearDescriptors (newHeap s.kernel)).fileDescriptors i).addr = 0 := by
    intro i hi
    show Ptr.addr (if i < clearedSlots then Ptr.null
      else s.kernel.fileDescriptors i) = 0
    by_cases hclear : i < clearedSlots
    · rw [if_pos hclear]
      rfl
    · rw [if_neg hclear]
      exact hfree i (not_lt.mp hclear) hi
  obtain ⟨chunk, m, hpaging, hlooking⟩ := pagingNew_looking
    s.kernel (clearDescriptors (newHeap s.kernel)) hheap
    (by
      rw [show (clearDescriptors (newHeap s.kernel)).heap = _ from hheap]
      exact hinv) rfl
    hnoFiles (pagingIsWritable ||| pagingIsPresent ||| pagingAccessFromAll)
  have hinit : init { s with kernel := newHeap s.kernel }
      = Except.ok ((), ⟨clearDescriptors (newHeap s.kernel), filesystems⟩) :=
        hload
  refine ⟨chunk, _, filesystems, hlooking, hregistered, ?_⟩
  rw [startStorage, kheapInit, onKernel_modify_bind, bind_ok hinit,
    bind_ok (onKernel_ok hpaging)]

/-! ## The search

A search in a table with one filesystem, as a call of its `resolve`. -/

/-- The table has the one filesystem to try. -/
theorem resolve_registered {filesystems : List (Option FilesystemRef)}
    (h : File.Registered [FilesystemRef.fat16] filesystems) (d : DiskRef) :
    File.resolve resolveOf d filesystems = fat16Resolve d >>= fun result =>
      pure (if result = 0 then some FilesystemRef.fat16 else none) := by
  rw [h.table, File.resolve_append_free]
  show (fat16Resolve d >>= fun result => if result = 0 then
    pure (some FilesystemRef.fat16)
    else pure none) = _
  refine congrArg (fat16Resolve d >>= ·) (funext fun result => ?_)
  by_cases hr : result = 0
  · rw [if_pos hr, if_pos hr]
  · rw [if_neg hr, if_neg hr]

/-- **A search that returns** is a run of `fat16_resolve`, and the disk has the
filesystem if that answered `0`. -/
theorem searchAndInitialize_eq_ok {k : Kernel}
    {filesystems : List (Option FilesystemRef)}
    (h : File.Registered [FilesystemRef.fat16] filesystems) :
    searchAndInitialize ⟨k, filesystems⟩ = Except.ok ((), s')
      ↔ ∃ r k', fat16Resolve DiskRef.primary (clearDisk k) = Except.ok (r, k')
        ∧ s' = ⟨setFilesystem (if r = 0 then FilesystemRef.fat16
          else FilesystemRef.null) k', filesystems⟩ := by
  rw [searchAndInitialize, onKernel_modify_bind, get_bind, bind_eq_ok]
  show (∃ fs s₁, onKernel (File.resolve resolveOf DiskRef.primary filesystems)
    ⟨clearDisk k, filesystems⟩ = Except.ok (fs, s₁) ∧ _) ↔ _
  rw [resolve_registered h]
  constructor
  · rintro ⟨fs, s₁, hresolve, hset⟩
    obtain ⟨k₁, hrun, rfl⟩ := onKernel_eq_ok.mp hresolve
    obtain ⟨r, k', hfat, hfs⟩ := bind_eq_ok.mp hrun
    obtain ⟨rfl, rfl⟩ := Prod.mk.inj (Except.ok.inj hfs)
    obtain ⟨-, rfl⟩ := Prod.mk.inj (Except.ok.inj hset)
    refine ⟨r, k', hfat, ?_⟩
    by_cases hr : r = 0
    · rw [if_pos hr, if_pos hr]
      rfl
    · rw [if_neg hr, if_neg hr]
      rfl
  · rintro ⟨r, k', hfat, rfl⟩
    refine ⟨_, _, onKernel_ok (bind_ok hfat), ?_⟩
    by_cases hr : r = 0
    · rw [if_pos hr, if_pos hr]
      rfl
    · rw [if_neg hr, if_neg hr]
      rfl

/-- The kernel is ready for `fat16_resolve` when its disk is cleared. -/
theorem Looking.clearDisk {k k' : Kernel} (h : Looking k k') :
    Looking k (clearDisk k') :=
  ⟨h.heapOk, h.below, h.freeBlocks, h.sectors, h.noFiles⟩

end Startup

/-! ## A disk without a filesystem

No path is opened, so no descriptor comes to be, and there is none for the
other calls: this is kept by every call. -/

namespace File

/-- **What is answered without a filesystem**: no path is opened, and no
descriptor is there. -/
inductive Unserved : Call → Reply → Prop where
  | fopen {path mode : List Byte} {r : ℤ} : r = -einval ∨ r = -eio →
      Unserved (Call.fopen path mode) (Reply.result r)
  | refused {c : Call} {fd : ℤ} : c.fd = some fd → Unserved c c.refused

/-- No filesystem has been found, and no descriptor handed out. -/
structure NoFilesystem (k : Kernel) : Prop where
  fs : k.disk.fs = FilesystemRef.null
  noFiles : ∀ i, i < fsMaxFileDescriptors → (k.fileDescriptors i).addr = 0

section NoFilesystem

variable {k k' : Kernel}

/-- **`fopen`** fails before it looks a path up: the path is turned away, or
its disk has no filesystem. -/
theorem NoFilesystem.fopen (h : NoFilesystem k) {path mode : List Byte} {r : ℤ}
    (hrun : fopen path mode k = Except.ok (r, k')) :
    (r = -einval ∨ r = -eio) ∧ NoFilesystem k' := by
  obtain ⟨root, k₁, hparse, h₁⟩ := bind_eq_ok.mp hrun
  have hframe := OpenFrame.parse path _ _ _ hparse
  have hnone : NoFilesystem k₁ :=
    ⟨by rw [hframe.disk, h.fs],
      fun i hi => by rw [hframe.fileDescriptors, h.noFiles i hi]⟩
  have hreturn : ∀ {e : ℤ}, (pure e : KernelM ℤ) k₁ = Except.ok (r, k') → r = e
      ∧ k' = k₁ :=
    fun he => by
      obtain ⟨rfl, rfl⟩ := Prod.mk.inj (Except.ok.inj he)
      exact ⟨rfl, rfl⟩
  by_cases hroot : root.addr = 0
  · rw [if_pos hroot] at h₁
    obtain ⟨rfl, rfl⟩ := hreturn h₁
    exact ⟨Or.inl rfl, hnone⟩
  rw [if_neg hroot] at h₁
  obtain ⟨parts, k₂, hderef, h₂⟩ := bind_eq_ok.mp h₁
  obtain ⟨-, -, rfl⟩ := deref_eq_ok hderef
  by_cases hpath : parts.path = []
  · rw [if_pos hpath] at h₂
    obtain ⟨rfl, rfl⟩ := hreturn h₂
    exact ⟨Or.inl rfl, hnone⟩
  rw [if_neg hpath] at h₂
  by_cases hdisk : diskGet parts.driveNumber = DiskRef.null
  · rw [if_pos hdisk] at h₂
    obtain ⟨rfl, rfl⟩ := hreturn h₂
    exact ⟨Or.inr rfl, hnone⟩
  rw [if_neg hdisk] at h₂
  obtain ⟨disk, k₃, hread, h₃⟩ := bind_eq_ok.mp h₂
  cases hprimary : diskGet parts.driveNumber with
  | null => exact absurd hprimary hdisk
  | primary =>
    rw [hprimary] at hread
    obtain ⟨rfl, rfl⟩ := Prod.mk.inj (Except.ok.inj hread)
    rw [if_pos hnone.fs] at h₃
    obtain ⟨rfl, rfl⟩ := hreturn h₃
    exact ⟨Or.inr rfl, hnone⟩

/-- **A call** is not served. There is no slot that has been filled, so a call
on a descriptor is turned away if it returns. -/
theorem NoFilesystem.call (h : NoFilesystem k) {c : Call} {reply : Reply}
    (hrun : c.run k = Except.ok (reply, k')) :
    Unserved c reply ∧ NoFilesystem k' := by
  cases hfd : c.fd with
  | none =>
    cases c with
    | fopen path mode =>
      obtain ⟨r, hopen, rfl⟩ := Call.run_ok hrun
      obtain ⟨hr, hk'⟩ := h.fopen hopen
      exact ⟨Unserved.fopen hr, hk'⟩
    | fread data blockSize numBlocks fd => cases hfd
    | fseek fd offset whence => cases hfd
    | fstat fd stat => cases hfd
    | fclose fd => cases hfd
  | some fd =>
    have hslot : ∀ desc, ¬ InSlot k fd desc := fun desc hin =>
      hin.slot (h.noFiles fd.toNat (by
        have := hin.nonneg
        have := hin.lt
        omega))
    obtain ⟨rfl, rfl⟩ := Call.run_refused hfd (Or.inr hslot) hrun
    exact ⟨Unserved.refused hfd, h⟩

/-- **No call of a run** is served. Nothing in a run looks for a filesystem
again. -/
theorem NoFilesystem.run {k₀ : Kernel} (h₀ : NoFilesystem k₀)
    {history : List (Call × Reply)} (hrun : Run k₀ history k) :
    NoFilesystem k ∧ ∀ call ∈ history, Unserved call.1 call.2 := by
  induction hrun with
  | start => exact ⟨h₀, fun _ hcall => absurd hcall List.not_mem_nil⟩
  | call _ hcall ih =>
    obtain ⟨hunserved, hk'⟩ := ih.1.call hcall
    exact ⟨hk', List.forall_mem_cons.mpr ⟨hunserved, ih.2⟩⟩

end NoFilesystem

end File

/-! ## The start of the kernel

The two outcomes, put together with what was proved of the mounted volume and
of sessions on it. -/

namespace Startup

variable {s s' : Startup}

/-- **A start that returns** is a run of `fat16_resolve` from a kernel that
looks at its disk. -/
theorem startStorage_eq_ok
    (hfree : ∀ i, clearedSlots ≤ i → i < File.fsMaxFileDescriptors →
      (s.kernel.fileDescriptors i).addr = 0) :
    ∃ k, Looking s.kernel k
      ∧ ((∃ chunk s', startStorage s = Except.ok (chunk, s'))
        ↔ ∃ r k', fat16Resolve DiskRef.primary k = Except.ok (r, k'))
      ∧ ∀ chunk s', startStorage s = Except.ok (chunk, s') →
        ∃ r k', fat16Resolve DiskRef.primary k = Except.ok (r, k') ∧ s'.kernel
          = setFilesystem (if r = 0 then FilesystemRef.fat16
            else FilesystemRef.null) k' := by
  obtain ⟨chunk₀, k, filesystems, hlooking, hregistered, hstart⟩ :=
    startStorage_eq hfree
  have hruns : ∀ chunk s', startStorage s = Except.ok (chunk, s') →
      ∃ r k', fat16Resolve DiskRef.primary (clearDisk k) = Except.ok (r, k')
        ∧ s'.kernel
        = setFilesystem (if r = 0 then FilesystemRef.fat16
          else FilesystemRef.null) k' := by
    intro chunk s' hok
    rw [hstart] at hok
    obtain ⟨u, s₁, hsearch, hchunk⟩ := bind_eq_ok.mp hok
    obtain ⟨-, rfl⟩ := Prod.mk.inj (Except.ok.inj hchunk)
    obtain ⟨r, k', hfat, rfl⟩ :=
      (searchAndInitialize_eq_ok hregistered).mp hsearch
    exact ⟨r, k', hfat, rfl⟩
  refine ⟨clearDisk k, hlooking.clearDisk, ⟨?_, ?_⟩, hruns⟩
  · rintro ⟨chunk, s', hok⟩
    obtain ⟨r, k', hfat, -⟩ := hruns chunk s' hok
    exact ⟨r, k', hfat⟩
  · rintro ⟨r, k', hfat⟩
    have hsearch := (searchAndInitialize_eq_ok hregistered).mpr
      ⟨r, k', hfat, rfl⟩
    exact ⟨chunk₀, _, by rw [hstart, bind_ok hsearch]; rfl⟩

/-- **A FAT16 volume on a disk**, with the entries of its root directory: sector
`0` has the signature, its clusters have sectors, and the root directory ends
and has at most `quietItems` live entries. -/
structure FatDisk (sectors : ℤ → ℕ → Byte)
    (entries : List FatDirectoryItem) : Prop where
  signature : (fatHeaderOf (sectors 0)).signature = fat16Signature
  cluster_ne_zero : (fatHeaderOf (sectors 0)).sectorsPerCluster ≠ 0
  listing : Entries IsFree (scanned sectors (rootStart sectors)) entries
  low : (liveItems entries).length ≤ quietItems

section Looking

variable {k₀ k k' : Kernel} {r : ℤ}

/-- **A disk with the signature is mounted**, when its root directory ends and
its items lie below the heap table. There are blocks enough on a new heap for
the structures of the volume. -/
theorem Looking.mounts (hk : Looking k₀ k)
    (hsig : (fatHeaderOf (k.sectors 0)).signature = fat16Signature)
    {entries : List FatDirectoryItem}
    (hentries : Entries IsFree (scanned k.sectors (rootStart k.sectors))
      entries) (hfew : (liveItems entries).length ≤ lowItemsCapacity) :
    ∃ k', fat16Resolve DiskRef.primary k = Except.ok (0, k') := by
  have hblocks := hk.freeBlocks
  exact fat16Resolve_returns hk.heapOk (by omega)
    (show (volumeOf k.sectors 0).header = fatHeaderOf (k.sectors 0) from rfl)
      hsig hentries (spareTable_of_le hk.heapOk.1 (by omega))

/-- A FAT16 volume has been mounted, when `fat16_resolve` returns. -/
theorem Looking.justMounted (hk : Looking k₀ k)
    {entries : List FatDirectoryItem} (hdisk : FatDisk k.sectors entries)
    (hrun : fat16Resolve DiskRef.primary k = Except.ok (r, k')) :
    r = 0 ∧ File.JustMounted k k' entries := by
  have hblocks := hk.freeBlocks
  have hcap : lowItemsCapacity = 1008 := rfl
  have hquiet : quietItems = 1007 := rfl
  have hlow := hdisk.low
  obtain ⟨k₁, hmount⟩ := hk.mounts hdisk.signature hdisk.listing (by omega)
  obtain ⟨rfl, rfl⟩ := Prod.mk.inj (Except.ok.inj (hrun.symm.trans hmount))
  exact ⟨rfl, hk.heapOk, hk.below, by omega, hk.noFiles, hdisk.cluster_ne_zero,
    hdisk.listing, hdisk.low, hmount⟩

/-- **Another disk is turned away**, and the kernel is left without a
filesystem. -/
theorem Looking.rejects (hk : Looking k₀ k)
    (hsig : (fatHeaderOf (k.sectors 0)).signature ≠ fat16Signature)
    (hrun : fat16Resolve DiskRef.primary k = Except.ok (r, k')) :
    r ≠ 0 ∧ File.NoFilesystem (setFilesystem FilesystemRef.null k') := by
  have hblocks := hk.freeBlocks
  obtain ⟨k₁, hreject⟩ := fat16Resolve_rejects hk.heapOk (by omega) hsig
  obtain ⟨rfl, rfl⟩ := Prod.mk.inj (Except.ok.inj (hrun.symm.trans hreject))
  have htrace := fat16Resolve_rejected hk.heapOk (by decide) hreject
  refine ⟨by decide, rfl, fun i hi => ?_⟩
  show (k'.fileDescriptors i).addr = 0
  rw [htrace.onlyDisk]
  exact hk.noFiles i hi

end Looking

/-- **From the start of the kernel to the files.** For every memory and every
disk, as long as the slots that are not cleared are free, and the root directory
of a disk with the signature of a FAT16 volume ends and has at most
`lowItemsCapacity` live entries: the start goes through. When the disk is a
FAT16 volume with at most `quietItems` live entries in the root directory, the
kernel has then just mounted it, so that every run of calls is a session on the
disk, and reads of files give their bytes; and without the signature no call of
any run is served. -/
theorem storage_serves_the_disk (s : Startup)
    (hfree : ∀ i, clearedSlots ≤ i → i < File.fsMaxFileDescriptors →
      (s.kernel.fileDescriptors i).addr = 0)
    (hends : (fatHeaderOf (s.kernel.sectors 0)).signature = fat16Signature →
      ∃ entries, Entries IsFree (scanned s.kernel.sectors
          (rootStart s.kernel.sectors)) entries
        ∧ (liveItems entries).length ≤ lowItemsCapacity) :
    ∃ chunk s', startStorage s = Except.ok (chunk, s')
      ∧ (∀ entries, FatDisk s.kernel.sectors entries →
        (∃ k, k.sectors = s.kernel.sectors
          ∧ File.JustMounted k s'.kernel entries)
          ∧ ∀ history k', File.Run s'.kernel history k' → ∃ session,
            File.DiskSession s.kernel.sectors entries history session
              ∧ File.ReadsFiles s.kernel.sectors session k')
      ∧ ((fatHeaderOf (s.kernel.sectors 0)).signature ≠ fat16Signature →
        ∀ history k', File.Run s'.kernel history k' →
          ∀ call ∈ history, File.Unserved call.1 call.2) := by
  obtain ⟨k, hk, hreturns, hruns⟩ := startStorage_eq_ok hfree
  rw [← hk.sectors] at hends ⊢
  have hblocks := hk.freeBlocks
  -- it goes through: the disk is mounted, or turned away
  obtain ⟨chunk, s', hok⟩ := hreturns.mpr (by
    by_cases hsig : (fatHeaderOf (k.sectors 0)).signature = fat16Signature
    · obtain ⟨entries, hentries, hfew⟩ := hends hsig
      exact ⟨0, hk.mounts hsig hentries hfew⟩
    · exact ⟨_, fat16Resolve_rejects hk.heapOk (by omega) hsig⟩)
  obtain ⟨r, k', hrun, hs'⟩ := hruns chunk s' hok
  refine ⟨chunk, s', hok, fun entries hdisk => ?_, fun hsig => ?_⟩
  · obtain ⟨rfl, hmounted⟩ := hk.justMounted hdisk hrun
    -- the filesystem that is assigned is the one that has been
    obtain ⟨pd, hserves⟩ := fat16Resolve_serves hmounted.heapOk hmounted.free
      hmounted.cluster_ne_zero hmounted.listing hmounted.low hmounted.mounted
    have hkernel : s'.kernel = k' := by
      rw [hs', if_pos rfl, setFilesystem, ← hserves.service.mounted.fs]
    rw [hkernel]
    exact ⟨⟨k, rfl, hmounted⟩, fun history k₂ hhistory => hmounted.run hhistory⟩
  · obtain ⟨hne, hnone⟩ := hk.rejects hsig hrun
    rw [hs', if_neg hne]
    exact fun history k₂ hhistory => (hnone.run hhistory).2

/-- The theorem on the disk of the file of two clusters. -/
theorem storage_serves_the_disk_file :
    ∃ chunk s', startStorage ⟨fileDiskKernel, []⟩ = Except.ok (chunk, s')
      ∧ ∀ history k, File.Run s'.kernel history k →
        ∃ session, File.DiskSession fileDisk [File.twoClusterItem] history
          session := by
  have hdisk : FatDisk fileDisk [File.twoClusterItem] :=
    ⟨rfl, by decide, fileDisk_listing, by rw [liveItems_fileDisk]; decide⟩
  obtain ⟨chunk, s', hok, hserved, -⟩ :=
    storage_serves_the_disk ⟨fileDiskKernel, []⟩
    (fun _ _ _ => rfl) fun _ => ⟨_, hdisk.listing, by
      rw [liveItems_fileDisk]
      decide⟩
  refine ⟨chunk, s', hok, fun history k hrun => ?_⟩
  obtain ⟨session, hsession, -⟩ := (hserved _ hdisk).2 history k hrun
  exact ⟨session, hsession⟩

end Startup

end N00bOS
