import N00bOS.OpenFile
import N00bOS.ResolveStorage
import N00bOS.VolumeLayout

/-!
# From a disk to a volume in service

`fat16_resolve` makes the private data and its streams, reads the header from
sector `0`, and loads the root directory. With five free blocks for its
structures, and a root directory that ends, it returns `0` exactly when sector
`0` has the signature. What it leaves then is the volume that the disk
describes (`volumeOf`), in service with the live entries of its root directory:
the header and the places computed from it are those of sector `0`, and the
items are those that stand on the disk, in order. The heap has four blocks less,
and one for each item as long as there was one; the items that found none are
listed all the same.

The theorem (`fat16_resolve_mounts_the_disk`) follows a run of the call step by
step: before the volume is read (`prepared_of_run`), the loading of the root
directory (`getRootDirectory_inService`), and the stream that is closed at the
end (`closeStream_inService`). The items lie below the heap table, and up to
`quietItems` of them nothing else is written there.
-/

namespace N00bOS

open KernelM Machine Listing Fat16

/-! ## Counting what is held

From the heap table to a number: the blocks that some allocations hold are no
longer free. -/

/-- **A heap that holds some blocks more** has so many free blocks less. The
list of the blocks may be in any order, since they are counted only. -/
theorem Kernel.Holds.freeBlocks_oneBlocks {es : List Extent} {firsts : List ℕ}
    {k k' : Kernel} (h : k.Holds es) (h' : k'.Holds (oneBlocks firsts ++ es))
    (hheap : k'.heap = k.heap) :
    k'.freeBlocks + firsts.length = k.freeBlocks := by
  have hold := Kernel.freeBlocks_add h.2
  have hnew := Kernel.freeBlocks_add h'.2
  have hlength : ((oneBlocks firsts).map Extent.count).sum = firsts.length := by
    rw [oneBlocks, List.map_map]
    show (firsts.map fun _ => 1).sum = firsts.length
    rw [List.map_const', List.sum_replicate_nat, Nat.mul_one]
  rw [List.map_append, List.sum_append, hlength, hheap] at hnew
  omega

/-! ## Streams

A mounted volume has its three streams on the disk, wherever they stand. -/

/-- **The streams stay on their disk.** Where they stand there may change, and
does with every read. -/
def StreamsStay (k k' : Kernel) : Prop := ∀ s, StreamLive k s → StreamLive k' s

instance : IsPreorder Kernel StreamsStay where
  refl _ _ hs := hs
  trans _ _ _ h₁ h₂ s hs := h₂ s (h₁ s hs)

namespace StreamsStay

theorem of_volumeFrame {α : Type} {x : KernelM α} (h : Keeps VolumeFrame x) :
    Keeps StreamsStay x :=
  h.mono fun _ _ hframe => hframe.streams

theorem stepFrame : StepFrame StreamsStay where
  seek _ _ := of_volumeFrame (VolumeFrame.seek _ _)
  read _ _ _ _ := of_volumeFrame (VolumeFrame.read _ _ _ _)
  allocate _ := of_volumeFrame (VolumeFrame.allocate _)
  kfree _ := of_volumeFrame (VolumeFrame.kfree _)
  setFatDirectory _ _ := Keeps.modify fun _ _ hs => hs
  setItemArray _ _ := Keeps.modify fun _ _ hs => hs
  setFatItem _ _ := Keeps.modify fun _ _ hs => hs

theorem populateItem (directory : Option FatDirectory) (numItems : ℕ)
    (item : FatDirectoryItem) :
    Keeps StreamsStay (Fat16.populateItem directory numItems item) := by
  cases directory with
  | none => exact Keeps.pure
  | some directory =>
    refine (of_volumeFrame (VolumeFrame.kzalloc (by decide))).bind
      fun copy => ?_
    refine Keeps.ite (Keeps.get.bind fun k =>
      Keeps.ite (Keeps.modify fun _ _ hs => hs) Keeps.fault) ?_
    exact (StepFrame.deref _ _).bind fun items =>
      Keeps.ite (Keeps.modify fun _ _ hs => hs) Keeps.fault

/-- **The scan of a directory** leaves the streams on their disk. This is said
for a scan that puts items in place as well. -/
theorem getDirectoryTotalItems (d : DiskRef) (sector : Word)
    (directory : Option FatDirectory) :
    Keeps StreamsStay (Fat16.getDirectoryTotalItems d sector directory) := by
  have hcount : ∀ stream rounds numItems,
      Keeps StreamsStay (countItems stream directory rounds numItems) := by
    intro stream rounds
    induction rounds with
    | zero => exact fun _ => Keeps.fault
    | succ rounds ih =>
      exact fun numItems => Keeps.get.bind fun k =>
        (stepFrame.read _ _ _ _).bind fun r =>
          Keeps.ite Keeps.pure ((StepFrame.localItem _).bind fun item =>
            Keeps.ite Keeps.pure
              (Keeps.ite (ih _) ((populateItem _ _ _).bind fun _ => ih _)))
  exact (StepFrame.privateData _).bind fun _ =>
    (stepFrame.seek _ _).bind fun _ =>
      Keeps.ite Keeps.pure (hcount _ _ _)

end StreamsStay

namespace Fat16

/-! ## The volume of a disk

What `fat16_resolve` computes, as a function of the sectors alone. -/

/-- **The volume that a disk describes**, with so many items in its root
directory and without streams: the header of sector `0`, and the places that
are computed from it. The places are the ones that the code computes, with its
arithmetic. -/
def volumeOf (sectors : ℤ → ℕ → Byte) (total : ℕ) : FatPrivate :=
  withRootDirectory { zeroPrivate with header := fatHeaderOf (sectors 0) } total

/-- The position of the root directory of a disk, as an `int`. -/
def rootStart (sectors : ℤ → ℕ → Byte) : ℤ :=
  wrap32 (rootSector (volumeOf sectors 0) * sectorSize)

/-- A volume with its streams. -/
def FatPrivate.withStreams (pd : FatPrivate)
    (cluster fat directory : Ptr) : FatPrivate :=
  { pd with
    clusterReadStream := cluster, fatReadStream :=
      fat, directoryReadStream := directory }

/-- A new stream has the next number. -/
theorem newStream_id {k k' : Kernel} {s : Ptr}
    (h : Streamer.newStream primaryDiskId k = Except.ok (s, k')) :
    s.id = k.nextId := by
  obtain ⟨p, k₁, halloc, h₁⟩ := bind_eq_ok.mp
    (show (allocate 8 >>= fun stream => _) k = Except.ok (s, k') from h)
  rw [modify_bind] at h₁
  obtain ⟨rfl, -⟩ := Prod.mk.inj (Except.ok.inj h₁)
  obtain ⟨m, -, hid, -⟩ := allocate_run halloc
  exact hid

/-! ## Mounting

A run of `fat16_resolve` that returns `0`, from its start to its end. -/

section Mount

variable {k k' : Kernel}

/-- **Before the volume is read**, in a run of `fat16_resolve`: the private data
is there with its three streams, and the stream of the call is another one. -/
structure Prepared (k k' : Kernel) (p s s₁ s₂ s₃ : Ptr) : Prop where
  mounted : Mounted k' (FatPrivate.withStreams zeroPrivate s₁ s₂ s₃)
  disk : k'.disk = ⟨FilesystemRef.fat16, p⟩
  stream_ne : s.addr ≠ 0
  stream : k'.diskStreams s.id = some ⟨0, DiskRef.primary⟩
  other : s₁.id ≠ s.id ∧ s₂.id ≠ s.id ∧ s₃.id ≠ s.id
  heap : k'.heap = k.heap
  sectors : k'.sectors = k.sectors
  fileDescriptors : k'.fileDescriptors = k.fileDescriptors
  spent : k'.freeBlocks + 5 = k.freeBlocks

/-- What `fat16_resolve` does before it reads the volume, in a run of it. -/
theorem prepared_of_run {p s : Ptr} {k₁ k₂ k₃ : Kernel} (hk : k.HeapOk)
    (hfree : 5 ≤ k.freeBlocks) (halloc : allocate 92 k = Except.ok (p, k₁))
    (hinit : initFatPrivate DiskRef.primary p
      (k₁.setFatPrivate p.id (some zeroPrivate))
      = Except.ok ((), k₂))
    (hstream : Streamer.newStream primaryDiskId
      { k₂ with disk := ⟨FilesystemRef.fat16, p⟩ }
      = Except.ok (s, k₃)) :
    ∃ s₁ s₂ s₃, Prepared k k₃ p s s₁ s₂ s₃ := by
  obtain ⟨p', k₁', halloc', hspent₁, -, hp, hk₁, -⟩ :=
    (allocate_one hk (show (92 : Word).toNat < 4096 by decide)).returns
      (by omega)
  obtain ⟨rfl, rfl⟩ := Prod.mk.inj (Except.ok.inj (halloc.symm.trans halloc'))
  have hframe₁ := VolumeFrame.allocate _ _ _ _ halloc
  obtain ⟨k₂', s₁, s₂, s₃, hinit', hstep₂, hs₁, hs₂, hs₃, hpd⟩ :=
    initFatPrivate_spec
    (show (k₁.setFatPrivate p.id (some zeroPrivate)).HeapOk from hk₁)
    (show 3 ≤ k₁.freeBlocks by omega) hp (Function.update_self _ _ _)
  obtain ⟨-, rfl⟩ := Prod.mk.inj (Except.ok.inj (hinit.symm.trans hinit'))
  have hspent₂ : k₂.freeBlocks + 3 = k₁.freeBlocks := hstep₂.spent
  have hheap₂ : k₂.heap = k.heap := hstep₂.heap.trans hframe₁.heap
  obtain ⟨s', k₃', hstream', hstep₃, hs, hlive, hprivates, hdisk⟩ :=
    newStream_spec
    (show Kernel.HeapOk { k₂ with disk := ⟨FilesystemRef.fat16, p⟩ } from
      hstep₂.heapOk)
    (show 0 < k₂.freeBlocks by omega)
  obtain ⟨rfl, rfl⟩ := Prod.mk.inj (Except.ok.inj (hstream.symm.trans hstream'))
  have hid := newStream_id hstream
  have hmounted : Mounted k₃ (FatPrivate.withStreams zeroPrivate s₁ s₂ s₃) :=
    ⟨hstep₃.heapOk, by rw [hdisk], by rw [hdisk]; exact hp,
      by rw [hdisk, hprivates]; exact hpd, (hstep₃.streams _ hs₁).1,
      (hstep₃.streams _ hs₂).1, (hstep₃.streams _ hs₃).1⟩
  refine ⟨s₁, s₂, s₃, hmounted, hdisk, hs.1.1, hlive,
    ⟨hid ▸ hs₁.2.ne, hid ▸ hs₂.2.ne, hid ▸ hs₃.2.ne⟩, hstep₃.heap.trans hheap₂,
    hstep₃.sectors.trans (hstep₂.sectors.trans hframe₁.sectors), ?_, ?_⟩
  swap
  · have hspent₃ := hstep₃.spent
    have hsame : Kernel.freeBlocks { k₂ with disk := ⟨FilesystemRef.fat16, p⟩ }
      = k₂.freeBlocks := rfl
    omega
  obtain ⟨t₁, t₂, t₃, k₅, k₆, k₇, hnew₁, hnew₂, hnew₃, rfl⟩ :=
    initFatPrivate_run (Function.update_self _ _ _) hinit
  exact (OpenFrame.newStream _ _ _ _ hstream).fileDescriptors.trans
    ((OpenFrame.newStream _ _ _ _ hnew₃).fileDescriptors.trans
      ((OpenFrame.newStream _ _ _ _ hnew₂).fileDescriptors.trans
        ((OpenFrame.newStream _ _ _ _ hnew₁).fileDescriptors.trans
          hframe₁.fileDescriptors)))

/-- **The root directory is loaded**, in a run of `get_root_directory` that
returns `0`: its items are the live entries on the disk, whatever is free on the
heap. -/
theorem getRootDirectory_inService {p : Ptr} {pd : FatPrivate}
    (hm : Mounted k pd) (hp : k.disk.fsPrivateData = p)
    (hspc : pd.header.sectorsPerCluster ≠ 0)
    (hitem : pd.rootDirectory.item.addr = 0) {entries : List FatDirectoryItem}
    (hentries : Entries IsFree
      (scanned k.sectors (wrap32 (rootSector pd * sectorSize))) entries)
    (hlow : (liveItems entries).length ≤ quietItems)
    (hrun : getRootDirectory DiskRef.primary p k = Except.ok (0, k')) :
    InService k' (withRootDirectory pd (liveItems entries).length)
      (liveItems entries)
      ∧ StreamsStay k k' ∧ k'.sectors = k.sectors
      ∧ k'.fileDescriptors = k.fileDescriptors := by
  subst hp
  obtain ⟨total, k₁, hcount, hframe, rfl⟩ :=
    getRootDirectory_run hm.privateData hrun
  have hstay := StreamsStay.getDirectoryTotalItems _ _ _ _ _ _ hcount
  have hcap : lowItemsCapacity = 1008 := rfl
  have hquiet : quietItems = 1007 := rfl
  obtain ⟨k₂, hcount', hstored⟩ :=
    getDirectoryTotalItemsWithin_spec hm hitem hentries
      (spareTable_of_quiet hm.heap.1 hlow) (entries_length_lt hentries)
  rw [← getDirectoryTotalItems_eq_within] at hcount'
  obtain ⟨rfl, rfl⟩ := Prod.mk.inj (Except.ok.inj (hcount.symm.trans hcount'))
  obtain ⟨hk₁, -⟩ := hstored.table hm.heap (by omega)
  have hbounds := rootSector_bounds pd
  have hmounted : Mounted (k₁.setFatPrivate k.disk.fsPrivateData.id
      (some (withRootDirectory pd (liveItems entries).length)))
      (withRootDirectory pd (liveItems entries).length) := by
    refine ⟨hk₁, ?_, ?_, ?_, hstay _ hm.cluster, hstay _ hm.fat,
      hstay _ hm.directory⟩
    · show k₁.disk.fs = _
      rw [hframe.disk]
      exact hm.fs
    · show k₁.disk.fsPrivateData.addr ≠ 0
      rw [hframe.disk]
      exact hm.ne_null
    · show Function.update k₁.fatPrivates _ _ k₁.disk.fsPrivateData.id = _
      rw [hframe.disk]
      exact Function.update_self _ _ _
  refine ⟨?_, hstay, hframe.sectors, hframe.fileDescriptors⟩
  exact {
    mounted := hmounted
    cluster_ne_zero := hspc
    root_nonneg := by
      rw [withRootDirectory_sectorPosEnd]
      omega
    item_null := hitem
    total := rfl
    low := hlow
    item i hi := by
      have hnew := hstored.listed.new i hi (by omega)
      rwa [Nat.zero_add] at hnew }

/-- **The stream of the call is closed**, and the others stay. A volume has no
pointer to it, as it was allocated after the three of the private data. -/
theorem closeStream_inService {s : Ptr} {pd : FatPrivate}
    {items : List FatDirectoryItem} (h : InService k pd items)
    (hne : s.addr ≠ 0)
    (hother : pd.clusterReadStream.id ≠ s.id ∧ pd.fatReadStream.id ≠ s.id
      ∧ pd.directoryReadStream.id ≠ s.id)
    (hk' : k'.HeapOk)
    (hclose : (if s.addr ≠ 0 then Streamer.close s else pure ()) k
      = Except.ok ((), k')) :
    InService k' pd items := by
  rw [if_pos hne, Streamer.close, kfree_bind] at hclose
  obtain ⟨-, rfl⟩ := Prod.mk.inj (Except.ok.inj hclose)
  have hstay : ∀ t : Ptr, t.id ≠ s.id → StreamLive k t →
      StreamLive ((k.freed s.addr).setDiskStream s.id none) t :=
        fun t ht hlive =>
    ⟨hlive.1, hlive.2.imp fun _ hpos =>
      (Function.update_of_ne ht _ _).trans hpos⟩
  have hm := h.mounted
  exact { h with
    mounted := ⟨hk', hm.fs, hm.ne_null, hm.privateData,
      hstay _ hother.1 hm.cluster, hstay _ hother.2.1 hm.fat,
      hstay _ hother.2.2 hm.directory⟩
    item := fun i hi => by
      rw [← h.item i hi]
      exact h.lowItem_congr (SameLow.freed k s.addr) hi }

/-- **A disk that is mounted**: its volume is in service, no sector or
descriptor has changed, and the heap has given four blocks for the volume, and
one for each live entry as long as there was one. The items of the entries that
came after that are in memory below the heap table. -/
structure ServesDisk (k k' : Kernel) (pd : FatPrivate)
    (entries : List FatDirectoryItem) : Prop where
  volume : ∃ cluster fat directory, pd = FatPrivate.withStreams
    (volumeOf k.sectors (liveItems entries).length) cluster fat directory
  service : InService k' pd (liveItems entries)
  sectors : k'.sectors = k.sectors
  heap : k'.heap = k.heap
  fileDescriptors : k'.fileDescriptors = k.fileDescriptors
  spent : k'.freeBlocks + min (liveItems entries).length (k.freeBlocks - 5) + 4
    = k.freeBlocks

/-- **What a volume takes**: a block for each item, and four of its own, which
are the private data and the three streams. -/
theorem MountedBlocks.freeBlocks {es : List Extent} {pd : FatPrivate}
    {own clones : List ℕ} (h : MountedBlocks k' es pd own clones)
    (hes : k.Holds es) (hheap : k'.heap = k.heap) :
    k'.freeBlocks + clones.length + 4 = k.freeBlocks := by
  have hlen : own.length = 4 := by
    have := congrArg List.length h.own_addr
    rw [List.length_map, List.length_map] at this
    exact this.symm
  have hholds : k'.Holds (oneBlocks (clones ++ own) ++ es) := by
    rw [oneBlocks, List.map_append, List.append_assoc]
    exact h.holds
  have hcount := Kernel.Holds.freeBlocks_oneBlocks hes hholds hheap
  rw [List.length_append] at hcount
  omega

/-- **`fat16_resolve` puts the volume of the disk in service**, whenever it
returns `0`. -/
theorem fat16Resolve_serves (hk : k.HeapOk) (hfree : 5 ≤ k.freeBlocks)
    (hspc : (fatHeaderOf (k.sectors 0)).sectorsPerCluster ≠ 0)
    {entries : List FatDirectoryItem}
    (hentries : Entries IsFree (scanned k.sectors (rootStart k.sectors))
      entries)
    (hlow : (liveItems entries).length ≤ quietItems)
    (hrun : fat16Resolve DiskRef.primary k = Except.ok (0, k')) :
    ∃ pd, ServesDisk k k' pd entries := by
  obtain ⟨hwf, es, hinv⟩ := id hk
  obtain ⟨hheap, pd', hprivate', -, hblocks⟩ :=
    fat16Resolve_holds ⟨hwf, hinv⟩ hrun
  obtain ⟨p, s, k₁, k₂, k₃, k₄, halloc, hinit, hstream, hvolume, hclose⟩ :=
    fat16Resolve_run hrun
  obtain ⟨s₁, s₂, s₃, hready⟩ := prepared_of_run hk hfree halloc hinit hstream
  have hm₃ := hready.mounted
  have hp : k₃.disk.fsPrivateData = p := by rw [hready.disk]
  -- the header is read, and is a FAT16 one
  obtain ⟨hsig, -⟩ := readVolume_run hready.stream hvolume
  obtain ⟨k₅, hq, hheader⟩ :=
    readVolume_header hm₃ hready.stream_ne hready.stream
    DiskRef.primary
  rw [hp] at hheader
  rw [hheader, if_neg (not_not.mpr hsig), hready.sectors] at hvolume
  set pd : FatPrivate := { FatPrivate.withStreams zeroPrivate s₁ s₂ s₃ with
    header := fatHeaderOf (k.sectors 0) } with hpd
  have hm₅ := hm₃.quiet hq
  have hdisk₅ : k₅.disk = k₃.disk := by rw [hq.eq]
  have hm : Mounted (k₅.setFatPrivate p.id (some pd)) pd :=
    ⟨hm₅.heap, hm₅.fs, hm₅.ne_null, by
      show Function.update k₅.fatPrivates p.id _ k₅.disk.fsPrivateData.id = _
      rw [hdisk₅, hp]
      exact Function.update_self _ _ _, hm₅.cluster, hm₅.fat, hm₅.directory⟩
  have hsectors₅ : k₅.sectors = k.sectors := by
    rw [hq.eq]
    exact hready.sectors
  have hentries₅ : Entries IsFree
    (scanned (k₅.setFatPrivate p.id (some pd)).sectors
      (wrap32 (rootSector pd * sectorSize))) entries := by
    rw [rootStart, rootSector_congr
      (show (volumeOf k.sectors 0).header = pd.header from rfl)]
      at hentries
    rw [show (k₅.setFatPrivate p.id (some pd)).sectors
      = k.sectors from hsectors₅]
    exact hentries
  -- the root directory is loaded
  obtain ⟨hservice, hstay, hsectors₄, hdescriptors₄⟩ :=
    getRootDirectory_inService hm
    (show k₅.disk.fsPrivateData = p by rw [hdisk₅, hp]) hspc rfl hentries₅
      hlow hvolume
  have hframe := closeStream_frame hclose
  have hprivate : k'.fatPrivates k'.disk.fsPrivateData.id
      = some (withRootDirectory pd (liveItems entries).length) := by
    rw [hframe.fatPrivates, hframe.disk]
    exact hservice.mounted.privateData
  obtain rfl := Option.some.inj (hprivate'.symm.trans hprivate)
  have hcap : lowItemsCapacity = 1008 := rfl
  have hquiet : quietItems = 1007 := rfl
  -- what was taken: the structures, and clones for some of the items
  obtain ⟨own, clones, hclones, hmounted⟩ := hblocks
    (show ((liveItems entries).length : ℤ) ≤ lowItemsCapacity by omega)
  have hservice' := closeStream_inService hservice hready.stream_ne hready.other
    hmounted.holds.heapOk hclose
  have hspent := hmounted.freeBlocks ⟨hwf, hinv⟩ hheap
  have hclones : (clones.length : ℤ)
    = min ((liveItems entries).length : ℤ) (k.freeBlocks - 5) := hclones
  refine ⟨_, ⟨s₁, s₂, s₃, rfl⟩, hservice',
    hframe.sectors.trans (hsectors₄.trans hsectors₅), hheap, ?_, by omega⟩
  rw [hframe.fileDescriptors, hdescriptors₄]
  show k₅.fileDescriptors = _
  rw [hq.eq]
  exact hready.fileDescriptors

/-- **`fat16_resolve` mounts what the disk holds.** For every disk whose
clusters have sectors and whose root directory ends, with items that spare the
heap table, and every heap in use with five free blocks for its structures: it
returns `0` exactly when sector `0` has the signature. Then, when the live
entries are at most `quietItems`, the private data is the volume that sector `0`
describes, the root directory has the live entries that stand on the disk, in
order, no sector or descriptor has changed, and the heap has given four blocks
for the volume, and one for each entry as long as there was one. -/
theorem fat16_resolve_mounts_the_disk (hk : k.HeapOk) (hfree : 5 ≤ k.freeBlocks)
    (hspc : (fatHeaderOf (k.sectors 0)).sectorsPerCluster ≠ 0)
    {entries : List FatDirectoryItem}
    (hentries : Entries IsFree (scanned k.sectors (rootStart k.sectors))
      entries) (hspare : SpareTable k.heap 0 (liveItems entries)) :
    ((∃ k', fat16Resolve DiskRef.primary k = Except.ok (0, k'))
        ↔ (fatHeaderOf (k.sectors 0)).signature = fat16Signature)
      ∧ ∀ k', fat16Resolve DiskRef.primary k = Except.ok (0, k') →
        (liveItems entries).length ≤ quietItems → ∃ pd,
        ServesDisk k k' pd entries := by
  refine ⟨⟨fun ⟨k', hrun⟩ => (fat16Resolve_eq_ok hrun).1, fun hsig => ?_⟩,
    fun k' hrun hlow => fat16Resolve_serves hk hfree hspc hentries hlow hrun⟩
  exact fat16Resolve_returns hk hfree
    (show (volumeOf k.sectors 0).header = fatHeaderOf (k.sectors 0) from rfl)
      hsig hentries hspare

end Mount

/-! ### The disk of the file of two clusters

Its volume, with a header in sector `0`, on a heap after boot. -/

/-- The sectors, with the header in sector `0`. -/
def fileDisk (lba : ℤ) (i : ℕ) : Byte :=
  if lba = 0 then
    if i = 13 ∨ i = 14 ∨ i = 16 ∨ i = 22 then 1
    else if i = 17 then 16
    else if i = 38 then fat16Signature
    else 0
  else File.twoClusterSectors lba i

/-- The kernel after boot, with this disk. -/
def fileDiskKernel : Kernel :=
  { PathParser.bootedKernel with sectors := fileDisk }

theorem fileDiskKernel_freeBlocks : fileDiskKernel.freeBlocks = 25600 :=
  PathParser.bootedKernel_freeBlocks

theorem fileDisk_rootStart : rootStart fileDisk = 1024 := by decide

/-- The root directory has the one file. -/
theorem fileDisk_listing :
    Entries IsFree (scanned fileDisk (rootStart fileDisk))
      [File.twoClusterItem] := by
  rw [fileDisk_rootStart]
  refine Entries.next ?_ (by decide +kernel)
    (Entries.last (a := entryAt fileDisk 1056) ?_ ?_)
  · rw [scanned_eq_entryAt _ (by omega) (by omega)]
    exact congrArg some (funext (by decide +kernel))
  · exact scanned_eq_entryAt _ (by omega) (by omega)
  · decide +kernel

theorem liveItems_fileDisk :
    liveItems [File.twoClusterItem] = [File.twoClusterItem] := by
  decide +kernel

/-- It lies below the heap table. -/
theorem fileDisk_spareTable :
    SpareTable fileDiskKernel.heap 0 (liveItems [File.twoClusterItem]) := by
  rw [liveItems_fileDisk]
  exact spareTable_of_le PathParser.bootedKernel_heapOk.1 (by decide)

/-- The theorem on this disk. -/
theorem fat16_resolve_mounts_the_disk_file :
    ∃ k' pd, fat16Resolve DiskRef.primary fileDiskKernel = Except.ok (0, k')
      ∧ ServesDisk fileDiskKernel k' pd [File.twoClusterItem] := by
  obtain ⟨hiff, hserves⟩ := fat16_resolve_mounts_the_disk (k := fileDiskKernel)
    PathParser.bootedKernel_heapOk
      (by rw [fileDiskKernel_freeBlocks]; omega) (by decide)
    fileDisk_listing fileDisk_spareTable
  obtain ⟨k', hrun⟩ := hiff.mpr rfl
  obtain ⟨pd, hdisk⟩ := hserves k' hrun (by rw [liveItems_fileDisk]; decide)
  exact ⟨k', pd, hrun, hdisk⟩

end Fat16

end N00bOS
