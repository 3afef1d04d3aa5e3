import N00bOS.FileReads
import N00bOS.LowItems
import Mathlib.Data.Fintype.Basic
import Mathlib.Tactic.FinCases

/-!
# The two directory loaders

`get_root_directory` and `load_directory` should make the same of a directory:
its live entries, in order.

`get_root_directory` copies each live entry as it counts, to the array at
address `0` (`N00bOS.LowItems`). It is right for every directory of at most
1007 live entries, on a full heap as on any other, and for one of 1008 that
leaves a block free (`rootRight_of_fits`); the further entries are written over
the heap table, and what comes of that is not followed here.

`load_directory` counts the live entries of the sectors that lie one after the
other on the disk, and then copies as many entries, deleted or not, from the
first cluster. What it does is put together from its steps – two structures
that are allocated, the scan, and one `read_internal` – in `Subdirectory.load`;
comparing that with the entries of the cluster chain gives the condition under
which it is right, and only then (`loadRight_iff`). Both loaders together are
`directory_loaders_right`.

The comparison is one of two listings, that of the chain and that of the
sectors behind its first cluster. They agree in the first cluster
(`Subdirectory.scanned`). A directory that ends there is counted right; one
that does not is counted right when the sectors that follow list deleted
entries only (`Subdirectory.scan_live_iff`). What is then copied are the first
entries, and they are the live ones when no deleted one stands before them
(`Listing.kept_prefix_iff`).
-/

namespace N00bOS

open KernelM Listing

namespace Fat16

/-! ### `get_directory_total_items`

The scan, with a bound on its rounds beside it. A bound that is large enough
changes nothing, and one that is too small is a scan that goes on. -/

/-- A start sector, as a position. -/
theorem toInt_mul_sectorSize (sector : ℤ) :
    (BitVec.ofInt 32 sector * BitVec.ofInt 32 sectorSize).toInt
      = wrap32 (sector * sectorSize) := by
  rw [← BitVec.ofInt_mul, BitVec.toInt_ofInt]
  rfl

/-- `get_directory_total_items`, stopped after a number of entries. -/
def getDirectoryTotalItemsWithin (rounds : ℕ) (d : DiskRef)
    (directoryStartSector : Word) (directory : Option FatDirectory) :
    KernelM ℤ := do
  let privateData ← privateData d
  let directoryStartPos := directoryStartSector * BitVec.ofInt 32 sectorSize
  let directoryStream := privateData.directoryReadStream
  let result ← Streamer.seek directoryStream directoryStartPos.toInt
  if result ≠ 0 then
    return result
  countItems directoryStream directory rounds 0

/-- Stopped or not, it is a scan from the start sector. -/
theorem getDirectoryTotalItemsWithin_eq {k : Kernel} {pd : FatPrivate}
    (hm : Mounted k pd) (sector : ℤ) (directory : Option FatDirectory) :
    ∃ k₁, Quiet k k₁ ∧ k₁.diskStreams pd.directoryReadStream.id
        = some ⟨wrap32 (sector * sectorSize), DiskRef.primary⟩
      ∧ ∀ rounds, getDirectoryTotalItemsWithin rounds DiskRef.primary
        (BitVec.ofInt 32 sector)
          directory k
            = countItems pd.directoryReadStream directory rounds 0 k₁ := by
  obtain ⟨hp, pos, hs⟩ := hm.directory
  refine ⟨_, Quiet.setDiskStream hs (wrap32 (sector * sectorSize)),
    Function.update_self _ _ _, fun rounds => ?_⟩
  rw [getDirectoryTotalItemsWithin, Machine.bind_ok (privateData_ok hm),
    toInt_mul_sectorSize, Machine.bind_ok (Streamer.seek_spec hp hs _),
    if_neg (by decide)]

/-- `get_directory_total_items` is the scan that is not stopped before the
positions repeat. -/
theorem getDirectoryTotalItems_eq_within (d : DiskRef) (sector : Word)
    (directory : Option FatDirectory) :
    getDirectoryTotalItems d sector directory
      = getDirectoryTotalItemsWithin (2 ^ 27) d sector directory := rfl

/-- `get_directory_total_items` is a scan from the start sector. -/
theorem getDirectoryTotalItems_eq {k : Kernel} {pd : FatPrivate}
    (hm : Mounted k pd) (sector : ℤ) (directory : Option FatDirectory) :
    ∃ k₁, Quiet k k₁ ∧ k₁.diskStreams pd.directoryReadStream.id
        = some ⟨wrap32 (sector * sectorSize), DiskRef.primary⟩
      ∧ getDirectoryTotalItems DiskRef.primary
        (BitVec.ofInt 32 sector) directory k
        = countItems pd.directoryReadStream directory (2 ^ 27) 0 k₁ := by
  obtain ⟨k₁, hq₁, hs₁, hrun⟩ :=
    getDirectoryTotalItemsWithin_eq hm sector directory
  rw [getDirectoryTotalItems_eq_within]
  exact ⟨k₁, hq₁, hs₁, hrun _⟩

section Stopped

variable {k : Kernel} {pd : FatPrivate} {directory : FatDirectory} {sector : ℤ}
  {rounds : ℕ}

/-- **A scan of a directory whose items have no storage**, when they spare the
heap table and there are rounds for the entries. -/
theorem getDirectoryTotalItemsWithin_spec (hm : Mounted k pd)
    (hitem : directory.item.addr = 0) {entries : List FatDirectoryItem}
    (hentries : Entries IsFree
      (scanned k.sectors (wrap32 (sector * sectorSize))) entries)
    (hspare : SpareTable k.heap 0 (liveItems entries))
    (hrounds : entries.length < rounds) :
    ∃ k', getDirectoryTotalItemsWithin rounds DiskRef.primary
        (BitVec.ofInt 32 sector) (some directory) k
          = Except.ok (((liveItems entries).length : ℤ), k')
      ∧ Stored k k' 0 (liveItems entries) := by
  obtain ⟨k₁, hq₁, hs₁, hscan⟩ :=
    getDirectoryTotalItemsWithin_eq hm sector (some directory)
  rw [← hq₁.sectors] at hentries
  obtain ⟨k₂, hcount, hstored⟩ := countItems_some_spec hentries
    (hq₁.heap ▸ hm.heap.1) hm.directory.1 hs₁ (isInt32_wrap32 _) hrounds hitem
    (hq₁.heap ▸ hspare)
  rw [Nat.zero_add] at hcount
  exact ⟨k₂, (hscan rounds).trans hcount,
    (Stored.of_steady hq₁.toSteady (fun _ => hq₁) 0).trans hstored⟩

/-- **Such a scan, stopped after some entries of the disk**, returns only when
the directory ends within them. -/
theorem getDirectoryTotalItemsWithin_eq_ok (hm : Mounted k pd)
    (hitem : directory.item.addr = 0) (hrounds : rounds ≤ 2 ^ 27)
    (hdisk : ∀ i, i < rounds → ∃ entry,
      scanned k.sectors (wrap32 (sector * sectorSize)) i = some entry)
    {r : ℤ × Kernel}
    (hrun : getDirectoryTotalItemsWithin rounds DiskRef.primary
      (BitVec.ofInt 32 sector) (some directory) k = Except.ok r) :
    ∃ entries, Entries IsFree
        (scanned k.sectors (wrap32 (sector * sectorSize))) entries
      ∧ entries.length < rounds := by
  obtain ⟨k₁, hq₁, hs₁, hscan⟩ :=
    getDirectoryTotalItemsWithin_eq hm sector (some directory)
  rw [← hq₁.sectors] at hdisk ⊢
  exact countItems_within (hq₁.heap ▸ hm.heap.1) hm.directory.1 hs₁
    (isInt32_wrap32 _) hitem hdisk (show 0 + rounds ≤ 2 ^ 27 by omega)
    ((hscan rounds).symm.trans hrun)

end Stopped

/-! ### The root directory, loaded

The items are put below the heap table, from the null pointer on. What a caller
then finds there is compared with the live entries on the disk. -/

/-- The first sector of the root directory. -/
def rootSector (pd : FatPrivate) : ℤ :=
  pd.header.fatCopies.toNat * pd.header.sectorsPerFat.toNat
    + pd.header.reservedSectors.toNat

/-- The position of the root directory. -/
def rootPos (pd : FatPrivate) : ℤ := rootSector pd * sectorSize

/-- The private data with a root directory of `total` items. -/
def withRootDirectory (pd : FatPrivate) (total : ℤ) : FatPrivate :=
  { pd with rootDirectory := { pd.rootDirectory with
      total := total
      sectorPos := rootSector pd
      sectorPosEnd := (BitVec.ofInt 32 (rootSector pd)
        + pd.header.rootDirEntries.setWidth 32 * 32#32
          / BitVec.ofInt 32 sectorSize).toInt } }

/-- **`get_root_directory`**, when the scan returns. It keeps the count and the
place where the directory ends, as computed from the header, in the private
data. -/
theorem getRootDirectory_of_count {k k' : Kernel} {pd : FatPrivate} {ptr : Ptr}
    {total : ℤ} (hptr : ptr.addr ≠ 0) (hpd : k.fatPrivates ptr.id = some pd)
    (hcount : getDirectoryTotalItems DiskRef.primary (BitVec.ofInt 32
      (rootSector pd)) (some pd.rootDirectory) k = Except.ok (total, k'))
    (hnonneg : 0 ≤ total) (hpd' : k'.fatPrivates ptr.id = some pd) :
    getRootDirectory DiskRef.primary ptr k
      = Except.ok (0,
        k'.setFatPrivate ptr.id (some (withRootDirectory pd total))) := by
  unfold rootSector at hcount
  rw [getRootDirectory, Machine.bind_ok (deref_ok hptr hpd)]
  simp only
  rw [Machine.bind_ok hcount, if_neg (Int.not_lt.mpr hnonneg),
    Machine.bind_ok (deref_ok hptr hpd'), Machine.modify_bind]
  rfl

/-- **The root region** of a volume that is being mounted: its entries, all
of them below `2 ^ 31`, and private data as it is then. -/
structure RootRegion (k : Kernel) (pd : FatPrivate)
    (entries : List FatDirectoryItem) : Prop where
  mounted : Mounted k pd
  item_null : pd.rootDirectory.item.addr = 0
  listing : Entries IsFree (fun i =>
    some (entryAt k.sectors (rootPos pd + 32 * i))) entries
  below : rootPos pd + 32 * (entries.length + 1) ≤ 2 ^ 31

/-- `get_root_directory` is right: the total is the number of live entries,
and the items are the live entries. -/
def RootRight (k : Kernel) (entries : List FatDirectoryItem) : Prop :=
  ∃ k' pd', getRootDirectory DiskRef.primary k.disk.fsPrivateData k
    = Except.ok (0, k')
    ∧ k'.fatPrivates k.disk.fsPrivateData.id = some pd'
    ∧ pd'.rootDirectory.total = (liveItems entries).length
    ∧ ∀ i (hi : i < (liveItems entries).length),
      readItem pd'.rootDirectory.item i k'
        = Except.ok ((liveItems entries)[i], k')

/-- **When the code sees to that**: no item lies over the heap table, and where
the last one ends at the table, each clone and then the sector buffer find a
free block. -/
def RootFits (k : Kernel) (entries : List FatDirectoryItem) : Prop :=
  (liveItems entries).length < lowItemsCapacity
    ∨ ((liveItems entries).length = lowItemsCapacity
      ∧ (liveItems entries).length < k.freeBlocks)

theorem rootPos_nonneg (pd : FatPrivate) : 0 ≤ rootPos pd := by
  have := Int.mul_nonneg (Int.natCast_nonneg pd.header.fatCopies.toNat)
    (Int.natCast_nonneg pd.header.sectorsPerFat.toNat)
  unfold rootPos rootSector sectorSize
  omega

/-- The entries of the root region are what the scan goes over. -/
theorem RootRegion.scanned {k : Kernel} {pd : FatPrivate}
    {entries : List FatDirectoryItem} (h : RootRegion k pd entries) :
    Entries IsFree (scanned k.sectors (rootPos pd)) entries :=
  h.listing.congr fun i hi => scanned_eq_entryAt k.sectors
    (rootPos_nonneg pd) (by
      have := h.below
      omega)

/-- **A root directory that fits is loaded right.** With the entries below the
heap table nothing that is read afterwards is written over, and an entry that
finds no block for its clone is put in place all the same. -/
theorem rootRight_of_fits {k : Kernel} {pd : FatPrivate}
    {entries : List FatDirectoryItem} (h : RootRegion k pd entries)
    (hfits : RootFits k entries) : RootRight k entries := by
  have hm := h.mounted
  have hpos : wrap32 (rootSector pd * sectorSize) = rootPos pd := by
    have := rootPos_nonneg pd
    have := h.below
    exact wrap32_of_isInt32 (show IsInt32 (rootPos pd) by unfold IsInt32; omega)
  have hscan := h.scanned
  rw [← hpos] at hscan
  have hspare : SpareTable k.heap 0 (liveItems entries) :=
    spareTable_of_le hm.heap.1 (by
      rcases hfits with hlt | ⟨heq, -⟩ <;> omega)
  obtain ⟨k₂, hcount, hstored⟩ := getDirectoryTotalItemsWithin_spec hm
    h.item_null hscan hspare (entries_length_lt hscan)
  have hpriv : k₂.fatPrivates k.disk.fsPrivateData.id = some pd := by
    rw [hstored.frame.fatPrivates]
    exact hm.privateData
  -- each item is in place
  have hitems : ∀ i (hi : i < (liveItems entries).length),
      lowItem k₂.mem i = (liveItems entries)[i] := fun i hi => by
    have hcap : lowItemsCapacity = 1008 := rfl
    have hquiet : quietItems = 1007 := rfl
    rcases hfits with hlt | ⟨heq, hblocks⟩
    · have hnew := hstored.listed.new i hi (by omega)
      rwa [Nat.zero_add] at hnew
    · have hnew := ((hstored.table hm.heap (by omega)).2.2 hblocks).new i hi
        (by omega)
      rwa [Nat.zero_add] at hnew
  refine ⟨_, _, getRootDirectory_of_count hm.ne_null hm.privateData hcount
    (Int.natCast_nonneg _) hpriv, Function.update_self _ _ _, rfl,
    fun i hi => ?_⟩
  have hnull : (withRootDirectory pd
      ((liveItems entries).length : ℕ)).rootDirectory.item.addr = 0 :=
        h.item_null
  rw [readItem, if_pos hnull, hnull, Machine.get_bind,
    show (0 : Word) + BitVec.ofNat 32 (32 * i) = BitVec.ofNat 32 (32 * i)
      from BitVec.zero_add _]
  exact congrArg (fun item => Except.ok (item, _)) (hitems i hi)

/-! ## Subdirectories

A directory that is a chain of clusters, and what is made of it. -/

/-- **An allocation does the same** on heaps with the same table. So whether
there is room can be asked of the state before a scan, which leaves the table
as it was. -/
theorem allocate_congr {k k' : Kernel} (hk : k.HeapOk)
    (hheap : k'.heap = k.heap) (htable : SameTable k.heap k.mem k'.mem)
    {size : Word} {p : Ptr} {k₁ : Kernel}
    (h : allocate size k = Except.ok (p, k₁)) :
    ∃ q k₁', allocate size k' = Except.ok (q, k₁') ∧ k₁'.heap = k₁.heap
      ∧ SameTable k₁.heap k₁.mem k₁'.mem := by
  obtain ⟨hw, es, hinv⟩ := hk
  have hinv' : Heap.HeapInv k.heap k'.mem es := hinv.congr htable
  obtain ⟨m, hfit, -, rfl⟩ := allocate_run h
  have hsize := Heap.size_lt_of_kzallocFit hfit
  obtain ⟨i, -, hfirst, hinv₁, -⟩ :=
    Heap.kzallocFit_spec hw.toWf hinv hsize hfit
  have hfound : 0 ≤ k.heap.findFirstFitStartBlock k.mem
      (alignToUpper size) := by
    by_contra hneg
    rw [Heap.kzallocFit, if_neg hneg] at hfit
    cases hfit
  obtain ⟨j, m', hrun', hfirst', hinv₁', -⟩ :=
    Heap.kzalloc_spec hw.toWf hinv' hsize
    (by rw [htable.findFirstFitStartBlock]; exact hfound)
  refine ⟨_, _,
    allocate_of_kzallocFit (m := m') (a := k.heap.blockAddress j) (by
      rw [hheap, Heap.kzallocFit, htable.findFirstFitStartBlock, if_pos hfound,
        hrun']), hheap, ?_⟩
  -- the first room is the same, so the tables encode the same extents
  have hsame : ∀ b, b < k.heap.total →
      (k.heap.Free k'.mem b ↔ k.heap.Free k.mem b) :=
    fun b hb => htable.free_iff hb
  have hij : i = j := by
    have hroom : Room (k.heap.Free k'.mem) k.heap.total
        (Heap.blocksFor size) i :=
      ⟨hfirst.1.1, fun b h₁ h₂ =>
        (hsame b (by have := hfirst.1.1; omega)).mpr (hfirst.1.2 b h₁ h₂)⟩
    have hroom' : Room (k.heap.Free k.mem) k.heap.total
        (Heap.blocksFor size) j :=
      ⟨hfirst'.1.1, fun b h₁ h₂ =>
        (hsame b (by have := hfirst'.1.1; omega)).mp (hfirst'.1.2 b h₁ h₂)⟩
    exact Nat.le_antisymm (hfirst.le hroom') (hfirst'.le hroom)
  subst hij
  intro b hb
  exact hinv₁'.entry_eq hinv₁ (fun _ => Iff.rfl) hb

/-- A volume stays mounted when something is allocated. -/
theorem Mounted.allocate {k k' : Kernel} {pd : FatPrivate} (hm : Mounted k pd)
    {size : Word} {p : Ptr} (h : allocate size k = Except.ok (p, k')) :
    Mounted k' pd := by
  obtain ⟨hw, es, hinv⟩ := hm.heap
  obtain ⟨-, ⟨m, rfl⟩, hholds⟩ := allocate_spec h
  obtain ⟨i, -, hes⟩ := hholds es ⟨hw, hinv⟩
  exact ⟨⟨hw, _, hes.2⟩, hm.fs, hm.ne_null, hm.privateData, hm.cluster, hm.fat,
    hm.directory⟩

/-- A volume stays mounted when a directory is put somewhere. -/
theorem Mounted.setFatDirectory {k : Kernel} {pd : FatPrivate}
    (hm : Mounted k pd) (id : ℕ) (v : Option FatDirectory) :
    Mounted (k.setFatDirectory id v) pd :=
  ⟨hm.heap, hm.fs, hm.ne_null, hm.privateData, hm.cluster, hm.fat, hm.directory⟩

/-- A volume stays mounted when an array is put somewhere. -/
theorem Mounted.setItemArray {k : Kernel} {pd : FatPrivate} (hm : Mounted k pd)
    (id : ℕ) (v : Option (List FatDirectoryItem)) :
    Mounted (k.setItemArray id v) pd :=
  ⟨hm.heap, hm.fs, hm.ne_null, hm.privateData, hm.cluster, hm.fat, hm.directory⟩

/-! ### What is loaded

A directory on the disk, what it is to be loaded as, and what the code makes of
it: the count of the scan, and then so many entries from the start of the
chain. -/

open File in
/-- **A subdirectory** of a mounted volume: its chain of clusters, all of it
below `2 ^ 31`, and the entries that the chain holds. -/
structure Subdirectory (k : Kernel) (pd : FatPrivate) (item : FatDirectoryItem)
    (len : ℕ) (c : ℕ → ℤ) (entries : List FatDirectoryItem) : Prop where
  mounted : Mounted k pd
  directory : item.attributeByte &&& fatFileSubdirectory ≠ 0
  cluster_ne_zero : pd.header.sectorsPerCluster ≠ 0
  chain : FatChain (fatEntry k.sectors pd) (getFirstCluster item).toInt len c
  root_nonneg : 0 ≤ pd.rootDirectory.sectorPosEnd
  below : ∀ j, j < len → clusterPos pd (c j) + clusterSizeBytes pd ≤ 2 ^ 31
  listing : Entries IsFree (fun i => some fun j =>
    fileByte k.sectors pd c (32 * i + j)) entries
  inside : 32 * (entries.length + 1) ≤ len * clusterSize pd

/-- `load_directory` is right: the total is the number of live entries, and
the items are the live entries. -/
def LoadRight (k : Kernel) (item : FatDirectoryItem)
    (entries : List FatDirectoryItem) : Prop :=
  ∃ p k' dir, loadDirectory DiskRef.primary item k = Except.ok (p, k')
    ∧ p.addr ≠ 0
    ∧ k'.fatDirectories p.id = some dir ∧ dir.total = (liveItems entries).length
    ∧ ∀ i (hi : i < (liveItems entries).length),
      readItem dir.item i k' = Except.ok ((liveItems entries)[i], k')

/-- The size of the array of a directory, as an `int`. -/
def loadBytes (total : ℕ) : ℤ :=
  (BitVec.ofInt 32 (total * directoryItemSize)).toInt

/-- The heap has room for a directory of `total` items: for its structure, and
for the array. -/
def RoomFor (k : Kernel) (total : ℕ) : Prop :=
  ∃ p k₁ q k₂, allocate 16 k = Except.ok (p, k₁)
    ∧ allocate (BitVec.ofInt 32 (total * directoryItemSize)) k₁
      = Except.ok (q, k₂)

/-- What `load_directory` makes of item `i`: the entry of the first cluster,
deleted or not, or zeros. -/
def loadedItem (k : Kernel) (pd : FatPrivate) (first : ℤ) (total i : ℕ) :
    FatDirectoryItem :=
  if (32 * (i + 1) : ℤ) ≤ min (loadBytes total) (clusterSizeBytes pd) then
    entryAt k.sectors (File.clusterPos pd first + 32 * i)
  else fun _ => 0

section Load

variable {k k' : Kernel} {pd : FatPrivate} {item : FatDirectoryItem} {len : ℕ}
  {c : ℕ → ℤ} {entries : List FatDirectoryItem}

theorem Subdirectory.clusterSizeBytes_pos
    (h : Subdirectory k pd item len c entries) :
    0 < clusterSizeBytes pd :=
  Fat16.clusterSizeBytes_pos h.cluster_ne_zero

/-- The first cluster: where it starts, and where it ends. -/
theorem Subdirectory.first (h : Subdirectory k pd item len c entries) :
    clusterToSector pd (getFirstCluster item).toInt * sectorSize
      = File.clusterPos pd (c 0)
      ∧ 0 ≤ File.clusterPos pd (c 0)
      ∧ File.clusterPos pd (c 0) + clusterSizeBytes pd ≤ 2 ^ 31
      ∧ 2 ≤ (getFirstCluster item).toInt
      ∧ (getFirstCluster item).toInt ≤ 0xFFEF := by
  have hdata := h.chain.data 0 h.chain.pos
  have hbelow := h.below 0 h.chain.pos
  have hpos := h.clusterSizeBytes_pos
  obtain ⟨hsector, hnn⟩ := File.RegularFile.clusterToSector_eq h.root_nonneg
    hdata.1 hdata.2
    (by omega)
  rw [h.chain.first] at hdata hbelow hsector hnn ⊢
  exact ⟨hsector, hnn, hbelow, hdata⟩

theorem Subdirectory.isInt32_first (h : Subdirectory k pd item len c entries) :
    IsInt32 (File.clusterPos pd (c 0)) := by
  obtain ⟨-, hnn, hbelow, -⟩ := h.first
  have hsize := h.clusterSizeBytes_pos
  unfold IsInt32
  omega

/-- The size of an array is a number of items. -/
theorem loadBytes_spec (total : ℕ) :
    ∃ q, loadBytes total = 32 * (total + 134217728 * q)
    ∧ IsInt32 (loadBytes total) := by
  obtain ⟨q, hq, hint⟩ := wrap32_spec (total * directoryItemSize)
  have heq : loadBytes total = wrap32 (total * directoryItemSize) := by
    rw [loadBytes, BitVec.toInt_ofInt]
    rfl
  refine ⟨q, ?_, heq ▸ hint⟩
  rw [heq, hq, directoryItemSize]
  omega

/-- **The second pass** of `load_directory` reads the first cluster. What it
asks for beyond that is read from the first cluster once more, so the entries
there repeat. -/
theorem Subdirectory.readInternal (h : Subdirectory k pd item len c entries)
    {k₁ : Kernel} (hm : Mounted k₁ pd) (hsectors : k₁.sectors = k.sectors)
    (total : ℕ) :
    ∃ out k₂, readInternal k₁.sectors DiskRef.primary
      (getFirstCluster item).toInt 0x00
        (loadBytes total) zeroOutput k₁ = Except.ok ((0, out), k₂) ∧ Quiet k₁ k₂
      ∧ ∀ m i, i < total → itemOf m out i = loadedItem k pd (c 0) total i := by
  obtain ⟨hsector, hnn, hbelow, h₀, h₁⟩ := h.first
  have hsize := h.clusterSizeBytes_pos
  obtain ⟨q, hq, hint⟩ := loadBytes_spec total
  by_cases htotal : loadBytes total ≤ 0
  · refine ⟨zeroOutput, k₁, readInternal_of_nonpos _ hm 0 htotal _,
      Quiet.refl k₁, fun m i hi => ?_⟩
    rw [loadedItem, if_neg (by omega)]
    rfl
  · obtain ⟨k₂, hq₂, hread⟩ := readInternal_spec k₁.sectors hm (by omega)
      (show (0 : ℤ) ≤ (getFirstCluster item).toInt by omega) (by omega) 0
        (loadBytes total) zeroOutput
    have hcluster : clusterAt k₁.sectors pd (getFirstCluster item).toInt 0
        = (getFirstCluster item).toInt := by
      rw [clusterAt, Int.zero_tdiv]
      rfl
    have hstart : startingPos pd (getFirstCluster item).toInt 0
        = File.clusterPos pd (c 0) := by
      rw [startingPos, Int.zero_tmod, Int.add_zero, hsector,
        wrap32_of_isInt32 h.isInt32_first, wrap32_of_isInt32 h.isInt32_first]
    rw [if_neg htotal, hcluster, if_neg (by omega), hstart] at hread
    refine ⟨_, k₂, hread, hq₂, fun m i hi => ?_⟩
    have hspc : clusterSizeBytes pd
        = 32 * (16 * pd.header.sectorsPerCluster.toNat) := by
      unfold clusterSizeBytes sectorSize
      omega
    funext j
    have hj := j.isLt
    rw [itemOf, loadedItem]
    by_cases hin : (32 * (i + 1) : ℤ)
      ≤ min (loadBytes total) (clusterSizeBytes pd)
    · rw [if_pos hin, readOutput, overwrite, if_pos (by omega),
        fetched_of_nonneg _ _ hnn, hsectors, entryAt, Fetched.value,
        wrap32_of_isInt32 (by unfold IsInt32; omega)]
      exact congrArg (diskAt k.sectors) (by push_cast; omega)
    · rw [if_neg hin, readOutput, overwrite, if_neg (by push_cast; omega)]
      rfl

/-- **What `load_directory` does**, when what it scans has an end and there is
room. -/
theorem Subdirectory.load (h : Subdirectory k pd item len c entries)
    {scan : List FatDirectoryItem}
    (hscan : Entries IsFree (scanned k.sectors (File.clusterPos pd (c 0))) scan)
    (hroom : RoomFor k (liveItems scan).length) :
    ∃ p k' q, loadDirectory DiskRef.primary item k = Except.ok (p, k')
      ∧ p.addr ≠ 0
      ∧ k'.fatDirectories p.id = some ⟨q, (liveItems scan).length, 0, 0⟩
      ∧ q.addr ≠ 0
      ∧ k'.itemArrays q.id = some ((List.range (liveItems scan).length).map
        (loadedItem k pd (c 0) (liveItems scan).length)) := by
  have hm := h.mounted
  obtain ⟨hsector, hnn, hbelow, -⟩ := h.first
  have hpos := h.isInt32_first
  generalize htotal : (liveItems scan).length = total at hroom ⊢
  have hlt : total < 2 ^ 27 := htotal ▸
    Nat.lt_of_le_of_lt (length_kept_le scan) (entries_length_lt hscan)
  obtain ⟨p, k₁, q, k₂, halloc, halloc'⟩ := hroom
  have hsectors₁ : k₁.sectors = k.sectors :=
    (OpenFrame.allocate _ _ _ _ halloc).sectors
  -- the scan
  obtain ⟨k₃, hq₃, hs₃, hcount⟩ :=
    getDirectoryTotalItems_eq ((hm.allocate halloc).setFatDirectory
    p.id (some ⟨Ptr.null, 0, 0, 0⟩))
      (clusterToSector pd (getFirstCluster item).toInt) none
  rw [hsector, wrap32_of_isInt32 hpos] at hs₃
  have hscan₃ : Entries IsFree (scanned k₃.sectors (File.clusterPos pd (c 0)))
      scan := by
    rw [show k₃.sectors = k.sectors by rw [hq₃.eq]; exact hsectors₁]
    exact hscan
  have hk₁ := (hm.allocate halloc).heap
  obtain ⟨k₄, hq₄, hrun₄⟩ := countItems_spec hscan₃
    (hq₃.heapOk hk₁) hm.directory.1 hs₃ hpos
    (entries_length_lt hscan₃) 0
  rw [Nat.zero_add, htotal] at hrun₄
  have hq := hq₃.trans hq₄
  -- the array
  obtain ⟨q', k₅, halloc₅, hheap₅, htable₅⟩ :=
    allocate_congr hk₁ hq.heap hq.table halloc'
  have hm₄ : Mounted k₄ pd :=
    ((hm.allocate halloc).setFatDirectory p.id _).quiet hq
  have hm₅ : Mounted ((k₅.setItemArray q'.id (some (List.replicate
      ((BitVec.ofInt 32 (total * directoryItemSize)).toNat / 32) fun _ =>
        0))).setFatDirectory p.id
      (some ⟨q', total, 0, 0⟩)) pd :=
    ((hm₄.allocate halloc₅).setItemArray q'.id _).setFatDirectory p.id _
  have hsectors₅ : k₅.sectors = k.sectors := by
    rw [(OpenFrame.allocate _ _ _ _ halloc₅).sectors, hq.eq]
    exact hsectors₁
  obtain ⟨out, k₆, hread, hq₆, hitems⟩ := h.readInternal hm₅ hsectors₅ total
  unfold loadBytes at hread
  have hdiv : (BitVec.ofInt 32 (total * directoryItemSize)).toNat / 32
      = total := by
    rw [BitVec.toNat_ofInt, directoryItemSize]
    omega
  have hlist : itemsOf k₆.mem out total
      = (List.range total).map (loadedItem k pd (c 0) total) :=
    List.map_congr_left fun i hi => hitems _ i (List.mem_range.mp hi)
  refine ⟨p, k₆.setItemArray q'.id
    (some ((List.range total).map (loadedItem k pd (c 0) total))), q', ?_,
    allocate_ne_null hm.heap halloc, ?_, allocate_ne_null hm₄.heap halloc₅,
    Function.update_self _ _ _⟩
  · rw [loadDirectory, if_neg h.directory, Machine.bind_ok (privateData_ok hm),
      Machine.bind_ok halloc, Machine.modify_bind]
    simp only
    rw [Machine.bind_ok (hcount.trans hrun₄), Machine.bind_ok halloc₅,
      Machine.modify_bind, Machine.modify_bind, Machine.get_bind,
      Machine.bind_ok hread]
    simp only [Int.lt_irrefl, if_false, hdiv]
    rw [Machine.get_bind, hlist]
    rfl
  · show k₆.fatDirectories p.id = _
    rw [hq₆.eq]
    exact Function.update_self _ _ _

/-- **A run of `load_directory`** over a listing has found room. The structure
and the array are its two allocations, and it does not return unless both find
their blocks. -/
theorem Subdirectory.room_of_load (h : Subdirectory k pd item len c entries)
    {scan : List FatDirectoryItem}
    (hscan : Entries IsFree (scanned k.sectors (File.clusterPos pd (c 0))) scan)
    {r : Ptr} (hrun : loadDirectory DiskRef.primary item k
      = Except.ok (r, k')) :
    RoomFor k (liveItems scan).length := by
  have hm := h.mounted
  obtain ⟨hsector, -⟩ := h.first
  have hpos := h.isInt32_first
  rw [loadDirectory, if_neg h.directory,
    Machine.bind_ok (privateData_ok hm)] at hrun
  obtain ⟨p, k₁, halloc, hrun⟩ := Machine.bind_eq_ok.mp hrun
  rw [Machine.modify_bind] at hrun
  have hm₁ := (hm.allocate halloc).setFatDirectory p.id
    (some ⟨Ptr.null, 0, 0, 0⟩)
  have hsectors₁ : k₁.sectors = k.sectors :=
    (OpenFrame.allocate _ _ _ _ halloc).sectors
  -- the scan
  obtain ⟨k₃, hq₃, hs₃, htotal⟩ := getDirectoryTotalItems_eq hm₁
    (clusterToSector pd (getFirstCluster item).toInt) none
  rw [hsector, wrap32_of_isInt32 hpos] at hs₃
  have hscan₃ : Entries IsFree (scanned k₃.sectors (File.clusterPos pd (c 0)))
      scan := by
    rw [show k₃.sectors = k.sectors by rw [hq₃.eq]; exact hsectors₁]
    exact hscan
  obtain ⟨k₄, hq₄, hcount⟩ := countItems_spec hscan₃ (hq₃.heapOk hm₁.heap)
    hm.directory.1
    hs₃ hpos (entries_length_lt hscan₃) 0
  rw [Nat.zero_add] at hcount
  rw [Machine.bind_ok (htotal.trans hcount)] at hrun
  obtain ⟨q, k₅, halloc', -⟩ := Machine.bind_eq_ok.mp hrun
  -- the array would have been had before the scan as well
  have hq := hq₃.trans hq₄
  obtain ⟨q', k₅', halloc'', -⟩ :=
    allocate_congr (hq.heapOk hm₁.heap) (show k₁.heap = k₄.heap from
      hq.heap.symm) (by
        rw [hq.heap]
        exact hq.table.symm) halloc'
  exact ⟨p, k₁, q', k₅', halloc, halloc''⟩

/-- An entry of the first cluster. -/
theorem fileByte_first (sectors : ℤ → ℕ → Byte) (pd : FatPrivate) (c : ℕ → ℤ)
    {i : ℕ} (hi : (32 * (i + 1) : ℤ) ≤ clusterSizeBytes pd) :
    (fun j : Fin 32 => File.fileByte sectors pd c (32 * i + j))
      = entryAt sectors (File.clusterPos pd (c 0) + 32 * i) := by
  rw [← File.RegularFile.clusterSize_cast] at hi
  funext j
  have hj := j.isLt
  rw [File.fileByte, File.filePos, entryAt, Nat.div_eq_of_lt (by omega),
    Nat.mod_eq_of_lt (by omega)]
  exact congrArg (diskAt sectors) (by push_cast; omega)

/-- The entries of the directory that are in its first cluster are where the
scan goes. -/
theorem Subdirectory.scanned (h : Subdirectory k pd item len c entries) {i : ℕ}
    (hi : (32 * (i + 1) : ℤ) ≤ clusterSizeBytes pd) :
    scanned k.sectors (File.clusterPos pd (c 0)) i
      = some (fun j : Fin 32 => File.fileByte k.sectors pd c (32 * i + j)) := by
  obtain ⟨-, hnn, hbelow, -⟩ := h.first
  rw [fileByte_first _ _ _ hi, scanned_eq_entryAt _ hnn (by omega)]

/-! ### What fits

The condition under which the two agree. The scan and the chain go over the
same bytes in the first cluster only; behind it the scan must meet no live
entry. -/

/-- **When `load_directory` is right**: no deleted entry stands before a live
one; the live entries fit in one cluster; and what lies after the first cluster
on the disk, if the directory does not end in it, is deleted up to the next
end. -/
structure LoadFits (k : Kernel) (pd : FatPrivate) (c : ℕ → ℤ)
    (entries : List FatDirectoryItem) : Prop where
  ordered : entries.Pairwise fun a b => IsDeleted a → IsDeleted b
  cluster : 32 * (liveItems entries).length ≤ File.clusterSize pd
  after : 32 * entries.length < File.clusterSize pd ∨
    ∃ tail, Entries IsFree
        (Fat16.scanned k.sectors
          (File.clusterPos pd (c 0) + File.clusterSize pd)) tail
      ∧ ∀ a ∈ tail, IsDeleted a

/-- A scan that goes beyond the first cluster has the entries there, and
then what follows on the disk. -/
theorem Subdirectory.scan_split (h : Subdirectory k pd item len c entries)
    {m : ℕ} (hm : (32 * m : ℤ) = clusterSizeBytes pd) (hle : m ≤ entries.length)
    (tail : List FatDirectoryItem) :
    Entries IsFree (Fat16.scanned k.sectors (File.clusterPos pd (c 0)))
      (entries.take m ++ tail)
      ↔ Entries IsFree
          (Fat16.scanned k.sectors
            (File.clusterPos pd (c 0) + File.clusterSize pd)) tail := by
  have htake : (entries.take m).length = m := List.length_take_of_le hle
  have hshift : (fun i => Fat16.scanned k.sectors
    (File.clusterPos pd (c 0)) (i + m))
      = Fat16.scanned k.sectors (File.clusterPos pd (c 0)
        + File.clusterSize pd) := by
    funext i
    rw [Fat16.scanned, Fat16.scanned, File.RegularFile.clusterSize_cast, ← hm]
    exact congrArg (fun p => scannedItem k.sectors (wrap32 p))
      (by push_cast; omega)
  constructor
  · intro hscan
    have hdrop := hscan.drop m (by rw [List.length_append, htake]; omega)
    rwa [hshift, List.drop_left' htake] at hdrop
  · intro htail
    refine Entries.append (fun i hi => ?_)
      (fun a ha => h.listing.not_stop (List.mem_of_mem_take ha))
        (by rwa [htake, hshift])
    rw [htake] at hi
    rw [h.scanned (by omega), List.getElem_take]
    exact h.listing.slot i (by omega)

/-- A cluster is a number of entries. -/
theorem exists_entries_of_cluster (pd : FatPrivate) :
    ∃ m : ℕ, (32 * m : ℤ) = clusterSizeBytes pd := by
  refine ⟨16 * pd.header.sectorsPerCluster.toNat, ?_⟩
  unfold clusterSizeBytes sectorSize
  omega

/-- Items that are loaded from the first cluster are the first entries. -/
theorem Subdirectory.prefix_of_loaded (h : Subdirectory k pd item len c entries)
    (hloaded : ∀ i (hi : i < (liveItems entries).length),
      loadedItem k pd (c 0) (liveItems entries).length i
        = (liveItems entries)[i]) :
    liveItems entries <+: entries
      ∧ 32 * (liveItems entries).length ≤ File.clusterSize pd := by
  have hcast := File.RegularFile.clusterSize_cast pd
  have hle := length_liveItems_le entries
  -- an item from beyond the cluster would be zeros, which is no live entry
  have hfits : ∀ i (hi : i < (liveItems entries).length),
      (32 * (i + 1) : ℤ) ≤ clusterSizeBytes pd
        ∧ (liveItems entries)[i] = entries.get ⟨i, by omega⟩ := fun i hi => by
    have hitem := hloaded i hi
    rw [loadedItem] at hitem
    by_cases hin : (32 * (i + 1) : ℤ)
        ≤ min (loadBytes (liveItems entries).length) (clusterSizeBytes pd)
    · rw [if_pos hin, ← fileByte_first _ _ _ (by omega)] at hitem
      refine ⟨by omega, hitem.symm.trans ?_⟩
      exact Option.some.inj (h.listing.slot i (by omega))
    · rw [if_neg hin] at hitem
      have hlive : (liveItems entries)[i] ∈ entries :=
        List.mem_of_mem_filter (List.getElem_mem hi)
      refine absurd ?_ (h.listing.not_stop hlive)
      rw [← hitem]
      rfl
  constructor
  · exact List.prefix_iff_getElem.mpr ⟨length_kept_le entries, fun i hi =>
      (hfits i hi).2⟩
  · rcases Nat.eq_zero_or_pos (liveItems entries).length with hzero | hpos
    · omega
    · have := (hfits ((liveItems entries).length - 1) (by omega)).1
      omega

/-- The first entries, when they fit in the first cluster, are loaded. -/
theorem Subdirectory.loadedItem_eq (h : Subdirectory k pd item len c entries)
    (hlead : liveItems entries <+: entries)
    (hcluster : 32 * (liveItems entries).length ≤ File.clusterSize pd) {i : ℕ}
    (hi : i < (liveItems entries).length) :
    loadedItem k pd (c 0) (liveItems entries).length i
      = (liveItems entries)[i] := by
  have hcast := File.RegularFile.clusterSize_cast pd
  have hle := length_liveItems_le entries
  have hbounds := clusterSizeBytes_bounds pd
  obtain ⟨r, hr, hint⟩ := loadBytes_spec (liveItems entries).length
  unfold IsInt32 at hint
  have hentry := h.listing.slot i (by omega)
  rw [(List.prefix_iff_getElem.mp hlead).2 i hi, ← Option.some.inj hentry,
    fileByte_first _ _ _ (by omega), loadedItem, if_pos (by omega)]

/-- The scan of a subdirectory that ends in its first cluster goes over its
entries. -/
theorem Subdirectory.scan_of_inside (h : Subdirectory k pd item len c entries)
    (hin : 32 * entries.length < File.clusterSize pd) :
    Entries IsFree (Fat16.scanned k.sectors (File.clusterPos pd (c 0)))
      entries := by
  have hcast := File.RegularFile.clusterSize_cast pd
  obtain ⟨m, hm⟩ := exists_entries_of_cluster pd
  exact h.listing.congr fun i hi => h.scanned (by omega)

/-- **The scan of a subdirectory** whose live entries come first and fit in the
first cluster counts them exactly when it ends in that cluster, or finds deleted
entries only on the disk after it. -/
theorem Subdirectory.scan_live_iff (h : Subdirectory k pd item len c entries)
    (hlead : liveItems entries <+: entries)
    (hcluster : 32 * (liveItems entries).length ≤ File.clusterSize pd) :
    (∃ scan,
      Entries IsFree (Fat16.scanned k.sectors (File.clusterPos pd (c 0))) scan
        ∧ (liveItems scan).length = (liveItems entries).length)
      ↔ 32 * entries.length < File.clusterSize pd ∨
        ∃ tail, Entries IsFree
            (Fat16.scanned k.sectors
              (File.clusterPos pd (c 0) + File.clusterSize pd)) tail
          ∧ ∀ a ∈ tail, IsDeleted a := by
  have hcast := File.RegularFile.clusterSize_cast pd
  obtain ⟨m, hm⟩ := exists_entries_of_cluster pd
  have hkept : kept IsDeleted (entries.take m) = liveItems entries :=
    kept_take_of_prefix hlead (show (liveItems entries).length ≤ m by omega)
  constructor
  · rintro ⟨scan, hscan, hlen⟩
    rcases Nat.lt_or_ge (32 * entries.length) (File.clusterSize pd) with
      hin | hover
    · exact Or.inl hin
    · -- the scan goes on, and finds no live entry
      have htake : scan.take m = entries.take m :=
        h.listing.take_eq hscan m (fun i hi => h.scanned (by omega)) (by omega)
      have hsplit : entries.take m ++ scan.drop m = scan := by
        rw [← htake, List.take_append_drop]
      refine Or.inr ⟨scan.drop m,
        (h.scan_split hm (by omega) _).mp (hsplit.symm ▸ hscan), ?_⟩
      rw [← hsplit, liveItems, kept_append, hkept, List.length_append,
        Nat.add_eq_left, List.length_eq_zero_iff] at hlen
      exact kept_eq_nil_iff.mp hlen
  · rintro (hin | ⟨tail, htail, hdeleted⟩)
    · exact ⟨entries, h.scan_of_inside hin, rfl⟩
    · rcases Nat.lt_or_ge (32 * entries.length) (File.clusterSize pd) with
        hin | hover
      · exact ⟨entries, h.scan_of_inside hin, rfl⟩
      · refine ⟨entries.take m ++ tail,
          (h.scan_split hm (by omega) tail).mpr htail, ?_⟩
        rw [liveItems, kept_append, hkept, kept_eq_nil_iff.mpr hdeleted,
          List.append_nil]

/-- **A subdirectory is loaded right exactly when it fits**, where the heap has
room for it and the scan ends on the disk. The scan counts the live entries
from its first cluster on, and then the first bytes of its chain are taken for
these. -/
theorem loadRight_iff (h : Subdirectory k pd item len c entries)
    (hroom : RoomFor k (liveItems entries).length)
    (hends : ∃ scan, Entries IsFree
      (Fat16.scanned k.sectors (File.clusterPos pd (c 0))) scan) :
    LoadRight k item entries ↔ LoadFits k pd c entries := by
  constructor
  · rintro ⟨p, k', dir, hrun, -, hdir, htotal, hitems⟩
    obtain ⟨scan, hscan⟩ := hends
    obtain ⟨p', k₁, q, hrun', -, hdir', hq, harray⟩ :=
      h.load hscan (h.room_of_load hscan hrun)
    obtain ⟨rfl, rfl⟩ := Prod.mk.inj (Except.ok.inj (hrun.symm.trans hrun'))
    obtain rfl := Option.some.inj (hdir.symm.trans hdir')
    have hlen : (liveItems scan).length = (liveItems entries).length :=
      Int.natCast_inj.mp htotal
    rw [hlen] at harray
    -- each live entry is the loaded one
    have hloaded : ∀ i (hi : i < (liveItems entries).length),
        loadedItem k pd (c 0) (liveItems entries).length i
          = (liveItems entries)[i] := fun i hi => by
      have hread := hitems i hi
      rw [readItem, if_neg hq, Machine.bind_ok (deref_ok hq harray)] at hread
      rw [List.getElem?_map, List.getElem?_range hi] at hread
      exact (Prod.mk.inj (Except.ok.inj hread)).1
    obtain ⟨hlead, hcluster⟩ := h.prefix_of_loaded hloaded
    exact ⟨kept_prefix_iff.mp hlead, hcluster,
      (h.scan_live_iff hlead hcluster).mp ⟨scan, hscan, hlen⟩⟩
  · rintro ⟨hordered, hcluster, hafter⟩
    have hlead := kept_prefix_iff.mpr hordered
    obtain ⟨scan, hscan, hlen⟩ := (h.scan_live_iff hlead hcluster).mpr hafter
    obtain ⟨p, k', q, hrun, hp, hdir, hq, harray⟩ :=
      h.load hscan (by rw [hlen]; exact hroom)
    rw [hlen] at hdir harray
    refine ⟨p, k', _, hrun, hp, hdir, rfl, fun i hi => ?_⟩
    rw [readItem, if_neg hq, Machine.bind_ok (deref_ok hq harray),
      List.getElem?_map, List.getElem?_range hi,
      ← h.loadedItem_eq hlead hcluster hi]
    rfl

end Load

/-- **The two directory loaders.** A root directory that fits is loaded right,
and a subdirectory is loaded right exactly when it fits: for every listing in
the root region, whatever the heap has room for, and for every listing in a
chain of clusters that there is room for and behind whose first cluster a free
entry lies on the disk. -/
theorem directory_loaders_right {k k' : Kernel} {pd pd' : FatPrivate}
    {entries entries' : List FatDirectoryItem} {item : FatDirectoryItem}
    {len : ℕ} {c : ℕ → ℤ} (hroot : RootRegion k pd entries)
    (hsub : Subdirectory k' pd' item len c entries')
    (hroom : RoomFor k' (liveItems entries').length)
    (hends : ∃ scan,
      Entries IsFree (scanned k'.sectors (File.clusterPos pd' (c 0))) scan) :
    (RootFits k entries → RootRight k entries)
      ∧ (LoadRight k' item entries' ↔ LoadFits k' pd' c entries') :=
  ⟨rootRight_of_fits hroot, loadRight_iff hsub hroom hends⟩

/-- Two free blocks are room for a directory of a few items. -/
theorem roomFor_of_freeBlocks {k : Kernel} (hk : k.HeapOk)
    (hfree : 1 < k.freeBlocks) {total : ℕ} (htotal : total * 32 < 4096) :
    RoomFor k total := by
  have hsize : (BitVec.ofInt 32 (total * directoryItemSize)).toNat
      = total * 32 := by
    rw [BitVec.toNat_ofInt, directoryItemSize]
    omega
  obtain ⟨p, k₁, halloc⟩ :=
    allocate_of_free hk (Kernel.hasFreeBlock_iff.mpr (by omega))
    (show (16 : Word).toNat < 4096 by decide)
  obtain ⟨hk₁, hblocks₁⟩ := allocate_freeBlocks hk (by decide) halloc
  have hfree₁ : k₁.HasFreeBlock := Kernel.hasFreeBlock_iff.mpr (by omega)
  obtain ⟨q, k₂, halloc'⟩ := allocate_of_free hk₁ hfree₁
    (show (BitVec.ofInt 32 (total * directoryItemSize)).toNat < 4096 by omega)
  exact ⟨p, k₁, q, k₂, halloc, halloc'⟩

/-! ## A directory with a deleted entry

The volume of the file of two clusters, with a directory in those clusters
instead: its first sector holds a deleted entry and a live one. -/

/-- An entry with a first byte, for a file of no clusters. -/
def plainEntry (first : Byte) : FatDirectoryItem :=
  fun i => if i = 0 then first else 0

/-- The directory's own entry: first cluster 2. -/
def pairDirectory : FatDirectoryItem := fun i =>
  if i = 0 then 0x44#8 else if i = 11 then fatFileSubdirectory
    else if i = 26 then 2 else 0

/-- The sectors, with two entries in cluster 2. -/
def pairSectors (first second : Byte) (lba : ℤ) (i : ℕ) : Byte :=
  if lba = 3 then if i = 0 then first else if i = 32 then second else 0
  else File.twoClusterSectors lba i

/-- The kernel with that disk. -/
def pairKernel (first second : Byte) : Kernel :=
  { File.twoClusterKernel with sectors := pairSectors first second }

theorem pairSectors_of_ne (first second : Byte) {lba : ℤ} (h : lba ≠ 3) :
    pairSectors first second lba = File.twoClusterSectors lba :=
  funext fun _ => if_neg h

theorem pairKernel_subdirectory (first second : Byte)
    {entries : List FatDirectoryItem}
    (hlisting : Entries IsFree (fun i => some fun j : Fin 32 =>
      File.fileByte (pairSectors first second) File.twoClusterPrivate
        File.twoClusterChain (32 * i + j)) entries)
    (hinside : 32 * (entries.length + 1)
      ≤ 2 * File.clusterSize File.twoClusterPrivate) :
    Subdirectory (pairKernel first second) File.twoClusterPrivate
      pairDirectory 2
      File.twoClusterChain entries where
  mounted :=
    have hm := File.twoCluster_regularFile.mounted
    ⟨hm.heap, hm.fs, hm.ne_null, hm.privateData, hm.cluster, hm.fat,
      hm.directory⟩
  directory := by decide
  cluster_ne_zero := by decide
  chain := ⟨by decide, by decide, fun j hj => by
    obtain rfl : j = 0 := by omega
    rfl, by
    have heq : fatEntry (pairSectors first second) File.twoClusterPrivate
        (File.twoClusterChain (2 - 1)) = fatEntry File.twoClusterSectors
        File.twoClusterPrivate (File.twoClusterChain (2 - 1)) := by
      unfold fatEntry diskAt
      rw [pairSectors_of_ne _ _ (by decide), pairSectors_of_ne _ _ (by decide)]
    show 0xFFF8 ≤ fatEntry (pairSectors first second) _ _
    rw [heq]
    exact File.twoCluster_regularFile.chain.last, by decide⟩
  root_nonneg := by decide
  below := by decide
  listing := hlisting
  inside := hinside

theorem pair_subdirectory (first second : Byte) (hfirst : first ≠ 0)
    (hsecond : second ≠ 0) :
    Subdirectory (pairKernel first second) File.twoClusterPrivate
      pairDirectory 2
      File.twoClusterChain [plainEntry first, plainEntry second] := by
  refine pairKernel_subdirectory first second
    (Entries.next (congrArg some (funext fun j => ?_)) hfirst
      (Entries.next (congrArg some (funext fun j => ?_)) hsecond
        (Entries.last rfl rfl)))
    (show 32 * (2 + 1) ≤ 2 * File.clusterSize File.twoClusterPrivate by decide)
  · fin_cases j <;> rfl
  · fin_cases j <;> rfl

/-- The theorem on the root directory of the volume of two clusters, and on a
subdirectory whose deleted entry is the last. -/
theorem directory_loaders_right_deleted_last :
    RootRight File.twoClusterKernel [File.twoClusterItem]
      ∧ LoadRight (pairKernel 0x42#8 0xE5#8) pairDirectory
          [plainEntry 0x42#8, plainEntry 0xE5#8] := by
  have hroot : RootRegion File.twoClusterKernel File.twoClusterPrivate
      [File.twoClusterItem] :=
    ⟨File.twoCluster_regularFile.mounted, rfl,
      Entries.next (congrArg some (funext (by decide +kernel)))
        (by decide +kernel)
        (Entries.last rfl (by decide +kernel)), by
      rw [show rootPos File.twoClusterPrivate = 1024 from rfl,
        List.length_singleton]
      omega⟩
  have hsub := pair_subdirectory 0x42#8 0xE5#8 (by decide) (by decide)
  have hlive : (liveItems [plainEntry 0x42#8, plainEntry 0xE5#8]).length
    = 1 := by decide
  have hroom : RoomFor (pairKernel 0x42#8 0xE5#8)
      (liveItems [plainEntry 0x42#8, plainEntry 0xE5#8]).length := by
    rw [hlive]
    exact roomFor_of_freeBlocks hsub.mounted.heap
      (by decide +kernel) (by decide)
  obtain ⟨hr, hl⟩ := directory_loaders_right hroot hsub hroom
    ⟨_, hsub.scan_of_inside (by decide)⟩
  exact ⟨hr (Or.inl (by decide)),
    hl.mpr ⟨by decide, by decide, Or.inl (by decide)⟩⟩

/-- A subdirectory whose deleted entry is the first is not loaded right, with
room on the heap. -/
theorem deleted_entry_is_listed :
    Subdirectory (pairKernel 0xE5#8 0x42#8) File.twoClusterPrivate
      pairDirectory 2
        File.twoClusterChain [plainEntry 0xE5#8, plainEntry 0x42#8]
      ∧ RoomFor (pairKernel 0xE5#8 0x42#8) 1
      ∧ ¬ LoadRight (pairKernel 0xE5#8 0x42#8) pairDirectory
          [plainEntry 0xE5#8, plainEntry 0x42#8] := by
  have hsub := pair_subdirectory 0xE5#8 0x42#8 (by decide) (by decide)
  have hlive : (liveItems [plainEntry 0xE5#8, plainEntry 0x42#8]).length
    = 1 := by decide
  have hroom : RoomFor (pairKernel 0xE5#8 0x42#8) 1 :=
    roomFor_of_freeBlocks hsub.mounted.heap (by decide +kernel) (by decide)
  refine ⟨hsub, hroom, fun hright => ?_⟩
  have hfits := (loadRight_iff hsub (by rw [hlive]; exact hroom)
    ⟨_, hsub.scan_of_inside (by decide)⟩).mp hright
  exact absurd hfits.ordered (by decide)

end Fat16

end N00bOS
