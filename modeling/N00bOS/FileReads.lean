import N00bOS.OpenFiles

/-!
# What a read returns

A file is the concatenation of the clusters of its chain (`FatChain`,
`fileByte`). `fat16_read` returns the file's bytes exactly when its loop needs
no second round and does not run over the end of a cluster that is not followed
on the disk by the file's next one – or when the bytes happen to be the same
anyway. `fat16_read_returns_file_bytes_iff` is that condition, and
`ReadMeetsFile.of_one_cluster` the part of it a caller can see to.

The theorem is assembled from what a read leaves in its output
(`RegularFile.read`), which is `readInternal_spec` on a chain that is well
formed: the walk finds the cluster of the position (`FatChain.chase`), and the
read starts at the position's own byte on the disk (`RegularFile.readPos_eq`).
Comparing that output with the file, byte by byte, gives the condition.

No part of it is about the heap: on a full heap the sector buffer is another
page, and the same bytes are read.
-/

namespace N00bOS

open KernelM Fat16

namespace File

/-- **A well-formed chain**: `len` data clusters, each but the last linked to
the next by the FAT, the last marked as such. The clusters are given by a
function, so that byte `t` of the file is in number `t` divided by their size.
-/
structure FatChain (fat : ℤ → ℤ) (first : ℤ) (len : ℕ) (c : ℕ → ℤ) : Prop where
  first : c 0 = first
  pos : 0 < len
  link : ∀ j, j + 1 < len → fat (c j) = c (j + 1)
  last : 0xFFF8 ≤ fat (c (len - 1))
  data : ∀ j, j < len → 2 ≤ c j ∧ c j ≤ 0xFFEF

/-- A walk along a well-formed chain finds its clusters. -/
theorem FatChain.chase {fat : ℤ → ℤ} {first : ℤ} {len : ℕ} {c : ℕ → ℤ}
    (h : FatChain fat first len c) {j : ℕ} (hj : j < len) :
    Fat16.chase fat j first = c j := by
  have hfrom : ∀ n i, i + n < len → Fat16.chase fat n (c i) = c (i + n) := by
    intro n
    induction n with
    | zero => exact fun i _ => rfl
    | succ n ih =>
      intro i hi
      have hdata := h.data (i + 1) (by omega)
      rw [Fat16.chase, h.link i (by omega), if_neg (by omega),
        ih (i + 1) (by omega)]
      exact congrArg c (by omega)
  have h₀ := hfrom j 0 (by omega)
  rwa [h.first, Nat.zero_add] at h₀

/-- A cluster has one chain. -/
theorem FatChain.unique {fat : ℤ → ℤ} {first : ℤ} {len len' : ℕ} {c c' : ℕ → ℤ}
    (h : FatChain fat first len c) (h' : FatChain fat first len' c') :
    len = len' ∧ ∀ j, j < len → c j = c' j := by
  have hsame : ∀ j, j < len → j < len' → c j = c' j := fun j hj hj' =>
    (h.chase hj).symm.trans (h'.chase hj')
  -- the shorter one would end where the other one goes on
  have hle : ∀ {len len' : ℕ} {c c' : ℕ → ℤ}, FatChain fat first len c →
      FatChain fat first len' c' → (∀ j, j < len → j < len' → c j = c' j) →
      len' ≤ len := by
    intro len len' c c' h h' hsame
    by_contra hlt
    have hpos := h.pos
    have hlast := h.last
    have hlink := h'.link (len - 1) (by omega)
    have hdata := h'.data (len - 1 + 1) (by omega)
    rw [hsame (len - 1) (by omega) (by omega)] at hlast
    omega
  have heq : len = len' :=
    Nat.le_antisymm (hle h' h fun j hj' hj => (hsame j hj hj').symm)
    (hle h h' hsame)
  exact ⟨heq, fun j hj => hsame j hj (heq ▸ hj)⟩

/-- The size of a cluster. -/
def clusterSize (pd : FatPrivate) : ℕ := (clusterSizeBytes pd).toNat

/-- The position of the first byte of a cluster. -/
def clusterPos (pd : FatPrivate) (cluster : ℤ) : ℤ :=
  (pd.rootDirectory.sectorPosEnd + (cluster - 2)
    * pd.header.sectorsPerCluster.toNat) * 512

/-- The position of byte `t` of a file with the clusters `c`. -/
def filePos (pd : FatPrivate) (c : ℕ → ℤ) (t : ℕ) : ℤ :=
  clusterPos pd (c (t / clusterSize pd)) + (t % clusterSize pd : ℕ)

/-- **Byte `t` of the file.** It is on the disk where the cluster of the byte
has it, and the cluster is the one that the chain has for it. -/
def fileByte (sectors : ℤ → ℕ → Byte) (pd : FatPrivate) (c : ℕ → ℤ)
    (t : ℕ) : Byte :=
  diskAt sectors (filePos pd c t)

/-- **A regular file on a volume**: an open descriptor, its chain of
clusters, long enough for the file, and all of it below `2 ^ 31`. -/
structure RegularFile (k : Kernel) (pd : FatPrivate) (fd : ℤ) (o : OpenInfo)
    (pos : Word) (len : ℕ) (c : ℕ → ℤ) : Prop where
  mounted : Mounted k pd
  cluster_ne_zero : pd.header.sectorsPerCluster ≠ 0
  openFd : OpenFd k fd o pos
  file : o.fatItem.type = FatItemType.file
  chain : FatChain (fatEntry k.sectors pd) (firstCluster o) len c
  long : o.directoryItem.filesize.toNat ≤ len * clusterSize pd
  small : o.directoryItem.filesize.toNat < 2 ^ 31
  root_nonneg : 0 ≤ pd.rootDirectory.sectorPosEnd
  below : ∀ j, j < len → clusterPos pd (c j) + clusterSizeBytes pd ≤ 2 ^ 31

namespace RegularFile

variable {k : Kernel} {pd : FatPrivate} {fd : ℤ} {o : OpenInfo} {pos : Word}
  {len : ℕ} {c : ℕ → ℤ}

theorem clusterSize_cast (pd : FatPrivate) :
    (clusterSize pd : ℤ) = clusterSizeBytes pd :=
  Int.toNat_of_nonneg (clusterSizeBytes_bounds pd).1

theorem clusterSizeBytes_pos (h : RegularFile k pd fd o pos len c) :
    0 < clusterSizeBytes pd :=
  Fat16.clusterSizeBytes_pos h.cluster_ne_zero

/-- The cluster of a byte of the file is in its chain. -/
theorem div_lt (h : RegularFile k pd fd o pos len c) {t : ℕ}
    (ht : t < o.directoryItem.filesize.toNat) : t / clusterSize pd < len := by
  have hpos := h.clusterSizeBytes_pos
  rw [← clusterSize_cast] at hpos
  rw [Nat.div_lt_iff_lt_mul (by omega)]
  exact Nat.lt_of_lt_of_le ht h.long

/-- A read inside the file starts in the cluster of its position. -/
theorem readCluster_eq (h : RegularFile k pd fd o pos len c)
    (hpos : pos.toNat < o.directoryItem.filesize.toNat) :
    readCluster k pd o pos = c (pos.toNat / clusterSize pd) := by
  have hint : pos.toInt = pos.toNat := BitVec.toInt_eq_toNat_of_lt (by
    have := h.small
    omega)
  have hdiv : (pos.toInt.tdiv (clusterSizeBytes pd)).toNat
      = pos.toNat / clusterSize pd := by
    rw [hint, ← clusterSize_cast,
      Int.tdiv_eq_ediv_of_nonneg (Int.natCast_nonneg _), ← Int.natCast_ediv,
      Int.toNat_natCast]
  rw [readCluster, clusterAt, hdiv]
  exact h.chain.chase (h.div_lt hpos)

/-- The position a cluster starts at, as the code computes it. -/
theorem clusterToSector_eq {a : ℤ} (hpd : 0 ≤ pd.rootDirectory.sectorPosEnd)
    (h₀ : 2 ≤ a) (h₁ : a ≤ 0xFFEF) (hle : clusterPos pd a ≤ 2 ^ 31) :
    clusterToSector pd a * sectorSize = clusterPos pd a
      ∧ 0 ≤ clusterPos pd a := by
  unfold clusterPos at hle ⊢
  obtain ⟨hsector, hnn⟩ := clusterToSector_of_fits h₀ (by omega) hpd (by omega)
  rw [← hsector] at hle ⊢
  exact ⟨rfl, by omega⟩

/-- **A read inside the file starts at its byte's position.** The walk to the
cluster follows the chain, and the position computed from the cluster is below
`2 ^ 31`, so nothing wraps around on the way. -/
theorem readPos_eq (h : RegularFile k pd fd o pos len c)
    (hpos : pos.toNat < o.directoryItem.filesize.toNat) :
    readPos k pd o pos = filePos pd c pos.toNat ∧ 0 ≤ filePos pd c pos.toNat
      ∧ filePos pd c pos.toNat < 2 ^ 31 := by
  have hlen := h.div_lt hpos
  have hdata := h.chain.data _ hlen
  have hbelow := h.below _ hlen
  have hsize := h.clusterSizeBytes_pos
  obtain ⟨hsector, hnn⟩ := clusterToSector_eq h.root_nonneg hdata.1
    hdata.2 (by omega)
  have hmod : pos.toInt.tmod (clusterSizeBytes pd)
      = (pos.toNat % clusterSize pd : ℕ) := by
    rw [BitVec.toInt_eq_toNat_of_lt (by have := h.small; omega),
      ← clusterSize_cast, Int.tmod_eq_emod_of_nonneg (Int.natCast_nonneg _),
      Int.natCast_emod]
  have hlt : ((pos.toNat % clusterSize pd : ℕ) : ℤ) < clusterSizeBytes pd := by
    rw [← clusterSize_cast]
    exact_mod_cast Nat.mod_lt _ (by rw [← clusterSize_cast] at hsize; omega)
  rw [readPos, startingPos, h.readCluster_eq hpos, hmod, hsector, filePos]
  refine ⟨?_, by omega, by omega⟩
  rw [wrap32_of_isInt32
    (show IsInt32 (clusterPos pd _) by unfold IsInt32; omega),
    wrap32_of_isInt32 (by unfold IsInt32; omega)]

/-- Bytes of one cluster lie one after the other. -/
theorem filePos_add (pd : FatPrivate) (c : ℕ → ℤ) {t i : ℕ}
    (hin : t % clusterSize pd + i < clusterSize pd) :
    filePos pd c (t + i) = filePos pd c t + i := by
  have hdiv : (t + i) / clusterSize pd = t / clusterSize pd := by
    have hsplit := Nat.div_add_mod t (clusterSize pd)
    rw [Nat.mul_comm] at hsplit
    rw [Nat.div_eq_iff (by omega)]
    omega
  have hmod : (t + i) % clusterSize pd = t % clusterSize pd + i := by
    rw [Nat.add_mod, Nat.mod_eq_of_lt (show i < clusterSize pd by omega),
      Nat.mod_eq_of_lt hin]
  rw [filePos, filePos, hdiv, hmod]
  omega

end RegularFile

/-- `fat16_read` does what a read of `n` bytes should: it returns `0`, and
the output holds bytes `pos` to `pos + n` of the file. -/
def ReadReturnsFileBytes (k : Kernel) (pd : FatPrivate) (o : OpenInfo)
    (pos : Word) (c : ℕ → ℤ) (blockSize numBlocks : Word) (n : ℕ)
    (out : Output Byte) : Prop :=
  ∃ out' k', fat16Read k.sectors DiskRef.primary o.privateData blockSize
    numBlocks out k
      = Except.ok ((0, out'), k')
    ∧ ∀ i, i < n →
      out' i = Fetched.sector (fileByte k.sectors pd c (pos.toNat + i))

/-- **When a read of `n` bytes does**: what is read beyond the end of the first
cluster is the same on the disk as in the file, and what a second round should
have read is in the output already. The heap does not come into it: on a full
one the sector buffer is the page below the blocks. -/
structure ReadMeetsFile (k : Kernel) (pd : FatPrivate) (pos : Word) (c : ℕ → ℤ)
    (n : ℕ) (out : Output Byte) : Prop where
  adjacent : ∀ i, i < n → i < clusterSize pd →
    clusterSize pd ≤ pos.toNat % clusterSize pd + i →
    diskAt k.sectors (wrap32 (filePos pd c pos.toNat + i))
      = fileByte k.sectors pd c (pos.toNat + i)
  present : ∀ i, i < n → clusterSize pd ≤ i →
    out i = Fetched.sector (fileByte k.sectors pd c (pos.toNat + i))

/-- What a read of a regular file leaves in its output. -/
theorem RegularFile.read {k : Kernel} {pd : FatPrivate} {fd : ℤ} {o : OpenInfo}
    {pos : Word} {len : ℕ} {c : ℕ → ℤ} (h : RegularFile k pd fd o pos len c)
    {blockSize numBlocks : Word} {n : ℕ}
    (hn : blockSize.toNat * numBlocks.toNat = n) (hpos : 0 < n)
    (hend : pos.toNat + n ≤ o.directoryItem.filesize.toNat)
    (out : Output Byte) :
    ∃ k', fat16Read k.sectors DiskRef.primary o.privateData blockSize
      numBlocks out k
      = Except.ok ((0, fun i => if i < min n (clusterSize pd) then
          Fetched.sector
            (diskAt k.sectors (wrap32 (filePos pd c pos.toNat + i)))
        else out i), k') := by
  have hsmall := h.small
  have hspc := h.clusterSizeBytes_pos
  obtain ⟨k', -, hread⟩ := fat16Read_spec k.sectors h.mounted
    (by omega) h.openFd h.file
    blockSize numBlocks out
  have hprod : (blockSize * numBlocks).toInt = n := by
    have hnat : (blockSize * numBlocks).toNat = n := by
      rw [BitVec.toNat_mul, hn, Nat.mod_eq_of_lt (by omega)]
    rw [BitVec.toInt_eq_toNat_of_lt (by omega), hnat]
  obtain ⟨hreadPos, hnn, -⟩ := h.readPos_eq (by omega)
  have hdata := h.chain.data _ (h.div_lt (show pos.toNat < _ by omega))
  refine ⟨k', ?_⟩
  rw [hread, readResult, hprod, if_neg (by omega), h.readCluster_eq (by omega),
    if_neg (by omega), hreadPos]
  refine congrArg (fun r => Except.ok ((0, r), k')) (funext fun i => ?_)
  rw [readOutput, overwrite, ← RegularFile.clusterSize_cast,
    fetched_of_nonneg _ _ hnn]
  exact if_congr (by omega) rfl rfl

/-- **A read returns the file's bytes exactly when its loop could not go
wrong.** For every volume, every regular file with a well-formed chain, every
position `p` and every `n ≥ 1` with `p + n` at most the size of the file. The
first round reads up to a cluster's size of bytes from where the position is,
into the next cluster on the disk; a second round puts the same bytes in the
same place, so those it should have read are wanting. `ReadMeetsFile` says of
both when they do no harm; up to the end of the cluster no read goes wrong. -/
theorem fat16_read_returns_file_bytes_iff {k : Kernel} {pd : FatPrivate}
    {fd : ℤ} {o : OpenInfo} {pos : Word} {len : ℕ} {c : ℕ → ℤ}
    (h : RegularFile k pd fd o pos len c) {blockSize numBlocks : Word} {n : ℕ}
    (hn : blockSize.toNat * numBlocks.toNat = n) (hpos : 0 < n)
    (hend : pos.toNat + n ≤ o.directoryItem.filesize.toNat)
    (out : Output Byte) :
    ReadReturnsFileBytes k pd o pos c blockSize numBlocks n out
      ↔ ReadMeetsFile k pd pos c n out := by
  obtain ⟨k₁, hread⟩ := h.read hn hpos hend out
  constructor
  · rintro ⟨out', k', hrun, hbytes⟩
    rw [hread] at hrun
    obtain ⟨hr, rfl⟩ := Prod.mk.inj (Except.ok.inj hrun)
    obtain rfl := (Prod.mk.inj hr).2
    refine ⟨fun i hi hlt _ => ?_, fun i hi hle => ?_⟩
    · have hbyte := hbytes i hi
      simp only [if_pos (show i < min n (clusterSize pd) by omega)] at hbyte
      exact Fetched.sector.inj hbyte
    · have hbyte := hbytes i hi
      simp only [if_neg (show ¬ i < min n (clusterSize pd) by omega)] at hbyte
      exact hbyte
  · intro hmeets
    refine ⟨_, k₁, hread, fun i hi => ?_⟩
    by_cases hlt : i < clusterSize pd
    · simp only [if_pos (show i < min n (clusterSize pd) by omega)]
      by_cases hin : pos.toNat % clusterSize pd + i < clusterSize pd
      · -- still in the first cluster
        have hbelow := h.below _ (h.div_lt (show pos.toNat + i < _ by omega))
        have hadd := RegularFile.filePos_add pd c hin
        have hlast : filePos pd c (pos.toNat + i) < 2 ^ 31 := by
          have hmod := Nat.mod_lt (pos.toNat + i)
            (show 0 < clusterSize pd by omega)
          rw [← RegularFile.clusterSize_cast] at hbelow
          rw [filePos]
          omega
        obtain ⟨-, hnn, -⟩ := h.readPos_eq (show pos.toNat < _ by omega)
        rw [fileByte, ← hadd, wrap32_of_isInt32 (by unfold IsInt32; omega)]
      · rw [hmeets.adjacent i hi hlt (by omega)]
    · simp only [if_neg (show ¬ i < min n (clusterSize pd) by omega)]
      exact hmeets.present i hi (by omega)

/-- A read that stays in one cluster returns the file's bytes. -/
theorem ReadMeetsFile.of_one_cluster {k : Kernel} {pd : FatPrivate} {pos : Word}
    {c : ℕ → ℤ} {n : ℕ} (hin : pos.toNat % clusterSize pd + n ≤ clusterSize pd)
    (out : Output Byte) :
    ReadMeetsFile k pd pos c n out :=
  ⟨fun i hi _ hout => absurd hout (by omega), fun i hi hle =>
    absurd hle (by omega)⟩

/-! ## A file of two clusters

The clusters 2 and 4 of a volume with one sector to a cluster; cluster 3,
between them on the disk, belongs to no file. This volume is the one that the
concrete runs of other modules are on. -/

/-- A heap of 16 blocks, the first eight of them taken, one block each. -/
def twoClusterHeap : HeapConfig where
  totalBlocks := 16
  heapAddress := heapAddress
  heapTableAddress := heapTableAddress
  size_lt := by decide
  aligned := kernelHeapConfig.aligned
  data_le := by decide
  table_le := by decide
  apart := by decide

/-- The allocations: private data, three streams, the descriptor, its private
data, its item and the item's directory entry. -/
def twoClusterExtents : List Extent :=
  [⟨0, 1⟩, ⟨1, 1⟩, ⟨2, 1⟩, ⟨3, 1⟩, ⟨4, 1⟩, ⟨5, 1⟩, ⟨6, 1⟩, ⟨7, 1⟩]

/-- The pointer to the allocation of block `i`. -/
def twoClusterPtr (i : ℕ) : Ptr := ⟨twoClusterHeap.heap.blockAddress i, i + 1⟩

/-- The directory entry, of `A`: first cluster 2, 1024 bytes. -/
def twoClusterItem : FatDirectoryItem := fun i =>
  if i = 0 then 0x41#8 else if i = 26 then 2 else if i = 29 then 4 else 0

/-- The sectors: the FAT in sector 1, the root directory in sector 2, cluster
2 in sector 3 and cluster 4, of sevens, in sector 5. -/
def twoClusterSectors (lba : ℤ) (i : ℕ) : Byte :=
  if lba = 1 then [0, 0, 0, 0, 4, 0, 0, 0, 0xFF#8, 0xFF#8].getD i 0
  else if lba = 2 then if h : i < 32 then twoClusterItem ⟨i, h⟩ else 0
  else if lba = 5 then 7
  else 0

/-- The volume's private data. -/
def twoClusterPrivate : FatPrivate where
  header := ⟨1, 1, 1, 16, 1, fat16Signature⟩
  rootDirectory := ⟨Ptr.null, 1, 2, 3⟩
  clusterReadStream := twoClusterPtr 1
  fatReadStream := twoClusterPtr 2
  directoryReadStream := twoClusterPtr 3

/-- The kernel with the file open in descriptor 0. -/
def twoClusterKernel : Kernel where
  heap := twoClusterHeap.heap
  mem := storeItem (fun a => if (a - heapTableAddress).toNat < 8 then 1
    else 0) 0 twoClusterItem
  nextId := 9
  sectors := twoClusterSectors
  disk := ⟨FilesystemRef.fat16, twoClusterPtr 0⟩
  fileDescriptors := fun i => if i = 0 then twoClusterPtr 4 else Ptr.null
  diskStreams := fun id =>
    if id = 2 ∨ id = 3 ∨ id = 4 then some ⟨0, DiskRef.primary⟩ else none
  fatPrivates := fun id => if id = 1 then some twoClusterPrivate else none
  fatDirectories := fun _ => none
  itemArrays := fun id => if id = 8 then some [twoClusterItem] else none
  fatItems := fun id => if id = 7 then some ⟨twoClusterPtr 7, FatItemType.file⟩
    else none
  fatItemDescriptors := fun id => if id = 6 then some ⟨twoClusterPtr 6, 0⟩
    else none
  fileDescriptorStructs := fun id =>
    if id = 5 then some ⟨0, FilesystemRef.fat16, twoClusterPtr 5,
      DiskRef.primary⟩ else none
  pathRoots := fun _ => none
  strings := fun _ => none

/-- The file. -/
def twoClusterFile : OpenInfo :=
  ⟨twoClusterPtr 5, twoClusterPtr 6, ⟨twoClusterPtr 7, FatItemType.file⟩,
    twoClusterItem⟩

/-- Its chain. -/
def twoClusterChain (j : ℕ) : ℤ := 2 * j + 2

theorem twoClusterKernel_heapOk : twoClusterKernel.HeapOk :=
  ⟨⟨twoClusterHeap.heap_wf, by decide, by decide⟩, twoClusterExtents,
    ⟨⟨by decide, by decide, by decide⟩, by decide⟩⟩

theorem twoCluster_regularFile :
    RegularFile twoClusterKernel twoClusterPrivate 0 twoClusterFile 0
    2 twoClusterChain where
  mounted := ⟨twoClusterKernel_heapOk, rfl, by decide, rfl, ⟨by decide, 0, rfl⟩,
    ⟨by decide, 0, rfl⟩, ⟨by decide, 0, rfl⟩⟩
  cluster_ne_zero := by decide
  openFd := ⟨by decide, by decide, by decide, ⟨0, rfl⟩, by decide,
    rfl, by decide, rfl, fun _ => ⟨by decide, [], rfl⟩⟩
  file := rfl
  chain := ⟨by decide, by decide, fun j hj => by
    obtain rfl : j = 0 := by omega
    decide, by decide, by decide⟩
  long := by decide
  small := by decide
  root_nonneg := by decide
  below := by decide

/-- The theorem on this file, for the 512 bytes of its first cluster. -/
theorem fat16_read_returns_file_bytes_iff_first_cluster :
    ReadReturnsFileBytes twoClusterKernel twoClusterPrivate twoClusterFile 0
      twoClusterChain 1 512
      512 (fun _ => Fetched.sector 0) :=
  (fat16_read_returns_file_bytes_iff twoCluster_regularFile (by decide)
    (by decide) (by decide)
    _).mpr (ReadMeetsFile.of_one_cluster (by decide) _)

/-- A read of 513 bytes from the start of this file does not return the
file's bytes: the last one is never written. -/
theorem read_across_clusters_wrong :
    RegularFile twoClusterKernel twoClusterPrivate 0 twoClusterFile 0 2
      twoClusterChain
      ∧ (0 : Word).toNat + 513 ≤ twoClusterFile.directoryItem.filesize.toNat
      ∧ twoClusterKernel.HasFreeBlock
      ∧ ¬ ReadReturnsFileBytes twoClusterKernel twoClusterPrivate
        twoClusterFile 0
          twoClusterChain 1 513 513 (fun _ => Fetched.sector 0) := by
  refine ⟨twoCluster_regularFile, by decide, ⟨8, by decide, by decide⟩, ?_⟩
  rintro ⟨out', k', hrun, hbytes⟩
  obtain ⟨k₁, hread⟩ := twoCluster_regularFile.read
    (show (1 : Word).toNat * (513 : Word).toNat = 513 by decide)
      (by decide) (by decide)
    (fun _ => Fetched.sector 0)
  rw [hread] at hrun
  obtain rfl := (Prod.mk.inj (Prod.mk.inj (Except.ok.inj hrun)).1).2
  have hlast := hbytes 512 (by decide)
  simp only [if_neg
    (show ¬ 512 < min 513 (clusterSize twoClusterPrivate) by decide)] at hlast
  exact absurd hlast (by decide)

end File

end N00bOS
