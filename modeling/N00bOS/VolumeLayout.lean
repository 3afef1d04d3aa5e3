import N00bOS.FileConfinement
import N00bOS.Resolve
import Mathlib.Data.Set.Disjoint

/-!
# The layout of a volume

A volume is its reserved sectors, the FAT copies, the root directory and then
the clusters. `get_root_directory` computes how many sectors the root directory
has, rounded up, and does not use it: the sector it ends at is rounded down. So
the layout is consistent exactly when the root directory fills whole sectors
(`volume_layout_consistent_iff`).

From the sector of a cluster on, positions are bytes in an `int`. A volume of
FAT16 may be twice as long as that reaches: a byte is found exactly when it
lies below `2 ^ 31` (`cluster_position_exact_iff`).

Regions of the volume are sets of sectors (`sectorsBetween`), and that they do
not meet is arithmetic on where they start: cluster numbers are at least two,
and each cluster starts where the one before it ends (`clusterToSector_lt`).
The numbers are those that the code computes, with its overflows;
`clusterToSector_exact` says that there are none up to the sector.
-/

namespace N00bOS

open KernelM Listing

namespace Fat16

/-! ## Sectors

Where the parts of a volume start, as sectors. -/

/-- The first sector of the root directory, after the FAT copies, is far from
the end of an `int`. -/
theorem rootSector_bounds (pd : FatPrivate) :
    0 ≤ rootSector pd ∧ rootSector pd ≤ 16776960 := by
  have hcopies := pd.header.fatCopies.isLt
  have hsectors := pd.header.sectorsPerFat.isLt
  have hreserved := pd.header.reservedSectors.isLt
  have hmul : pd.header.fatCopies.toNat * pd.header.sectorsPerFat.toNat
      ≤ 255 * 65535 :=
    Nat.mul_le_mul (by omega) (by omega)
  unfold rootSector
  omega

/-- How many sectors `get_root_directory` gives to the root directory. -/
def rootSectors (pd : FatPrivate) : ℕ :=
  pd.header.rootDirEntries.toNat * 32 / 512

/-- **The end of the root directory**, as `get_root_directory` sets it: its
first sector, and as many as its entries fill, rounded down. -/
theorem withRootDirectory_sectorPosEnd (pd : FatPrivate) (total : ℤ) :
    (withRootDirectory pd total).rootDirectory.sectorPosEnd
      = rootSector pd + rootSectors pd := by
  have hentries := pd.header.rootDirEntries.isLt
  obtain ⟨hlo, hhi⟩ := rootSector_bounds pd
  obtain ⟨first, hfirst⟩ := Int.eq_ofNat_of_zero_le hlo
  have hsize : (pd.header.rootDirEntries.setWidth 32 * 32#32
    / BitVec.ofInt 32 sectorSize).toNat
      = rootSectors pd := by
    rw [BitVec.toNat_udiv, BitVec.toNat_mul, BitVec.toNat_setWidth, rootSectors]
    show pd.header.rootDirEntries.toNat % 2 ^ 32 * 32 % 2 ^ 32 / 512 = _
    omega
  have hsum : (BitVec.ofInt 32 (rootSector pd)
    + pd.header.rootDirEntries.setWidth 32 * 32#32
      / BitVec.ofInt 32 sectorSize).toNat = first + rootSectors pd := by
    rw [BitVec.toNat_add, hsize, hfirst, BitVec.ofInt_natCast,
      BitVec.toNat_ofNat]
    unfold rootSectors
    omega
  show (BitVec.ofInt 32 (rootSector pd)
    + pd.header.rootDirEntries.setWidth 32 * 32#32
    / BitVec.ofInt 32 sectorSize).toInt = _
  rw [BitVec.toInt_eq_toNat_of_lt (by rw [hsum]; unfold rootSectors; omega),
    hsum, hfirst]
  exact Int.natCast_add _ _

/-- The numbers a FAT of 16 bits can give to a cluster of data. -/
def IsCluster (cluster : ℤ) : Prop := 2 ≤ cluster ∧ cluster ≤ 0xFFFF

/-- The sectors from one on, up to another. -/
def sectorsBetween (first last : ℤ) :
    Set ℤ := {sector | first ≤ sector ∧ sector < last}

/-- The sectors of a cluster. -/
def clusterSectors (pd : FatPrivate) (cluster : ℤ) : Set ℤ :=
  sectorsBetween (clusterToSector pd cluster)
    (clusterToSector pd cluster + pd.header.sectorsPerCluster.toNat)

/-- The sectors that the bytes of the root directory are in. -/
def rootRegion (pd : FatPrivate) : Set ℤ :=
  {sector | ∃ byte : ℕ, byte < pd.header.rootDirEntries.toNat * 32
    ∧ sector = pd.rootDirectory.sectorPos + (byte / 512 : ℕ)}

/-- **A consistent layout**: the root directory starts right after the FAT
copies and lies inside its sectors, cluster 2 comes next, and no sector belongs
to two clusters, or to a cluster and the root directory. -/
structure ConsistentLayout (pd : FatPrivate) : Prop where
  start : pd.rootDirectory.sectorPos = pd.header.reservedSectors.toNat
    + pd.header.fatCopies.toNat * pd.header.sectorsPerFat.toNat
  inside : rootRegion pd
    ⊆ sectorsBetween pd.rootDirectory.sectorPos pd.rootDirectory.sectorPosEnd
  first : clusterToSector pd 2 = pd.rootDirectory.sectorPosEnd
  apart : ∀ c c', IsCluster c → IsCluster c' → c ≠ c' →
    Disjoint (clusterSectors pd c) (clusterSectors pd c')
  root : ∀ c, IsCluster c → Disjoint (clusterSectors pd c) (rootRegion pd)

/-- The sector of a cluster does not wrap. A cluster is a number of 16 bits and
has less than 256 sectors, so there is room in an `int` for the sector. -/
theorem clusterToSector_exact {pd : FatPrivate} {cluster : ℤ}
    (hroot : 0 ≤ pd.rootDirectory.sectorPosEnd)
    (hend : pd.rootDirectory.sectorPosEnd < 2 ^ 30) (h : IsCluster cluster) :
    clusterToSector pd cluster = pd.rootDirectory.sectorPosEnd
      + (cluster - 2) * pd.header.sectorsPerCluster.toNat := by
  obtain ⟨h₀, h₁⟩ := h
  have hspc := pd.header.sectorsPerCluster.isLt
  have hmul : (cluster - 2) * pd.header.sectorsPerCluster.toNat
      ≤ 0xFFFF * 255 :=
    Int.mul_le_mul (by omega) (by omega) (Int.natCast_nonneg _) (by omega)
  exact (clusterToSector_of_fits h₀ (by omega) hroot (by omega)).1

/-- The clusters come one after the other. -/
theorem clusterToSector_lt {pd : FatPrivate} {c c' : ℤ}
    (hroot : 0 ≤ pd.rootDirectory.sectorPosEnd)
    (hend : pd.rootDirectory.sectorPosEnd < 2 ^ 30) (hc : IsCluster c)
    (hc' : IsCluster c') (hlt : c < c') :
    clusterToSector pd c + pd.header.sectorsPerCluster.toNat
      ≤ clusterToSector pd c' := by
  have hmul : (c + 1 - 2) * (pd.header.sectorsPerCluster.toNat : ℤ)
      ≤ (c' - 2) * pd.header.sectorsPerCluster.toNat :=
    Int.mul_le_mul_of_nonneg_right (by omega) (Int.natCast_nonneg _)
  rw [clusterToSector_exact hroot hend hc, clusterToSector_exact hroot hend hc']
  have hnext : (c + 1 - 2) * (pd.header.sectorsPerCluster.toNat : ℤ)
      = (c - 2) * pd.header.sectorsPerCluster.toNat
        + pd.header.sectorsPerCluster.toNat := by
    ring
  omega

/-- **The layout that `get_root_directory` leaves** is consistent exactly when
the root directory fills whole sectors. -/
theorem consistentLayout_iff (pd : FatPrivate) (total : ℤ) :
    ConsistentLayout (withRootDirectory pd total)
      ↔ pd.header.rootDirEntries.toNat % 16 = 0 := by
  obtain ⟨hlo, hhi⟩ := rootSector_bounds pd
  have hentries := pd.header.rootDirEntries.isLt
  have hposEnd := withRootDirectory_sectorPosEnd pd total
  have hpos : (withRootDirectory pd total).rootDirectory.sectorPos
    = rootSector pd := rfl
  have hheader : (withRootDirectory pd total).header = pd.header := rfl
  have hroot : 0 ≤ (withRootDirectory pd total).rootDirectory.sectorPosEnd := by
    omega
  have hend : (withRootDirectory pd total).rootDirectory.sectorPosEnd
      < 2 ^ 30 := by
    unfold rootSectors at hposEnd
    omega
  have htwo : IsCluster 2 := by
    unfold IsCluster
    omega
  constructor
  · -- the last byte of the root directory is in the last of its sectors
    intro h
    by_contra hne
    have hlast : rootSector pd
      + ((pd.header.rootDirEntries.toNat * 32 - 1) / 512 : ℕ)
        ∈ rootRegion (withRootDirectory pd total) :=
      ⟨pd.header.rootDirEntries.toNat * 32 - 1, by rw [hheader]; omega, rfl⟩
    have hlt := (h.inside hlast).2
    rw [hposEnd, rootSectors] at hlt
    omega
  · intro hwhole
    have hinside : rootRegion (withRootDirectory pd total)
        ⊆ sectorsBetween (rootSector pd) (rootSector pd + rootSectors pd) := by
      rintro sector ⟨byte, hbyte, rfl⟩
      rw [hheader] at hbyte
      have hlt : byte / 512 < rootSectors pd := by
        unfold rootSectors
        omega
      rw [hpos]
      exact ⟨by omega, by omega⟩
    refine ⟨?_, ?_, ?_, fun c c' hc hc' hne => ?_, fun c hc => ?_⟩
    · rw [hpos, rootSector, Int.add_comm]
      rfl
    · rw [hpos, hposEnd]
      exact hinside
    · rw [clusterToSector_exact hroot hend htwo, Int.sub_self, Int.zero_mul,
        Int.add_zero]
    · rw [clusterSectors, clusterSectors, Set.disjoint_left]
      rintro sector ⟨h₁, h₂⟩ ⟨h₁', h₂'⟩
      rcases Int.lt_or_gt_of_ne hne with hlt | hlt
      · have := clusterToSector_lt hroot hend hc hc' hlt
        omega
      · have := clusterToSector_lt hroot hend hc' hc hlt
        omega
    · rw [Set.disjoint_left]
      rintro sector ⟨h₁, -⟩ hregion
      have hlt := (hinside hregion).2
      rw [clusterToSector_exact hroot hend hc, hposEnd] at h₁
      have hmul : 0
          ≤ (c - 2) * (withRootDirectory pd
            total).header.sectorsPerCluster.toNat :=
        Int.mul_nonneg (by have := hc.1; omega) (Int.natCast_nonneg _)
      omega

/-- **The layout of a volume is consistent exactly when its root directory
fills whole sectors.** For every header, whenever `get_root_directory` returns
`0`. A consistent layout has its regions and all its clusters apart, and each
of them right after the one before. The number of sectors of the root directory
is rounded up, but what is kept is where a directory of a rounded-down number
ends; cluster 2 starts there. -/
theorem volume_layout_consistent_iff {k k' : Kernel} {d : DiskRef} {ptr : Ptr}
    {pd : FatPrivate} (hpd : k.fatPrivates ptr.id = some pd)
    (hrun : getRootDirectory d ptr k = Except.ok (0, k')) :
    ∃ pd', k'.fatPrivates ptr.id = some pd' ∧ pd'.header = pd.header
      ∧ (ConsistentLayout pd' ↔ pd.header.rootDirEntries.toNat % 16 = 0) := by
  obtain ⟨-, total, hpd'⟩ := getRootDirectory_eq_ok hpd hrun
  exact ⟨_, hpd', rfl, consistentLayout_iff pd total⟩

/-! ### Empty volumes

The volume of the file of two clusters, with zeros for sectors and with the
sizes of any header. -/

/-- The private data of an empty volume. -/
def emptyPrivate (header : FatHeader) : FatPrivate :=
  { File.twoClusterPrivate with header := header }

/-- The kernel with that volume. -/
def emptyVolume (header : FatHeader) : Kernel :=
  { File.twoClusterKernel with
    sectors := fun _ _ => 0
    fatPrivates := fun id => if id = 1 then some (emptyPrivate header)
      else none }

theorem emptyVolume_mounted (header : FatHeader) :
    Mounted (emptyVolume header) (emptyPrivate header) :=
  have hm := File.twoCluster_regularFile.mounted
  ⟨hm.heap, hm.fs, hm.ne_null, rfl, hm.cluster, hm.fat, hm.directory⟩

/-- The root directory of an empty volume has no entries, wherever it is. -/
theorem emptyVolume_entries (header : FatHeader) : Entries IsFree
    (scanned (emptyVolume header).sectors
      (wrap32 (rootSector (emptyPrivate header) * sectorSize)))
    [] := by
  obtain ⟨q, hq, hint⟩ :=
    wrap32_spec (rootSector (emptyPrivate header) * sectorSize)
  generalize wrap32 (rootSector (emptyPrivate header) * sectorSize)
    = pos at hq hint
  unfold sectorSize at hq
  refine Entries.last ?_
    (show IsFree (entryAt (emptyVolume header).sectors pos) from rfl)
  rw [scanned_zero _ hint, scannedItem_of_aligned _ hint (by omega)]

/-- **Its root directory is loaded**, whatever the header says. All sectors are
zeros, so it ends at its first entry. -/
theorem emptyVolume_getRootDirectory (header : FatHeader) :
    ∃ k', getRootDirectory DiskRef.primary (File.twoClusterPtr 0)
      (emptyVolume header)
      = Except.ok (0, k') :=
  getRootDirectory_returns (emptyVolume_mounted header) rfl
    (emptyVolume_entries header)
    (spareTable_of_quiet (emptyVolume_mounted header).heap.1 (Nat.zero_le _))

/-- The theorem on a volume with 16 entries in its root directory. -/
theorem volume_layout_consistent_iff_sixteen_entries :
    ∃ k' pd', getRootDirectory DiskRef.primary (File.twoClusterPtr 0)
        (emptyVolume ⟨1, 1, 1, 16, 1, fat16Signature⟩) = Except.ok (0, k')
      ∧ k'.fatPrivates (File.twoClusterPtr 0).id = some pd'
      ∧ ConsistentLayout pd' := by
  obtain ⟨k', hrun⟩ := emptyVolume_getRootDirectory
    ⟨1, 1, 1, 16, 1, fat16Signature⟩
  obtain ⟨pd', hpd', -, hiff⟩ := volume_layout_consistent_iff rfl hrun
  exact ⟨k', pd', hrun, hpd', hiff.mpr rfl⟩

/-- A volume with one entry in its root directory, and one sector to a cluster:
the entry is in the first sector of cluster 2. -/
theorem root_directory_inside_cluster :
    ∃ k' pd', getRootDirectory DiskRef.primary (File.twoClusterPtr 0)
        (emptyVolume ⟨1, 1, 1, 1, 1, fat16Signature⟩) = Except.ok (0, k')
      ∧ k'.fatPrivates (File.twoClusterPtr 0).id = some pd'
      ∧ 1 ≤ pd'.header.sectorsPerCluster.toNat ∧ ¬ ConsistentLayout pd' := by
  obtain ⟨k', hrun⟩ := emptyVolume_getRootDirectory
    ⟨1, 1, 1, 1, 1, fat16Signature⟩
  obtain ⟨-, total, hpd'⟩ := getRootDirectory_eq_ok rfl hrun
  refine ⟨k', _, hrun, hpd', Nat.le_refl 1, fun h => ?_⟩
  exact absurd ((consistentLayout_iff _ total).mp h) (by decide)

/-! ## Positions

Sectors become bytes: a product, a sum and, in the streamer, a division, each
of them on an `int`. -/

/-- The sector of a byte of a cluster, counted in numbers without an end. -/
def byteSector (pd : FatPrivate) (cluster offset : ℤ) : ℤ :=
  pd.rootDirectory.sectorPosEnd + (cluster - 2)
    * pd.header.sectorsPerCluster.toNat + offset / 512

/-- **The position of a byte is exact**: on the way to it no operation on an
`int` overflows, and a read from there starts with that byte of the disk, in a
sector that is not negative. -/
structure PositionExact (k : Kernel) (pd : FatPrivate)
    (s offset total cluster : ℤ) : Prop where
  data : IsInt32 (cluster - 2)
  sectors : IsInt32 ((cluster - 2) * pd.header.sectorsPerCluster.toNat)
  sector : IsInt32 (byteSector pd cluster 0)
  bytes : IsInt32 (byteSector pd cluster 0 * sectorSize)
  position : IsInt32
    (byteSector pd cluster 0 * sectorSize + offset % clusterSizeBytes pd)
  nonneg : 0 ≤ byteSector pd cluster (offset % clusterSizeBytes pd)
  lands : ∃ out k',
    readInternal File.places DiskRef.primary s offset total File.untouched k
      = Except.ok ((0, out), k')
    ∧ out 0 = Fetched.sector (some
      (byteSector pd cluster (offset % clusterSizeBytes pd),
        (offset % clusterSizeBytes pd % 512).toNat))

/-- The position that is computed, below `2 ^ 31`. -/
theorem startingPos_exact {pd : FatPrivate} {cluster offset : ℤ}
    (hroot : 0 ≤ pd.rootDirectory.sectorPosEnd) (hspc : clusterSizeBytes pd ≠ 0)
    (h₀ : 2 ≤ cluster) (h₁ : cluster ≤ 0xFFEF) (hoffset : 0 ≤ offset)
    (hlt : File.clusterPos pd cluster + offset % clusterSizeBytes pd < 2 ^ 31) :
    startingPos pd cluster offset
      = File.clusterPos pd cluster + offset % clusterSizeBytes pd
      ∧ 0 ≤ File.clusterPos pd cluster := by
  have hmod := Int.emod_nonneg offset hspc
  obtain ⟨hsector, hnn⟩ := File.RegularFile.clusterToSector_eq hroot h₀
    h₁ (by omega)
  rw [startingPos, hsector, Int.tmod_eq_emod_of_nonneg hoffset,
    wrap32_of_isInt32
      (show IsInt32 (File.clusterPos pd cluster) by unfold IsInt32; omega),
    wrap32_of_isInt32 (by unfold IsInt32; omega)]
  exact ⟨rfl, hnn⟩

/-- **A position is exact exactly below `2 ^ 31`.** For every volume whose
clusters have sectors, every cluster from 2 to `0xFFEF` – reached along a chain
or where a file starts – and every offset in it. The sector of the cluster is
always right; it is multiplied by the size of a sector as an `int`, and the
volumes of FAT16 go further than that. The byte that a read starts with is what
tells a position that has wrapped around. -/
theorem cluster_position_exact_iff {k : Kernel} {pd : FatPrivate}
    (hm : Mounted k pd) (hroot : 0 ≤ pd.rootDirectory.sectorPosEnd)
    (hspc : 1 ≤ pd.header.sectorsPerCluster.toNat) {s offset total cluster : ℤ}
    (hs₀ : 0 ≤ s) (hs₁ : s ≤ 0xFFFF)
    (hfound : clusterAt k.sectors pd s offset = cluster) (h₀ : 2 ≤ cluster)
    (h₁ : cluster ≤ 0xFFEF) (hoffset : 0 ≤ offset) (htotal : 0 < total) :
    PositionExact k pd s offset total cluster
      ↔ (pd.rootDirectory.sectorPosEnd + (cluster - 2)
        * pd.header.sectorsPerCluster.toNat) * 512
          + offset % clusterSizeBytes pd < 2 ^ 31 := by
  have hsize : 0 < clusterSizeBytes pd := by
    unfold clusterSizeBytes sectorSize
    omega
  constructor
  · intro h
    have hpos := h.position.2
    unfold byteSector sectorSize at hpos
    omega
  · intro hlt
    replace hlt : File.clusterPos pd cluster + offset % clusterSizeBytes pd
      < 2 ^ 31 := hlt
    have hmod := Int.emod_nonneg offset (show clusterSizeBytes pd ≠ 0 by omega)
    obtain ⟨hpos, hnn⟩ := startingPos_exact hroot (by omega) h₀ h₁ hoffset hlt
    have hmul : 0 ≤ (cluster - 2) * pd.header.sectorsPerCluster.toNat :=
      Int.mul_nonneg (by omega) (Int.natCast_nonneg _)
    obtain ⟨k', -, hread⟩ := readInternal_spec File.places hm
      (by omega) hs₀ hs₁ offset total
      File.untouched
    rw [if_neg (by omega), hfound, if_neg (by omega), hpos] at hread
    have hfirst : readOutput File.places k.freshBlock pd
        (File.clusterPos pd cluster + offset % clusterSizeBytes pd) total
          File.untouched 0
        = Fetched.sector
          (some (byteSector pd cluster (offset % clusterSizeBytes pd),
            (offset % clusterSizeBytes pd % 512).toNat)) := by
      rw [readOutput, overwrite, if_pos (by omega),
        fetched_of_nonneg _ _ (by omega),
        wrap32_of_isInt32 (by unfold IsInt32; omega), diskAt, File.places]
      unfold File.clusterPos byteSector
      congr 3
      · omega
      · congr 1
        omega
    unfold File.clusterPos at hlt hnn
    refine ⟨?_, ?_, ?_, ?_, ?_, ?_, ⟨_, k', hread, hfirst⟩⟩
    · unfold IsInt32
      omega
    · unfold IsInt32
      omega
    · unfold IsInt32 byteSector
      omega
    · unfold IsInt32 byteSector sectorSize
      omega
    · unfold IsInt32 byteSector sectorSize
      omega
    · unfold byteSector
      omega

/-- The header in the kernel's own boot sector: a volume of 4GB, with 128
sectors to a cluster. -/
def bootHeader : FatHeader := ⟨0x80, 200, 0x02, 0x40, 0x100, fat16Signature⟩

/-- The private data of the volume, mounted. -/
def bootPrivate : FatPrivate := withRootDirectory (emptyPrivate bootHeader) 0

/-- The kernel with that volume. -/
def bootVolume : Kernel :=
  (emptyVolume bootHeader).setFatPrivate 1 (some bootPrivate)

theorem bootVolume_mounted : Mounted bootVolume bootPrivate :=
  have hm := emptyVolume_mounted bootHeader
  ⟨hm.heap, hm.fs, hm.ne_null, rfl, hm.cluster, hm.fat, hm.directory⟩

/-- The theorem on this volume, for byte 1000 of its first cluster. -/
theorem cluster_position_exact_iff_first_cluster :
    PositionExact bootVolume bootPrivate 2 1000 1 2 :=
  (cluster_position_exact_iff bootVolume_mounted (by decide) (by decide)
    (by decide) (by decide) rfl (by decide) (by decide) (by decide)
      (by decide)).mpr (by decide)

/-- The first byte of cluster 40000 of this volume, two thirds of the way to its
end, has no position. -/
theorem boot_volume_position_overflows :
    Mounted bootVolume bootPrivate ∧ bootVolume.HasFreeBlock
      ∧ bootPrivate.rootDirectory.sectorPosEnd = 716
      ∧ bootPrivate.header.sectorsPerCluster.toNat = 128
      ∧ byteSector bootPrivate 40000 0 < 0x773594
      ∧ clusterAt bootVolume.sectors bootPrivate 40000 0 = 40000
      ∧ ¬ PositionExact bootVolume bootPrivate 40000 0 1 40000 := by
  refine ⟨bootVolume_mounted,
    ⟨8, by decide, by decide⟩, by decide, by decide, by decide,
    rfl, fun h => ?_⟩
  have hbytes := h.bytes.2
  rw [show byteSector bootPrivate 40000 0 * sectorSize
    = 2621675520 by decide] at hbytes
  omega

end Fat16

end N00bOS
