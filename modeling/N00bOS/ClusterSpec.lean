import N00bOS.Fat16
import N00bOS.StreamerSpec

/-!
# Clusters

Where the bytes of a cluster chain are, and what the reading loop of the file
system makes of it. The FAT is a function from clusters to entries
(`fatEntry`), the walk of a chain is a function of it (`chase`), and a read of
`n` bytes is one read of at most a cluster: the loop neither moves its offset
nor its output, so every round starts over (`readInternal_spec`).

The results are stated for a mounted volume (`Mounted`): private data in place,
with live streams, on a heap in use. Each function that reads gets a theorem
that says what it returns, as a function of the sectors and of the header, and
that the change of the state is quiet; so the hypotheses hold again afterwards,
and the theorems chain. `seek_read` is the step that all of them consist of, a
seek of a stream and a read from there.

Nothing is asked of the volume's numbers beyond what C needs: a volume may have
clusters without sectors, and a read of it divides by zero
(`readInternal_of_no_size`).
-/

namespace N00bOS

open KernelM

namespace Fat16

/-! ## A mounted volume

The state that the functions of the file system run in. `Mounted` is kept by
quiet changes, and by a position that is set. -/

/-- A stream of the primary disk. -/
def StreamLive (k : Kernel) (stream : Ptr) : Prop :=
  stream.addr ≠ 0 ∧ ∃ pos, k.diskStreams stream.id = some ⟨pos, DiskRef.primary⟩

/-- **A mounted volume**: private data in place, with its streams. Nothing is
said of the header, which may be any that stands on a disk; where it matters, a
theorem asks for more. -/
structure Mounted (k : Kernel) (pd : FatPrivate) : Prop where
  heap : k.HeapOk
  fs : k.disk.fs = FilesystemRef.fat16
  ne_null : k.disk.fsPrivateData.addr ≠ 0
  privateData : k.fatPrivates k.disk.fsPrivateData.id = some pd
  cluster : StreamLive k pd.clusterReadStream
  fat : StreamLive k pd.fatReadStream
  directory : StreamLive k pd.directoryReadStream

theorem StreamLive.quiet {k k' : Kernel} (h : Quiet k k') {stream : Ptr}
    (hs : StreamLive k stream) : StreamLive k' stream :=
  ⟨hs.1, (h.streams _ _).mpr hs.2⟩

/-- A volume stays mounted. -/
theorem Mounted.quiet {k k' : Kernel} {pd : FatPrivate} (hm : Mounted k pd)
    (h : Quiet k k') :
    Mounted k' pd where
  heap := h.heapOk hm.heap
  fs := by rw [h.eq]; exact hm.fs
  ne_null := by rw [h.eq]; exact hm.ne_null
  privateData := by rw [h.eq]; exact hm.privateData
  cluster := hm.cluster.quiet h
  fat := hm.fat.quiet h
  directory := hm.directory.quiet h

/-- A position that is set leaves the volume mounted. -/
theorem Mounted.setFatItemDescriptor {k : Kernel} {pd : FatPrivate}
    (hm : Mounted k pd) (id : ℕ) (v : Option FatItemDescriptor) :
    Mounted (k.setFatItemDescriptor id v) pd :=
  ⟨hm.heap, hm.fs, hm.ne_null, hm.privateData, hm.cluster, hm.fat, hm.directory⟩

theorem privateData_ok {k : Kernel} {pd : FatPrivate} (hm : Mounted k pd) :
    privateData DiskRef.primary k = Except.ok (pd, k) := by
  rw [privateData, Machine.bind_ok (show derefDisk DiskRef.primary k
    = Except.ok (k.disk, k) from rfl), deref_ok hm.ne_null hm.privateData]

/-- **A read from a position**: seek, then read. Whatever the position of the
stream was, it does not matter; this is why streams can be shared. -/
theorem seek_read {α : Type} (source : ℤ → ℕ → α) {k : Kernel} (hk : k.HeapOk)
    {stream : Ptr} (hs : StreamLive k stream) {pos : ℤ} (hpos : IsInt32 pos)
    (total : ℤ) (out : Output α) :
    ∃ k₁ k₂, Streamer.seek stream pos k = Except.ok (0, k₁)
      ∧ Streamer.read source stream out total k₁
        = Except.ok ((0, overwrite out total (fetched source k.freshBlock pos)),
          k₂)
      ∧ Quiet k k₁ ∧ Quiet k k₂
      ∧ k₂.diskStreams stream.id = some ⟨wrap32 (pos + total),
        DiskRef.primary⟩ := by
  obtain ⟨hp, pos₀, hs⟩ := hs
  have hq₁ := Quiet.setDiskStream hs pos
  have hs₁ : (k.setDiskStream stream.id
    (some ⟨pos, DiskRef.primary⟩)).diskStreams stream.id
      = some ⟨pos, DiskRef.primary⟩ := Function.update_self _ _ _
  obtain ⟨k₂, hread, hq₂, hs₂⟩ :=
    Streamer.read_quiet source (hq₁.heapOk hk) hp hs₁ hpos total out
  rw [hq₁.freshBlock] at hread
  exact ⟨_, k₂, Streamer.seek_spec hp hs pos, hread, hq₁, hq₁.trans hq₂, hs₂⟩

/-! ## The FAT

An entry is a half word at a position that is computed from the header. The FAT
is what the disk holds there, whatever it is. -/

/-- The position of the FAT entry of a cluster. -/
def fatEntryPos (pd : FatPrivate) (cluster : ℤ) : ℤ :=
  pd.header.reservedSectors.toNat * 512 + 2 * cluster

/-- **The FAT entry of a cluster**: the little-endian half word at its position
on the disk. -/
def fatEntry (sectors : ℤ → ℕ → Byte) (pd : FatPrivate) (cluster : ℤ) : ℤ :=
  (diskAt sectors (fatEntryPos pd cluster)).toNat
    + 256 * (diskAt sectors (fatEntryPos pd cluster + 1)).toNat

theorem fatEntry_nonneg (sectors : ℤ → ℕ → Byte) (pd : FatPrivate)
    (cluster : ℤ) :
    0 ≤ fatEntry sectors pd cluster ∧ fatEntry sectors pd cluster ≤ 65535 := by
  have hlo := (diskAt sectors (fatEntryPos pd cluster)).isLt
  have hhi := (diskAt sectors (fatEntryPos pd cluster + 1)).isLt
  unfold fatEntry
  omega

/-- **`get_fat_entry`** reads the entry. A cluster is a number of 16 bits, so
the position of its entry does not wrap around. -/
theorem getFatEntry_spec {k : Kernel} {pd : FatPrivate} (hm : Mounted k pd)
    {cluster : ℤ} (h₀ : 0 ≤ cluster) (h₁ : cluster ≤ 65535) :
    ∃ k', getFatEntry DiskRef.primary cluster k
      = Except.ok (fatEntry k.sectors pd cluster, k')
      ∧ Quiet k k' := by
  have hres := pd.header.reservedSectors.isLt
  have hpos : wrap32 (wrap32 (pd.header.reservedSectors.toNat * sectorSize)
      + wrap32 (cluster * fat16FatEntrySize)) = fatEntryPos pd cluster := by
    have htable : wrap32 (pd.header.reservedSectors.toNat * sectorSize)
        = pd.header.reservedSectors.toNat * 512 :=
      wrap32_of_isInt32 (by unfold IsInt32 sectorSize; omega)
    have hentry : wrap32 (cluster * fat16FatEntrySize) = 2 * cluster := by
      unfold fat16FatEntrySize
      rw [wrap32_of_isInt32 (by unfold IsInt32; omega), Int.mul_comm]
    rw [htable, hentry]
    exact wrap32_of_isInt32 (by unfold IsInt32; omega)
  have hint : IsInt32 (fatEntryPos pd cluster) := by
    unfold fatEntryPos IsInt32
    omega
  obtain ⟨k₁, k₂, hseek, hread, hq₁, hq₂, -⟩ :=
    seek_read k.sectors hm.heap hm.fat hint 2 zeroOutput
  have hsectors : k₁.sectors = k.sectors := by rw [hq₁.eq]
  have hbyte : ∀ i : ℕ, i < 2 → overwrite zeroOutput 2
      (fetched k.sectors k.freshBlock (fatEntryPos pd cluster)) i
      = Fetched.sector (diskAt k.sectors (fatEntryPos pd cluster + i)) := by
    intro i hi
    have hint' : IsInt32 (fatEntryPos pd cluster + i) := by
      unfold fatEntryPos IsInt32 at *
      omega
    rw [overwrite, if_pos (by omega),
      fetched_of_nonneg _ _ (by unfold fatEntryPos; omega),
      wrap32_of_isInt32 hint']
  have hb₀ := hbyte 0 (by decide)
  have hb₁ := hbyte 1 (by decide)
  rw [Int.natCast_zero, Int.add_zero] at hb₀
  refine ⟨k₂, ?_, hq₂⟩
  rw [getFatEntry, Machine.bind_ok (privateData_ok hm), if_neg hm.fat.1]
  simp only [hpos]
  rw [Machine.bind_ok hseek, if_neg (by decide),
    Machine.bind_ok (Machine.get_apply k₁), hsectors, Machine.bind_ok hread]
  simp only [hb₀, hb₁]
  rfl

/-! ## Walking a chain

The loop of `get_cluster` follows links and stops at an entry that is none. -/

/-- **The walk of a chain**: `n` links from a cluster, or `-EIO` at an entry
that is no link. It is what `get_cluster` computes, as a function of the FAT,
without the stream that it reads the FAT through. -/
def chase (fat : ℤ → ℤ) : ℕ → ℤ → ℤ
  | 0, cluster => cluster
  | n + 1, cluster =>
    if fat cluster = 0 ∨ 0xFFF0 ≤ fat cluster then -eio
      else chase fat n (fat cluster)

/-- The loop of `get_cluster` is the walk. -/
theorem walkClusters_spec {pd : FatPrivate} (n : ℕ) {k : Kernel}
    (hm : Mounted k pd) {cluster : ℤ} (h₀ : 0 ≤ cluster)
    (h₁ : cluster ≤ 65535) :
    ∃ k', walkClusters DiskRef.primary n cluster k
        = Except.ok (chase (fatEntry k.sectors pd) n cluster, k')
          ∧ Quiet k k' := by
  induction n generalizing k cluster with
  | zero => exact ⟨k, rfl, Quiet.refl k⟩
  | succ n ih =>
    obtain ⟨k₁, hentry, hq₁⟩ := getFatEntry_spec hm h₀ h₁
    have hsectors : k₁.sectors = k.sectors := by rw [hq₁.eq]
    obtain ⟨hlo, hhi⟩ := fatEntry_nonneg k.sectors pd cluster
    obtain ⟨k₂, hwalk, hq₂⟩ := ih (hm.quiet hq₁) hlo hhi
    rw [hsectors] at hwalk
    rw [walkClusters, Machine.bind_ok hentry,
      if_neg (Int.not_lt.mpr hlo), chase]
    generalize fatEntry k.sectors pd cluster = e at hlo hhi hwalk ⊢
    unfold fat16FatLastClusterInFileStart fat16FatLastClusterInFileEnd
      fat16FatBadSector
      fat16FatReservedClusterStart fat16FatReservedClusterEnd fat16Unused
    by_cases hlink : e = 0 ∨ 0xFFF0 ≤ e
    · rw [if_pos hlink]
      refine ⟨k₁, ?_, hq₁⟩
      by_cases hlast : 0xFFF8 ≤ e ∧ e ≤ 0xFFFF
      · rw [if_pos hlast]
        rfl
      · rw [if_neg hlast]
        by_cases hbad : e = 0xFFF7
        · rw [if_pos hbad]
          rfl
        · rw [if_neg hbad]
          by_cases hreserved : 0xFFF0 ≤ e ∧ e ≤ 0xFFF6
          · rw [if_pos hreserved]
            rfl
          · rw [if_neg hreserved, if_pos (by omega)]
            rfl
    · rw [if_neg hlink, if_neg (by omega), if_neg (by omega), if_neg (by omega),
        if_neg (by omega)]
      exact ⟨k₂, hwalk, hq₁.trans hq₂⟩

/-- The size of a cluster is not negative, and at most 255 sectors. -/
theorem clusterSizeBytes_bounds (pd : FatPrivate) :
    0 ≤ clusterSizeBytes pd ∧ clusterSizeBytes pd ≤ 130560 := by
  have := pd.header.sectorsPerCluster.isLt
  unfold clusterSizeBytes sectorSize
  omega

/-- Clusters with sectors have a size. -/
theorem clusterSizeBytes_pos {pd : FatPrivate}
    (h : pd.header.sectorsPerCluster ≠ 0) :
    0 < clusterSizeBytes pd := by
  have hne : pd.header.sectorsPerCluster.toNat ≠ 0 := fun hzero =>
    h (BitVec.eq_of_toNat_eq hzero)
  unfold clusterSizeBytes sectorSize
  omega

/-- The cluster that `get_cluster` finds. -/
def clusterAt (sectors : ℤ → ℕ → Byte) (pd : FatPrivate)
    (startingCluster offset : ℤ) : ℤ :=
  chase (fatEntry sectors pd) (offset.tdiv (clusterSizeBytes pd)).toNat
    startingCluster

/-- **`get_cluster`** walks the chain. The result is a function of the FAT
alone, and the only trace of the call is a quiet change of the state. -/
theorem getCluster_spec {k : Kernel} {pd : FatPrivate} (hm : Mounted k pd)
    (hspc : clusterSizeBytes pd ≠ 0) {cluster : ℤ} (h₀ : 0 ≤ cluster)
    (h₁ : cluster ≤ 65535) (offset : ℤ) :
    ∃ k', getCluster DiskRef.primary cluster offset k
        = Except.ok (clusterAt k.sectors pd cluster offset, k')
          ∧ Quiet k k' := by
  obtain ⟨k', hwalk, hq⟩ :=
    walkClusters_spec (offset.tdiv (clusterSizeBytes pd)).toNat hm
    h₀ h₁
  refine ⟨k', ?_, hq⟩
  rw [getCluster, Machine.bind_ok (privateData_ok hm), if_neg hspc]
  exact hwalk

/-! ## The reading loop

All rounds of the loop read the same bytes to the same place, up to the last
one, which may be shorter. So the output is that of the first. -/

/-- The position `read_internal_from_stream` reads from. -/
def startingPos (pd : FatPrivate) (cluster offset : ℤ) : ℤ :=
  wrap32 (wrap32 (clusterToSector pd cluster * sectorSize)
    + offset.tmod (clusterSizeBytes pd))

/-- What a read of `totalBytes` leaves in the output: at most a cluster's worth
of bytes, from the position of the offset, and behind them what was there. -/
def readOutput {α : Type} (source : ℤ → ℕ → α) (buf : Word) (pd : FatPrivate)
    (pos : ℤ) (totalBytes : ℤ) (out : Output α) : Output α :=
  overwrite out (min totalBytes (clusterSizeBytes pd)) (fetched source buf pos)

/-- A second read of the same bytes changes nothing. -/
theorem overwrite_overwrite {α : Type} (out : Output α) {n n' : ℤ} (hn : n' ≤ n)
    (f : ℕ → Fetched α) :
    overwrite (overwrite out n f) n' f = overwrite out n f := by
  funext i
  rw [overwrite]
  by_cases hi : (i : ℤ) < n'
  · rw [if_pos hi, overwrite, if_pos (by omega)]
  · rw [if_neg hi]

/-- The first sector of a cluster, where its number fits. -/
theorem clusterToSector_of_fits {pd : FatPrivate} {cluster : ℤ}
    (h₀ : 2 ≤ cluster) (h₁ : cluster ≤ 0xFFFF)
    (hroot : 0 ≤ pd.rootDirectory.sectorPosEnd)
    (hfits : pd.rootDirectory.sectorPosEnd + (cluster - 2)
      * pd.header.sectorsPerCluster.toNat < 2 ^ 31) :
    clusterToSector pd cluster = pd.rootDirectory.sectorPosEnd
        + (cluster - 2) * pd.header.sectorsPerCluster.toNat
      ∧ pd.rootDirectory.sectorPosEnd ≤ clusterToSector pd cluster := by
  have hmul : 0 ≤ (cluster - 2) * pd.header.sectorsPerCluster.toNat :=
    Int.mul_nonneg (by omega) (Int.natCast_nonneg _)
  unfold clusterToSector
  rw [wrap32_of_isInt32 (show IsInt32 (cluster - 2) by unfold IsInt32; omega)]
  generalize (cluster - 2) * (pd.header.sectorsPerCluster.toNat : ℤ) = x at *
  rw [wrap32_of_isInt32 (show IsInt32 x by unfold IsInt32; omega),
    wrap32_of_isInt32 (by unfold IsInt32; omega)]
  exact ⟨rfl, by omega⟩

section Reading

variable {α : Type} (source : ℤ → ℕ → α) {pd : FatPrivate} {stream : Ptr}
  {cluster : ℤ}

/-- **One round of the loop** reads from the position it always reads
from. -/
theorem readChunks_round {k : Kernel} (hm : Mounted k pd)
    (hspc : clusterSizeBytes pd ≠ 0) (hs : StreamLive k stream)
    (h₀ : 0 ≤ cluster) (h₁ : cluster ≤ 65535) (offset totalBytes : ℤ)
    (hfound : 0 ≤ clusterAt k.sectors pd cluster offset) (rounds : ℕ)
    {bytesRead : ℤ} (hlt : bytesRead < totalBytes) (res : ℤ) (out : Output α) :
    ∃ k', Quiet k k'
      ∧ readChunks source DiskRef.primary stream pd cluster offset totalBytes
        (rounds + 1) bytesRead res out k
      = readChunks source DiskRef.primary stream pd cluster offset
        totalBytes rounds
          (bytesRead + min (totalBytes - bytesRead) (clusterSizeBytes pd)) 0
          (readOutput source k.freshBlock pd
            (startingPos pd (clusterAt k.sectors pd cluster offset) offset)
            (totalBytes - bytesRead) out) k' := by
  obtain ⟨k₁, hcluster, hq₁⟩ := getCluster_spec hm hspc h₀ h₁ offset
  have hm₁ := hm.quiet hq₁
  have hsize : (if totalBytes - bytesRead > clusterSizeBytes pd then
    clusterSizeBytes pd
      else totalBytes - bytesRead)
        = min (totalBytes - bytesRead) (clusterSizeBytes pd) := by
    omega
  obtain ⟨k₂, k₃, hseek, hread, -, hq₃, -⟩ :=
    seek_read source hm₁.heap (hs.quiet hq₁)
    (isInt32_wrap32 (wrap32 (clusterToSector pd
      (clusterAt k.sectors pd cluster offset) * sectorSize)
        + offset.tmod (clusterSizeBytes pd)))
    (min (totalBytes - bytesRead) (clusterSizeBytes pd)) out
  rw [hq₁.freshBlock] at hread
  refine ⟨k₃, hq₁.trans hq₃, ?_⟩
  rw [readChunks, if_pos hlt, Machine.bind_ok hcluster,
    if_neg (Int.not_lt.mpr hfound)]
  simp only [hsize]
  rw [Machine.bind_ok hseek, if_neg (by decide), Machine.bind_ok hread]
  rfl

/-- The rounds after the first read what is there already. -/
theorem readChunks_again {buf : Word} {pos : ℤ} {offset totalBytes : ℤ}
    (out₀ : Output α) (rounds : ℕ) {k : Kernel} (hm : Mounted k pd)
    (hspc : clusterSizeBytes pd ≠ 0) (hs : StreamLive k stream)
    (h₀ : 0 ≤ cluster) (h₁ : cluster ≤ 65535)
    (hfound : 0 ≤ clusterAt k.sectors pd cluster offset)
    (hbuf : k.freshBlock = buf)
    (hpos : startingPos pd (clusterAt k.sectors pd cluster offset) offset = pos)
    {bytesRead : ℤ} (hbytes : 0 ≤ bytesRead)
    (hrounds : (totalBytes - bytesRead).toNat < rounds) :
    ∃ k', Quiet k k'
      ∧ readChunks source DiskRef.primary stream pd cluster offset totalBytes
        rounds bytesRead 0 (readOutput source buf pd pos totalBytes out₀) k
      = Except.ok ((0, readOutput source buf pd pos totalBytes out₀), k') := by
  induction rounds generalizing k bytesRead with
  | zero => exact absurd hrounds (Nat.not_lt_zero _)
  | succ rounds ih =>
    by_cases hlt : bytesRead < totalBytes
    · obtain ⟨k₁, hq₁, hround⟩ :=
        readChunks_round source hm hspc hs h₀ h₁ offset totalBytes
        hfound rounds hlt 0 (readOutput source buf pd pos totalBytes out₀)
      have hsectors : k₁.sectors = k.sectors := by rw [hq₁.eq]
      have hsame : readOutput source buf pd pos (totalBytes - bytesRead)
          (readOutput source buf pd pos totalBytes out₀)
          = readOutput source buf pd pos totalBytes out₀ :=
        overwrite_overwrite _ (by omega) _
      rw [hbuf, hpos, hsame] at hround
      have hsize := clusterSizeBytes_bounds pd
      obtain ⟨k₂, hq₂, hrest⟩ := ih (hm.quiet hq₁) (hs.quiet hq₁)
        (hsectors ▸ hfound) (hq₁.freshBlock.trans hbuf) (hsectors ▸ hpos)
        (show 0 ≤ bytesRead + min (totalBytes - bytesRead)
          (clusterSizeBytes pd) by omega)
        (by omega)
      exact ⟨k₂, hq₁.trans hq₂, hround.trans hrest⟩
    · rw [readChunks, if_neg hlt]
      exact ⟨k, Quiet.refl k, rfl⟩

/-- `read_internal` is its loop, with the stream of the volume. -/
theorem readInternal_eq {k : Kernel} (hm : Mounted k pd) (offset totalBytes : ℤ)
    (out : Output α) :
    readInternal source DiskRef.primary cluster offset totalBytes out k
      = readChunks source DiskRef.primary pd.clusterReadStream pd cluster
        offset totalBytes
        (totalBytes.toNat + 1) 0 0 out k := by
  rw [readInternal, Machine.bind_ok (privateData_ok hm)]
  simp only [readInternalFromStream]
  rw [Machine.bind_ok (privateData_ok hm)]

/-- A read of no bytes. -/
theorem readInternal_of_nonpos {k : Kernel} (hm : Mounted k pd) (offset : ℤ)
    {totalBytes : ℤ} (htotal : totalBytes ≤ 0) (out : Output α) :
    readInternal source DiskRef.primary cluster offset totalBytes out k
      = Except.ok ((0, out), k) := by
  rw [readInternal_eq source hm, readChunks, if_neg (by omega)]
  rfl

/-- **`read_internal`**: nothing for no bytes; the error of the walk; or the
bytes of at most one cluster's length, from the position of the offset. Every
later round of its loop reads the same bytes again, to the start of the output.
-/
theorem readInternal_spec {k : Kernel} (hm : Mounted k pd)
    (hspc : clusterSizeBytes pd ≠ 0) (h₀ : 0 ≤ cluster) (h₁ : cluster ≤ 65535)
    (offset totalBytes : ℤ) (out : Output α) :
    ∃ k', Quiet k k'
      ∧ readInternal source DiskRef.primary cluster offset totalBytes out k
      = Except.ok
        (if totalBytes ≤ 0 then (0, out)
        else if clusterAt k.sectors pd cluster offset < 0 then
          (clusterAt k.sectors pd cluster offset, out)
        else (0, readOutput source k.freshBlock pd
          (startingPos pd (clusterAt k.sectors pd cluster offset) offset)
            totalBytes out), k') := by
  by_cases htotal : totalBytes ≤ 0
  · rw [if_pos htotal]
    exact ⟨k, Quiet.refl k, readInternal_of_nonpos source hm offset htotal out⟩
  · rw [if_neg htotal, readInternal_eq source hm]
    by_cases hfound : clusterAt k.sectors pd cluster offset < 0
    · rw [if_pos hfound]
      obtain ⟨k₁, hcluster, hq₁⟩ := getCluster_spec hm hspc h₀ h₁ offset
      refine ⟨k₁, hq₁, ?_⟩
      rw [readChunks, if_pos (by omega), Machine.bind_ok hcluster,
        if_pos hfound]
      rfl
    · rw [if_neg hfound]
      have hfound := Int.not_lt.mp hfound
      obtain ⟨k₁, hq₁, hround⟩ :=
        readChunks_round source hm hspc hm.cluster h₀ h₁ offset
        totalBytes hfound totalBytes.toNat
          (show (0 : ℤ) < totalBytes by omega) 0 out
      have hsectors : k₁.sectors = k.sectors := by rw [hq₁.eq]
      have hsize := clusterSizeBytes_bounds pd
      rw [Int.sub_zero] at hround
      obtain ⟨k₂, hq₂, hrest⟩ :=
        readChunks_again source out totalBytes.toNat (hm.quiet hq₁)
        hspc (hm.cluster.quiet hq₁) h₀ h₁ (hsectors ▸ hfound)
        hq₁.freshBlock (by rw [hsectors])
          (show 0 ≤ 0 + min totalBytes (clusterSizeBytes pd) by omega)
        (show (totalBytes - (0 + min totalBytes (clusterSizeBytes pd))).toNat
          < totalBytes.toNat
          by omega)
      exact ⟨k₂, hq₁.trans hq₂, hround.trans hrest⟩

/-- With clusters of no size, `read_internal` of any bytes does not return:
it divides by the size. -/
theorem readInternal_of_no_size {k : Kernel} (hm : Mounted k pd)
    (hspc : clusterSizeBytes pd = 0) (offset : ℤ) {totalBytes : ℤ}
    (htotal : 0 < totalBytes) (out : Output α) (r : (ℤ × Output α) × Kernel) :
    readInternal source DiskRef.primary cluster offset totalBytes out k
      ≠ Except.ok r := by
  intro hrun
  rw [readInternal_eq source hm, readChunks, if_pos htotal] at hrun
  obtain ⟨found, k₁, hcluster, -⟩ := Machine.bind_eq_ok.mp hrun
  rw [getCluster, Machine.bind_ok (privateData_ok hm), if_pos hspc] at hcluster
  cases hcluster

end Reading

end Fat16

end N00bOS
