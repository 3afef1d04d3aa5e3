import Mathlib.Tactic.Ring
import Mathlib.Tactic.Zify
import N00bOS.FileReads

/-!
# Where the bytes of a read come from

A read runs on any source of bytes. On the source `places`, where the byte at a
place is the place itself, its output says for each byte it delivers where on
the disk that byte is, and `seekRead_places` is what this has to do with the
read of the disk: the two runs are the same, but for what is in the output.

A file has the first `filesize` bytes of its clusters (`InFile`). Nothing in
the code looks at `filesize`, at the sign of a position, or at where a cluster
ends: `read_confined_iff` says for which positions and lengths all the bytes
are the file's none the less. The bytes that a read delivers lie in one or two
clusters that follow one another on the disk, and the file has each of the two
parts up to some byte (`HoldsTo`) or does not; `runInFile_iff` turns the
question about every byte into that question about two clusters.
-/

namespace N00bOS

open KernelM Fat16

namespace File

/-! ## Seeking, then reading

Any sequence of seeks is one position, so that what is left is a read at a
position. -/

/-- A sequence of `fseek`s: offsets and modes. -/
def fseeks (fd : ℤ) : List (ℤ × FileSeekMode) → KernelM Unit
  | [] => return
  | (offset, whence) :: rest => do
    let _ ← fseek fd offset whence
    fseeks fd rest

/-- A sequence of `fseek`s, and an `fread`. -/
def seekRead {α : Type} (source : ℤ → ℕ → α) (fd : ℤ)
    (seeks : List (ℤ × FileSeekMode)) (blockSize numBlocks : Word)
    (out : Output α) : KernelM (ℤ × Output α) := do
  fseeks fd seeks
  fread source out blockSize numBlocks fd

/-- The position after a sequence of seeks. -/
def seekAll (type : FatItemType) (seeks : List (ℤ × FileSeekMode))
    (pos : Word) : Word :=
  seeks.foldl (fun pos seek => seekPos type seek.2 seek.1 pos) pos

/-- The second of two positions that are set stays. -/
theorem setFatItemDescriptor_idem (k : Kernel) (id : ℕ)
    (v w : Option FatItemDescriptor) :
    (k.setFatItemDescriptor id v).setFatItemDescriptor id w
      = k.setFatItemDescriptor id w := by
  rw [Kernel.setFatItemDescriptor, Kernel.setFatItemDescriptor,
    Kernel.setFatItemDescriptor, Function.update_idem]

/-- **A sequence of seeks** sets the position, and nothing else. A seek that is
turned down sets nothing, and `seekAll` leaves the position where it was. -/
theorem fseeks_spec {k : Kernel} {fd : ℤ} {o : OpenInfo} {pos : Word}
    (h : OpenFd k fd o pos) (seeks : List (ℤ × FileSeekMode)) :
    fseeks fd seeks k = Except.ok ((), k.setFatItemDescriptor o.privateData.id
      (some ⟨o.item, seekAll o.fatItem.type seeks pos⟩)) := by
  induction seeks generalizing k pos with
  | nil => exact congrArg (fun k => Except.ok ((), k)) h.setPos_self.symm
  | cons seek rest ih =>
    rw [fseeks, Machine.bind_ok (fseek_spec h seek.1 seek.2), ih (h.setPos _),
      setFatItemDescriptor_idem]
    rfl

section Reading

variable {α : Type} (source : ℤ → ℕ → α) {k : Kernel} {pd : FatPrivate} {fd : ℤ}
  {o : OpenInfo} {pos : Word} {blockSize numBlocks : Word}

/-- **Seeks and a read** of a regular file are `read_internal` from the
position after the seeks. -/
theorem seekRead_eq (h : OpenFd k fd o pos)
    (hfile : o.fatItem.type = FatItemType.file)
    (seeks : List (ℤ × FileSeekMode)) (hbs : blockSize ≠ 0)
    (hnb : numBlocks ≠ 0) (out : Output α) :
    seekRead source fd seeks blockSize numBlocks out k
      = readInternal source DiskRef.primary (firstCluster o)
          (seekAll o.fatItem.type seeks pos).toInt
            (blockSize * numBlocks).toInt out
          (k.setFatItemDescriptor o.privateData.id
            (some ⟨o.item, seekAll o.fatItem.type seeks pos⟩)) := by
  have h₁ := h.setPos (seekAll o.fatItem.type seeks pos)
  rw [seekRead, Machine.bind_ok (fseeks_spec h seeks),
    h₁.fread_eq source hbs hnb, h₁.fat16Read_eq source hfile]

/-- A positive number of bytes is not a product with zero. -/
theorem sizes_ne_zero (hpos : 0 < (blockSize * numBlocks).toInt) :
    blockSize ≠ 0 ∧ numBlocks ≠ 0 := by
  constructor
  · rintro rfl
    rw [show (0 : Word) * numBlocks = 0 from BitVec.zero_mul] at hpos
    exact absurd hpos (by decide)
  · rintro rfl
    rw [show blockSize * (0 : Word) = 0 from BitVec.mul_zero] at hpos
    exact absurd hpos (by decide)

/-- A read of no bytes leaves the output as it is. -/
theorem seekRead_of_nonpos (hm : Mounted k pd) (h : OpenFd k fd o pos)
    (hfile : o.fatItem.type = FatItemType.file)
    (seeks : List (ℤ × FileSeekMode)) (hn : (blockSize * numBlocks).toInt ≤ 0)
    (out : Output α) :
    ∃ k', seekRead source fd seeks blockSize numBlocks out k
      = Except.ok ((if blockSize = 0 ∨ numBlocks = 0 then -einval else 0, out),
        k') := by
  by_cases hzero : blockSize = 0 ∨ numBlocks = 0
  · refine ⟨k.setFatItemDescriptor o.privateData.id
      (some ⟨o.item, seekAll o.fatItem.type seeks pos⟩), ?_⟩
    rw [seekRead, Machine.bind_ok (fseeks_spec h seeks), fread,
      if_pos (by tauto), if_pos hzero]
    rfl
  · rw [seekRead_eq source h hfile seeks (fun hc => hzero (Or.inl hc))
      (fun hc => hzero (Or.inr hc)),
      readInternal_of_nonpos source (hm.setFatItemDescriptor _ _) _ hn,
      if_neg hzero]
    exact ⟨_, rfl⟩

/-- A read of some bytes returns what is at the position after the seeks. -/
theorem seekRead_of_pos (hm : Mounted k pd) (hspc : clusterSizeBytes pd ≠ 0)
    (h : OpenFd k fd o pos) (hfile : o.fatItem.type = FatItemType.file)
    (seeks : List (ℤ × FileSeekMode)) (hn : 0 < (blockSize * numBlocks).toInt)
    (out : Output α) :
    ∃ k', seekRead source fd seeks blockSize numBlocks out k
      = Except.ok (readResult source k pd o (seekAll o.fatItem.type seeks pos)
          (blockSize * numBlocks) out, k') := by
  obtain ⟨hbs, hnb⟩ := sizes_ne_zero hn
  obtain ⟨h₀, h₁⟩ := firstCluster_bounds o
  obtain ⟨k', -, hread⟩ := readInternal_spec source
    (hm.setFatItemDescriptor _ _) hspc h₀ h₁
    (seekAll o.fatItem.type seeks pos).toInt (blockSize * numBlocks).toInt out
  exact ⟨k', (seekRead_eq source h hfile seeks hbs hnb out).trans hread⟩

/-- A read of some bytes does not return where clusters have no size. -/
theorem seekRead_of_no_size (hm : Mounted k pd) (h : OpenFd k fd o pos)
    (hfile : o.fatItem.type = FatItemType.file) (hspc : clusterSizeBytes pd = 0)
    (seeks : List (ℤ × FileSeekMode)) (hn : 0 < (blockSize * numBlocks).toInt)
    (out : Output α) (r : (ℤ × Output α) × Kernel) :
    seekRead source fd seeks blockSize numBlocks out k ≠ Except.ok r := by
  obtain ⟨hbs, hnb⟩ := sizes_ne_zero hn
  rw [seekRead_eq source h hfile seeks hbs hnb]
  exact readInternal_of_no_size source (hm.setFatItemDescriptor o.privateData.id
    (some ⟨o.item, seekAll o.fatItem.type seeks pos⟩)) hspc _ hn out r

end Reading

/-! ## Places

A source of places in the stead of bytes, and an output that has no place in it
to begin with. What a read has written is what has a place. -/

/-- The place of a byte on the disk: its sector, and its index there. -/
abbrev Place := ℤ × ℕ

/-- The place at a byte position. -/
def placeAt (pos : ℤ) : Place := (pos / 512, (pos % 512).toNat)

theorem placeAt_inj {p q : ℤ} : placeAt p = placeAt q ↔ p = q := by
  constructor
  · intro h
    have hsector : p / 512 = q / 512 := congrArg Prod.fst h
    have hindex : (p % 512).toNat = (q % 512).toNat := congrArg Prod.snd h
    omega
  · rintro rfl
    rfl

/-- The disk whose bytes are their own places. -/
def places (lba : ℤ) (i : ℕ) : Option Place := some (lba, i)

/-- An output with no byte of the disk in it. -/
def untouched : Output (Option Place) := fun _ => Fetched.sector none

/-- The byte at a place, or what was in the output before. -/
def byteAt (sectors : ℤ → ℕ → Byte) (before : Fetched Byte) :
    Fetched (Option Place) → Fetched Byte
  | Fetched.sector (some place) => Fetched.sector (sectors place.1 place.2)
  | Fetched.sector none => before
  | Fetched.stray addr => Fetched.stray addr

/-- The results of a read of the disk, from those of a read of `places`. -/
theorem readResult_places {k : Kernel} {pd : FatPrivate} {o : OpenInfo}
    (pos n : Word) (out : Output Byte) :
    readResult k.sectors k pd o pos n out
      = ((readResult places k pd o pos n untouched).1,
        fun i => byteAt k.sectors (out i)
          ((readResult places k pd o pos n untouched).2 i)) := by
  unfold readResult
  by_cases hn : n.toInt ≤ 0
  · rw [if_pos hn, if_pos hn]
    rfl
  · rw [if_neg hn, if_neg hn]
    by_cases hfound : readCluster k pd o pos < 0
    · rw [if_pos hfound, if_pos hfound]
      rfl
    · rw [if_neg hfound, if_neg hfound]
      refine congrArg (Prod.mk 0) (funext fun i => ?_)
      unfold readOutput overwrite
      by_cases hi : (i : ℤ) < min n.toInt (clusterSizeBytes pd)
      · rw [if_pos hi]
        simp only [if_pos hi]
        unfold fetched
        by_cases hstray : (readPos k pd o pos).tmod sectorSize + i < 0
        · rw [if_pos hstray, if_pos hstray]
          rfl
        · rw [if_neg hstray, if_neg hstray]
          rfl
      · rw [if_neg hi]
        simp only [if_neg hi]
        rfl

/-- **The places are where the bytes come from**: a read of the disk delivers
the bytes at the places that the read of `places` delivers. The streamer never
looks at the bytes that it copies, so it does the same with any other disk, and
with a disk of places it tells where each byte is from. -/
theorem seekRead_places {k k' : Kernel} {pd : FatPrivate} {fd : ℤ}
    {o : OpenInfo} {pos : Word} (hm : Mounted k pd) (h : OpenFd k fd o pos)
    (hfile : o.fatItem.type = FatItemType.file)
    (seeks : List (ℤ × FileSeekMode)) (blockSize numBlocks : Word)
    (out : Output Byte) {r : ℤ × Output (Option Place)}
    (hrun : seekRead places fd seeks blockSize numBlocks untouched k
      = Except.ok (r, k')) :
    ∃ k'', seekRead k.sectors fd seeks blockSize numBlocks out k
      = Except.ok ((r.1, fun i => byteAt k.sectors (out i) (r.2 i)), k'') := by
  by_cases hn : (blockSize * numBlocks).toInt ≤ 0
  · obtain ⟨k₁, hplaces⟩ := seekRead_of_nonpos places hm h hfile seeks
      hn untouched
    rw [hplaces] at hrun
    rw [← (Prod.mk.inj (Except.ok.inj hrun)).1]
    exact seekRead_of_nonpos k.sectors hm h hfile seeks hn out
  · have hn := Int.not_le.mp hn
    have hspc : clusterSizeBytes pd ≠ 0 := fun hzero =>
      seekRead_of_no_size places hm h hfile hzero seeks hn untouched _ hrun
    obtain ⟨k₁, hplaces⟩ := seekRead_of_pos places hm hspc h hfile seeks
      hn untouched
    obtain ⟨k₂, hbytes⟩ := seekRead_of_pos k.sectors hm hspc h hfile
      seeks hn out
    rw [hplaces] at hrun
    rw [← (Prod.mk.inj (Except.ok.inj hrun)).1, hbytes, readResult_places]
    exact ⟨k₂, rfl⟩

/-! ## The places of a file

Which places are a file's, and what it takes for a run of bytes to be in it. A
run that goes beyond one cluster goes on in the next one on the disk, whichever
file that belongs to. -/

/-- The cluster at an index of a file's chain. -/
def fileCluster (k : Kernel) (pd : FatPrivate) (o : OpenInfo) (j : ℕ) : ℤ :=
  chase (fatEntry k.sectors pd) j (firstCluster o)

/-- The number of a cluster of data. -/
def IsDataCluster (cluster : ℤ) : Prop := 2 ≤ cluster ∧ cluster ≤ 0xFFEF

/-- **A place in a file**: that of a byte at an offset below `filesize`. The
cluster it lies in is found by following the chain, which need not be a
well-formed one, and is a data cluster. -/
def InFile (k : Kernel) (pd : FatPrivate) (o : OpenInfo)
    (place : Place) : Prop :=
  ∃ t, t < o.directoryItem.filesize.toNat
    ∧ IsDataCluster (fileCluster k pd o (t / clusterSize pd))
    ∧ place = placeAt (filePos pd (fileCluster k pd o) t)

/-- Every byte that a read after some seeks delivers is a byte of the
file. -/
def ReadConfined (k : Kernel) (pd : FatPrivate) (fd : ℤ) (o : OpenInfo)
    (seeks : List (ℤ × FileSeekMode)) (blockSize numBlocks : Word) : Prop :=
  ∀ r k', seekRead places fd seeks blockSize numBlocks untouched k
    = Except.ok (r, k') →
    ∀ i, r.2 i = Fetched.sector none
      ∨ ∃ place, r.2 i = Fetched.sector (some place) ∧ InFile k pd o place

/-- The file has the first `e` bytes of a cluster. -/
def HoldsTo (k : Kernel) (pd : FatPrivate) (o : OpenInfo)
    (cluster e : ℤ) : Prop :=
  IsDataCluster cluster ∧ ∃ j, fileCluster k pd o j = cluster
    ∧ j * clusterSizeBytes pd + e ≤ o.directoryItem.filesize.toNat

/-- The cluster a byte position is in. -/
def clusterOf (pd : FatPrivate) (pos : ℤ) : ℤ :=
  (pos - clusterPos pd 0) / clusterSizeBytes pd

/-- How far into its cluster a byte position is. -/
def offsetIn (pd : FatPrivate) (pos : ℤ) : ℤ :=
  (pos - clusterPos pd 0) % clusterSizeBytes pd

/-- **A run of `m` bytes, at most a cluster, that lies in a file**: it does
not pass the last byte position, and the file has the part of it in the
cluster where it starts and the part in the next one on the disk. -/
structure RunInFile (k : Kernel) (pd : FatPrivate) (o : OpenInfo)
    (pos m : ℤ) : Prop where
  nonneg : 0 ≤ pos
  below : pos + m ≤ 2 ^ 31
  here : HoldsTo k pd o (clusterOf pd pos)
    (min (offsetIn pd pos + m) (clusterSizeBytes pd))
  next : clusterSizeBytes pd < offsetIn pd pos + m →
    HoldsTo k pd o (clusterOf pd pos + 1)
      (offsetIn pd pos + m - clusterSizeBytes pd)

section Places

variable {k : Kernel} {pd : FatPrivate} {o : OpenInfo}

/-- Clusters lie one after the other. -/
theorem clusterPos_eq (pd : FatPrivate) (cluster : ℤ) :
    clusterPos pd cluster
      = clusterPos pd 0 + clusterSizeBytes pd * cluster := by
  unfold clusterPos clusterSizeBytes sectorSize
  ring

/-- A position, from its cluster and offset. -/
theorem clusterOf_offsetIn (cluster : ℤ) {r : ℤ} (h₀ : 0 ≤ r)
    (h₁ : r < clusterSizeBytes pd) :
    clusterOf pd (clusterPos pd cluster + r) = cluster
      ∧ offsetIn pd (clusterPos pd cluster + r) = r := by
  have hsub : clusterPos pd cluster + r - clusterPos pd 0
      = r + clusterSizeBytes pd * cluster := by
    rw [clusterPos_eq]
    omega
  unfold clusterOf offsetIn
  rw [hsub, Int.add_mul_ediv_left _ _ (by omega), Int.add_mul_emod_self_left,
    Int.ediv_eq_zero_of_lt h₀ h₁, Int.emod_eq_of_lt h₀ h₁]
  exact ⟨Int.zero_add _, rfl⟩

/-- The cluster and the offset of a position give it back. -/
theorem clusterPos_add_offsetIn (pd : FatPrivate) (pos : ℤ) :
    clusterPos pd (clusterOf pd pos) + offsetIn pd pos = pos := by
  have hsplit := Int.mul_ediv_add_emod (pos - clusterPos pd 0)
    (clusterSizeBytes pd)
  rw [clusterPos_eq]
  unfold clusterOf offsetIn
  omega

/-- What a cluster holds of a file is in the file. -/
theorem HoldsTo.inFile {cluster e : ℤ} (h : HoldsTo k pd o cluster e) {r : ℤ}
    (h₀ : 0 ≤ r) (hr : r < e) (he : e ≤ clusterSizeBytes pd) :
    InFile k pd o (placeAt (clusterPos pd cluster + r)) := by
  obtain ⟨hdata, j, hj, hsize⟩ := h
  have hcast := RegularFile.clusterSize_cast pd
  lift r to ℕ using h₀
  have hdiv : (j * clusterSize pd + r) / clusterSize pd = j := by
    rw [Nat.mul_comm, Nat.mul_add_div (by omega), Nat.div_eq_of_lt (by omega),
      Nat.add_zero]
  have hmod : (j * clusterSize pd + r) % clusterSize pd = r := by
    rw [Nat.mul_comm, Nat.mul_add_mod, Nat.mod_eq_of_lt (by omega)]
  refine ⟨j * clusterSize pd + r, ?_, ?_, ?_⟩
  · rw [← hcast] at hsize
    zify
    omega
  · rw [hdiv, hj]
    exact hdata
  · rw [filePos, hdiv, hmod, hj]

/-- A byte of the file is held by its cluster, with all before it. -/
theorem InFile.holdsTo (hsize : 0 < clusterSizeBytes pd) {pos : ℤ}
    (h : InFile k pd o (placeAt pos)) :
    HoldsTo k pd o (clusterOf pd pos) (offsetIn pd pos + 1) := by
  obtain ⟨t, ht, hdata, hplace⟩ := h
  have hcast := RegularFile.clusterSize_cast pd
  have hlt : ((t % clusterSize pd : ℕ) : ℤ) < clusterSizeBytes pd := by
    have := Nat.mod_lt t (show 0 < clusterSize pd by omega)
    omega
  obtain ⟨hcluster, hoffset⟩ := clusterOf_offsetIn
    (fileCluster k pd o (t / clusterSize pd)) (Int.natCast_nonneg _) hlt
  rw [placeAt_inj.mp hplace, filePos, hcluster, hoffset]
  refine ⟨hdata, t / clusterSize pd, rfl, ?_⟩
  have hsplit : ((t / clusterSize pd : ℕ) : ℤ) * clusterSize pd
      + (t % clusterSize pd : ℕ) = t :=
    mod_cast Nat.div_add_mod' t (clusterSize pd)
  rw [← hcast]
  omega

/-- The positions of a file's bytes are not negative. -/
theorem InFile.nonneg (hroot : 0 ≤ pd.rootDirectory.sectorPosEnd) {pos : ℤ}
    (h : InFile k pd o (placeAt pos)) : 0 ≤ pos := by
  obtain ⟨t, -, hdata, hplace⟩ := h
  have hmul : 0 ≤ (fileCluster k pd o (t / clusterSize pd) - 2)
      * pd.header.sectorsPerCluster.toNat :=
    Int.mul_nonneg (by have := hdata.1; omega) (Int.natCast_nonneg _)
  rw [placeAt_inj.mp hplace, filePos, clusterPos]
  omega

/-- The last byte of the file in a part of a cluster says that the file has the
part. -/
theorem InFile.holdsTo_end (hsize : 0 < clusterSizeBytes pd) {cluster e pos : ℤ}
    (h₀ : 0 < e) (he : e ≤ clusterSizeBytes pd)
    (hpos : pos + 1 = clusterPos pd cluster + e)
    (h : InFile k pd o (placeAt pos)) : HoldsTo k pd o cluster e := by
  obtain ⟨hcluster, hoffset⟩ := clusterOf_offsetIn cluster
    (show 0 ≤ e - 1 by omega) (show e - 1 < clusterSizeBytes pd by omega)
  have hlast := h.holdsTo hsize
  rw [show pos = clusterPos pd cluster + (e - 1) by omega, hcluster,
    hoffset] at hlast
  rwa [Int.sub_add_cancel] at hlast

/-- The offset of a position is one in a cluster. -/
theorem offsetIn_bounds (hsize : 0 < clusterSizeBytes pd) (pos : ℤ) :
    0 ≤ offsetIn pd pos ∧ offsetIn pd pos < clusterSizeBytes pd :=
  ⟨Int.emod_nonneg _ (Int.ne_of_gt hsize), Int.emod_lt_of_pos _ hsize⟩

/-- The next cluster. -/
theorem clusterPos_succ (pd : FatPrivate) (cluster : ℤ) :
    clusterPos pd (cluster + 1)
      = clusterPos pd cluster + clusterSizeBytes pd := by
  rw [clusterPos_eq, clusterPos_eq pd cluster]
  ring

/-- **A run whose bytes are all in the file** does not pass the last byte
position, and reads each byte at its position. -/
theorem inFile_of_fetched (hroot : 0 ≤ pd.rootDirectory.sectorPosEnd)
    {buf : Word} {pos m : ℤ} (hpos : IsInt32 pos) (hm : 0 < m)
    (hall : ∀ i : ℕ, i < m → ∃ place,
      fetched places buf pos i = Fetched.sector (some place)
        ∧ InFile k pd o place) :
    0 ≤ pos ∧ pos + m ≤ 2 ^ 31 ∧ ∀ i : ℕ, i < m →
    InFile k pd o (placeAt (pos + i)) := by
  -- a byte that is not stray is at its position
  have hat : ∀ i : ℕ, i < m → 0 ≤ wrap32 (pos + i)
      ∧ InFile k pd o (placeAt (wrap32 (pos + i))) := by
    intro i hi
    obtain ⟨place, hfetched, hin⟩ := hall i hi
    unfold fetched at hfetched
    by_cases hstray : pos.tmod sectorSize + i < 0
    · rw [if_pos hstray] at hfetched
      cases hfetched
    · rw [if_neg hstray] at hfetched
      have hplace : placeAt (wrap32 (pos + i)) = place :=
        Option.some.inj (Fetched.sector.inj hfetched)
      rw [← hplace] at hin
      exact ⟨hin.nonneg hroot, hin⟩
  have hnonneg : 0 ≤ pos := by
    have h₀ := (hat 0 hm).1
    rwa [Int.natCast_zero, Int.add_zero, wrap32_of_isInt32 hpos] at h₀
  have hbelow : pos + m ≤ 2 ^ 31 := by
    by_contra hover
    unfold IsInt32 at hpos
    have h₁ := (hat (2147483648 - pos).toNat (by omega)).1
    obtain ⟨q, hq, hint⟩ := wrap32_spec (pos + (2147483648 - pos).toNat)
    unfold IsInt32 at hint
    omega
  refine ⟨hnonneg, hbelow, fun i hi => ?_⟩
  have h₁ := (hat i hi).2
  rwa [wrap32_of_isInt32 (by unfold IsInt32; omega)] at h₁

/-- The bytes of a run in the file are in the file. -/
theorem RunInFile.inFile {pos m : ℤ} (h : RunInFile k pd o pos m)
    (hsize : 0 < clusterSizeBytes pd) (hle : m ≤ clusterSizeBytes pd) {i : ℕ}
    (hi : i < m) :
    InFile k pd o (placeAt (pos + i)) := by
  obtain ⟨hr₀, hr₁⟩ := offsetIn_bounds hsize pos
  have hsplit := clusterPos_add_offsetIn pd pos
  by_cases hin : offsetIn pd pos + i < clusterSizeBytes pd
  · have hbyte := h.here.inFile (r := offsetIn pd pos + i) (by omega) (by omega)
      (Int.min_le_right _ _)
    rwa [← Int.add_assoc, hsplit] at hbyte
  · have hnext := clusterPos_succ pd (clusterOf pd pos)
    have hbyte := (h.next (by omega)).inFile
      (r := offsetIn pd pos + i - clusterSizeBytes pd) (by omega)
        (by omega) (by omega)
    rwa [show clusterPos pd (clusterOf pd pos + 1)
      + (offsetIn pd pos + i - clusterSizeBytes pd) = pos + i by omega] at hbyte

/-- **All bytes of a run are in the file exactly when the run is.** A run of
consecutive bytes meets a cluster in an interval, so that it lies in the file
is a question about the few clusters that it reaches. -/
theorem runInFile_iff (hroot : 0 ≤ pd.rootDirectory.sectorPosEnd)
    (hsize : 0 < clusterSizeBytes pd) (buf : Word) {pos m : ℤ}
    (hpos : IsInt32 pos) (hm : 0 < m) (hle : m ≤ clusterSizeBytes pd) :
    (∀ i : ℕ, i < m → ∃ place,
      fetched places buf pos i = Fetched.sector (some place)
      ∧ InFile k pd o place) ↔ RunInFile k pd o pos m := by
  obtain ⟨hr₀, hr₁⟩ := offsetIn_bounds hsize pos
  have hsplit := clusterPos_add_offsetIn pd pos
  have hnext := clusterPos_succ pd (clusterOf pd pos)
  constructor
  · intro hall
    obtain ⟨hnonneg, hbelow, hin⟩ := inFile_of_fetched hroot hpos hm hall
    refine ⟨hnonneg, hbelow, ?_, fun hover => ?_⟩
    · -- the last byte of the run in the first cluster
      set e := min (offsetIn pd pos + m) (clusterSizeBytes pd) with he
      exact (hin (e - 1 - offsetIn pd pos).toNat (by omega)).holdsTo_end
        hsize (by omega)
        (by omega) (by omega)
    · -- the last byte of the run
      exact (hin (m - 1).toNat (by omega)).holdsTo_end hsize (by omega)
        (by omega) (by omega)
  · intro hrun i hi
    have hint : IsInt32 (pos + i) := by
      have := hrun.nonneg
      have := hrun.below
      unfold IsInt32
      omega
    refine ⟨placeAt (pos + i), ?_, hrun.inFile hsize hle hi⟩
    rw [fetched_of_nonneg _ _ hrun.nonneg, wrap32_of_isInt32 hint]
    rfl

end Places

/-! ## The reads that stay in the file

The condition, and the theorem. It is about every byte that is delivered, and a
read that delivers none meets it. -/

/-- **When a read of `n` bytes at a position stays in the file**: it reads
nothing; it divides by the size of a cluster, which is `0`; the walk to its
cluster fails, and it returns an error; or the run of bytes of one of its
rounds is the file's. Whether the heap has a free block makes no difference. -/
def StaysInFile (k : Kernel) (pd : FatPrivate) (o : OpenInfo)
    (pos n : Word) : Prop :=
  n.toInt ≤ 0 ∨ clusterSizeBytes pd = 0 ∨ readCluster k pd o pos < 0
    ∨ RunInFile k pd o (readPos k pd o pos) (min n.toInt (clusterSizeBytes pd))

/-- **Reads are confined to the file exactly where their bytes happen to be its
own.** For every mounted volume, every open regular file, every sequence of
seeks and every request after them. Neither `fat16_seek` nor `fat16_read` looks
at the size of the file, so a read past the end, or at a negative position, is
confined only if it delivers nothing, or if what it delivers stands in the file
as well. What is delivered is followed by its place on the disk, so that bytes
which are equal by chance are told apart. -/
theorem read_confined_iff {k : Kernel} {pd : FatPrivate} {fd : ℤ} {o : OpenInfo}
    {pos : Word} (hm : Mounted k pd) (hroot : 0 ≤ pd.rootDirectory.sectorPosEnd)
    (h : OpenFd k fd o pos) (hfile : o.fatItem.type = FatItemType.file)
    (seeks : List (ℤ × FileSeekMode)) (blockSize numBlocks : Word) :
    ReadConfined k pd fd o seeks blockSize numBlocks
      ↔ StaysInFile k pd o (seekAll o.fatItem.type seeks pos)
        (blockSize * numBlocks) := by
  unfold StaysInFile
  by_cases hn : (blockSize * numBlocks).toInt ≤ 0
  · refine ⟨fun _ => Or.inl hn, fun _ r k' hrun i => Or.inl ?_⟩
    obtain ⟨k₁, hnothing⟩ := seekRead_of_nonpos places hm h hfile seeks
      hn untouched
    rw [hnothing] at hrun
    rw [← (Prod.mk.inj (Except.ok.inj hrun)).1]
    rfl
  by_cases hspc : clusterSizeBytes pd = 0
  · refine ⟨fun _ => Or.inr (Or.inl hspc), fun _ r k' hrun => ?_⟩
    exact absurd hrun (seekRead_of_no_size places hm h hfile hspc seeks
      (by omega) untouched _)
  have hsize : 0 < clusterSizeBytes pd := by
    have := clusterSizeBytes_bounds pd
    omega
  set pos' := seekAll o.fatItem.type seeks pos
  obtain ⟨k₁, hread⟩ := seekRead_of_pos places hm hspc h hfile seeks
    (Int.not_le.mp hn) untouched
  rw [readResult, if_neg hn] at hread
  by_cases hfound : readCluster k pd o pos' < 0
  · rw [if_pos hfound] at hread
    refine ⟨fun _ => by tauto, fun _ r k' hrun i => Or.inl ?_⟩
    rw [hread] at hrun
    rw [← (Prod.mk.inj (Except.ok.inj hrun)).1]
    rfl
  rw [if_neg hfound] at hread
  have hrunIn := runInFile_iff (k := k) (o := o) hroot hsize k.freshBlock
    (isInt32_wrap32 _ : IsInt32 (readPos k pd o pos'))
    (show 0 < min (blockSize * numBlocks).toInt (clusterSizeBytes pd) by omega)
    (Int.min_le_right _ _)
  constructor
  · intro hconfined
    refine Or.inr (Or.inr (Or.inr (hrunIn.mp fun i hi => ?_)))
    have hbyte := hconfined _ _ hread i
    simp only [readOutput, overwrite, if_pos hi] at hbyte
    rcases hbyte with hnone | hplace
    · -- a byte that was read is not one that was there
      unfold fetched at hnone
      split at hnone <;> cases hnone
    · exact hplace
  · intro hstays r k' hrun i
    rw [hread] at hrun
    rw [← (Prod.mk.inj (Except.ok.inj hrun)).1]
    simp only [readOutput, overwrite]
    by_cases hi : (i : ℤ) < min (blockSize * numBlocks).toInt
      (clusterSizeBytes pd)
    · rw [if_pos hi]
      exact Or.inr (hrunIn.mpr (by tauto) i hi)
    · rw [if_neg hi]
      exact Or.inl rfl

/-- The theorem on the file of two clusters, for all of its first one. -/
theorem read_confined_iff_first_cluster :
    ReadConfined twoClusterKernel twoClusterPrivate 0 twoClusterFile
      [(0, seekSet)] 1 512 :=
  (read_confined_iff twoCluster_regularFile.mounted
    (by decide) twoCluster_regularFile.openFd rfl
    [(0, seekSet)] 1 512).mpr (Or.inr (Or.inr (Or.inr
      ⟨by decide, by decide, ⟨⟨by decide, by decide⟩, 0, by decide, by decide⟩,
        fun h => absurd h (by decide)⟩)))

/-- A read of 512 bytes from byte 256 of this file, all of them below
`filesize`, delivers 256 bytes of cluster 3, which is not the file's. -/
theorem read_in_file_not_confined :
    RegularFile twoClusterKernel twoClusterPrivate 0 twoClusterFile 0 2
      twoClusterChain
      ∧ twoClusterKernel.HasFreeBlock
      ∧ ¬ ReadConfined twoClusterKernel twoClusterPrivate 0 twoClusterFile
        [(256, seekSet)] 1
          512 := by
  refine ⟨twoCluster_regularFile,
    ⟨8, by decide, by decide⟩, fun hconfined => ?_⟩
  obtain ⟨k₁, hread⟩ := seekRead_of_pos places
    twoCluster_regularFile.mounted (by decide) twoCluster_regularFile.openFd rfl
      [(256, seekSet)]
    (show 0 < ((1 : Word) * (512 : Word)).toInt by decide) untouched
  rcases hconfined _ _ hread 256 with hnone | ⟨place, hplace, hin⟩
  · exact absurd hnone (by decide)
  · obtain rfl : (4, 0) = place := by
      have hfour : (readResult places twoClusterKernel twoClusterPrivate
        twoClusterFile 256 512
        untouched).2 256 = Fetched.sector (some (4, 0)) := by decide
      exact Option.some.inj (Fetched.sector.inj (hfour.symm.trans hplace))
    obtain ⟨t, ht, -, hplace⟩ := hin
    have hsector : (4 : ℤ)
        = filePos twoClusterPrivate
          (fileCluster twoClusterKernel twoClusterPrivate
          twoClusterFile) t / 512 := congrArg Prod.fst hplace
    have ht : t < 1024 := ht
    have hmod := Nat.mod_lt t (show 0 < 512 by decide)
    have hsize : clusterSize twoClusterPrivate = 512 := by decide
    rw [filePos, hsize] at hsector
    -- its clusters are 2 and 4, in the sectors 3 and 5
    rcases (show t / 512 = 0 ∨ t / 512 = 1 by omega) with hj | hj
    · rw [hj, show clusterPos twoClusterPrivate
        (fileCluster twoClusterKernel twoClusterPrivate
        twoClusterFile 0) = 1536 by decide] at hsector
      omega
    · rw [hj, show clusterPos twoClusterPrivate
        (fileCluster twoClusterKernel twoClusterPrivate
        twoClusterFile 1) = 2560 by decide] at hsector
      omega

end File

end N00bOS
