import N00bOS.FileReads
import N00bOS.Frames

/-!
# Reading on

`disk::streamer::read` moves its stream on by what it has read; `fat16_read`
leaves the position of the descriptor where it is (`OpenFd.fread`). So a second
read starts where the first one did, and two reads in a row never compose
(`sequential_reads_never_compose`).

That reads compose has three parts: the bytes, the position behind them, and
where a seek from there goes. A descriptor is at one position only
(`OpenFd.pos_unique`), so the second part already fails for every first read of
at least one byte. The comparison is with the streamer, where all three hold
(`N00bOS.DiskSlices`).
-/

namespace N00bOS

open KernelM Fat16 Machine

namespace File

/-- A descriptor is at one position. -/
theorem OpenFd.pos_unique {k : Kernel} {fd : ℤ} {o : OpenInfo} {pos pos' : Word}
    (h : OpenFd k fd o pos) (h' : OpenFd k fd o pos') : pos = pos' :=
  (FatItemDescriptor.mk.inj
    (Option.some.inj (h.descriptor.symm.trans h'.descriptor))).2

/-- **A read leaves the descriptor at its position.** It is a read through any
descriptor, and a read of any length, with any result. -/
theorem OpenFd.fread {k k' : Kernel} {fd : ℤ} {o : OpenInfo} {pos : Word}
    (h : OpenFd k fd o pos) {α : Type} {source : ℤ → ℕ → α} {fd' : ℤ}
    {blockSize numBlocks : Word} {out : Output α} {r : ℤ × Output α}
    (hrun : File.fread source out blockSize numBlocks fd' k
      = Except.ok (r, k')) :
    OpenFd k' fd o pos := by
  have hframe := ReadFrame.fread _ _ _ _ _ _ _ _ hrun
  rw [hframe.eq]
  exact ⟨h.nonneg, h.lt, h.slot, h.struct, h.privateData_ne_null, h.descriptor,
    h.item_ne_null, h.item, h.entry⟩

/-- A read of `n` bytes, in blocks. -/
structure ReadSize (n : ℕ) where
  /-- The size of a block. -/
  blockSize : Word
  /-- How many there are. -/
  numBlocks : Word
  /-- Together they are the bytes. -/
  prod : blockSize.toNat * numBlocks.toNat = n

/-- **Two reads compose**: reads of `n` and of `m` bytes deliver what one read
of `n + m` bytes delivers, and leave the descriptor behind them; and a seek
from there goes from there. -/
def ReadsCompose (k : Kernel) (fd : ℤ) (o : OpenInfo) (pos : Word) {n m : ℕ}
    (first : ReadSize n) (second : ReadSize m) (whole : ReadSize (n + m))
    (out₁ out₂ out : Output Byte) : Prop :=
  ∃ data₁ k₁ data₂ k₂ data k',
    fread k.sectors out₁ first.blockSize first.numBlocks fd k
      = Except.ok ((0, data₁), k₁)
    ∧ fread k₁.sectors out₂ second.blockSize second.numBlocks fd k₁ = Except.ok
      ((0, data₂), k₂)
    ∧ fread k.sectors out whole.blockSize whole.numBlocks fd k = Except.ok
      ((0, data), k')
    ∧ (∀ i, i < n → data₁ i = data i) ∧ (∀ i, i < m → data₂ i = data (n + i))
    ∧ OpenFd k₂ fd o (pos + BitVec.ofNat 32 (n + m))
    ∧ ∀ offset : ℤ, 0 ≤ pos.toNat + n + m + offset →
        pos.toNat + n + m + offset ≤ o.directoryItem.filesize.toNat →
        ∃ k₃, fseek fd offset seekCurrent k₂ = Except.ok (0, k₃)
          ∧ OpenFd k₃ fd o (BitVec.ofInt 32 (pos.toNat + n + m + offset))

/-- **Sequential reads never compose.** For every open file, every position and
all reads, the first of at least one byte, that end inside the file.
`fat16_read` does not move the position, so the second read starts where the
first one did; a seek from the current position afterwards goes from there as
well, whatever the bytes were. -/
theorem sequential_reads_never_compose {k : Kernel} {fd : ℤ} {o : OpenInfo}
    {pos : Word} (h : OpenFd k fd o pos) {n m : ℕ} (hn : 0 < n)
    (hend : pos.toNat + n + m ≤ o.directoryItem.filesize.toNat)
    (first : ReadSize n) (second : ReadSize m) (whole : ReadSize (n + m))
    (out₁ out₂ out : Output Byte) :
    ¬ ReadsCompose k fd o pos first second whole out₁ out₂ out := by
  rintro ⟨data₁, k₁, data₂, k₂, data, k', h₁, h₂, -, -, -, hpos, -⟩
  have hsame := congrArg BitVec.toNat (((h.fread h₁).fread h₂).pos_unique hpos)
  have hfilesize := o.directoryItem.filesize.isLt
  rw [BitVec.toNat_add, BitVec.toNat_ofNat] at hsame
  omega

/-- One byte. -/
def oneByte : ReadSize 1 := ⟨1, 1, by decide⟩

/-- Two bytes, in one block. -/
def twoBytes : ReadSize 2 := ⟨2, 1, by decide⟩

/-- The theorem on the file of two clusters, from its start. -/
theorem sequential_reads_never_compose_one_byte :
    ¬ ReadsCompose twoClusterKernel 0 twoClusterFile 0 oneByte oneByte twoBytes
      (fun _ => Fetched.sector 0) (fun _ => Fetched.sector 0)
        (fun _ => Fetched.sector 0) :=
  sequential_reads_never_compose twoCluster_regularFile.openFd (by decide)
    (by decide) _ _ _ _ _ _

/-- Two reads of one byte of this regular file, with memory for their
buffers, leave the descriptor where it was. -/
theorem two_bytes_not_composed :
    RegularFile twoClusterKernel twoClusterPrivate 0 twoClusterFile 0 2
      twoClusterChain
      ∧ twoClusterKernel.HasFreeBlock
      ∧ (0 : Word).toNat + 1 + 1 ≤ twoClusterFile.directoryItem.filesize.toNat
      ∧ ¬ ReadsCompose twoClusterKernel 0 twoClusterFile 0 oneByte
        oneByte twoBytes
        (fun _ => Fetched.sector 0) (fun _ => Fetched.sector 0)
          (fun _ => Fetched.sector 0) := by
  refine ⟨twoCluster_regularFile, ⟨8, by decide, by decide⟩, by decide, ?_⟩
  rintro ⟨data₁, k₁, data₂, k₂, data, k', h₁, h₂, -, -, -, hpos, -⟩
  exact absurd (((twoCluster_regularFile.openFd.fread h₁).fread h₂).pos_unique
    hpos) (by decide)

end File

end N00bOS
