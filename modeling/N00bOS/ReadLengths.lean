import N00bOS.ClusterWalk

/-!
# How much a read asks for

`fat16_read` multiplies two sizes of 32 bits and passes the product on as an
`int`. A product from `2 ^ 31` on arrives as something else, and what arrives
is read: nothing at all, when it is not positive. Such a read fails only if the
walk to its cluster does (`fread_no_short_read_iff`).

What reaches `read_internal` is the function `requestedLength` of the two
sizes; `OpenFd.fread_requested` says so of a whole `fread`, and the rest is
arithmetic on that length and the results of `N00bOS.ClusterSpec`.
-/

namespace N00bOS

open KernelM Fat16

namespace File

/-- **The length that `fat16_read` asks `read_internal` for.** It is the
product of two unsigned numbers of 32 bits, taken for an `int`. -/
def requestedLength (blockSize numBlocks : Word) : ℤ :=
  (blockSize * numBlocks).toInt

/-- It is the product below `2 ^ 31`. -/
theorem requestedLength_of_lt {blockSize numBlocks : Word}
    (h : blockSize.toNat * numBlocks.toNat < 2 ^ 31) :
    requestedLength blockSize numBlocks
      = (blockSize.toNat * numBlocks.toNat : ℕ) := by
  have hprod : (blockSize * numBlocks).toNat
      = blockSize.toNat * numBlocks.toNat := by
    rw [BitVec.toNat_mul, Nat.mod_eq_of_lt (by omega)]
  rw [requestedLength, BitVec.toInt_eq_toNat_of_lt (by omega), hprod]

/-- It is positive when the low 32 bits of the product are a positive `int`. -/
theorem requestedLength_pos_iff (blockSize numBlocks : Word) :
    0 < requestedLength blockSize numBlocks
      ↔ 0 < blockSize.toNat * numBlocks.toNat % 2 ^ 32
        ∧ blockSize.toNat * numBlocks.toNat % 2 ^ 32 < 2 ^ 31 := by
  have hprod : (blockSize * numBlocks).toNat
      = blockSize.toNat * numBlocks.toNat % 2 ^ 32 :=
    BitVec.toNat_mul _ _
  rw [← hprod, requestedLength, BitVec.toInt_eq_toNat_cond]
  have hlt := (blockSize * numBlocks).isLt
  split
  · omega
  · omega

/-- **No silent short read**: when `fread` succeeds, the length that was asked
for is the product; and for a product that is not an `int` it returns an
error. -/
structure NoShortRead {α : Type} (source : ℤ → ℕ → α) (k : Kernel) (fd : ℤ)
    (blockSize numBlocks : Word) (out : Output α) : Prop where
  exact : ∀ (res : ℤ) (data : Output α) (k' : Kernel),
    fread source out blockSize numBlocks fd k = Except.ok ((res, data), k') →
    0 ≤ res →
      requestedLength blockSize numBlocks
        = (blockSize.toNat * numBlocks.toNat : ℕ)
  rejected : 2 ^ 31 ≤ blockSize.toNat * numBlocks.toNat →
    ∃ (res : ℤ) (data : Output α) (k' : Kernel),
      fread source out blockSize numBlocks fd k = Except.ok ((res, data), k')
        ∧ res < 0

/-- The walk to the cluster of a read fails: a cluster has a size, and an entry
on the way is not a link. -/
structure WalkFails (k : Kernel) (pd : FatPrivate) (o : OpenInfo)
    (pos : Word) : Prop where
  size : clusterSizeBytes pd ≠ 0
  broken : ∃ i < (pos.toInt.tdiv (clusterSizeBytes pd)).toNat,
    ¬ IsLink ((fatEntry k.sectors pd)^[i + 1] (firstCluster o))

section Lengths

variable {α : Type} (source : ℤ → ℕ → α) {k : Kernel} {pd : FatPrivate} {fd : ℤ}
  {o : OpenInfo} {pos : Word} {blockSize numBlocks : Word}

/-- `fread` of a regular file is `read_internal` of the requested length. -/
theorem OpenFd.fread_requested (h : OpenFd k fd o pos)
    (hfile : o.fatItem.type = FatItemType.file) (hbs : 1 ≤ blockSize.toNat)
    (hnb : 1 ≤ numBlocks.toNat) (out : Output α) :
    fread source out blockSize numBlocks fd k
      = readInternal source DiskRef.primary (firstCluster o)
      pos.toInt (requestedLength blockSize numBlocks) out k := by
  have hne : ∀ w : Word, 1 ≤ w.toNat → w ≠ 0 := by
    rintro w hw rfl
    exact absurd hw (by decide)
  rw [h.fread_eq source (hne _ hbs) (hne _ hnb), h.fat16Read_eq source hfile]
  rfl

/-- **A read of a positive length that fails** has failed on the way to its
cluster. -/
theorem walkFails_iff (hm : Mounted k pd) {total : ℤ} (htotal : 0 < total)
    (out : Output α) :
    WalkFails k pd o pos ↔ ∃ (res : ℤ) (data : Output α) (k' : Kernel),
      readInternal source DiskRef.primary (firstCluster o) pos.toInt total out k
        = Except.ok ((res, data), k') ∧ res < 0 := by
  obtain ⟨h₀, h₁⟩ := firstCluster_bounds o
  have hbroken : clusterAt k.sectors pd (firstCluster o) pos.toInt < 0 ↔ _ :=
    clusterAt_neg_iff h₀ h₁ pos.toInt
  constructor
  · rintro ⟨hspc, hfails⟩
    rw [← hbroken] at hfails
    obtain ⟨k', -, hread⟩ :=
      readInternal_spec source hm hspc h₀ h₁ pos.toInt total out
    rw [if_neg (Int.not_le.mpr htotal), if_pos hfails] at hread
    exact ⟨_, _, k', hread, hfails⟩
  · rintro ⟨res, data, k', hrun, hneg⟩
    have hspc : clusterSizeBytes pd ≠ 0 := fun hzero =>
      readInternal_of_no_size source hm hzero pos.toInt htotal out _ hrun
    refine ⟨hspc, hbroken.mp ?_⟩
    obtain ⟨k₁, -, hread⟩ :=
      readInternal_spec source hm hspc h₀ h₁ pos.toInt total out
    rw [if_neg (Int.not_le.mpr htotal), hrun] at hread
    by_contra hfound
    rw [if_neg hfound] at hread
    have hres := (Prod.mk.inj (Prod.mk.inj (Except.ok.inj hread)).1).1
    omega

/-- **No read is silently short exactly when the product is an `int`** – or
when the low 32 bits of it are a positive one, and the walk to the cluster
fails. For every open regular file, every position and all sizes of at least 1;
what `read_internal` is asked for is the first part. A product that wraps is a
read of another length, and `fread` returns `0` for it, unless the read fails
of itself. That it does is a matter of the FAT alone: on a full heap too the
entries are read. -/
theorem fread_no_short_read_iff (hm : Mounted k pd) (h : OpenFd k fd o pos)
    (hfile : o.fatItem.type = FatItemType.file) (hbs : 1 ≤ blockSize.toNat)
    (hnb : 1 ≤ numBlocks.toNat) (out : Output α) :
    fread source out blockSize numBlocks fd k
      = readInternal source DiskRef.primary
        (firstCluster o) pos.toInt (requestedLength blockSize numBlocks) out k
      ∧ (NoShortRead source k fd blockSize numBlocks out
        ↔ blockSize.toNat * numBlocks.toNat < 2 ^ 31
          ∨ (0 < blockSize.toNat * numBlocks.toNat % 2 ^ 32
            ∧ blockSize.toNat * numBlocks.toNat % 2 ^ 32 < 2 ^ 31
            ∧ WalkFails k pd o pos)) := by
  rw [← and_assoc, ← requestedLength_pos_iff]
  have hrequested := h.fread_requested source hfile hbs hnb out
  refine ⟨hrequested, fun hright => ?_, fun hwhen => ?_⟩
  · by_cases hsmall : blockSize.toNat * numBlocks.toNat < 2 ^ 31
    · exact Or.inl hsmall
    · obtain ⟨res, data, k', hrun, hneg⟩ :=
        hright.rejected (Nat.le_of_not_lt hsmall)
      rw [hrequested] at hrun
      -- a length that is not positive is read without an error
      have hpos : 0 < requestedLength blockSize numBlocks := by
        by_contra hzero
        rw [readInternal_of_nonpos source hm _ (Int.not_lt.mp hzero)] at hrun
        have hres := (Prod.mk.inj (Prod.mk.inj (Except.ok.inj hrun)).1).1
        omega
      exact Or.inr ⟨hpos,
        (walkFails_iff source hm hpos out).mpr ⟨res, data, k', hrun, hneg⟩⟩
  · rcases hwhen with hsmall | ⟨hpos, hfails⟩
    · exact ⟨fun _ _ _ _ _ => requestedLength_of_lt hsmall,
        fun hlarge => absurd hsmall (Nat.not_lt.mpr hlarge)⟩
    · obtain ⟨res, data, k', hrun, hneg⟩ :=
        (walkFails_iff source hm hpos out).mp hfails
      rw [← hrequested] at hrun
      refine ⟨fun res' data' k'' hrun' hnonneg => ?_, fun _ =>
        ⟨res, data, k', hrun, hneg⟩⟩
      have hres :=
        (Prod.mk.inj (Prod.mk.inj (Except.ok.inj (hrun.symm.trans hrun'))).1).1
      omega

end Lengths

/-- The theorem on the file of two clusters, for one block of 512 bytes. -/
theorem fread_no_short_read_iff_one_block :
    NoShortRead twoClusterSectors twoClusterKernel 0 512 1
      (fun _ => Fetched.sector 0) :=
  (fread_no_short_read_iff twoClusterSectors twoCluster_regularFile.mounted
    twoCluster_regularFile.openFd rfl (by decide) (by decide) _).2.mpr
      (Or.inl (by decide))

/-- A read of `2 ^ 16` blocks of `2 ^ 16` bytes from this file returns `0`,
having asked for no bytes. -/
theorem empty_read_succeeds :
    OpenFd twoClusterKernel 0 twoClusterFile 0
      ∧ twoClusterFile.fatItem.type = FatItemType.file
      ∧ fread twoClusterSectors (fun _ =>
        Fetched.sector 0) 0x10000 0x10000 0 twoClusterKernel
        = Except.ok ((0, fun _ => Fetched.sector 0), twoClusterKernel)
      ∧ requestedLength 0x10000 0x10000 = 0
      ∧ ¬ NoShortRead twoClusterSectors twoClusterKernel 0 0x10000 0x10000
          (fun _ => Fetched.sector 0) := by
  have hopen := twoCluster_regularFile.openFd
  have hrun : fread twoClusterSectors (fun _ => Fetched.sector 0) 0x10000
    0x10000 0 twoClusterKernel
      = Except.ok ((0, fun _ => Fetched.sector 0), twoClusterKernel) := by
    rw [hopen.fread_requested twoClusterSectors rfl (by decide) (by decide),
      readInternal_of_nonpos _ twoCluster_regularFile.mounted _ (by decide)]
  refine ⟨hopen, rfl, hrun, by decide, fun hright => ?_⟩
  exact absurd (hright.exact _ _ _ hrun (Int.le_refl 0)) (by decide)

end File

end N00bOS
