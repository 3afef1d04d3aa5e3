import N00bOS.FileReads
import N00bOS.GuardedWalk

/-!
# Walking the FAT

`get_cluster` follows a chain one link at a time, through a seek and a read of
the FAT for each. What it computes is a guarded walk of the FAT as a function
(`chase_eq_walk`): the iterate, or `-EIO` as soon as an entry is not a link.
That is all there is to it whether the table is sane or not, and walks of it
compose (`get_cluster_iterates_fat`), which is `N00bOS.GuardedWalk`'s
composition for this function and this test.

The sign of what `get_cluster` returns tells the two cases apart: an entry is
never negative, so only a walk that stops is (`clusterAt_neg_iff`).
-/

namespace N00bOS

open KernelM GuardedWalk

namespace Fat16

/-- An entry of the FAT that is a link: neither free nor reserved, bad or the
last one of a chain. -/
def IsLink (fatEntry : ℤ) : Prop := fatEntry ≠ 0 ∧ fatEntry < 0xFFF0

instance : DecidablePred IsLink := fun fatEntry =>
  inferInstanceAs (Decidable (fatEntry ≠ 0 ∧ fatEntry < 0xFFF0))

/-- **The walk of a chain is a guarded walk**, with `-EIO` where it stops.
Everything about chains that is not about FAT entries is therefore in
`N00bOS.GuardedWalk`. -/
theorem chase_eq_walk (fat : ℤ → ℤ) (n : ℕ) (cluster : ℤ) :
    chase fat n cluster = (walk fat IsLink n cluster).getD (-eio) := by
  induction n generalizing cluster with
  | zero => rfl
  | succ n ih =>
    rw [chase]
    by_cases hlink : IsLink (fat cluster)
    · have hgo : ¬ (fat cluster = 0 ∨ 0xFFF0 ≤ fat cluster) := by
        rintro (hzero | hle)
        · exact hlink.1 hzero
        · exact absurd hle (Int.not_le.mpr hlink.2)
      rw [if_neg hgo, ih, walk_succ_of_ok hlink]
    · have hstop : fat cluster = 0 ∨ 0xFFF0 ≤ fat cluster := by
        by_contra hcon
        exact hlink ⟨fun hzero => hcon (Or.inl hzero),
          Int.not_le.mp fun hle => hcon (Or.inr hle)⟩
      rw [if_pos hstop, walk_succ_of_not_ok hlink]
      rfl

/-- A cluster that a walk of the FAT has arrived at. -/
theorem walk_fatEntry_bounds {sectors : ℤ → ℕ → Byte} {pd : FatPrivate} {n : ℕ}
    {cluster found : ℤ} (h₀ : 0 ≤ cluster) (h₁ : cluster ≤ 65535)
    (h : walk (fatEntry sectors pd) IsLink n cluster = some found) :
    0 ≤ found ∧ found ≤ 65535 :=
  walk_induction (p := fun c => 0 ≤ c ∧ c ≤ 65535)
    (fatEntry_nonneg sectors pd) ⟨h₀, h₁⟩ h

/-- **A walk fails** when an entry on the way is not a link. The entries on the
way are the iterates of the FAT from the first cluster on, as many as whole
clusters fit in the offset. -/
theorem clusterAt_neg_iff {sectors : ℤ → ℕ → Byte} {pd : FatPrivate}
    {cluster : ℤ} (h₀ : 0 ≤ cluster) (h₁ : cluster ≤ 65535) (offset : ℤ) :
    clusterAt sectors pd cluster offset < 0
      ↔ ∃ i < (offset.tdiv (clusterSizeBytes pd)).toNat,
        ¬ IsLink ((fatEntry sectors pd)^[i + 1] cluster) := by
  rw [clusterAt, chase_eq_walk]
  generalize (offset.tdiv (clusterSizeBytes pd)).toNat = n
  cases harrive : walk (fatEntry sectors pd) IsLink n cluster with
  | none =>
    rw [walk_eq_ite] at harrive
    refine iff_of_true (by decide) ?_
    by_contra hall
    rw [if_pos fun i hi => not_not.mp fun hlink =>
      hall ⟨i, hi, hlink⟩] at harrive
    cases harrive
  | some found =>
    obtain ⟨hlo, -⟩ := walk_fatEntry_bounds h₀ h₁ harrive
    refine iff_of_false (Int.not_lt.mpr hlo) ?_
    rintro ⟨i, hi, hlink⟩
    rw [walk_eq_ite, if_neg fun hall => hlink (hall i hi)] at harrive
    cases harrive

/-- `get_cluster` at an offset of `n` clusters is a walk of `n` links. -/
theorem getCluster_mul {k : Kernel} {pd : FatPrivate} (hm : Mounted k pd)
    (hspc : clusterSizeBytes pd ≠ 0) {cluster : ℤ} (h₀ : 0 ≤ cluster)
    (h₁ : cluster ≤ 65535) (n : ℕ) :
    ∃ k', Quiet k k'
      ∧ getCluster DiskRef.primary cluster (n * clusterSizeBytes pd) k
      = Except.ok ((walk (fatEntry k.sectors pd) IsLink n cluster).getD (-eio),
        k') := by
  obtain ⟨k', hrun, hq⟩ := getCluster_spec hm hspc h₀ h₁
    (n * clusterSizeBytes pd)
  refine ⟨k', hq, ?_⟩
  rw [hrun, clusterAt, Int.mul_tdiv_cancel _ hspc, Int.toNat_natCast,
    chase_eq_walk]

/-- Two walks, the second one from where the first one has arrived. -/
def getClusterTwice (d : DiskRef) (startingCluster offset offset' : ℤ) :
    KernelM ℤ := do
  let cluster ← getCluster d startingCluster offset
  if cluster < 0 then
    return cluster
  getCluster d cluster offset'

/-- **Walking clusters is iterating the FAT.** For every content of the FAT,
cyclic chains included, every starting cluster of 16 bits, every size of a
cluster and every offset that is not negative: `get_cluster` returns the
iterate of the FAT, as often as the offset has clusters, when every entry
visited is a link, and `-EIO` otherwise. And walking `a` and then `b` clusters
is walking `a + b`. -/
theorem get_cluster_iterates_fat {k : Kernel} {pd : FatPrivate}
    (hm : Mounted k pd) (hspc : clusterSizeBytes pd ≠ 0) {s : ℤ} (h₀ : 0 ≤ s)
    (h₁ : s ≤ 0xFFFF) :
    (∀ offset : ℤ, 0 ≤ offset → ∃ k', Quiet k k'
      ∧ getCluster DiskRef.primary s offset k = Except.ok
        (if ∀ i < (offset / clusterSizeBytes pd).toNat,
            IsLink ((fatEntry k.sectors pd)^[i + 1] s)
          then (fatEntry k.sectors pd)^[(offset / clusterSizeBytes pd).toNat] s
            else -eio, k'))
      ∧ ∀ a b : ℕ, ∃ cluster k₁ k₂,
        getClusterTwice DiskRef.primary s (a * clusterSizeBytes pd)
          (b * clusterSizeBytes pd) k
            = Except.ok (cluster, k₁)
          ∧ getCluster DiskRef.primary s ((a + b : ℕ) * clusterSizeBytes pd) k
            = Except.ok (cluster, k₂) := by
  refine ⟨fun offset hoffset => ?_, fun a b => ?_⟩
  · obtain ⟨k', hrun, hq⟩ := getCluster_spec hm hspc h₀ h₁ offset
    refine ⟨k', hq, ?_⟩
    rw [hrun, clusterAt, Int.tdiv_eq_ediv_of_nonneg hoffset, chase_eq_walk,
      walk_eq_ite]
    split
    · rfl
    · rfl
  · obtain ⟨k₁, hq₁, hfirst⟩ := getCluster_mul hm hspc h₀ h₁ a
    obtain ⟨k', -, hwhole⟩ := getCluster_mul hm hspc h₀ h₁ (a + b)
    rw [walk_add] at hwhole
    cases harrive : walk (fatEntry k.sectors pd) IsLink a s with
    | none =>
      rw [harrive] at hfirst hwhole
      refine ⟨-eio, k₁, k', ?_, hwhole⟩
      rw [getClusterTwice, Machine.bind_ok hfirst]
      rfl
    | some cluster =>
      rw [harrive] at hfirst hwhole
      obtain ⟨hlo, hhi⟩ := walk_fatEntry_bounds h₀ h₁ harrive
      obtain ⟨k₂, -, hsecond⟩ := getCluster_mul (hm.quiet hq₁) hspc hlo hhi b
      rw [show k₁.sectors = k.sectors by rw [hq₁.eq]] at hsecond
      refine ⟨_, k₂, k', ?_, hwhole⟩
      have hgo : ¬ (some cluster).getD (-eio) < 0 := Int.not_lt.mpr hlo
      rw [getClusterTwice, Machine.bind_ok hfirst, if_neg hgo]
      exact hsecond

/-- The theorem on the file of two clusters: one link from cluster 2 is cluster
4. -/
theorem get_cluster_iterates_fat_two_clusters :
    ∃ k', getCluster DiskRef.primary 2 512 File.twoClusterKernel
      = Except.ok (4, k') := by
  obtain ⟨k', -, hrun⟩ :=
    (get_cluster_iterates_fat File.twoCluster_regularFile.mounted
    (by decide) (show (0 : ℤ) ≤ 2 by decide) (by decide)).1 512 (by decide)
  refine ⟨k', hrun.trans ?_⟩
  rw [if_pos (by decide)]
  rfl

end Fat16

end N00bOS
