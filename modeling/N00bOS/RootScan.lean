import N00bOS.VolumeLayout

/-!
# How far the scan of the root directory goes

The loop of `get_directory_total_items` ends at an entry that starts with
`0x00`, and looks at nothing else: the header says how many entries the root
directory has, and the scan does not. A scan that may look at so many entries
only (`getDirectoryTotalItemsWithin`) does the same when one of them ends it,
whatever is free on the heap; and only then, as long as these entries lie at
positions of the disk and not beyond `2 ^ 31`, where the scan reads memory
instead (`root_scan_bounded_iff`). With a full root directory the scan runs on
into the first cluster.

From 1009 live entries on the items lie over the heap table. Where their bytes
read as marks of blocks in use the scan goes on as before (`SpareTable`); what
becomes of a scan that makes the blocks of its own structures look free is not
followed here.

The proof has two halves. A scan that ends on the disk returns, because neither
a full heap nor an item that spares the heap table keeps it from doing so
(`getDirectoryTotalItemsWithin_spec`); and a scan that returns within some
entries of the disk has found a free one among them
(`getDirectoryTotalItemsWithin_eq_ok`).
-/

namespace N00bOS

open KernelM Listing

namespace Fat16

/-! ## Stopping a scan

A bound on the rounds of a scan is no more than a bound: a scan that has ended
does the same with more rounds. -/

section Within

variable {k : Kernel} {stream : Ptr} {directory : Option FatDirectory}

/-- **A scan that has ended** does the same with more rounds. So two bounds
that a scan ends within give the same count and the same state. -/
theorem countItems_mono {rounds rounds' numItems : ℕ} (hle : rounds ≤ rounds')
    {r : ℤ × Kernel}
    (h : countItems stream directory rounds numItems k = Except.ok r) :
    countItems stream directory rounds' numItems k = Except.ok r := by
  induction rounds generalizing k rounds' numItems with
  | zero => cases h
  | succ rounds ih =>
    obtain ⟨rounds', rfl⟩ := Nat.exists_eq_add_one.mpr (Nat.zero_lt_of_lt hle)
    replace ih := fun k numItems =>
      @ih k rounds' numItems (Nat.le_of_succ_le_succ hle)
    rw [countItems, Machine.get_bind] at h ⊢
    obtain ⟨read, k₁, hread, h₁⟩ := Machine.bind_eq_ok.mp h
    rw [Machine.bind_ok hread]
    dsimp only at h₁ ⊢
    split at h₁
    · next hresult => rwa [if_pos hresult]
    · next hresult =>
      rw [if_neg hresult]
      obtain ⟨item, k₂, hitem, h₂⟩ := Machine.bind_eq_ok.mp h₁
      rw [Machine.bind_ok hitem]
      split at h₂
      · next hstop => rwa [if_pos hstop]
      · next hgo =>
        rw [if_neg hgo]
        split at h₂
        · next hskip => exact (if_pos hskip).symm ▸ ih _ _ h₂
        · next hskip =>
          rw [if_neg hskip]
          obtain ⟨u, k₃, hpopulate, h₃⟩ := Machine.bind_eq_ok.mp h₂
          rw [Machine.bind_ok hpopulate]
          exact ih _ _ h₃

/-- So has one of a directory. -/
theorem getDirectoryTotalItemsWithin_mono {d : DiskRef} {sector : Word}
    {directory : Option FatDirectory} {rounds rounds' : ℕ}
    (hle : rounds ≤ rounds') {r : ℤ × Kernel}
    (h : getDirectoryTotalItemsWithin rounds d sector directory k
      = Except.ok r) :
    getDirectoryTotalItemsWithin rounds' d sector directory k
      = Except.ok r := by
  obtain ⟨pd, k₁, hprivate, h₁⟩ := Machine.bind_eq_ok.mp h
  obtain ⟨result, k₂, hseek, h₂⟩ := Machine.bind_eq_ok.mp h₁
  rw [getDirectoryTotalItemsWithin, Machine.bind_ok hprivate,
    Machine.bind_ok hseek]
  split at h₂
  · next hresult => rwa [if_pos hresult]
  · next hresult =>
    rw [if_neg hresult]
    exact countItems_mono hle h₂

end Within

/-! ## The bound of the header

What the number of entries in the header would have to do with the scan, and
when it has. -/

/-- A volume whose root directory is about to be scanned: its private data is
in place, and nothing was ever allocated for the items. -/
structure RootScan (k : Kernel) (pd : FatPrivate) : Prop where
  mounted : Mounted k pd
  item_null : pd.rootDirectory.item.addr = 0

/-- **The scan of the root directory is bounded**: it returns a count, no
larger than the number of entries in the header, and it returns the same when
it may look at so many entries only. -/
def ScanBounded (k : Kernel) (pd : FatPrivate) : Prop :=
  ∃ total k', getDirectoryTotalItems DiskRef.primary
    (BitVec.ofInt 32 (rootSector pd))
      (some pd.rootDirectory) k = Except.ok (total, k')
    ∧ getDirectoryTotalItemsWithin pd.header.rootDirEntries.toNat
      DiskRef.primary
      (BitVec.ofInt 32 (rootSector pd)) (some pd.rootDirectory) k
        = Except.ok (total, k')
    ∧ 0 ≤ total ∧ total ≤ pd.header.rootDirEntries.toNat

/-- **The root directory ends in its region**: one of the entries that the
header speaks of starts with `0x00`. -/
def EndsInRegion (k : Kernel) (pd : FatPrivate) : Prop :=
  ∃ entries, Entries IsFree
    (scanned k.sectors (wrap32 (rootSector pd * sectorSize))) entries
    ∧ entries.length < pd.header.rootDirEntries.toNat

/-- **The items spare the heap table**: of the live entries before the first
free one none is written over the mark of a block so that it looks free, or
over the kernel. -/
def ItemsSpare (k : Kernel) (pd : FatPrivate) : Prop :=
  ∀ entries, Entries IsFree
    (scanned k.sectors (wrap32 (rootSector pd * sectorSize))) entries →
    SpareTable k.heap 0 (liveItems entries)

/-- **The root region lies on the disk**, at positions below `2 ^ 31`. Behind
that a position is negative, and what is read there is not on the disk. -/
def RegionBelow (pd : FatPrivate) : Prop :=
  rootPos pd + 32 * pd.header.rootDirEntries.toNat ≤ 2 ^ 31

section Bounded

variable {k : Kernel} {pd : FatPrivate}

/-- At most 1008 items spare the heap table: they lie below it. -/
theorem RootScan.itemsSpare (h : RootScan k pd)
    (hfew : ∀ entries, Entries IsFree
      (scanned k.sectors (wrap32 (rootSector pd * sectorSize))) entries →
      (liveItems entries).length ≤ lowItemsCapacity) : ItemsSpare k pd :=
  fun entries hentries => spareTable_of_le h.mounted.heap.1 (by
    rw [Nat.zero_add]
    exact hfew entries hentries)

/-- A root directory that ends in its region has a bounded scan, if its items
spare the heap table. -/
theorem RootScan.scanBounded (h : RootScan k pd) (hspare : ItemsSpare k pd)
    (hends : EndsInRegion k pd) : ScanBounded k pd := by
  obtain ⟨entries, hentries, hlen⟩ := hends
  obtain ⟨k', hwithin, -⟩ :=
    getDirectoryTotalItemsWithin_spec h.mounted h.item_null hentries
      (hspare entries hentries) hlen
  have hmax := pd.header.rootDirEntries.isLt
  have hlive := length_liveItems_le entries
  exact ⟨_, k', getDirectoryTotalItemsWithin_mono (by omega) hwithin, hwithin,
    Int.natCast_nonneg _, by omega⟩

/-- A bounded scan of a region on the disk has found the end. -/
theorem RootScan.endsInRegion (h : RootScan k pd) (hbelow : RegionBelow pd)
    (hb : ScanBounded k pd) : EndsInRegion k pd := by
  obtain ⟨total, k', -, hwithin, -⟩ := hb
  have hmax := pd.header.rootDirEntries.isLt
  have hnonneg := rootPos_nonneg pd
  unfold RegionBelow at hbelow
  refine getDirectoryTotalItemsWithin_eq_ok h.mounted h.item_null (by omega)
    (fun i hi => ⟨entryAt k.sectors (rootPos pd + 32 * i), ?_⟩) hwithin
  have hpos : wrap32 (rootSector pd * sectorSize) = rootPos pd :=
    wrap32_of_isInt32 (show IsInt32 (rootPos pd) by unfold IsInt32; omega)
  rw [hpos, scanned_eq_entryAt _ hnonneg (by omega)]

/-- **The scan of the root directory is bounded** when the root directory ends
in its region and its items spare the heap table, as at most 1008 of them
always do; and only when it ends in its region, if that lies on the disk: for
every contents of the disk, every header and every state of the heap. The loop
stops at an entry that starts with `0x00` and at nothing else, so without one in
the region it counts what comes behind. The temporary buffers that it leaves
taken do not change what it counts. -/
theorem root_scan_bounded_iff (h : RootScan k pd) :
    (ItemsSpare k pd → EndsInRegion k pd → ScanBounded k pd)
      ∧ ((∀ entries, Entries IsFree
          (scanned k.sectors (wrap32 (rootSector pd * sectorSize))) entries →
          (liveItems entries).length ≤ lowItemsCapacity) → ItemsSpare k pd)
      ∧ (RegionBelow pd → ScanBounded k pd → EndsInRegion k pd) :=
  ⟨h.scanBounded, h.itemsSpare, h.endsInRegion⟩

end Bounded

/-! ## A full root directory -/

/-- A volume of one reserved sector and one FAT of a sector. The root directory
has 16 entries, which start with a byte each; after them there are zeros. -/
def filledVolume (first : Byte) : Kernel :=
  { emptyVolume ⟨1, 1, 1, 16, 1, fat16Signature⟩ with
    sectors := fun sector _ => if sector = 2 then first else 0 }

/-- The private data of that volume. -/
abbrev filledPrivate : FatPrivate :=
  emptyPrivate ⟨1, 1, 1, 16, 1, fat16Signature⟩

theorem filledVolume_rootScan (first : Byte) :
    RootScan (filledVolume first) filledPrivate :=
  have hm := emptyVolume_mounted ⟨1, 1, 1, 16, 1, fat16Signature⟩
  ⟨⟨hm.heap, hm.fs, hm.ne_null, hm.privateData, hm.cluster, hm.fat,
    hm.directory⟩, rfl⟩

/-- The entries of the root directory are filled with the byte. -/
theorem filledVolume_scanned (first : Byte) {i : ℕ} (hi : i < 16) :
    scanned (filledVolume first).sectors
      (wrap32 (rootSector filledPrivate * sectorSize)) i
      = some fun _ => first := by
  have hpos : wrap32 (rootSector filledPrivate * sectorSize) = 1024 := by decide
  rw [hpos, scanned_eq_entryAt _ (by decide) (by omega)]
  refine congrArg some (funext fun j => ?_)
  have hj := j.isLt
  have hsector : (1024 + 32 * (i : ℤ) + (j : ℕ)) / 512 = 2 := by omega
  rw [entryAt, diskAt, hsector]
  rfl

/-- The theorem on a root directory of zeros. -/
theorem root_scan_bounded_iff_no_entries :
    ScanBounded (filledVolume 0x00#8) filledPrivate := by
  have hfirst := filledVolume_scanned 0x00#8 (show 0 < 16 by decide)
  have hempty : Entries IsFree _ [] := Entries.last hfirst rfl
  obtain ⟨hbounded, hfew, -⟩ := root_scan_bounded_iff (filledVolume_rootScan _)
  exact hbounded (hfew fun entries hentries => by
    rw [hentries.unique hempty]
    decide) ⟨[], hempty, by decide⟩

/-- **Where every entry is deleted**, the scan goes on behind the root
directory. -/
theorem full_root_directory_overrun :
    RootScan (filledVolume 0xE5#8) filledPrivate
      ∧ ¬ ScanBounded (filledVolume 0xE5#8) filledPrivate := by
  refine ⟨filledVolume_rootScan _, fun hb => ?_⟩
  obtain ⟨entries, hentries, hlen⟩ :=
    (filledVolume_rootScan _).endsInRegion
      (show (1024 : ℤ) + 32 * 16 ≤ 2 ^ 31 by decide) hb
  obtain ⟨item, hitem, hstop⟩ := hentries.slot_length
  rw [filledVolume_scanned _ hlen] at hitem
  obtain rfl := Option.some.inj hitem
  exact absurd (show (0xE5#8 : Byte) = 0x00#8 from hstop) (by decide)

end Fat16

end N00bOS
