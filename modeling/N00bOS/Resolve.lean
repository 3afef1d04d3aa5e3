import N00bOS.DirectoryLoaders
import N00bOS.DivisionSafety
import N00bOS.PathSyntax

/-!
# Mounting a volume

`fat16_resolve` reads a header from sector `0`, looks at its signature, and
counts the root directory. It does not look at the sizes in the header,
although every position is computed with the sector size of the disk, and two
functions divide by the size of a cluster. A volume that it mounts has the
header of its sector `0` (`fat16Resolve_eq_ok`), and any sector `0` with the
signature can be mounted (`fat16Resolve_returns`), so only volumes that can be
read are mounted exactly when the sector has no signature or good sizes
(`only_readable_mounted_iff`).

The run is cut into what comes before the volume is read, the reading, and the
end after the label, and each part is described in both directions. Backwards,
a run that has returned went through these parts (`fat16Resolve_run`), and so
the header in the private data is the one on the disk. Forwards, each part
returns with the blocks it needs (`mount_ready`, `readVolume_returns`): five
blocks for structures, and for the scan of the root directory nothing, since
what it allocates it does not look at. But its items have to spare the heap
table.

That a mounted volume is then read without a division by zero is the invariant
of `N00bOS.DivisionSafety`, over every later run of file calls.
-/

namespace N00bOS

open KernelM Listing

namespace OpenFrame

open Machine

theorem newStream (diskId : ℤ) : Keeps OpenFrame (Streamer.newStream diskId) :=
  Keeps.ite Keeps.pure ((allocate _).bind fun _ =>
    (Keeps.modify fun _ => of_eq rfl).bind fun _ => Keeps.pure)

theorem close (stream : Ptr) : Keeps OpenFrame (Streamer.close stream) :=
  (kfree _).bind fun _ => Keeps.modify fun _ => of_eq rfl

theorem writeItem (item : Ptr) (idx : ℕ) (v : FatDirectoryItem) :
    Keeps OpenFrame (Fat16.writeItem item idx v) :=
  Keeps.ite (Keeps.get.bind fun _ =>
      Keeps.ite (Keeps.modify fun _ => of_eq rfl) Keeps.fault)
    ((deref _ _).bind fun _ => Keeps.ite (setItemArray _ _) Keeps.fault)

theorem populateItem (directory : Option FatDirectory) (numItems : ℕ)
    (v : FatDirectoryItem) :
    Keeps OpenFrame (Fat16.populateItem directory numItems v) := by
  cases directory with
  | none => exact Keeps.pure
  | some directory =>
    exact (kzalloc _).bind fun _ => writeItem _ _ _

theorem countItems (stream : Ptr) (directory : Option FatDirectory)
    (rounds numItems : ℕ) :
    Keeps OpenFrame (Fat16.countItems stream directory rounds numItems) := by
  induction rounds generalizing numItems with
  | zero => exact Keeps.fault
  | succ rounds ih =>
    exact Keeps.get.bind fun k =>
      (of_reads (ReadFrame.read _ _ _ _)).bind fun r =>
        Keeps.ite Keeps.pure
          ((of_reads (ReadFrame.localItem _)).bind fun item =>
            Keeps.ite Keeps.pure
              (Keeps.ite (ih _) ((populateItem _ _ _).bind fun _ => ih _)))

theorem getDirectoryTotalItems (d : DiskRef) (sector : Word)
    (directory : Option FatDirectory) :
    Keeps OpenFrame (Fat16.getDirectoryTotalItems d sector directory) :=
  (of_reads (ReadFrame.privateData _)).bind fun _ =>
    (of_reads (ReadFrame.seek _ _)).bind fun _ =>
      Keeps.ite Keeps.pure (countItems _ _ _ _)

end OpenFrame

namespace Fat16

/-! ## What is mounted

The inversions, from the primitives to the whole call. -/

section Mount

variable {k k' : Kernel}

/-- What a read from a known position has put into its output. -/
theorem read_output {α : Type} {source : ℤ → ℕ → α} {stream : Ptr}
    {out : Output α} {pos total : ℤ}
    (hs : k.diskStreams stream.id = some ⟨pos, DiskRef.primary⟩)
    (hpos : IsInt32 pos) {r : ℤ × Output α}
    (h : Streamer.read source stream out total k = Except.ok (r, k')) :
    ∃ buf, r = (0, overwrite out total (fetched source buf pos)) := by
  obtain ⟨s, k₁, hderef, h₁⟩ := Machine.bind_eq_ok.mp h
  obtain ⟨-, hlive, rfl⟩ := deref_eq_ok hderef
  obtain rfl := Option.some.inj (hs.symm.trans hlive)
  obtain ⟨disk, k₂, -, h₂⟩ := Machine.bind_eq_ok.mp h₁
  obtain ⟨buf, k₃, -, h₃⟩ := Machine.bind_eq_ok.mp h₂
  simp only [Streamer.readLoop_spec hpos _ out (Nat.lt_succ_self _),
    Int.lt_irrefl, if_false] at h₃
  rw [Machine.modify_bind] at h₃
  obtain ⟨u, k₄, -, h₄⟩ := Machine.bind_eq_ok.mp h₃
  exact ⟨buf, (Prod.mk.inj (Except.ok.inj h₄)).1.symm⟩

/-- **The header** that is read from the start of the disk. It is read into the
private data, all of it from sector `0`. -/
theorem localHeader_overwrite (sectors : ℤ → ℕ → Byte) (buf : Word) :
    localHeader (overwrite zeroOutput fatHeaderSize (fetched sectors buf 0))
      = pure (fatHeaderOf (sectors 0)) := by
  have hget : ∀ (m : Memory) (i : ℕ), i < 62 →
    (overwrite zeroOutput fatHeaderSize
      (fetched sectors buf 0) i).value m = sectors 0 i := by
    intro m i hi
    have hint : IsInt32 (0 + i) := by
      unfold IsInt32
      omega
    have hsector : (0 + (i : ℤ)) / 512 = 0 := by omega
    have hindex : ((0 + (i : ℤ)) % 512).toNat = i := by omega
    rw [overwrite, if_pos (by unfold fatHeaderSize; omega),
      fetched_of_nonneg _ _ (Int.le_refl 0), Fetched.value,
      wrap32_of_isInt32 hint, diskAt, hsector, hindex]
  funext k
  rw [localHeader, Machine.get_bind]
  simp only [fatHeaderOf, hget _ _ (show 13 < 62 by decide),
    hget _ _ (show 14 < 62 by decide), hget _ _ (show 15 < 62 by decide),
    hget _ _ (show 16 < 62 by decide), hget _ _ (show 17 < 62 by decide),
    hget _ _ (show 18 < 62 by decide), hget _ _ (show 22 < 62 by decide),
    hget _ _ (show 23 < 62 by decide), hget _ _ (show 38 < 62 by decide)]

/-- An assignment to the private data goes through. -/
theorem setPrivate_eq_ok {p : Ptr} {f : FatPrivate → FatPrivate} {u : Unit}
    (h : setPrivate p f k = Except.ok (u, k')) :
    ∃ pd, p.addr ≠ 0 ∧ k.fatPrivates p.id = some pd
      ∧ k' = k.setFatPrivate p.id (some (f pd)) := by
  obtain ⟨pd, k₁, hderef, h₁⟩ := Machine.bind_eq_ok.mp h
  obtain ⟨hp, hpd, rfl⟩ := deref_eq_ok hderef
  exact ⟨pd, hp, hpd, (Prod.mk.inj (Except.ok.inj h₁)).2.symm⟩

/-- **A run of `init_fat_private`** makes the three streams, one after the
other, and puts each in its field. -/
theorem initFatPrivate_run {d : DiskRef} {p : Ptr} {pd : FatPrivate} {u : Unit}
    (hpd : k.fatPrivates p.id = some pd)
    (h : initFatPrivate d p k = Except.ok (u, k')) :
    ∃ s₁ s₂ s₃ k₁ k₂ k₃, Streamer.newStream primaryDiskId k = Except.ok (s₁, k₁)
      ∧ Streamer.newStream primaryDiskId (k₁.setFatPrivate p.id
          (some { pd with clusterReadStream := s₁ })) = Except.ok (s₂, k₂)
      ∧ Streamer.newStream primaryDiskId (k₂.setFatPrivate p.id
          (some { pd with clusterReadStream := s₁, fatReadStream := s₂ }))
            = Except.ok (s₃, k₃)
      ∧ k' = k₃.setFatPrivate p.id (some { pd with
          clusterReadStream := s₁, fatReadStream :=
              s₂, directoryReadStream := s₃ }) := by
  -- a stream is made beside the private data, which is then assigned to
  have hset : ∀ {k₀ k₁ k₂ : Kernel} {s : Ptr} {pd₀ : FatPrivate} {u : Unit}
      (f : FatPrivate → FatPrivate), Streamer.newStream primaryDiskId k₀
        = Except.ok (s, k₁) →
      k₀.fatPrivates p.id = some pd₀ → setPrivate p f k₁ = Except.ok (u, k₂) →
      k₂ = k₁.setFatPrivate p.id (some (f pd₀)) := by
    intro k₀ k₁ k₂ s pd₀ u f hnew hpd₀ hset
    obtain ⟨pd₁, -, hpd₁, rfl⟩ := setPrivate_eq_ok hset
    rw [(OpenFrame.newStream _ _ _ _ hnew).fatPrivates, hpd₀] at hpd₁
    rw [Option.some.inj hpd₁]
  obtain ⟨disk, k₀, hdisk, h₀⟩ := Machine.bind_eq_ok.mp h
  obtain rfl : k₀ = k := by
    cases d with
    | null => cases hdisk
    | primary => exact (Prod.mk.inj (Except.ok.inj hdisk)).2.symm
  obtain ⟨s₁, k₁, hnew₁, h₁⟩ := Machine.bind_eq_ok.mp h₀
  obtain ⟨u₁, k₂, hset₁, h₂⟩ := Machine.bind_eq_ok.mp h₁
  obtain rfl := hset _ hnew₁ hpd hset₁
  obtain ⟨s₂, k₃, hnew₂, h₃⟩ := Machine.bind_eq_ok.mp h₂
  obtain ⟨u₂, k₄, hset₂, h₄⟩ := Machine.bind_eq_ok.mp h₃
  obtain rfl := hset _ hnew₂ (Function.update_self _ _ _) hset₂
  obtain ⟨s₃, k₅, hnew₃, h₅⟩ := Machine.bind_eq_ok.mp h₄
  obtain rfl := hset _ hnew₃ (Function.update_self _ _ _) h₅
  exact ⟨s₁, s₂, s₃, k₁, k₃, k₅, hnew₁, hnew₂, hnew₃, rfl⟩

/-- **A run of `get_root_directory`** that returns `0` is the scan, and then
the assignment of the root directory. -/
theorem getRootDirectory_run {d : DiskRef} {p : Ptr} {pd : FatPrivate}
    (hpd : k.fatPrivates p.id = some pd)
    (h : getRootDirectory d p k = Except.ok (0, k')) :
    ∃ total k₁, getDirectoryTotalItems d (BitVec.ofInt 32 (rootSector pd))
      (some pd.rootDirectory) k
        = Except.ok (total, k₁)
      ∧ OpenFrame k k₁
      ∧ k' = k₁.setFatPrivate p.id (some (withRootDirectory pd total)) := by
  obtain ⟨pd₁, k₁, hderef, h₁⟩ := Machine.bind_eq_ok.mp h
  obtain ⟨-, hpd₁, rfl⟩ := deref_eq_ok hderef
  obtain rfl := Option.some.inj (hpd.symm.trans hpd₁)
  obtain ⟨total, k₂, hcount, h₂⟩ := Machine.bind_eq_ok.mp h₁
  have hframe := OpenFrame.getDirectoryTotalItems _ _ _ _ _ _ hcount
  have hpd₂ : k₂.fatPrivates p.id = some pd := by
    rw [hframe.fatPrivates]
    exact hpd
  split at h₂
  · next hneg =>
    obtain ⟨rfl, -⟩ := Prod.mk.inj (Except.ok.inj h₂)
    exact absurd hneg (by decide)
  · obtain ⟨pd₂, k₃, hderef₂, h₃⟩ := Machine.bind_eq_ok.mp h₂
    obtain ⟨-, hpd₂', rfl⟩ := deref_eq_ok hderef₂
    obtain rfl := Option.some.inj (hpd₂'.symm.trans hpd₂)
    obtain ⟨-, rfl⟩ := Prod.mk.inj (Except.ok.inj h₃)
    exact ⟨total, _, hcount, hframe, rfl⟩

/-- **`get_root_directory`** fills in the root directory of the private data,
and leaves the rest of it as it is. -/
theorem getRootDirectory_eq_ok {d : DiskRef} {p : Ptr} {pd : FatPrivate}
    (hpd : k.fatPrivates p.id = some pd)
    (h : getRootDirectory d p k = Except.ok (0, k')) :
    k'.disk = k.disk ∧ ∃ total,
    k'.fatPrivates p.id = some (withRootDirectory pd total) := by
  obtain ⟨total, k₁, -, hframe, rfl⟩ := getRootDirectory_run hpd h
  exact ⟨hframe.disk, total, Function.update_self _ _ _⟩

/-- A stream that was made is at the start of the disk. -/
theorem newStream_eq_ok {s : Ptr}
    (h : Streamer.newStream primaryDiskId k = Except.ok (s, k')) :
    k'.diskStreams s.id = some ⟨0, DiskRef.primary⟩ := by
  obtain ⟨p, k₁, -, h₁⟩ := Machine.bind_eq_ok.mp
    (show (allocate 8 >>= fun stream => _) k = Except.ok (s, k') from h)
  obtain ⟨rfl, rfl⟩ := Prod.mk.inj (Except.ok.inj h₁)
  exact Function.update_self _ _ _

/-- **A run of `fat16_resolve` on its stream** has no stream, or does not find
the signature in sector `0`, or has put the header in the private data and goes
on with `get_root_directory`. -/
theorem readVolume_cases {d : DiskRef} {p s : Ptr} {r : ℤ}
    (hs : k.diskStreams s.id = some ⟨0, DiskRef.primary⟩)
    (h : readVolume d p s k = Except.ok (r, k')) :
    (s.addr = 0 ∧ r = -enomem)
      ∨ ∃ pd k₁, k.fatPrivates p.id = some pd ∧ ReadFrame k k₁
        ∧ (((fatHeaderOf (k.sectors 0)).signature ≠ fat16Signature
          ∧ r = -efsnotpresent
            ∧ k' = k₁.setFatPrivate p.id
              (some { pd with header := fatHeaderOf (k.sectors 0) }))
          ∨ ((fatHeaderOf (k.sectors 0)).signature = fat16Signature
            ∧ getRootDirectory d p (k₁.setFatPrivate p.id
              (some { pd with header := fatHeaderOf (k.sectors 0) }))
                = Except.ok (r, k'))) := by
  rw [readVolume] at h
  split at h
  · next hnull => exact Or.inl ⟨hnull, (Prod.mk.inj (Except.ok.inj h)).1.symm⟩
  rw [Machine.get_bind] at h
  obtain ⟨out, k₁, hread, h₁⟩ := Machine.bind_eq_ok.mp h
  have hframe := ReadFrame.read _ _ _ _ _ _ _ hread
  obtain ⟨buf, rfl⟩ := read_output hs (by unfold IsInt32; omega) hread
  simp only [ne_eq, not_true_eq_false, if_false, localHeader_overwrite] at h₁
  rw [pure_bind] at h₁
  obtain ⟨u, k₂, hset, h₂⟩ := Machine.bind_eq_ok.mp h₁
  obtain ⟨pd, -, hpd, rfl⟩ := setPrivate_eq_ok hset
  rw [hframe.eq] at hpd
  refine Or.inr ⟨pd, k₁, hpd, hframe, ?_⟩
  split at h₂
  · next hsig =>
    obtain ⟨rfl, rfl⟩ := Prod.mk.inj (Except.ok.inj h₂)
    exact Or.inl ⟨hsig, rfl, rfl⟩
  · next hsig => exact Or.inr ⟨not_not.mp hsig, h₂⟩

/-- With the result `0`, the signature was there. -/
theorem readVolume_run {d : DiskRef} {p s : Ptr}
    (hs : k.diskStreams s.id = some ⟨0, DiskRef.primary⟩)
    (h : readVolume d p s k = Except.ok (0, k')) :
    (fatHeaderOf (k.sectors 0)).signature = fat16Signature
      ∧ ∃ pd k₁, k.fatPrivates p.id = some pd ∧ ReadFrame k k₁
        ∧ getRootDirectory d p (k₁.setFatPrivate p.id
          (some { pd with header := fatHeaderOf (k.sectors 0) }))
            = Except.ok (0, k') := by
  rcases readVolume_cases hs h with
    ⟨-, hzero⟩ | ⟨pd, k₁, hpd, hframe, ⟨-, hzero, -⟩ | ⟨hsig, hroot⟩⟩
  · exact absurd hzero (by decide)
  · exact absurd hzero (by decide)
  · exact ⟨hsig, pd, k₁, hpd, hframe, hroot⟩

/-- The end of `fat16_resolve` after an error. -/
def cleanUp (privateData : Ptr) : KernelM Unit := do
  closeFatPrivate privateData
  kfree privateData.addr
  modify fun k => k.setFatPrivate privateData.id none
  modify fun k => { k with disk := ⟨FilesystemRef.null, Ptr.null⟩ }

/-- **A run of `fat16_resolve`**: the private data and its streams are made,
the volume is read through a stream of its own, that stream is closed, and
after an error the rest is given back. -/
theorem fat16Resolve_steps {d : DiskRef} {r : ℤ}
    (h : fat16Resolve d k = Except.ok (r, k')) :
    ∃ p s k₁ k₂ k₃ k₄ k₅, allocate 92 k = Except.ok (p, k₁)
      ∧ initFatPrivate d p (k₁.setFatPrivate p.id (some zeroPrivate))
        = Except.ok ((), k₂)
      ∧ Streamer.newStream primaryDiskId { k₂ with
        disk := ⟨FilesystemRef.fat16, p⟩ }
        = Except.ok (s, k₃)
      ∧ readVolume d p s k₃ = Except.ok (r, k₄)
      ∧ (if s.addr ≠ 0 then Streamer.close s
        else pure ()) k₄ = Except.ok ((), k₅)
      ∧ (if r < 0 ∧ p.addr ≠ 0 then cleanUp p
        else pure ()) k₅ = Except.ok ((), k') := by
  obtain ⟨p, k₁, halloc, h₁⟩ := Machine.bind_eq_ok.mp h
  rw [Machine.modify_bind] at h₁
  obtain ⟨u, k₂, hinit, h₂⟩ := Machine.bind_eq_ok.mp h₁
  rw [Machine.modify_bind] at h₂
  obtain ⟨s, k₃, hstream, h₃⟩ := Machine.bind_eq_ok.mp h₂
  obtain ⟨result, k₄, hvolume, h₄⟩ := Machine.bind_eq_ok.mp h₃
  have htail : ∀ k₅ : Kernel, (do
      if result < 0 ∧ p.addr ≠ 0 then
        closeFatPrivate p
        kfree p.addr
        modify fun k => k.setFatPrivate p.id none
        modify fun k => { k with disk := ⟨FilesystemRef.null, Ptr.null⟩ }
      return result : KernelM ℤ) k₅ = Except.ok (r, k') →
      result = r ∧ (if r < 0 ∧ p.addr ≠ 0 then cleanUp p
          else pure ()) k₅ = Except.ok ((), k') := by
    intro k₅ h₅
    split at h₅
    · next hneg =>
      obtain ⟨_, k₆, hclose, h₆⟩ := Machine.bind_eq_ok.mp h₅
      rw [kfree_bind, Machine.modify_bind, Machine.modify_bind] at h₆
      obtain ⟨rfl, rfl⟩ := Prod.mk.inj (Except.ok.inj h₆)
      refine ⟨rfl, ?_⟩
      rw [if_pos hneg, cleanUp, Machine.bind_ok hclose, kfree_bind,
        Machine.modify_bind]
      rfl
    · next hpos =>
      obtain ⟨rfl, rfl⟩ := Prod.mk.inj (Except.ok.inj h₅)
      exact ⟨rfl, by rw [if_neg hpos]; rfl⟩
  split at h₄
  · next hs =>
    obtain ⟨_, k₅, hclose, h₅⟩ := Machine.bind_eq_ok.mp h₄
    obtain ⟨rfl, hend⟩ := htail k₅ h₅
    exact ⟨p, s, k₁, k₂, k₃, k₄, k₅, halloc, hinit, hstream, hvolume,
      by rw [if_pos hs]; exact hclose, hend⟩
  · next hs =>
    obtain ⟨rfl, hend⟩ := htail k₄ h₄
    exact ⟨p, s, k₁, k₂, k₃, k₄, k₄, halloc, hinit, hstream,
      hvolume, by rw [if_neg hs]; rfl, hend⟩

/-- With the result `0` the private data stays. -/
theorem fat16Resolve_run {d : DiskRef}
    (h : fat16Resolve d k = Except.ok (0, k')) :
    ∃ p s k₁ k₂ k₃ k₄, allocate 92 k = Except.ok (p, k₁)
      ∧ initFatPrivate d p (k₁.setFatPrivate p.id (some zeroPrivate))
        = Except.ok ((), k₂)
      ∧ Streamer.newStream primaryDiskId { k₂ with
        disk := ⟨FilesystemRef.fat16, p⟩ }
        = Except.ok (s, k₃)
      ∧ readVolume d p s k₃ = Except.ok (0, k₄)
      ∧ (if s.addr ≠ 0 then Streamer.close s
        else pure ()) k₄ = Except.ok ((), k') := by
  obtain ⟨p, s, k₁, k₂, k₃, k₄, k₅, halloc, hinit, hstream, hvolume,
      hclose, hend⟩ :=
    fat16Resolve_steps h
  rw [if_neg fun hneg => absurd hneg.1 (by decide)] at hend
  obtain ⟨-, rfl⟩ := Prod.mk.inj (Except.ok.inj hend)
  exact ⟨p, s, k₁, k₂, k₃, k₄, halloc, hinit, hstream, hvolume, hclose⟩

/-- The stream that is closed at the end is the only thing that changes. -/
theorem closeStream_frame {s : Ptr} {u : Unit}
    (h : (if s.addr ≠ 0 then Streamer.close s else pure ()) k
      = Except.ok (u, k')) :
    OpenFrame k k' :=
  Machine.Keeps.ite (OpenFrame.close s) Machine.Keeps.pure _ _ _ h

/-- **A volume that is mounted** has the signature, and the header of its
sector `0` is in the private data. No other field of the header is looked at
before the result is `0`. -/
theorem fat16Resolve_eq_ok {d : DiskRef}
    (h : fat16Resolve d k = Except.ok (0, k')) :
    (fatHeaderOf (k.sectors 0)).signature = fat16Signature
      ∧ ∃ pd, k'.fatPrivates k'.disk.fsPrivateData.id = some pd
        ∧ pd.header = fatHeaderOf (k.sectors 0) := by
  obtain ⟨p, s, k₁, k₂, k₃, k₄, halloc, hinit, hstream, hvolume, hclose⟩ :=
    fat16Resolve_run h
  obtain ⟨s₁, s₂, s₃, k₅, k₆, k₇, hnew₁, hnew₂, hnew₃, rfl⟩ :=
    initFatPrivate_run (Function.update_self _ _ _) hinit
  have hsectors : k₃.sectors = k.sectors :=
    (OpenFrame.newStream _ _ _ _ hstream).sectors.trans
      ((OpenFrame.newStream _ _ _ _ hnew₃).sectors.trans
        ((OpenFrame.newStream _ _ _ _ hnew₂).sectors.trans
          ((OpenFrame.newStream _ _ _ _ hnew₁).sectors.trans
            (OpenFrame.allocate _ _ _ _ halloc).sectors)))
  have hdisk := (OpenFrame.newStream _ _ _ _ hstream).disk
  obtain ⟨hsig, pd, k₈, -, hframe, hroot⟩ :=
    readVolume_run (newStream_eq_ok hstream) hvolume
  obtain ⟨hdisk', total, hpd⟩ :=
    getRootDirectory_eq_ok (Function.update_self _ _ _) hroot
  have hclosed := closeStream_frame hclose
  rw [hsectors] at hsig hpd
  have hp : k'.disk.fsPrivateData = p := by
    rw [hclosed.disk, hdisk', show (k₈.setFatPrivate p.id _).disk = k₈.disk from
      rfl, hframe.eq]
    exact congrArg Disk.fsPrivateData hdisk
  refine ⟨hsig, withRootDirectory
    { pd with header := fatHeaderOf (k.sectors 0) } total, ?_, rfl⟩
  rw [hclosed.fatPrivates, hp]
  exact hpd

end Mount

/-! ## Mounting goes through

The same steps forwards, with what they leave alone (`MountStep`) and the
blocks that they take. -/

section Returns

variable {k k' k'' : Kernel} {p : Ptr} {pd pd' : FatPrivate}

/-- A stream that is there, and that no later allocation is. -/
def Streaming (k : Kernel) (s : Ptr) : Prop := StreamLive k s ∧ s.id < k.nextId

/-- **What the steps of mounting leave alone**, and the blocks they take. Steps
can be put one after the other, and the blocks they take are added up. -/
structure MountStep (k k' : Kernel) (blocks : ℕ) : Prop where
  heap : k'.heap = k.heap
  heapOk : k'.HeapOk
  sectors : k'.sectors = k.sectors
  spent : k'.freeBlocks + blocks = k.freeBlocks
  streams : ∀ s, Streaming k s → Streaming k' s

theorem MountStep.trans {n m : ℕ} (h₁ : MountStep k k' n)
    (h₂ : MountStep k' k'' m) :
    MountStep k k'' (n + m) where
  heap := h₂.heap.trans h₁.heap
  heapOk := h₂.heapOk
  sectors := h₂.sectors.trans h₁.sectors
  spent := by
    rw [← h₁.spent, ← h₂.spent]
    omega
  streams := fun s hs => h₂.streams s (h₁.streams s hs)

/-- **A new stream** takes a block, and stands at the start of the disk. -/
theorem newStream_spec (hk : k.HeapOk) (hfree : 0 < k.freeBlocks) :
    ∃ s k', Streamer.newStream primaryDiskId k = Except.ok (s, k')
      ∧ MountStep k k' 1
      ∧ Streaming k' s ∧ k'.diskStreams s.id = some ⟨0, DiskRef.primary⟩
      ∧ k'.fatPrivates = k.fatPrivates ∧ k'.disk = k.disk := by
  obtain ⟨s, k₁, halloc, hspent, hid, hne, hk₁, m, rfl⟩ :=
    (allocate_one hk (show (8 : Word).toNat < 4096 by decide)).returns hfree
  refine ⟨s,
    ({ k with mem := m, nextId := k.nextId + 1 } : Kernel).setDiskStream s.id
      (some ⟨0, DiskRef.primary⟩), ?_,
    ⟨rfl, hk₁, rfl, hspent, fun t ht => ⟨⟨ht.1.1, ?_⟩, Nat.lt_succ_of_lt ht.2⟩⟩,
    ⟨⟨hne, 0, Function.update_self _ _ _⟩, ?_⟩,
    Function.update_self _ _ _, rfl, rfl⟩
  · show (allocate 8 >>= fun stream => _) k = _
    rw [Machine.bind_ok halloc, Machine.modify_bind]
    rfl
  · obtain ⟨pos, hpos⟩ := ht.1.2
    have hlt := ht.2
    exact ⟨pos, (Function.update_of_ne (by omega) _ _).trans hpos⟩
  · rw [hid]
    exact Nat.lt_succ_self _

/-- An assignment to the private data. -/
theorem setPrivate_spec (hp : p.addr ≠ 0) (hpd : k.fatPrivates p.id = some pd)
    (f : FatPrivate → FatPrivate) :
    setPrivate p f k = Except.ok ((), k.setFatPrivate p.id (some (f pd))) := by
  rw [setPrivate, Machine.bind_ok (deref_ok hp hpd)]
  rfl

theorem MountStep.setFatPrivate (hk : k.HeapOk) (id : ℕ)
    (v : Option FatPrivate) :
    MountStep k (k.setFatPrivate id v) 0 :=
  ⟨rfl, hk, rfl, rfl, fun _ hs => hs⟩

/-- **One stream of the private data**: it is made, and put in its field. Which
field that is, is a parameter, as the three of them are made alike. -/
theorem newStream_setPrivate (hk : k.HeapOk) (hfree : 0 < k.freeBlocks)
    (hp : p.addr ≠ 0) (hpd : k.fatPrivates p.id = some pd)
    (f : Ptr → FatPrivate → FatPrivate) :
    ∃ s k₁ k', Streamer.newStream primaryDiskId k = Except.ok (s, k₁)
      ∧ setPrivate p (f s) k₁ = Except.ok ((), k') ∧ MountStep k k' 1
      ∧ Streaming k' s
      ∧ k'.fatPrivates p.id = some (f s pd) := by
  obtain ⟨s, k₁, hnew, hstep, hs, -, hprivates, -⟩ := newStream_spec hk hfree
  have hpd₁ : k₁.fatPrivates p.id = some pd := by
    rw [hprivates]
    exact hpd
  exact ⟨s, k₁, _, hnew, setPrivate_spec hp hpd₁ _,
    hstep.trans (MountStep.setFatPrivate hstep.heapOk _ _), hs,
    Function.update_self _ _ _⟩

/-- **`init_fat_private`** makes the three streams, with a block for each of
them, and puts them in their fields. -/
theorem initFatPrivate_spec (hk : k.HeapOk) (hfree : 3 ≤ k.freeBlocks)
    (hp : p.addr ≠ 0) (hpd : k.fatPrivates p.id = some pd) :
    ∃ k' s₁ s₂ s₃, initFatPrivate DiskRef.primary p k = Except.ok ((), k')
      ∧ MountStep k k' 3
      ∧ Streaming k' s₁ ∧ Streaming k' s₂ ∧ Streaming k' s₃
      ∧ k'.fatPrivates p.id = some { pd with
          clusterReadStream := s₁, fatReadStream :=
              s₂, directoryReadStream := s₃ } := by
  obtain ⟨s₁, k₁, k₂, hnew₁, hset₁, hstep₁, hs₁, hpd₁⟩ :=
    newStream_setPrivate hk (by omega)
    hp hpd fun s pd => { pd with clusterReadStream := s }
  have hspent₁ := hstep₁.spent
  obtain ⟨s₂, k₃, k₄, hnew₂, hset₂, hstep₂, hs₂, hpd₂⟩ :=
    newStream_setPrivate hstep₁.heapOk
    (by omega) hp hpd₁ fun s pd => { pd with fatReadStream := s }
  have hspent₂ := hstep₂.spent
  obtain ⟨s₃, k₅, k₆, hnew₃, hset₃, hstep₃, hs₃, hpd₃⟩ :=
    newStream_setPrivate hstep₂.heapOk
    (by omega) hp hpd₂ fun s pd => { pd with directoryReadStream := s }
  refine ⟨k₆, s₁, s₂, s₃, ?_, (hstep₁.trans hstep₂).trans hstep₃,
    hstep₃.streams _ (hstep₂.streams _ hs₁), hstep₃.streams _ hs₂, hs₃, hpd₃⟩
  rw [initFatPrivate, Machine.bind_ok (show derefDisk DiskRef.primary k
    = Except.ok (k.disk, k) from rfl), Machine.bind_ok hnew₁,
    Machine.bind_ok hset₁, Machine.bind_ok hnew₂, Machine.bind_ok hset₂,
    Machine.bind_ok hnew₃]
  exact hset₃

/-- The first sector of the root directory is in the header. -/
theorem rootSector_congr (h : pd'.header = pd.header) :
    rootSector pd' = rootSector pd := by
  rw [rootSector, rootSector, h]

/-- **`get_root_directory`** returns when the root directory ends and its items
spare the heap table. -/
theorem getRootDirectory_returns (hm : Mounted k pd)
    (hitem : pd.rootDirectory.item.addr = 0) {entries : List FatDirectoryItem}
    (hentries : Entries IsFree
      (scanned k.sectors (wrap32 (rootSector pd * sectorSize))) entries)
    (hspare : SpareTable k.heap 0 (liveItems entries)) :
    ∃ k', getRootDirectory DiskRef.primary k.disk.fsPrivateData k
      = Except.ok (0, k') := by
  obtain ⟨k₁, hcount, hstored⟩ :=
    getDirectoryTotalItemsWithin_spec hm hitem hentries hspare
    (entries_length_lt hentries)
  have hpriv : k₁.fatPrivates k.disk.fsPrivateData.id = some pd := by
    rw [hstored.frame.fatPrivates]
    exact hm.privateData
  exact ⟨_, getRootDirectory_of_count hm.ne_null hm.privateData hcount
    (Int.natCast_nonneg _) hpriv⟩

/-- **What is done with the stream**: the header goes into the private data, and
its signature decides how to go on. -/
theorem readVolume_header (hm : Mounted k pd) {s : Ptr} (hs : s.addr ≠ 0)
    (hlive : k.diskStreams s.id = some ⟨0, DiskRef.primary⟩) (d : DiskRef) :
    ∃ k₁, Quiet k k₁ ∧ readVolume d k.disk.fsPrivateData s k
      = (if (fatHeaderOf (k.sectors 0)).signature ≠ fat16Signature then
        pure (-efsnotpresent)
          else getRootDirectory d k.disk.fsPrivateData)
        (k₁.setFatPrivate k.disk.fsPrivateData.id
          (some { pd with header := fatHeaderOf (k.sectors 0) })) := by
  obtain ⟨k₁, hread, hq₁, -⟩ := Streamer.read_quiet k.sectors hm.heap hs hlive
    (by unfold IsInt32; omega) fatHeaderSize zeroOutput
  have hpd₁ : k₁.fatPrivates k.disk.fsPrivateData.id = some pd := by
    rw [hq₁.eq]
    exact hm.privateData
  refine ⟨k₁, hq₁, ?_⟩
  rw [readVolume, if_neg hs, Machine.get_bind, Machine.bind_ok hread]
  simp only [ne_eq, not_true_eq_false, if_false, localHeader_overwrite]
  rw [pure_bind, Machine.bind_ok (setPrivate_spec hm.ne_null hpd₁ _)]

/-- It returns `0` for a sector `0` with the signature. -/
theorem readVolume_returns (hm : Mounted k pd)
    (hitem : pd.rootDirectory.item.addr = 0) {s : Ptr} (hs : s.addr ≠ 0)
    (hlive : k.diskStreams s.id = some ⟨0, DiskRef.primary⟩)
    (hheader : pd'.header = fatHeaderOf (k.sectors 0))
    (hsig : pd'.header.signature = fat16Signature)
    {entries : List FatDirectoryItem}
    (hentries : Entries IsFree
      (scanned k.sectors (wrap32 (rootSector pd' * sectorSize))) entries)
    (hspare : SpareTable k.heap 0 (liveItems entries)) :
    ∃ k', readVolume DiskRef.primary k.disk.fsPrivateData s k
      = Except.ok (0, k') := by
  obtain ⟨k₁, hq₁, hvolume⟩ := readVolume_header hm hs hlive DiskRef.primary
  have hm₁ := hm.quiet hq₁
  have hdisk₁ : k₁.disk = k.disk := by rw [hq₁.eq]
  have hsectors₁ : k₁.sectors = k.sectors := by rw [hq₁.eq]
  set pd₂ : FatPrivate := { pd with header := fatHeaderOf (k.sectors 0) } with
    hpd₂
  set k₂ := k₁.setFatPrivate k.disk.fsPrivateData.id (some pd₂) with hk₂
  have hm₂ : Mounted k₂ pd₂ := ⟨hm₁.heap, hm₁.fs, hm₁.ne_null, by
    show Function.update k₁.fatPrivates _ _ k₁.disk.fsPrivateData.id = _
    rw [hdisk₁, Function.update_self], hm₁.cluster, hm₁.fat, hm₁.directory⟩
  have hsame : rootSector pd₂ = rootSector pd' := rootSector_congr hheader.symm
  have hentries₂ : Entries IsFree
    (scanned k₂.sectors (wrap32 (rootSector pd₂ * sectorSize)))
      entries := by
    rw [hsame, show k₂.sectors = k.sectors from hsectors₁]
    exact hentries
  obtain ⟨k₃, hroot⟩ := getRootDirectory_returns hm₂ hitem hentries₂
    (show SpareTable k₁.heap 0 _ from hq₁.heap.symm ▸ hspare)
  refine ⟨k₃, ?_⟩
  rw [hvolume, if_neg (not_not.mpr (hheader ▸ hsig))]
  rw [show k₂.disk = k.disk from hdisk₁] at hroot
  exact hroot

/-! ### The whole call

What comes before the volume is read, put together with the reading and with
the end. -/

/-- **Before the volume is read**: the private data and the stream of the call
are there, and five blocks are taken. -/
structure MountReady (k k' : Kernel) (p s : Ptr) (pd : FatPrivate) : Prop where
  mounted : Mounted k' pd
  disk : k'.disk = ⟨FilesystemRef.fat16, p⟩
  item_null : pd.rootDirectory.item.addr = 0
  stream_ne : s.addr ≠ 0
  stream : k'.diskStreams s.id = some ⟨0, DiskRef.primary⟩
  heap : k'.heap = k.heap
  sectors : k'.sectors = k.sectors
  spent : k'.freeBlocks + 5 = k.freeBlocks

theorem MountReady.ne_null {s : Ptr} (h : MountReady k k' p s pd) :
    p.addr ≠ 0 := by
  have hne := h.mounted.ne_null
  rwa [h.disk] at hne

/-- **What `fat16_resolve` does before it reads the volume** goes through with
five free blocks. -/
theorem mount_ready (hk : k.HeapOk) (hfree : 5 ≤ k.freeBlocks) :
    ∃ p s k₁ k₂ k₃ pd, allocate 92 k = Except.ok (p, k₁)
      ∧ initFatPrivate DiskRef.primary p (k₁.setFatPrivate p.id
        (some zeroPrivate))
        = Except.ok ((), k₂)
      ∧ Streamer.newStream primaryDiskId { k₂ with
        disk := ⟨FilesystemRef.fat16, p⟩ }
        = Except.ok (s, k₃)
      ∧ MountReady k k₃ p s pd := by
  obtain ⟨p, k₁, halloc, hspent₁, -, hp, hk₁, m, rfl⟩ :=
    (allocate_one hk (show (92 : Word).toNat < 4096 by decide)).returns
      (by omega)
  set k₁ : Kernel := { k with mem := m, nextId := k.nextId + 1 } with hk₁'
  set k₂ := k₁.setFatPrivate p.id (some zeroPrivate) with hk₂
  have hspent₂ : k₂.freeBlocks + 1 = k.freeBlocks := hspent₁
  obtain ⟨k₃, s₁, s₂, s₃, hinit, hstep₃, hs₁, hs₂, hs₃, hpd₃⟩ :=
    initFatPrivate_spec
    (show k₂.HeapOk from hk₁) (by omega) hp (Function.update_self _ _ _)
  have hspent₃ := hstep₃.spent
  set k₄ : Kernel := { k₃ with disk := ⟨FilesystemRef.fat16, p⟩ } with hk₄
  have hspent₄ : k₄.freeBlocks = k₃.freeBlocks := rfl
  obtain ⟨s, k₅, hnew, hstep₅, hs, hlive, hprivates₅, hdisk₅⟩ := newStream_spec
    (show k₄.HeapOk from hstep₃.heapOk) (by omega)
  have hspent₅ := hstep₅.spent
  have hm : Mounted k₅ { zeroPrivate with
      clusterReadStream := s₁, fatReadStream :=
          s₂, directoryReadStream := s₃ } :=
    ⟨hstep₅.heapOk, by rw [hdisk₅], by rw [hdisk₅]; exact hp,
      by rw [hdisk₅, hprivates₅]; exact hpd₃, (hstep₅.streams _ hs₁).1,
      (hstep₅.streams _ hs₂).1, (hstep₅.streams _ hs₃).1⟩
  exact ⟨p, s, k₁, k₃, k₅, _, halloc, hinit, hnew, hm, hdisk₅, rfl,
    hs.1.1, hlive, hstep₅.heap.trans hstep₃.heap,
    hstep₅.sectors.trans hstep₃.sectors, by omega⟩

/-- **A sector `0` with the signature is mounted**, whatever its sizes are,
with five free blocks and a root directory that ends, with items that spare the
heap table. -/
theorem fat16Resolve_returns (hk : k.HeapOk) (hfree : 5 ≤ k.freeBlocks)
    (hheader : pd'.header = fatHeaderOf (k.sectors 0))
    (hsig : pd'.header.signature = fat16Signature)
    {entries : List FatDirectoryItem}
    (hentries : Entries IsFree
      (scanned k.sectors (wrap32 (rootSector pd' * sectorSize))) entries)
    (hspare : SpareTable k.heap 0 (liveItems entries)) :
    ∃ k', fat16Resolve DiskRef.primary k = Except.ok (0, k') := by
  obtain ⟨p, s, k₁, k₂, k₃, pd, halloc, hinit, hnew, hready⟩ :=
    mount_ready hk hfree
  obtain ⟨k₄, hvolume⟩ := readVolume_returns hready.mounted hready.item_null
    hready.stream_ne
    hready.stream (by rw [hready.sectors]; exact hheader) hsig
    (by rw [hready.sectors]; exact hentries)
    (by rw [hready.heap]; exact hspare)
  rw [hready.disk] at hvolume
  refine ⟨({ k₄ with
    mem := k₄.heap.kfree k₄.mem s.addr } : Kernel).setDiskStream s.id none, ?_⟩
  rw [fat16Resolve, Machine.bind_ok halloc, Machine.modify_bind,
    Machine.bind_ok hinit, Machine.modify_bind, Machine.bind_ok hnew,
    Machine.bind_ok hvolume, if_pos hready.stream_ne]
  rfl

end Returns

/-! ## Which volumes are mounted

A first sector is given, and zeros after it. Wherever the header says that the
root directory is, it ends there, so that every sector with the signature is
one that can be mounted. -/

/-- A disk with a first sector, and zeros after it. -/
def diskOf (sector : ℕ → Byte) :
    ℤ → ℕ → Byte := fun s => if s = 0 then sector else fun _ => 0

/-- The entry at a sector boundary, below address `0` too. -/
theorem scannedItem_of_aligned (sectors : ℤ → ℕ → Byte) {pos : ℤ}
    (hpos : IsInt32 pos) (hal : pos % 512 = 0) :
    scannedItem sectors pos = some (entryAt sectors pos) := by
  have hspec := tdiv_sectorSize_spec pos
  have hzero : pos.tmod sectorSize = 0 := by
    unfold sectorSize at hspec ⊢
    omega
  rw [scannedItem, hzero, if_neg (by decide)]
  refine congrArg some (funext fun j => ?_)
  have hj := j.isLt
  rw [entryAt, wrap32_of_isInt32 (by unfold IsInt32 at *; omega)]

/-- **The root directory of such a disk**, wherever the header says it is,
has at most the entries of one sector. -/
theorem exists_entries_diskOf (sector : ℕ → Byte) (n : ℤ) :
    ∃ entries, entries.length ≤ 16
      ∧ Entries IsFree (scanned (diskOf sector) (wrap32 (n * sectorSize)))
        entries := by
  obtain ⟨q, hq, hint⟩ := wrap32_spec (n * sectorSize)
  generalize wrap32 (n * sectorSize) = pos at hq hint
  unfold sectorSize at hq
  -- outside sector `0` there is nothing
  have hfree : ∀ p : ℤ, p / 512 ≠ 0 →
      IsFree (entryAt (diskOf sector) p) := fun p hp => by
        show diskAt (diskOf sector) (p + 0) = _
        rw [Int.add_zero, diskAt, diskOf, if_neg hp]
        rfl
  by_cases hpos : pos = 0
  · rw [hpos]
    have hentry : ∀ i : ℕ, i < 17 → scanned (diskOf sector) 0 i
        = some (entryAt (diskOf sector) (0 + 32 * i)) := fun i hi =>
      scanned_eq_entryAt _ (Int.le_refl 0) (by omega)
    exact Entries.exists_of_stop (fun i hi => ⟨_, hentry i (by omega)⟩)
      ⟨_, hentry 16 (by decide), hfree _ (by decide)⟩
  · refine ⟨[], Nat.zero_le _, Entries.last ?_ (hfree pos (by omega))⟩
    rw [scanned_zero _ hint, scannedItem_of_aligned _ hint (by omega)]

/-- The kernel after boot, with a disk that starts with a sector. -/
def bootedWith (sector : ℕ → Byte) : Kernel :=
  { PathParser.bootedKernel with sectors := diskOf sector }

/-- **Every sector `0` with the signature can be mounted.** The disk has this
sector, and zeros after it; the root directory ends at a zero wherever it is.
-/
theorem fat16Resolve_bootedWith {sector : ℕ → Byte}
    (hsig : (fatHeaderOf sector).signature = fat16Signature) :
    ∃ k', fat16Resolve DiskRef.primary (bootedWith sector)
      = Except.ok (0, k') := by
  obtain ⟨entries, hlen, hentries⟩ := exists_entries_diskOf sector
    (rootSector { zeroPrivate with header := fatHeaderOf sector })
  have hblocks : (bootedWith sector).freeBlocks = 25600 :=
    PathParser.bootedKernel_freeBlocks
  have hheader : ({ zeroPrivate with
    header := fatHeaderOf sector } : FatPrivate).header
      = fatHeaderOf ((bootedWith sector).sectors 0) := rfl
  have hcap : lowItemsCapacity = 1008 := rfl
  have hlive := length_liveItems_le entries
  exact fat16Resolve_returns (k :=
    bootedWith sector) PathParser.bootedKernel_heapOk (by omega)
    hheader hsig hentries
    (spareTable_of_le PathParser.bootedKernel_heapOk.1 (by omega))

/-- **Only a volume that can be read is mounted** from a sector `0`: whenever
it is, its sectors are those of the disk, its clusters have sectors, and no
file call ever divides by zero. -/
def OnlyReadableMounted (sector : ℕ → Byte) : Prop :=
  ∀ k k' : Kernel, k.sectors 0 = sector →
    fat16Resolve DiskRef.primary k = Except.ok (0, k') →
    ((bytesPerSector sector).toNat : ℤ) = sectorSize
      ∧ (fatHeaderOf sector).sectorsPerCluster ≠ 0
      ∧ ∀ (history : List (File.Call × File.Reply)) (k'' : Kernel)
        (c : File.Call), File.Run k' history k'' →
        c.run k'' ≠ Except.error Fault.divisionByZero

/-- **When it is**: the sector does not have the signature, or its sizes are
those of the disk. `fat16_resolve` looks at the signature alone, so every other
sector with it can be mounted, and each of them has a kernel that mounts it.
With good sizes no file call divides by zero in any later run, since the volume
stays the one that was mounted. -/
theorem only_readable_mounted_iff (sector : ℕ → Byte) :
    OnlyReadableMounted sector ↔ (fatHeaderOf sector).signature ≠ fat16Signature
      ∨ (((bytesPerSector sector).toNat : ℤ) = sectorSize
        ∧ (fatHeaderOf sector).sectorsPerCluster ≠ 0) := by
  constructor
  · intro h
    by_cases hsig : (fatHeaderOf sector).signature = fat16Signature
    · obtain ⟨k', hrun⟩ := fat16Resolve_bootedWith hsig
      obtain ⟨hbytes, hclusters, -⟩ := h (bootedWith sector) k' rfl hrun
      exact Or.inr ⟨hbytes, hclusters⟩
    · exact Or.inl hsig
  · rintro h k k' rfl hrun
    obtain ⟨hsig, pd, hpd, hheader⟩ := fat16Resolve_eq_ok hrun
    obtain ⟨hbytes, hclusters⟩ := h.resolve_left fun hne => hne hsig
    refine ⟨hbytes, hclusters, fun history k'' c hcalls => ?_⟩
    have hsize : HasClusters k' := by
      intro pd' hpd'
      obtain rfl := Option.some.inj (hpd.symm.trans hpd')
      have hne : (fatHeaderOf (k.sectors 0)).sectorsPerCluster.toNat
        ≠ 0 := fun hzero =>
          hclusters (BitVec.eq_of_toNat_eq hzero)
      unfold clusterSizeBytes sectorSize
      rw [hheader]
      omega
    exact (NeverDivides.call c k'' (hcalls.hasClusters hsize)).1

/-- A sector `0` with the signature and sectors of 512 bytes, and with no
sectors in a cluster. -/
def noClustersSector : ℕ → Byte := fun i =>
  if i = 38 then fat16Signature else if i = 12 then 0x02#8 else 0x00#8

/-- **A volume is mounted whose clusters have no sectors.** The header has the
signature, and `0` where the sectors of a cluster are counted. -/
theorem unreadable_volume_mounted : ¬ OnlyReadableMounted noClustersSector := by
  intro h
  have hsig : (fatHeaderOf noClustersSector).signature = fat16Signature := rfl
  obtain ⟨k', hrun⟩ := fat16Resolve_bootedWith hsig
  exact (h (bootedWith noClustersSector) k' rfl hrun).2.1 rfl

end Fat16

end N00bOS
