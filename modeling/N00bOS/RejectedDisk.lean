import N00bOS.ResolveStorage

/-!
# A disk that is rejected

`fat16_resolve` makes four allocations and one more for its stream before it
looks at the disk, and a buffer for the sector it reads. On a disk without the
signature, which is all it rejects, they are given back in another order: its
stream first, then the three streams of the private data, then the private
data. The table is what it was, and the disk has no filesystem
(`rejected_disk_leaves_no_trace`).

The allocations are five extents beside those that were there (`mount_started`,
of `N00bOS.ResolveStorage`), and each step of the end takes one of them out of
the list. That a negative result means another signature is an inversion of the
call (`readVolume_rejected`): no other branch returns one.
-/

namespace N00bOS

open KernelM Machine

namespace Fat16

/-! ## What mounting touches

Two stores and the disk; nothing that another call reads. -/

/-- **Nothing but** the memory, the disk, and its streams and private data has
changed: no descriptor, no item and no string. -/
def OnlyDisk (k k' : Kernel) : Prop :=
  k' = { k with
    mem := k'.mem
    nextId := k'.nextId
    disk := k'.disk
    diskStreams := k'.diskStreams
    fatPrivates := k'.fatPrivates }

instance : IsPreorder Kernel OnlyDisk where
  refl _ := rfl
  trans k k' k'' h₁ h₂ := by
    unfold OnlyDisk at h₁ h₂ ⊢
    rw [h₂, h₁]

namespace OnlyDisk

theorem of_readFrame {k k' : Kernel} (h : ReadFrame k k') : OnlyDisk k k' := by
  unfold OnlyDisk
  rw [h.eq]

theorem heap {k k' : Kernel} (h : OnlyDisk k k') : k'.heap = k.heap := by
  unfold OnlyDisk at h
  rw [h]

theorem allocate (size : Word) : Keeps OnlyDisk (KernelM.allocate size) := by
  intro k p k' h
  obtain ⟨-, ⟨m, rfl⟩, -⟩ := allocate_spec h
  rfl

theorem newStream (diskId : ℤ) : Keeps OnlyDisk (Streamer.newStream diskId) :=
  Keeps.ite Keeps.pure ((allocate _).bind fun _ =>
    Keeps.bind (Keeps.modify fun _ => rfl) fun _ => Keeps.pure)

theorem close (stream : Ptr) : Keeps OnlyDisk (Streamer.close stream) :=
  Keeps.bind (Keeps.modify fun _ => rfl) fun _ => Keeps.modify fun _ => rfl

theorem deref {T : Type} (store : Kernel → ℕ → Option T) (p : Ptr) :
    Keeps OnlyDisk (KernelM.deref store p) :=
  (ReadFrame.deref _ _).mono fun _ _ => of_readFrame

theorem setPrivate (p : Ptr) (f : FatPrivate → FatPrivate) :
    Keeps OnlyDisk (Fat16.setPrivate p f) :=
  (deref _ _).bind fun _ => Keeps.modify fun _ => rfl

theorem initFatPrivate (d : DiskRef) (p : Ptr) :
    Keeps OnlyDisk (Fat16.initFatPrivate d p) :=
  Keeps.bind ((ReadFrame.derefDisk d).mono fun _ _ => of_readFrame) fun _ =>
    (newStream _).bind fun _ => (setPrivate _ _).bind fun _ =>
      (newStream _).bind fun _ => (setPrivate _ _).bind fun _ =>
        (newStream _).bind fun _ => setPrivate _ _

theorem cleanUp (p : Ptr) : Keeps OnlyDisk (Fat16.cleanUp p) :=
  Keeps.bind ((deref _ _).bind fun _ => (close _).bind fun _ =>
    (close _).bind fun _ => close _)
    fun _ => Keeps.bind (Keeps.modify fun _ => rfl) fun _ =>
      Keeps.bind (Keeps.modify fun _ => rfl) fun _ => Keeps.modify fun _ => rfl

end OnlyDisk

/-! ## Giving back

The end of the call, step by step. -/

section GiveBack

variable {k k' : Kernel} {es : List Extent}

/-- A stream that is closed gives its block back. -/
theorem close_holds {s : Ptr} {i : ℕ}
    (h : Streamer.close s k = Except.ok ((), k'))
    (haddr : s.addr = k.heap.blockAddress i)
    (hes : k.Holds (oneBlocks [i] ++ es)) :
    k'.heap = k.heap ∧ k'.Holds es := by
  obtain ⟨-, rfl⟩ := Prod.mk.inj (Except.ok.inj h)
  exact ⟨rfl, Kernel.Holds.freed hes haddr⟩

/-- **The end after an error** gives back the private data and its three
streams, and the disk has no filesystem. -/
theorem cleanUp_holds {p : Ptr} {pd : FatPrivate} {i₀ i₁ i₂ i₃ : ℕ}
    (h : cleanUp p k = Except.ok ((), k')) (hpd : k.fatPrivates p.id = some pd)
    (haddr₀ : p.addr = k.heap.blockAddress i₀)
    (haddr₁ : pd.clusterReadStream.addr = k.heap.blockAddress i₁)
    (haddr₂ : pd.fatReadStream.addr = k.heap.blockAddress i₂)
    (haddr₃ : pd.directoryReadStream.addr = k.heap.blockAddress i₃)
    (hes : k.Holds (oneBlocks [i₀, i₁, i₂, i₃] ++ es)) :
    k'.disk = ⟨FilesystemRef.null, Ptr.null⟩ ∧ k'.heap = k.heap
      ∧ k'.Holds es := by
  -- the private data is the last to be given back
  have hperm : (⟨i₀, 1⟩ :: (oneBlocks [i₁, i₂, i₃] ++ es)).Perm
      (oneBlocks [i₁, i₂, i₃] ++ ⟨i₀, 1⟩ :: es) := List.perm_middle.symm
  have hlast : k.Holds (oneBlocks [i₁]
      ++ (oneBlocks [i₂] ++ (oneBlocks [i₃] ++ ⟨i₀, 1⟩ :: es))) :=
    hes.perm hperm
  obtain ⟨u, k₁, hclose, h₁⟩ := bind_eq_ok.mp h
  rw [kfree_bind, modify_bind] at h₁
  obtain ⟨-, rfl⟩ := Prod.mk.inj (Except.ok.inj h₁)
  obtain ⟨pd', k₂, hderef, h₂⟩ := bind_eq_ok.mp hclose
  obtain ⟨-, hpd', rfl⟩ := deref_eq_ok hderef
  obtain rfl := Option.some.inj (hpd.symm.trans hpd')
  obtain ⟨u₁, k₃, hclose₁, h₃⟩ := bind_eq_ok.mp h₂
  obtain ⟨u₂, k₄, hclose₂, hclose₃⟩ := bind_eq_ok.mp h₃
  obtain ⟨hheap₃, hes₃⟩ := close_holds hclose₁ haddr₁ hlast
  obtain ⟨hheap₄, hes₄⟩ :=
    close_holds hclose₂ (by rw [hheap₃]; exact haddr₂) hes₃
  obtain ⟨hheap₁, hes₁⟩ :=
    close_holds hclose₃ (by rw [hheap₄, hheap₃]; exact haddr₃) hes₄
  have hheap : k₁.heap = k₂.heap := hheap₁.trans (hheap₄.trans hheap₃)
  exact ⟨rfl, hheap, hes₁.freed (show p.addr = k₁.heap.blockAddress i₀ by
    rw [hheap]
    exact haddr₀)⟩

end GiveBack

/-! ## The rejection

From the result to the signature, and from there to the whole run. -/

section Rejection

variable {k k' : Kernel} {d : DiskRef} {p s : Ptr} {r : ℤ}

/-- **The scan of the root directory does not fail**: if it returns, the result
is `0`. -/
theorem getRootDirectory_eq_zero
    (h : getRootDirectory d p k = Except.ok (r, k')) : r = 0 := by
  obtain ⟨pd, k₁, -, h₁⟩ := bind_eq_ok.mp h
  obtain ⟨total, k₂, hcount, h₂⟩ := bind_eq_ok.mp h₁
  have hbounds := getDirectoryTotalItems_bounds hcount
  rw [if_neg (not_lt.mpr hbounds.1)] at h₂
  obtain ⟨pd₂, k₃, -, h₃⟩ := bind_eq_ok.mp h₂
  exact (Prod.mk.inj (Except.ok.inj h₃)).1.symm

theorem getRootDirectory_nonneg (h : getRootDirectory d p k
    = Except.ok (r, k')) :
    0 ≤ r :=
  (getRootDirectory_eq_zero h).ge

/-- **A negative result means that the signature is another one.** The read of
the header cannot fail, and neither can the scan of the root directory, so
nothing else is rejected. -/
theorem readVolume_rejected
    (hs : k.diskStreams s.id = some ⟨0, DiskRef.primary⟩) (hne : s.addr ≠ 0)
    (hr : r < 0) (h : readVolume d p s k = Except.ok (r, k')) :
    (fatHeaderOf (k.sectors 0)).signature ≠ fat16Signature
      ∧ ∃ pd k₁, k.fatPrivates p.id = some pd ∧ ReadFrame k k₁
        ∧ k' = k₁.setFatPrivate p.id
          (some { pd with header := fatHeaderOf (k.sectors 0) }) := by
  rcases readVolume_cases hs h with
    ⟨hnull, -⟩ | ⟨pd, k₁, hpd, hframe, ⟨hsig, -, hk'⟩ | ⟨-, hroot⟩⟩
  · exact absurd hnull hne
  · exact ⟨hsig, pd, k₁, hpd, hframe, hk'⟩
  · exact absurd hr (not_lt.mpr (getRootDirectory_nonneg hroot))

/-- **No trace of a call**: the disk has no filesystem, nothing but its streams
and private data has been touched, and the table is as before. -/
structure NoTrace (k k' : Kernel) : Prop where
  disk : k'.disk = ⟨FilesystemRef.null, Ptr.null⟩
  onlyDisk : OnlyDisk k k'
  table : SameTable k.heap k.mem k'.mem

/-- **A call that rejects the disk** gives back all that it has allocated.
These are the stream of the call, the three streams of the private data, and
the private data. -/
theorem fat16Resolve_rejected (hk : k.HeapOk) (hr : r < 0)
    (h : fat16Resolve d k = Except.ok (r, k')) :
    NoTrace k k' := by
  obtain ⟨hw, es, hinv⟩ := hk
  obtain ⟨p, s, k₁, k₂, k₃, k₄, k₅, halloc, hinit, hstream, hvolume,
      hclose, hend⟩ :=
    fat16Resolve_steps h
  obtain ⟨pd, i₀, i₁, i₂, i₃, i, hmount⟩ :=
    mount_started ⟨hw, hinv⟩ halloc hinit hstream
  obtain ⟨-, pd₃, k₆, hpd₃, hread, rfl⟩ :=
    readVolume_rejected (newStream_eq_ok hstream) hmount.ne_null.2 hr hvolume
  obtain rfl := Option.some.inj (hmount.privateData.symm.trans hpd₃)
  rw [if_pos hmount.ne_null.2] at hclose
  rw [if_pos ⟨hr, hmount.ne_null.1⟩] at hend
  have honly : OnlyDisk k k' := calc
    OnlyDisk k k₁ := OnlyDisk.allocate _ _ _ _ halloc
    OnlyDisk _ (k₁.setFatPrivate p.id (some zeroPrivate)) := rfl
    OnlyDisk _ k₂ := OnlyDisk.initFatPrivate _ _ _ _ _ hinit
    OnlyDisk _ { k₂ with disk := ⟨FilesystemRef.fat16, p⟩ } := rfl
    OnlyDisk _ k₃ := OnlyDisk.newStream _ _ _ _ hstream
    OnlyDisk _ k₆ := OnlyDisk.of_readFrame hread
    OnlyDisk _ (k₆.setFatPrivate p.id
      (some { pd with header := fatHeaderOf (k₃.sectors 0) })) := rfl
    OnlyDisk _ k₅ := OnlyDisk.close _ _ _ _ hclose
    OnlyDisk _ k' := OnlyDisk.cleanUp _ _ _ _ hend
  -- the stream of the call, and then the rest
  have hheap₆ : k₆.heap = k.heap := hread.heap.trans hmount.heap
  have hblock : ∀ {a : Word} {j : ℕ}, a = k.heap.blockAddress j →
      a = k₆.heap.blockAddress j :=
    fun ha => by rw [ha, hheap₆]
  have hes₆ := hmount.holds.readFrame hread
  obtain ⟨hheap₅, hes₅⟩ := close_holds hclose (hblock hmount.addr) hes₆
  have hpd₅ : k₅.fatPrivates p.id
      = some { pd with header := fatHeaderOf (k₃.sectors 0) } := by
    rw [(OpenFrame.close _ _ _ _ hclose).fatPrivates]
    exact Function.update_self _ _ _
  have hblock₅ : ∀ {a : Word} {j : ℕ}, a = k.heap.blockAddress j →
      a = k₅.heap.blockAddress j :=
    fun ha => by rw [hheap₅, hblock ha]; rfl
  obtain ⟨hdisk, hheap, hes'⟩ :=
    cleanUp_holds hend hpd₅ (hblock₅ hmount.addr_private)
    (hblock₅ hmount.addr_cluster) (hblock₅ hmount.addr_fat)
      (hblock₅ hmount.addr_directory) hes₅
  refine ⟨hdisk, honly, fun j hj => ?_⟩
  have hinv' := hes'.2
  rw [honly.heap] at hinv'
  exact hinv'.entry_eq hinv (fun _ => Iff.rfl) hj

/-- **A disk that is rejected leaves no trace.** For every heap in use and
every disk for which `fat16_resolve` returns a negative value: the disk has no
filesystem afterwards, the table is what it was, and `resolve` goes on with the
next filesystem in that state. Every way out of the function comes by its end,
where what was allocated is freed; which streams are there by then is a case of
its own for each of them. -/
theorem rejected_disk_leaves_no_trace (hk : k.HeapOk) (hr : r < 0)
    (h : fat16Resolve d k = Except.ok (r, k')) :
    NoTrace k k'
      ∧ ∀ {F : Type} (resolveOf : F → DiskRef → KernelM ℤ) (filesystem : F)
      (filesystems : List (Option F)), resolveOf filesystem = fat16Resolve →
        File.resolve resolveOf d (some filesystem :: filesystems) k
          = File.resolve resolveOf d filesystems k' := by
  refine ⟨fat16Resolve_rejected hk hr h,
    fun resolveOf filesystem filesystems hfat => ?_⟩
  rw [File.resolve, hfat, bind_ok h, if_neg (by omega)]

/-! ## A disk without the signature

The other direction: such a disk is rejected when there are blocks for the
allocations. -/

/-- Closing the private data goes through. -/
theorem closeFatPrivate_returns {pd : FatPrivate} (hp : p.addr ≠ 0)
    (hpd : k.fatPrivates p.id = some pd) :
    ∃ k', closeFatPrivate p k = Except.ok ((), k') := by
  rw [closeFatPrivate, bind_ok (deref_ok hp hpd)]
  exact ⟨_, rfl⟩

/-- **`fat16_resolve` rejects a disk without the signature** when there are
blocks for its allocations. -/
theorem fat16Resolve_rejects (hk : k.HeapOk) (hfree : 5 ≤ k.freeBlocks)
    (hsig : (fatHeaderOf (k.sectors 0)).signature ≠ fat16Signature) :
    ∃ k', fat16Resolve DiskRef.primary k = Except.ok (-efsnotpresent, k') := by
  obtain ⟨p, s, k₁, k₂, k₃, pd, halloc, hinit, hnew, hready⟩ :=
    mount_ready hk hfree
  obtain ⟨k₄, -, hvolume⟩ := readVolume_header hready.mounted hready.stream_ne
    hready.stream DiskRef.primary
  rw [hready.sectors, if_pos hsig, hready.disk] at hvolume
  set k₅ := k₄.setFatPrivate p.id
    (some { pd with header := fatHeaderOf (k.sectors 0) }) with hk₅
  set k₆ : Kernel :=
    ({ k₅ with mem := k₅.heap.kfree k₅.mem s.addr } : Kernel).setDiskStream s.id
      none with hk₆
  have hread : readVolume DiskRef.primary p s k₃
    = Except.ok (-efsnotpresent, k₅) := hvolume
  have hclose : Streamer.close s k₅ = Except.ok ((), k₆) := rfl
  obtain ⟨k₇, hclosed⟩ := closeFatPrivate_returns (k := k₆) hready.ne_null
    (Function.update_self _ _ _)
  rw [fat16Resolve, bind_ok halloc, modify_bind, bind_ok hinit, modify_bind,
    bind_ok hnew, bind_ok hread, if_pos hready.stream_ne, bind_ok hclose,
    if_pos ⟨by decide, hready.ne_null⟩]
  exact ⟨_, bind_ok hclosed⟩

/-- On an empty disk nothing is left either. -/
theorem rejected_disk_leaves_no_trace_empty :
    ∃ k', fat16Resolve DiskRef.primary (bootedWith fun _ => 0)
      = Except.ok (-efsnotpresent, k')
      ∧ NoTrace (bootedWith fun _ => 0) k'
      ∧ File.resolve (fun _ : Unit =>
        fat16Resolve) DiskRef.primary [some (), none]
          (bootedWith fun _ => 0)
        = File.resolve (fun _ : Unit =>
            fat16Resolve) DiskRef.primary [none] k' := by
  have hk : (bootedWith fun _ => 0).HeapOk := PathParser.bootedKernel_heapOk
  have hblocks : (bootedWith fun _ => 0).freeBlocks = 25600 :=
    PathParser.bootedKernel_freeBlocks
  have hsig : (0 : Byte) ≠ fat16Signature := by decide
  obtain ⟨k', hrun⟩ := fat16Resolve_rejects hk (by omega) hsig
  obtain ⟨hnone, hnext⟩ := rejected_disk_leaves_no_trace hk (by decide) hrun
  exact ⟨k', hrun, hnone, hnext _ () [none] rfl⟩

end Rejection

end Fat16

end N00bOS
