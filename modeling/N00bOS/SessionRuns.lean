import N00bOS.DescriptorRuns
import N00bOS.Interleaving
import N00bOS.Sessions

/-!
# Calls are steps of a session

On a volume in service every call of the file interface that returns is a step
of a session, and so every run of calls is a session. The relation that carries
the induction is `Serves`: a kernel serves a session when its volume is in
service and the descriptors that the session has open are open on its entries,
at its positions.

What stands behind a descriptor that is open (`Backed`) is its own: private
data and an item, with allocations that no other descriptor has a part in, and
blocks of the heap that are its own too. So closing one leaves the others as
they are, and the volume in service. For each kind of call there is a lemma
that keeps `Serves` and gives the answer, `Serves.fopen` being the long one;
`Serves.call` puts them together, and `Serves.run` is the induction over the
calls.

The result is stated for a kernel that has just mounted its disk
(`JustMounted`), which serves the session that has not started. It has two
parts (`mounted_disk_serves_sessions`). A run of calls is a session on the
disk, and of its open files every part can be read. And two kernels that have
mounted disks with the same sectors, and answer the same calls, give the same
answers, whatever was on their heaps, as long as the sectors settle every path
that is opened: both runs are sessions with the same calls, and there is one
such session only (`SessionRun.unique`).
-/

namespace N00bOS

open KernelM Machine Listing Fat16

/-! ## What `fopen` leaves alone

A second use of `StepFrame`, over the private data and the items too. -/

/-- **The volume and the items stay**: nothing that the volume consists of
changes, but for the positions of its streams, and no item that there is; the
extents of the heap stay. -/
structure OpensFrame (k k' : Kernel) : Prop where
  nextId : k.nextId ≤ k'.nextId
  sectors : k'.sectors = k.sectors
  disk : k'.disk = k.disk
  fatPrivates : k'.fatPrivates = k.fatPrivates
  low : SameLow k k'
  streams : StreamsStay k k'
  items : SameItems (fun id => id < k.nextId) k k'
  grows : k.Grows k'

instance : IsPreorder Kernel OpensFrame where
  refl k := ⟨Nat.le_refl _, rfl, rfl, rfl, SameLow.refl k,
    refl_of StreamsStay k, SameItems.refl _ k, refl_of Kernel.Grows k⟩
  trans _ _ _ h₁ h₂ := ⟨h₁.nextId.trans h₂.nextId, h₂.sectors.trans h₁.sectors,
    h₂.disk.trans h₁.disk, h₂.fatPrivates.trans h₁.fatPrivates,
    h₁.low.trans h₂.low h₁.grows.heap,
    IsTrans.trans _ _ _ h₁.streams h₂.streams,
    h₁.items.trans (h₂.items.mono fun _ hid =>
      Nat.lt_of_lt_of_le hid h₁.nextId),
    IsTrans.trans _ _ _ h₁.grows h₂.grows⟩

namespace OpensFrame

variable {k k' : Kernel}

/-- A lookup that leaves the items there are. -/
theorem of_volumeFrame (h : VolumeFrame k k')
    (hitems : SameItems (fun id => id < k.nextId) k k') (hgrows : k.Grows k') :
    OpensFrame k k' :=
  ⟨h.nextId, h.sectors, h.disk, h.fatPrivates, h.low, h.streams, hitems, hgrows⟩

/-- A change of what is neither. -/
theorem of_eq (h : k' = { k with
      fileDescriptors := k'.fileDescriptors, fileDescriptorStructs :=
        k'.fileDescriptorStructs
      fatItemDescriptors := k'.fatItemDescriptors, pathRoots := k'.pathRoots
      strings := k'.strings }) : OpensFrame k k' := by
  rw [h]
  exact ⟨Nat.le_refl _, rfl, rfl, rfl, fun _ =>
    SameBelow.refl _ _, fun _ hs => hs,
      ⟨fun _ _ => rfl, fun _ _ => rfl, fun _ _ => rfl⟩,
      Kernel.Grows.of_eq rfl rfl⟩

theorem allocate (size : Word) :
    Keeps OpensFrame (KernelM.allocate size) := fun _ _ _ h =>
  of_volumeFrame (VolumeFrame.allocate _ _ _ _ h) (SameItems.allocate h)
    (Kernel.Grows.allocate _ _ _ _ h)

theorem deref {T : Type} (store : Kernel → ℕ → Option T) (p : Ptr) :
    Keeps OpensFrame (KernelM.deref store p) :=
  StepFrame.deref _ _

theorem getItem (d : DiskRef) (parts : List PathPart) :
    Keeps OpensFrame (Fat16.getItem d parts) :=
  fun _ _ _ h => of_volumeFrame (VolumeFrame.stepFrame.getItem _ _ _ _ _ h)
    (getItem_spec h).old
    (Kernel.Grows.getItem _ _ _ _ _ h)

theorem setFatItemDescriptor (id : ℕ) (v : Option FatItemDescriptor) :
    Keeps OpensFrame (modify fun k =>
      k.setFatItemDescriptor id v : KernelM Unit) :=
  Keeps.modify fun _ => of_eq rfl

theorem fat16Open (d : DiskRef) (path : List PathPart) (mode : FileMode) :
    Keeps OpensFrame (Fat16.fat16Open d path mode) :=
  Keeps.ite Keeps.pure ((allocate _).bind fun _ =>
    (setFatItemDescriptor _ _).bind fun _ =>
      (getItem _ _).bind fun _ => (setFatItemDescriptor _ _).bind fun _ =>
        Keeps.ite Keeps.pure Keeps.pure)

theorem getDrive (path : List Byte) :
    Keeps OpensFrame (PathParser.getDrive path) :=
  fun _ _ _ h => by
    have hread := Kernel.Grows.getDrive _ _ _ _ h
    refine of_volumeFrame (VolumeFrame.getDrive _ _ _ _ h)
      (SameItems.of_readFrame hread)
      (Kernel.Grows.of_readFrame hread)

theorem parsePathPart (path : List Byte) :
    Keeps OpensFrame (PathParser.parsePathPart path) := by
  refine Keeps.bind (Keeps.ite Keeps.pure ((allocate _).bind fun _ =>
    Keeps.bind (Keeps.modify fun _ => of_eq rfl) fun _ => Keeps.pure))
      fun _ => ?_
  exact (allocate _).bind fun _ => Keeps.pure

theorem parseLoop (rounds : ℕ) (parts : List PathPart) (path : List Byte) :
    Keeps OpensFrame (PathParser.parseLoop rounds parts path) := by
  induction rounds generalizing parts path with
  | zero => exact Keeps.fault
  | succ rounds ih =>
    exact Keeps.ite Keeps.pure ((parsePathPart _).bind fun _ => ih _ _)

theorem parse (path : List Byte) :
    Keeps OpensFrame (PathParser.parse path) := by
  refine Keeps.ite Keeps.pure (Keeps.ite Keeps.pure
    ((getDrive _).bind fun drive =>
      Keeps.ite Keeps.pure ?_))
  refine Keeps.bind ((allocate _).bind fun _ =>
    Keeps.bind (Keeps.modify fun _ => of_eq rfl)
    fun _ => Keeps.pure) fun root => ?_
  exact (parsePathPart _).bind fun _ => (parseLoop _ _ _).bind fun _ =>
    Keeps.bind (Keeps.modify fun _ => of_eq rfl) fun _ => Keeps.pure

theorem newFileDescriptor : Keeps OpensFrame File.newFileDescriptor := by
  refine Keeps.get.bind fun k => ?_
  cases File.freeSlot k.fileDescriptors with
  | none => exact Keeps.pure
  | some idx =>
    exact (allocate _).bind fun _ =>
      Keeps.bind (Keeps.modify fun _ => of_eq rfl) fun _ =>
        Keeps.bind (Keeps.modify fun _ => of_eq rfl) fun _ => Keeps.pure

/-- **`fopen`** leaves the volume and the items alone. -/
theorem fopen (filename mode : List Byte) :
    Keeps OpensFrame (File.fopen filename mode) := by
  refine (parse _).bind fun rootPath =>
    Keeps.ite Keeps.pure ((deref _ _).bind fun root =>
      Keeps.ite Keeps.pure (Keeps.ite Keeps.pure
        ((StepFrame.derefDisk _).bind fun d =>
          Keeps.ite Keeps.pure (Keeps.ite Keeps.pure
            ((fat16Open _ _ _).bind fun p =>
              Keeps.ite Keeps.pure
                (newFileDescriptor.bind fun result => ?_))))))
  cases result with
  | error e => exact Keeps.pure
  | ok descriptor =>
    exact (deref _ _).bind fun desc =>
      Keeps.bind (Keeps.modify fun _ => of_eq rfl)
      fun _ => Keeps.pure

end OpensFrame

/-- **A volume stays in service** while paths are opened: its private data is
what it was, and so is the memory that the root directory lies in. -/
theorem Fat16.InService.opensFrame {k k' : Kernel} {pd : FatPrivate}
    {items : List FatDirectoryItem} (h : InService k pd items)
    (hframe : OpensFrame k k') :
    InService k' pd items where
  mounted :=
    { heap := hframe.grows.heapOk h.mounted.heap
      fs := by rw [hframe.disk]; exact h.mounted.fs
      ne_null := by rw [hframe.disk]; exact h.mounted.ne_null
      privateData := by
        rw [hframe.disk, hframe.fatPrivates]; exact h.mounted.privateData
      cluster := hframe.streams _ h.mounted.cluster
      fat := hframe.streams _ h.mounted.fat
      directory := hframe.streams _ h.mounted.directory }
  cluster_ne_zero := h.cluster_ne_zero
  root_nonneg := h.root_nonneg
  item_null := h.item_null
  total := h.total
  low := h.low
  item i hi := by rw [← h.item i hi, h.lowItem_congr hframe.low hi]

namespace File

/-! ## What is behind a descriptor

From a slot of the table to the item of the entry, and what of the heap and of
the stores that is. -/

/-- What an open descriptor has for its own: what it leads to; the numbers of
the allocations of its item, from one on and below another; and its extents of
the heap. -/
structure Stake where
  info : OpenInfo
  first : ℕ
  last : ℕ
  own : List Extent

/-- **A descriptor that is open on an entry**, with what it has for its own. It
is the slot, the private data and the item that are followed from here, and the
position that the session has. -/
structure Backed (k : Kernel) (fd : ℤ) (f : OpenEntry) (t : Stake) : Prop where
  openFd : OpenFd k fd t.info f.pos
  type : t.info.fatItem.type = itemType f.item
  entry : t.info.directoryItem = f.item
  live : LiveItem t.first t.last k t.info.item
  old : t.last ≤ k.nextId
  owns : ∃ i own, t.own = ⟨i, 1⟩ :: own
    ∧ t.info.privateData.addr = k.heap.blockAddress i
    ∧ OwnsItem k t.info.item own

section Behind

variable {k k' : Kernel} {fd : ℤ} {f : OpenEntry} {t : Stake}

/-- A descriptor is backed as long as what it leads to is left alone. -/
theorem Backed.congr (h : Backed k fd f t)
    (hslot : k'.fileDescriptors fd.toNat = k.fileDescriptors fd.toNat)
    (hstruct : k'.fileDescriptorStructs (k.fileDescriptors fd.toNat).id
      = k.fileDescriptorStructs (k.fileDescriptors fd.toNat).id)
    (hdata : k'.fatItemDescriptors t.info.privateData.id
      = k.fatItemDescriptors t.info.privateData.id)
    (hitems : SameItems (fun id => t.first ≤ id ∧ id < t.last) k k')
    (hheap : k'.heap = k.heap) (hnext : k.nextId ≤ k'.nextId) :
    Backed k' fd f t where
  openFd := by
    have ho := h.openFd
    obtain ⟨i, hitem, hrest⟩ := h.live.item
    obtain rfl : i = t.info.fatItem :=
      Option.some.inj (hitem.symm.trans ho.item)
    refine ⟨ho.nonneg, ho.lt, by rw [hslot]; exact ho.slot, ?_,
      ho.privateData_ne_null, hdata.trans ho.descriptor, ho.item_ne_null,
      (hitems.fatItems _ ⟨h.live.le, h.live.lt⟩).trans ho.item, fun hfile => ?_⟩
    · rw [hslot, hstruct]
      exact ho.struct
    · obtain ⟨hne, rest, harray⟩ := ho.entry hfile
      rw [hfile] at hrest
      exact ⟨hne, rest, (hitems.itemArrays _ hrest).trans harray⟩
  type := h.type
  entry := h.entry
  live := h.live.congr hitems
  old := h.old.trans hnext
  owns := by
    obtain ⟨i, own, hown, haddr, howns⟩ := h.owns
    refine ⟨i, own, hown, ?_, howns.congr h.live hitems hheap⟩
    rw [hheap]
    exact haddr

/-- The slot of an open descriptor. -/
theorem OpenFd.inSlot {o : OpenInfo} {pos : Word} (h : OpenFd k fd o pos) :
    ∃ desc, InSlot k fd desc ∧ desc.privateData = o.privateData := by
  obtain ⟨idx, hstruct⟩ := h.struct
  exact ⟨_, ⟨h.nonneg, h.lt, h.slot, hstruct⟩, rfl⟩

end Behind

/-! ## `fclose`

What closing does to one descriptor, and the two invariants: that the open
descriptors have what is their own (`Backing`), and that a kernel serves a
session (`Serves`). -/

/-- **`fclose`** frees the item of a file and its private data, and does nothing
for a directory. -/
theorem OpenFd.fclose_eq {k : Kernel} {fd : ℤ} {o : OpenInfo} {pos : Word}
    (h : OpenFd k fd o pos) :
    fclose fd k = if o.fatItem.type = FatItemType.file then
      (itemDescriptorFree o.privateData >>= fun _ => pure 0) k
          else Except.ok (-einval, k) := by
  obtain ⟨idx, hstruct⟩ := h.struct
  rw [fclose, if_neg (Int.not_lt.mpr h.nonneg),
    Machine.bind_ok h.getFileDescriptor, if_neg h.slot,
    Machine.bind_ok (deref_ok h.slot hstruct)]
  show fat16Close o.privateData k = _
  rw [fat16Close, Machine.bind_ok h.deref_privateData,
    Machine.bind_ok h.deref_item]
  by_cases hfile : o.fatItem.type = FatItemType.file
  · rw [if_neg (not_not.mpr hfile), if_pos hfile]
  · rw [if_pos hfile, if_neg hfile]
    rfl

/-- **What is behind the open descriptors** of a session: each is backed, their
allocations are apart, and the heap holds the extents of all of them, beside
others. The others are those of the volume, and what was never given back. -/
structure Backing (s : Session) (k : Kernel) (fds : List ℤ) (stake : ℤ → Stake)
    (base : List Extent) : Prop where
  nodup : fds.Nodup
  mem : ∀ fd, fd ∈ fds ↔ ∃ f, s.files fd = some f
  backed : ∀ fd f, s.files fd = some f → Backed k fd f (stake fd)
  apart : ∀ fd ∈ fds, ∀ fd' ∈ fds, fd ≠ fd' →
    (stake fd).last ≤ (stake fd').first ∨ (stake fd').last ≤ (stake fd).first
  holds : k.Holds ((fds.flatMap fun fd => (stake fd).own) ++ base)

/-- **A kernel serves a session**: the volume is in service, the slots that have
been filled are those of the descriptors that were handed out, the private data
of those that are not open is gone, and the others are backed. -/
structure Serves (sectors : ℤ → ℕ → Byte) (pd : FatPrivate)
    (items : List FatDirectoryItem) (s : Session) (k : Kernel) : Prop where
  service : InService k pd items
  sectors : k.sectors = sectors
  below : k.HeapBelow
  table : TableInv k
  taken : TakenUpTo k s.next
  next_le : s.next ≤ fsMaxFileDescriptors
  gone : ∀ fd, s.files fd = none → ∀ desc, InSlot k fd desc →
    k.fatItemDescriptors desc.privateData.id = none
  backing : ∃ fds stake base, Backing s k fds stake base

section Serving

variable {sectors : ℤ → ℕ → Byte} {pd : FatPrivate}
  {items : List FatDirectoryItem} {s : Session} {k k' : Kernel} {fd : ℤ}
  {f : OpenEntry}

/-- A volume in service without open files serves the session that has not
started. -/
theorem Serves.start (hs : InService k pd items) (hbelow : k.HeapBelow)
    (hempty : ∀ i, i < fsMaxFileDescriptors → (k.fileDescriptors i).addr = 0) :
    Serves k.sectors pd items Session.start k where
  service := hs
  sectors := rfl
  below := hbelow
  table := TableInv.of_empty hempty
  taken i hi := iff_of_false (not_not.mpr (hempty i hi)) (Nat.not_lt_zero i)
  next_le := Nat.zero_le _
  gone fd _ desc hslot := by
    have hnonneg := hslot.nonneg
    have hlt := hslot.lt
    exact absurd (hempty fd.toNat (by omega)) hslot.slot
  backing := by
    obtain ⟨hwf, es, hinv⟩ := hs.mounted.heap
    exact ⟨[], fun _ =>
      ⟨⟨Ptr.null, Ptr.null, ⟨Ptr.null, FatItemType.file⟩, fun _ => 0⟩, 0, 0,
        []⟩, es, List.nodup_nil, fun fd =>
          ⟨(nomatch ·), fun ⟨_, h⟩ => (nomatch h)⟩,
      fun _ _ h => (nomatch h), fun _ h => (nomatch h), ⟨hwf, hinv⟩⟩

/-- An open descriptor is backed. -/
theorem Serves.backed (h : Serves sectors pd items s k)
    (hopen : s.files fd = some f) :
    ∃ t, Backed k fd f t := by
  obtain ⟨fds, stake, base, hb⟩ := h.backing
  exact ⟨_, hb.backed fd f hopen⟩

/-- A read leaves everything that a session sees. -/
theorem Serves.readFrame (h : Serves sectors pd items s k) (hr : ReadFrame k k')
    (hvolume : VolumeFrame k k') : Serves sectors pd items s k' := by
  have hslots : k'.fileDescriptors = k.fileDescriptors := by rw [hr.eq]
  have hstructs : k'.fileDescriptorStructs = k.fileDescriptorStructs := by
    rw [hr.eq]
  have hdata : k'.fatItemDescriptors = k.fatItemDescriptors := by rw [hr.eq]
  have hnext : k'.nextId = k.nextId := by rw [hr.eq]
  refine ⟨h.service.volumeFrame hvolume
    ((Kernel.Grows.of_readFrame hr).heapOk h.service.mounted.heap), ?_, ?_,
    h.table.congr hnext.ge hslots hstructs, h.taken.congr hslots,
    h.next_le, fun fd hfd desc hslot => ?_, ?_⟩
  · rw [hr.eq]
    exact h.sectors
  · unfold Kernel.HeapBelow
    rw [hr.heap]
    exact h.below
  · rw [hdata]
    exact h.gone fd hfd desc ⟨hslot.nonneg, hslot.lt, hslots ▸ hslot.slot, by
      rw [← hstructs, ← hslots]
      exact hslot.struct⟩
  · obtain ⟨fds, stake, base, hb⟩ := h.backing
    exact ⟨fds, stake, base, hb.nodup, hb.mem, fun fd f hopen =>
      (hb.backed fd f hopen).congr
      (by rw [hslots]) (by rw [hstructs]) (by rw [hdata])
        (SameItems.of_readFrame hr) hr.heap
      hnext.ge, hb.apart, hb.holds.readFrame hr⟩

/-! ### Positions

A seek changes one number in private data, and so one descriptor of the
session. -/

/-- **A position that is set** is set in the session. No other descriptor has
the same private data, so that of the others stays. -/
theorem Serves.setPos (h : Serves sectors pd items s k)
    (hopen : s.files fd = some f) :
    ∃ t, Backed k fd f t ∧ ∀ pos, Serves sectors pd items (s.moved fd f pos)
      (k.setFatItemDescriptor t.info.privateData.id
        (some ⟨t.info.item, pos⟩)) := by
  obtain ⟨fds, stake, base, hb⟩ := h.backing
  have ht := hb.backed fd f hopen
  refine ⟨stake fd, ht, fun pos => ?_⟩
  have hfiles : ∀ fd', fd' ≠ fd → (s.moved fd f pos).files fd' = s.files fd' :=
    fun fd' hne =>
      Function.update_of_ne hne _ _
  have hself : (s.moved fd f pos).files fd = some { f with pos := pos } :=
    Function.update_self _ _ _
  refine ⟨h.service.setFatItemDescriptor _ _, h.sectors, h.below,
    h.table.congr (Nat.le_refl _) rfl rfl, h.taken,
    h.next_le, fun fd' hfd desc hslot => ?_, fds, stake, base,
    hb.nodup, fun fd' => ?_, fun fd' f' hopen' => ?_, hb.apart, hb.holds⟩
  · -- the private data of a descriptor that is not open is another one's
    by_cases hfd' : fd' = fd
    · rw [hfd', hself] at hfd
      cases hfd
    rw [hfiles fd' hfd'] at hfd
    have hgone := h.gone fd' hfd desc ⟨hslot.nonneg, hslot.lt, hslot.slot,
      hslot.struct⟩
    have hne : desc.privateData.id ≠ (stake fd).info.privateData.id :=
        fun heq => by
          rw [heq, ht.openFd.descriptor] at hgone
          cases hgone
    exact (Function.update_of_ne hne _ _).trans hgone
  · by_cases hfd' : fd' = fd
    · rw [hfd', hself, hb.mem]
      exact iff_of_true ⟨f, hopen⟩ ⟨_, rfl⟩
    · rw [hfiles fd' hfd']
      exact hb.mem fd'
  · have hsame : SameItems (fun _ => True) k
      (k.setFatItemDescriptor (stake fd).info.privateData.id
        (some ⟨(stake fd).info.item, pos⟩)) :=
          ⟨fun _ _ => rfl, fun _ _ => rfl, fun _ _ => rfl⟩
    by_cases hfd' : fd' = fd
    · subst hfd'
      obtain rfl := Option.some.inj (hself.symm.trans hopen')
      obtain ⟨i, own, hown, haddr, howns⟩ := ht.owns
      exact ⟨ht.openFd.setPos pos, ht.type, ht.entry,
        ht.live.congr (hsame.mono fun _ _ => trivial), ht.old, i, own,
        hown, haddr, howns.congr ht.live (hsame.mono fun _ _ => trivial) rfl⟩
    · rw [hfiles fd' hfd'] at hopen'
      have hother := hb.backed fd' f' hopen'
      exact hother.congr rfl rfl
        (Function.update_of_ne
          (hother.openFd.privateData_ne h.table ht.openFd hfd') _ _)
        (hsame.mono fun _ _ => trivial) rfl (Nat.le_refl _)

/-! ### Closing

The item of a file is freed, and then its private data. What is freed is the
descriptor's own, so the others keep theirs. -/

/-- **Without one of the descriptors**, whose extents are gone. What closing
may have left on the heap is counted among the others. -/
theorem Backing.closed {fds : List ℤ} {stake : ℤ → Stake}
    {base lost : List Extent} (hb : Backing s k fds stake base)
    (hbacked : ∀ fd' f', fd' ≠ fd → s.files fd' = some f' →
      Backed k' fd' f' (stake fd'))
    (hholds : k'.Holds
      (lost ++ (((fds.erase fd).flatMap fun fd => (stake fd).own) ++ base))) :
    Backing (s.closed fd) k' (fds.erase fd) stake (lost ++ base) := by
  have hfiles : ∀ fd', fd' ≠ fd → (s.closed fd).files fd' = s.files fd' :=
    fun fd' hne =>
      Function.update_of_ne hne _ _
  have hself : (s.closed fd).files fd = none := Function.update_self _ _ _
  refine ⟨hb.nodup.erase fd, fun fd' => ?_, fun fd' f' hopen' => ?_,
    fun a ha b hb' =>
      hb.apart a (List.mem_of_mem_erase ha) b (List.mem_of_mem_erase hb'), ?_⟩
  · rw [hb.nodup.mem_erase_iff]
    by_cases hfd' : fd' = fd
    · rw [hfd', hself]
      refine iff_of_false (fun h => h.1 rfl) ?_
      rintro ⟨_, h⟩
      cases h
    · rw [hfiles fd' hfd', hb.mem]
      exact and_iff_right hfd'
  · have hne : fd' ≠ fd := fun heq => by
      rw [heq, hself] at hopen'
      cases hopen'
    rw [hfiles fd' hne] at hopen'
    exact hbacked fd' f' hne hopen'
  · exact hholds.perm (List.perm_append_comm_assoc _ _ _)

/-- **`fclose` on a file** frees its item and then its private data, and gives
back what the descriptor has for its own. -/
theorem Backed.fclose_ok {t : Stake} (ht : Backed k fd f t)
    (hfile : itemType f.item = FatItemType.file) {others : List Extent}
    (hholds : k.Holds (t.own ++ others)) {r : ℤ}
    (hrun : fclose fd k = Except.ok (r, k')) :
    r = 0 ∧ ∃ k₂ lost, OpenFrame k k₂ ∧ VolumeFrame k k₂ ∧ k₂.HeapOk
      ∧ SameItems (fun id => id < t.first ∨ t.last ≤ id) k k₂
      ∧ k' = (k₂.freed t.info.privateData.addr).setFatItemDescriptor
        t.info.privateData.id none
      ∧ k'.Holds (lost ++ others) := by
  obtain ⟨i, own, hown, haddr, howns⟩ := ht.owns
  rw [ht.openFd.fclose_eq, if_pos (ht.type.trans hfile)] at hrun
  obtain ⟨u, k₀, hfreed, h₀⟩ := Machine.bind_eq_ok.mp hrun
  obtain ⟨rfl, rfl⟩ := Prod.mk.inj (Except.ok.inj h₀)
  rw [itemDescriptorFree, Machine.bind_ok ht.openFd.deref_privateData] at hfreed
  obtain ⟨v, k₁, hfree, h₁⟩ := Machine.bind_eq_ok.mp hfreed
  rw [kfree_bind] at h₁
  obtain ⟨-, rfl⟩ := Prod.mk.inj (Except.ok.inj h₁)
  obtain ⟨k₂, hfree', hsame⟩ := itemFree_ok ht.live ht.openFd.item_ne_null
  obtain ⟨-, rfl⟩ := Prod.mk.inj (Except.ok.inj (hfree'.symm.trans hfree))
  have hframe := OpenFrame.itemFree _ _ _ _ hfree
  -- the extents of the item go, and then the one of the private data
  rw [hown] at hholds
  obtain ⟨lost, hholds₁⟩ :=
    itemFree_heap howns (hholds.perm List.perm_middle.symm) hfree
  have hholds₂ := (hholds₁.perm List.perm_middle).freed
    (show t.info.privateData.addr
      = k₂.heap.blockAddress i by rw [hframe.heap]; exact haddr)
  exact ⟨rfl, k₂, lost, hframe, VolumeFrame.stepFrame.itemFree _ _ _ _ hfree,
    hholds₁.heapOk, hsame, rfl, hholds₂⟩

/-- **Closing a file** gives back what it has for its own, and the others keep
what they have. -/
theorem Serves.close (h : Serves sectors pd items s k)
    (hopen : s.files fd = some f) (hfile : itemType f.item = FatItemType.file)
    {r : ℤ} (hrun : fclose fd k = Except.ok (r, k')) :
    r = 0 ∧ Serves sectors pd items (s.closed fd) k' := by
  obtain ⟨fds, stake, base, hb⟩ := h.backing
  have ht := hb.backed fd f hopen
  have hmem : fd ∈ fds := (hb.mem fd).mpr ⟨f, hopen⟩
  have hperm := List.Perm.flatMap_right (fun fd => (stake fd).own)
    (List.perm_cons_erase hmem)
  have hholds := hb.holds.perm (hperm.append_right base)
  rw [List.flatMap_cons, List.append_assoc] at hholds
  obtain ⟨rfl, k₂, lost, hframe, hvolume, hok, hsame, rfl, hclosed⟩ :=
    ht.fclose_ok hfile hholds hrun
  have hservice := h.service.volumeFrame hvolume hok
  have hfiles : ∀ fd', fd' ≠ fd → (s.closed fd).files fd' = s.files fd' :=
    fun fd' hne =>
      Function.update_of_ne hne _ _
  set k₃ := (k₂.freed (stake fd).info.privateData.addr).setFatItemDescriptor
    (stake fd).info.privateData.id none with hk₃
  have hslots : k₃.fileDescriptors = k.fileDescriptors := hframe.fileDescriptors
  have hstructs : k₃.fileDescriptorStructs = k.fileDescriptorStructs :=
    hframe.fileDescriptorStructs
  have hdata : ∀ id, id ≠ (stake fd).info.privateData.id →
      k₃.fatItemDescriptors id = k.fatItemDescriptors id := fun id hne =>
    (Function.update_of_ne hne _ _).trans
      (congrFun hframe.fatItemDescriptors id)
  refine ⟨rfl, ⟨?_, hframe.sectors.trans h.sectors, ?_,
    h.table.congr hframe.nextId hslots hstructs, h.taken.congr hslots,
    h.next_le, fun fd' hfd desc hin => ?_, ?_⟩⟩
  · exact { hservice with
      mounted := { hservice.mounted with heap := hclosed.heapOk }
      item := fun i hi => by
        rw [← hservice.item i hi]
        exact hservice.lowItem_congr
          (SameLow.freed k₂ (stake fd).info.privateData.addr) hi }
  · show Kernel.HeapBelow k₂
    unfold Kernel.HeapBelow
    rw [hframe.heap]
    exact h.below
  · have hslot : InSlot k fd' desc := ⟨hin.nonneg, hin.lt, hslots ▸ hin.slot, by
      rw [← hstructs, ← hslots]
      exact hin.struct⟩
    by_cases hid : desc.privateData.id = (stake fd).info.privateData.id
    · rw [hid]
      exact Function.update_self _ _ _
    · rw [hdata _ hid]
      by_cases hfd' : fd' = fd
      · -- the slot has the private data that is gone now
        obtain ⟨desc', hslot', hinfo⟩ := ht.openFd.inSlot
        subst hfd'
        obtain rfl := Option.some.inj (hslot.struct.symm.trans hslot'.struct)
        exact absurd (congrArg Ptr.id hinfo) hid
      · rw [hfiles fd' hfd'] at hfd
        exact h.gone fd' hfd desc hslot
  · refine ⟨fds.erase fd, stake, lost ++ base,
      hb.closed (fun fd' f' hne hopen' => ?_) hclosed⟩
    have hother := hb.backed fd' f' hopen'
    have hmem' : fd' ∈ fds := (hb.mem fd').mpr ⟨f', hopen'⟩
    have hsame' : SameItems (fun id => (stake fd').first ≤ id
        ∧ id < (stake fd').last) k k₂ :=
      hsame.mono fun id hid => by
        have := hb.apart fd' hmem' fd hmem hne
        omega
    exact hother.congr (by rw [hslots]) (by rw [hstructs])
      (hdata _ (hother.openFd.privateData_ne h.table ht.openFd hne))
      ⟨hsame'.fatItems, hsame'.fatDirectories, hsame'.itemArrays⟩ hframe.heap
        hframe.nextId

/-! ### Opening

What `fopen` leaves when it fails, and when it does not: in the second case a
descriptor more, whose allocations are later than all the others. -/

/-- The private data behind a slot has been allocated. -/
theorem OpenFd.privateData_lt {o : OpenInfo} {pos : Word}
    (h : OpenFd k fd o pos) (htable : TableInv k) :
    (k.fileDescriptors fd.toNat).id < k.nextId
      ∧ o.privateData.id < k.nextId := by
  obtain ⟨desc, hslot, hdata⟩ := h.inSlot
  have hnonneg := h.nonneg
  have hlt : fd.toNat < fsMaxFileDescriptors := by
    have := hslot.lt
    omega
  obtain ⟨hid, desc', hstruct, hold⟩ := htable.slots fd.toNat hlt h.slot
  obtain rfl := Option.some.inj (hstruct.symm.trans hslot.struct)
  rw [← hdata]
  exact ⟨hid, hold⟩

/-- **A descriptor stays backed** while a path is opened, or is not. Its slot,
its private data and its item are all from before the call. -/
theorem Backed.opensFrame {t : Stake} (h : Backed k fd f t)
    (htable : TableInv k) (hframe : OpensFrame k k') (hcall : CallFrame k k')
    (hold : ∀ id, id < k.nextId →
      k'.fatItemDescriptors id = k.fatItemDescriptors id) :
    Backed k' fd f t :=
  have hlt := h.openFd.privateData_lt htable
  h.congr (hcall.slots _ h.openFd.slot) (hcall.structs _ hlt.1) (hold _ hlt.2)
    (hframe.items.mono fun _ hid => Nat.lt_of_lt_of_le hid.2 h.old)
      hframe.grows.heap hframe.nextId

/-- Private data that is gone stays gone. -/
theorem gone_of_callFrame (htable : TableInv k) (hcall : CallFrame k k')
    (hslot : (k.fileDescriptors fd.toNat).addr ≠ 0)
    (hgone : ∀ desc, InSlot k fd desc →
      k.fatItemDescriptors desc.privateData.id = none)
    (desc : FileDescriptor) (hin : InSlot k' fd desc) :
    k'.fatItemDescriptors desc.privateData.id = none := by
  have hnonneg := hin.nonneg
  have hlt := hin.lt
  obtain ⟨-, desc₀, hstruct, -⟩ := htable.slots fd.toNat (by omega) hslot
  have hin₀ : InSlot k fd desc₀ := ⟨hnonneg, hlt, hslot, hstruct⟩
  obtain ⟨desc₁, hin₁, hnone⟩ :=
    Stale.callFrame ⟨desc₀, hin₀, hgone desc₀ hin₀⟩ htable hcall
  obtain rfl := Option.some.inj (hin.struct.symm.trans hin₁.struct)
  exact hnone

/-- **A path that is not opened** leaves the session as it is. What the call
has allocated and not given back is on the heap beside the rest. -/
theorem Serves.notOpened (h : Serves sectors pd items s k)
    (hframe : OpensFrame k k') (hno : NotOpened k k') :
    Serves sectors pd items s k' := by
  obtain ⟨fds, stake, base, hb⟩ := h.backing
  obtain ⟨new, hholds⟩ := hframe.grows.holds _ hb.holds
  refine ⟨h.service.opensFrame hframe, hframe.sectors.trans h.sectors, ?_,
    h.table.congr hno.nextId hno.fileDescriptors hno.fileDescriptorStructs,
    h.taken.congr hno.fileDescriptors, h.next_le, fun fd hfd desc hin => ?_,
    fds, stake, new ++ base, hb.nodup, hb.mem, fun fd f hopen =>
      (hb.backed fd f hopen).opensFrame h.table hframe hno.callFrame hno.old,
        hb.apart, ?_⟩
  · unfold Kernel.HeapBelow
    rw [hframe.grows.heap]
    exact h.below
  · have hslot := hin.slot
    rw [hno.fileDescriptors] at hslot
    exact gone_of_callFrame h.table hno.callFrame hslot (h.gone fd hfd) desc hin
  · exact hholds.perm (List.perm_append_comm_assoc _ _ _)

/-- **What is behind a new descriptor**: private data and an item of its own,
with new allocations and new extents. -/
theorem FopenRun.backed {filename mode : List Byte} {idx : ℕ} {root : PathRoot}
    {fs : FilesystemRef} {p descriptor : Ptr} {k₁ k₂ k₃ : Kernel}
    (hrun : FopenRun filename mode k k' idx root fs p descriptor k₁ k₂ k₃)
    (hs : InService k pd items)
    (hprimary : diskGet root.driveNumber = DiskRef.primary)
    {item : FatDirectoryItem} (hdata : OpenedData sectors pd k₂ p (some item))
    {es : List Extent} (hes : k.Holds es) :
    ∃ t new, Backed k' idx ⟨item, 0⟩ t ∧ k.nextId ≤ t.first
      ∧ k'.Holds (t.own ++ (new ++ es)) := by
  obtain ⟨rootPath, hparse, hroot⟩ := hrun.parse
  obtain ⟨m₁, q, m₂, halloc, hitem, hq, hk₂⟩ :=
    fat16Open_eq_ok hrun.lookup hrun.not_error
  have hfound := getItem_spec hitem
  have hparsed := OpensFrame.parse _ _ _ _ hparse
  have halloc₁ := OpensFrame.allocate _ _ _ _ halloc
  have halloc₃ := OpensFrame.allocate _ _ _ _ hrun.allocate
  have hfs : fs = FilesystemRef.fat16 := by
    cases fs with
    | null => exact absurd rfl hrun.fs_ne_null
    | fat16 => rfl
  -- what `fat16_open` has made is as it was, at the end
  have hsame : SameItems (fun id => id < m₂.nextId) m₂ k' := by
    rw [hrun.result]
    have h₃ := halloc₃.items
    rw [hk₂] at h₃
    exact ⟨h₃.fatItems, h₃.fatDirectories, h₃.itemArrays⟩
  have hheap : k'.heap = m₂.heap := by
    rw [hrun.result]
    exact halloc₃.grows.heap.trans (by rw [hk₂]; rfl)
  have hnext : m₂.nextId ≤ k'.nextId := by
    rw [hrun.result]
    exact Nat.le_trans (by rw [hk₂]; exact Nat.le_refl _) halloc₃.nextId
  obtain ⟨m, -, -, hk₃⟩ := allocate_run hrun.allocate
  have hne : descriptor.addr ≠ 0 := by
    have hk₁ := hs.opensFrame hparsed
    have hk₂' := hk₁.opensFrame (OpensFrame.fat16Open _ _ _ _ _ _ hrun.lookup)
    exact allocate_ne_null hk₂'.mounted.heap hrun.allocate
  obtain ⟨q', fatItem, hq', htype, hopen⟩ :=
    hdata.openFd (freeSlot_spec hrun.slot).1 hne
    (show k'.fileDescriptors idx = descriptor by
      rw [hrun.result]
      exact Function.update_self _ _ _)
    (by rw [hrun.result, hfs, hprimary]; exact Function.update_self _ _ _)
    (by rw [hrun.result, hk₃]) (by rw [hrun.result, hk₃])
      (by rw [hrun.result, hk₃])
  obtain rfl : q = q' := by
    rw [hk₂] at hq'
    have hself := hq'.symm.trans (Function.update_self _ _ _)
    exact (congrArg FatItemDescriptor.item (Option.some.inj hself)).symm
  have hlive : LiveItem m₁.nextId m₂.nextId m₂ q := hfound.live hq
  have hsame' : SameItems (fun id => m₁.nextId ≤ id ∧ id < m₂.nextId) m₂ k' :=
    hsame.mono fun _ hid => hid.2
  -- the extents, one after the other
  obtain ⟨new₁, hes₁⟩ := hparsed.grows.holds es hes
  obtain ⟨-, -, hholds₁⟩ := allocate_spec halloc
  obtain ⟨i, haddr, hes₂⟩ := hholds₁ _ hes₁
  obtain ⟨own, lost, howns, hes₃⟩ := hfound.heap _ hes₂
  obtain ⟨-, -, hholds₃⟩ := allocate_spec hrun.allocate
  have hes₃ : k₂.Holds (own ++ (lost ++ (⟨i, 1⟩ :: (new₁ ++ es)))) := by
    rw [hk₂]
    exact hes₃
  obtain ⟨j, -, hes₄⟩ := hholds₃ _ hes₃
  refine ⟨⟨⟨p, q, fatItem, item⟩, m₁.nextId, m₂.nextId, ⟨i, 1⟩ :: own⟩,
    ⟨j, 1⟩ :: (lost ++ new₁),
    ⟨hopen, htype, rfl, hlive.congr hsame', hnext, i, own, rfl, ?_,
      (howns hq).congr hlive hsame' hheap⟩, ?_, ?_⟩
  · rw [hheap, hfound.frame.heap]
    show p.addr = m₁.heap.blockAddress i
    rw [halloc₁.grows.heap]
    exact haddr
  · exact hparsed.nextId.trans halloc₁.nextId
  · rw [hrun.result]
    refine Kernel.Holds.perm (k := k₃) hes₄ ?_
    have hperm : (own ++ (lost ++ (⟨i, 1⟩ :: (new₁ ++ es)))).Perm
        (⟨i, 1⟩ :: (own ++ (lost ++ (new₁ ++ es)))) :=
      ((List.perm_middle.append_left own).trans List.perm_middle)
    refine (hperm.cons _).trans ((List.Perm.swap _ _ _).trans
      (List.Perm.cons _ ?_))
    rw [List.cons_append, List.append_assoc lost]
    exact List.perm_middle.symm

/-- **With a new descriptor**, whose allocations are later than all the
others. -/
theorem Backing.opened {fds : List ℤ} {stake : ℤ → Stake}
    {base new : List Extent} (hb : Backing s k fds stake base)
    {item : FatDirectoryItem} {t : Stake}
    (hnew : ∀ fd' ∈ fds, fd' ≠ (s.next : ℤ))
    (hbacked : ∀ fd' f', s.files fd' = some f' → Backed k' fd' f' (stake fd'))
    (ht : Backed k' s.next ⟨item, 0⟩ t)
    (hold : ∀ fd' ∈ fds, (stake fd').last ≤ t.first)
    (hholds : k'.Holds
      (t.own ++ (new ++ ((fds.flatMap fun fd => (stake fd).own) ++ base)))) :
    Backing (s.opened item) k' ((s.next : ℤ) :: fds)
      (Function.update stake s.next t)
      (new ++ base) := by
  have hfiles : ∀ fd', fd' ≠ (s.next : ℤ) →
      (s.opened item).files fd' = s.files fd' :=
    fun fd' hne => Function.update_of_ne hne _ _
  have hself : (s.opened item).files s.next = some ⟨item, 0⟩ :=
    Function.update_self _ _ _
  have hstake : ∀ fd', fd' ≠ (s.next : ℤ) →
      Function.update stake s.next t fd' = stake fd' :=
    fun fd' hne => Function.update_of_ne hne _ _
  have hstake' : Function.update stake s.next t s.next = t :=
    Function.update_self _ _ _
  refine ⟨?_, fun fd' => ?_, fun fd' f' hopen' => ?_, ?_, ?_⟩
  · exact List.nodup_cons.mpr ⟨fun hmem => hnew _ hmem rfl, hb.nodup⟩
  · by_cases hne : fd' = (s.next : ℤ)
    · rw [hne, hself]
      exact iff_of_true List.mem_cons_self ⟨_, rfl⟩
    · rw [hfiles fd' hne, List.mem_cons, ← hb.mem]
      exact or_iff_right hne
  · by_cases hne : fd' = (s.next : ℤ)
    · subst hne
      obtain rfl := Option.some.inj (hself.symm.trans hopen')
      rw [hstake']
      exact ht
    · rw [hfiles fd' hne] at hopen'
      rw [hstake fd' hne]
      exact hbacked fd' f' hopen'
  · intro a ha b hb' hab
    rcases List.mem_cons.mp ha with rfl | ha
    · rcases List.mem_cons.mp hb' with rfl | hb'
      · exact absurd rfl hab
      · rw [hstake', hstake b (hnew b hb')]
        exact Or.inr (hold b hb')
    · rw [hstake a (hnew a ha)]
      rcases List.mem_cons.mp hb' with rfl | hb'
      · rw [hstake']
        exact Or.inl (hold a ha)
      · rw [hstake b (hnew b hb')]
        exact hb.apart a ha b hb' hab
  · have hothers : (fds.flatMap fun fd =>
      (Function.update stake s.next t fd).own)
        = fds.flatMap fun fd => (stake fd).own :=
      List.flatMap_congr fun fd' hmem => by rw [hstake fd' (hnew fd' hmem)]
    rw [List.flatMap_cons, hstake', hothers, List.append_assoc]
    exact hholds.perm ((List.perm_append_comm_assoc _ _ _).append_left _)

/-- **A path that is opened** is opened in the session, with the next
descriptor. -/
theorem Serves.opened (h : Serves sectors pd items s k)
    {filename mode : List Byte} {idx : ℕ}
    (hfopen : fopen filename mode k = Except.ok ((idx : ℤ), k'))
    {root : PathRoot} {fs : FilesystemRef} {p descriptor : Ptr}
    {k₁ k₂ k₃ : Kernel}
    (hrun : FopenRun filename mode k k' idx root fs p descriptor k₁ k₂ k₃)
    (hprimary : diskGet root.driveNumber = DiskRef.primary)
    {item : FatDirectoryItem} (hdata : OpenedData sectors pd k₂ p (some item)) :
    idx = s.next ∧ s.next < fsMaxFileDescriptors
      ∧ Serves sectors pd items (s.opened item) k' := by
  have hframe := OpensFrame.fopen _ _ _ _ _ hfopen
  have hopened := hrun.opened
  have hcall := hopened.callFrame
  obtain ⟨rootPath, hparse, -⟩ := hrun.parse
  have hheap₂ : k₂.heap = k.heap :=
    (OpensFrame.fat16Open _ _ _ _ _ _ hrun.lookup).grows.heap.trans
    (OpensFrame.parse _ _ _ _ hparse).grows.heap
  have hwf := h.service.mounted.heap.1
  obtain ⟨rfl, hlt, htaken⟩ := hrun.takenUpTo (hheap₂ ▸ hwf.toWf)
    (hheap₂ ▸ hwf.start_ne_zero) h.taken
  obtain ⟨fds, stake, base, hb⟩ := h.backing
  obtain ⟨t, new, ht, hfirst, hholds⟩ :=
    hrun.backed h.service hprimary hdata hb.holds
  have hfiles : ∀ fd', fd' ≠ (s.next : ℤ) →
      (s.opened item).files fd' = s.files fd' :=
    fun fd' hne => Function.update_of_ne hne _ _
  have hself : (s.opened item).files s.next = some ⟨item, 0⟩ :=
    Function.update_self _ _ _
  -- the next descriptor has not been one so far
  have hnew : ∀ fd' ∈ fds, fd' ≠ (s.next : ℤ) := by
    rintro fd' hmem rfl
    obtain ⟨f', hopen'⟩ := (hb.mem _).mp hmem
    exact (hb.backed _ f' hopen').openFd.slot hopened.free
  have hold : ∀ fd' ∈ fds, (stake fd').last ≤ t.first := fun fd' hmem => by
    obtain ⟨f', hopen'⟩ := (hb.mem fd').mp hmem
    exact (hb.backed fd' f' hopen').old.trans hfirst
  refine ⟨rfl, hlt, h.service.opensFrame hframe,
    hframe.sectors.trans h.sectors, ?_, h.table.opened hopened, htaken,
    hlt, fun fd' hfd desc hin => ?_, (s.next : ℤ) :: fds,
    Function.update stake s.next t, new ++ base,
    hb.opened hnew (fun fd' f' hopen' => ?_) ht hold hholds⟩
  · unfold Kernel.HeapBelow
    rw [hframe.grows.heap]
    exact h.below
  · have hne : fd' ≠ (s.next : ℤ) := fun heq => by
      rw [heq, hself] at hfd
      cases hfd
    rw [hfiles fd' hne] at hfd
    have hnonneg := hin.nonneg
    have hltfd := hin.lt
    have hbefore := (htaken fd'.toNat (by omega)).mp hin.slot
    exact gone_of_callFrame h.table hcall
      ((h.taken fd'.toNat (by omega)).mpr (by omega))
      (h.gone fd' hfd) desc hin
  · exact (hb.backed fd' f' hopen').opensFrame h.table hframe hcall hopened.old

/-! ## Calls

The step lemma for each kind of call, and runs of them. -/

/-- With every slot taken, all the descriptors have been handed out. -/
theorem TakenUpTo.le_of_full {n : ℕ} (h : TakenUpTo k n)
    (hfull : freeSlot k.fileDescriptors = none) : fsMaxFileDescriptors ≤ n := by
  by_contra hlt
  have hlt := Nat.not_le.mp hlt
  have hnone := List.find?_eq_none.mp hfull n (List.mem_range.mpr hlt)
  have hfree := not_not.mp (mt (h n hlt).mp (Nat.lt_irrefl n))
  exact hnone (decide_eq_true hfree)

/-- **A call that is turned away**, for want of a slot or of something to
read. -/
theorem Call.run_refused {c : Call} {reply : Reply} (hfd : c.fd = some fd)
    (h : c.AsksNothing ∨ ∀ desc, ¬ InSlot k fd desc)
    (hrun : c.run k = Except.ok (reply, k')) :
    reply = c.refused ∧ k' = k := by
  cases c with
  | fopen filename mode => cases hfd
  | fread data blockSize numBlocks fd' =>
    obtain rfl := Option.some.inj hfd
    obtain ⟨r, hread, rfl⟩ :=
      Call.run_ok (f := fun r : ℤ × Output Byte => Reply.data r.1 r.2) hrun
    by_cases hasks : blockSize = 0 ∨ numBlocks = 0
    · rw [File.fread,
        if_pos (hasks.elim Or.inl fun hz => Or.inr (Or.inl hz))] at hread
      obtain ⟨rfl, rfl⟩ := Prod.mk.inj (Except.ok.inj hread)
      exact ⟨rfl, rfl⟩
    · have hcond : (blockSize = 0 ∨ numBlocks = 0 ∨ fd' < 0) ↔ fd' < 0 := by
        tauto
      rw [File.fread, if_congr hcond rfl rfl] at hread
      rcases call_cases hread with ⟨rfl, rfl, -⟩ | ⟨desc, hin, -⟩
      · exact ⟨rfl, rfl⟩
      · exact absurd hin (h.resolve_left hasks desc)
  | fseek fd' offset whence =>
    obtain rfl := Option.some.inj hfd
    obtain ⟨r, hseek, rfl⟩ := Call.run_ok hrun
    rcases call_cases hseek with ⟨rfl, rfl, -⟩ | ⟨desc, hin, -⟩
    · exact ⟨rfl, rfl⟩
    · exact absurd hin (h.resolve_left id desc)
  | fstat fd' stat =>
    obtain rfl := Option.some.inj hfd
    obtain ⟨r, hstat, rfl⟩ :=
      Call.run_ok (f := fun r : ℤ × FileStat => Reply.stat r.1 r.2) hrun
    rcases call_cases hstat with ⟨rfl, rfl, -⟩ | ⟨desc, hin, -⟩
    · exact ⟨rfl, rfl⟩
    · exact absurd hin (h.resolve_left id desc)
  | fclose fd' =>
    obtain rfl := Option.some.inj hfd
    obtain ⟨r, hclose, rfl⟩ := Call.run_ok hrun
    rcases call_cases hclose with ⟨rfl, rfl, -⟩ | ⟨desc, hin, -⟩
    · exact ⟨rfl, rfl⟩
    · exact absurd hin (h.resolve_left id desc)

/-- **A call on a descriptor that is not open** is turned away, if it returns:
there is no slot, or its private data is gone. -/
theorem Serves.call_of_none (h : Serves sectors pd items s k)
    (hnone : s.files fd = none) {c : Call} {reply : Reply}
    (hfd : c.fd = some fd) (hrun : c.run k = Except.ok (reply, k')) :
    SessionStep sectors pd items s c reply s ∧ k' = k := by
  have hcases : (c.AsksNothing ∨ (s.files fd = none ∧ (fd < 0 ∨ s.next ≤ fd)))
      ∧ (c.AsksNothing ∨ ∀ desc, ¬ InSlot k fd desc) := by
    by_cases hasks : c.AsksNothing
    · exact ⟨Or.inl hasks, Or.inl hasks⟩
    by_cases hout : fd < 0 ∨ s.next ≤ fd
    · refine ⟨Or.inr ⟨hnone, hout⟩, Or.inr fun desc hin => ?_⟩
      have hnonneg := hin.nonneg
      have hlt := hin.lt
      have hbefore := (h.taken fd.toNat (by omega)).mp hin.slot
      omega
    · obtain ⟨hnonneg, hlt⟩ := not_or.mp hout
      have hle := h.next_le
      have hslot := (h.taken fd.toNat (by omega)).mpr (by omega)
      obtain ⟨-, desc, hstruct, -⟩ := h.table.slots fd.toNat (by omega) hslot
      have hin : InSlot k fd desc := ⟨by omega, by omega, hslot, hstruct⟩
      exact absurd hrun (Stale.not_ok ⟨desc, hin, h.gone fd hnone desc hin⟩ hfd
        hasks reply)
  obtain ⟨rfl, rfl⟩ := Call.run_refused hfd hcases.2 hrun
  exact ⟨SessionStep.refused hfd hcases.1, rfl⟩

/-- **`fread`** on an open descriptor answers for its entry, if it returns. The
sector buffer may be anywhere; that is all that the answer leaves open. -/
theorem Serves.read (h : Serves sectors pd items s k)
    (hopen : s.files fd = some f) {data : Output Byte}
    {blockSize numBlocks : Word} (hbs : blockSize ≠ 0) (hnb : numBlocks ≠ 0)
    {r : ℤ × Output Byte}
    (hrun : fread k.sectors data blockSize numBlocks fd k = Except.ok (r, k')) :
    ∃ buf, Reply.data r.1 r.2
      = readAnswer sectors pd buf f blockSize numBlocks data := by
  obtain ⟨t, ht⟩ := h.backed hopen
  obtain ⟨k₁, -, hread⟩ := fread_spec k.sectors h.service.mounted
    (clusterSizeBytes_pos h.service.cluster_ne_zero).ne' ht.openFd blockSize
      numBlocks data
  obtain ⟨rfl, -⟩ := Prod.mk.inj (Except.ok.inj (hrun.symm.trans hread))
  refine ⟨k.freshBlock, ?_⟩
  have hcond : (blockSize = 0 ∨ numBlocks = 0
    ∨ t.info.fatItem.type ≠ FatItemType.file)
      ↔ itemType f.item ≠ FatItemType.file := by
    rw [ht.type]
    tauto
  simp only [freadResult, if_congr hcond rfl rfl, readAnswer, readResult,
    readPos, readCluster, firstCluster, ht.entry, h.sectors]
  split
  · rfl
  split
  · rfl
  split <;> rfl

/-- **A read inside a file that is stored on the disk** returns its bytes, as
far as they lie in the cluster of the position. -/
theorem Serves.read_inFile (h : Serves sectors pd items s k)
    (hopen : s.files fd = some f) {len : ℕ} {c : ℕ → ℤ}
    (hstored : StoredFile sectors pd f.item len c) {blockSize numBlocks : Word}
    {count : ℕ} (hn : blockSize.toNat * numBlocks.toNat = count)
    (hpos : 0 < count) (hend : f.pos.toNat + count ≤ f.item.filesize.toNat)
    (data : Output Byte) :
    ∃ out k', fread k.sectors data blockSize numBlocks fd k
      = Except.ok ((0, out), k')
      ∧ ReadsBytes (fileByte sectors pd c) (clusterSize pd) f.pos.toNat count
        data out := by
  obtain ⟨t, ht⟩ := h.backed hopen
  have hfile := hstored.regularFile h.sectors h.service ht.openFd
    ht.type ht.entry
  obtain ⟨out, k', -, hread, hbytes⟩ :=
    hfile.fread_inFile hn hpos (by rw [ht.entry]; exact hend) data
  rw [h.sectors] at hbytes
  exact ⟨out, k', hread, hbytes⟩

/-! ### Answers to `fopen`

The longest step: a path may be turned away, may denote nothing, or may be
opened; and what it denotes is a matter of the sectors where they settle it. -/

/-- **A path that is not opened** is answered for what it denotes, if the
sectors settle that. -/
theorem Serves.fopen_failed (h : Serves sectors pd items s k)
    {path mode : List Byte} {r : ℤ}
    (hrun : fopen path mode k = Except.ok (r, k')) (hneg : r < 0) :
    OpenStep sectors pd items s path mode (r, s) := by
  by_cases hdet : OpenDetermined sectors pd items path mode
  · rcases hdet with hrejected | ⟨names, hpath, hden⟩
    · obtain ⟨rfl, -⟩ := Prod.mk.inj
        (Except.ok.inj ((fopen_of_rejected hrejected mode k).symm.trans hrun))
      exact OpenStep.rejected hrejected
    by_cases hmode : str2Filemode mode = FileMode.read
    · obtain ⟨found, hden⟩ := hden hmode
      have hstep := OpenStep.denotes (s := s) hpath hmode hden
      rw [← h.sectors] at hden
      obtain ⟨-, -, hresult⟩ :=
        fopen_denotes h.service h.below hpath hden hmode hrun
      cases hresult with
      | missing hr => rwa [hr]
      | full hslot hr =>
        have hfull := h.taken.le_of_full hslot
        rwa [Session.openAnswer, if_neg (Nat.not_lt.mpr hfull), ← hr] at hstep
      | opened hslot hr _ =>
        rw [hr] at hneg
        exact absurd hneg (Int.not_lt.mpr (Int.natCast_nonneg _))
    · rw [fopen_mode h.service hpath hmode hrun]
      exact OpenStep.mode hpath hmode
  · exact OpenStep.failed hdet hneg

/-- What a path that is opened denotes, if the sectors settle that, is what it
is opened on. -/
theorem Serves.fopen_item (h : Serves sectors pd items s k)
    {path mode : List Byte} {root : Ptr} {r : PathRoot} {p : Ptr}
    {k₁ k₂ : Kernel} (hparse : PathParser.parse path k = Except.ok (root, k₁))
    (hroot : k₁.pathRoots root.id = some r)
    (hlookup : fat16Open DiskRef.primary r.path (str2Filemode mode) k₁
      = Except.ok (p, k₂))
    (hmode : str2Filemode mode = FileMode.read) (hp : ¬ p.isErr = true) :
    ∃ item, OpenedData sectors pd k₂ p (some item) ∧ ∀ names found,
      PathOf path names → Denotes sectors pd items names found →
      found = some item := by
  have hs₁ := h.service.opensFrame (OpensFrame.parse _ _ _ _ hparse)
  have hsectors₁ : k₁.sectors = sectors :=
    (OpensFrame.parse _ _ _ _ hparse).sectors.trans h.sectors
  by_cases hany : ∃ names found, PathOf path names
    ∧ Denotes sectors pd items names found
  · obtain ⟨names, found, hpath, hden⟩ := hany
    obtain ⟨-, parts, hparts, hall⟩ :=
      ((hpath.parse h.service.mounted.heap).of_ok hparse).2
    obtain rfl := Option.some.inj (hparts.symm.trans hroot)
    have hbelow₁ : k₁.HeapBelow := by
      unfold Kernel.HeapBelow
      rw [(OpensFrame.parse _ _ _ _ hparse).grows.heap]
      exact h.below
    rw [hmode] at hlookup
    rw [← hsectors₁] at hden ⊢
    obtain ⟨hdata, -⟩ := fat16Open_denotes hs₁ hbelow₁ hden hall hlookup
    cases found with
    | none => exact absurd (hdata ▸ (by decide)) hp
    | some item =>
      exact ⟨item, hdata, fun names' found' hpath' hden' => by
        obtain rfl := hpath.unique hpath'
        exact hden'.unique hden⟩
  · obtain ⟨item, hdata⟩ := fat16Open_opens hs₁ hlookup hp
    rw [hsectors₁] at hdata
    exact ⟨item, hdata, fun names found hpath hden =>
      absurd ⟨names, found, hpath, hden⟩ hany⟩

/-- **`fopen`** answers what the session does. A path that is turned away, or
names nothing, leaves the session as it is; one that is opened gets the next
descriptor, backed by private data and an item that are new. -/
theorem Serves.fopen (h : Serves sectors pd items s k) {path mode : List Byte}
    {r : ℤ} (hrun : fopen path mode k = Except.ok (r, k')) :
    ∃ s', OpenStep sectors pd items s path mode (r, s')
      ∧ Serves sectors pd items s' k' := by
  rcases fopen_run hrun with ⟨hneg, hno⟩ | ⟨idx, root, fs, p, descriptor, k₁,
    k₂, k₃, rfl, hfopen⟩
  · exact ⟨s, h.fopen_failed hrun hneg,
      h.notOpened (OpensFrame.fopen _ _ _ _ _ hrun) hno⟩
  · obtain ⟨rootPath, hparse, hroot⟩ := hfopen.parse
    have hlookup := hfopen.lookup
    -- only a path to read on the first disk comes this far
    have hmode : str2Filemode mode = FileMode.read := by
      by_contra hmode
      rw [fat16Open, if_pos hmode] at hlookup
      obtain ⟨rfl, -⟩ := Prod.mk.inj (Except.ok.inj hlookup)
      exact hfopen.not_error (by decide)
    have hprimary : diskGet root.driveNumber = DiskRef.primary := by
      obtain ⟨m₁, q, m₂, -, hitem, -⟩ :=
        fat16Open_eq_ok hlookup hfopen.not_error
      cases hdisk : diskGet root.driveNumber with
      | primary => rfl
      | null =>
        rw [hdisk] at hitem
        cases hparts : root.path with
        | nil => rw [hparts] at hitem; cases hitem
        | cons part parts => rw [hparts] at hitem; cases hitem
    rw [hprimary] at hlookup
    obtain ⟨item, hdata, hunique⟩ :=
      h.fopen_item hparse hroot hlookup hmode hfopen.not_error
    obtain ⟨rfl, hlt, hserves⟩ := h.opened hrun hfopen hprimary hdata
    refine ⟨_, ?_, hserves⟩
    by_cases hdet : OpenDetermined sectors pd items path mode
    · rcases hdet with hrejected | ⟨names, hpath, hden⟩
      · obtain ⟨hr, -⟩ := Prod.mk.inj
          (Except.ok.inj ((fopen_of_rejected hrejected mode k).symm.trans hrun))
        exact absurd hr (by unfold einval; omega)
      · obtain ⟨found, hden⟩ := hden hmode
        obtain rfl := hunique names found hpath hden
        have hstep := OpenStep.denotes (s := s) hpath hmode hden
        rwa [Session.openAnswer, if_pos hlt] at hstep
    · exact OpenStep.opened hdet hlt

/-- **A call is a step of the session**, if it returns, and the kernel serves
what the session is then. -/
theorem Serves.call (h : Serves sectors pd items s k) {c : Call} {reply : Reply}
    (hrun : c.run k = Except.ok (reply, k')) :
    ∃ s', SessionStep sectors pd items s c reply s'
      ∧ Serves sectors pd items s' k' := by
  cases hfd : c.fd with
  | none =>
    cases c with
    | fopen path mode =>
      obtain ⟨r, hfopen, rfl⟩ := Call.run_ok hrun
      obtain ⟨s', hstep, hserves⟩ := h.fopen hfopen
      exact ⟨s', SessionStep.fopen hstep, hserves⟩
    | fread | fseek | fstat | fclose => cases hfd
  | some fd =>
    cases hopen : s.files fd with
    | none =>
      obtain ⟨hstep, rfl⟩ := h.call_of_none hopen hfd hrun
      exact ⟨s, hstep, h⟩
    | some f =>
      obtain ⟨t, ht, hmoved⟩ := h.setPos hopen
      cases c with
      | fopen path mode => cases hfd
      | fread data blockSize numBlocks fd' =>
        obtain rfl := Option.some.inj hfd
        by_cases hasks : blockSize = 0 ∨ numBlocks = 0
        · obtain ⟨rfl, rfl⟩ := Call.run_refused hfd (Or.inl hasks) hrun
          exact ⟨s, SessionStep.refused hfd (Or.inl hasks), h⟩
        obtain ⟨hbs, hnb⟩ := not_or.mp hasks
        obtain ⟨r, hread, rfl⟩ :=
          Call.run_ok (f := fun r : ℤ × Output Byte => Reply.data r.1 r.2) hrun
        obtain ⟨buf, hanswer⟩ := h.read hopen hbs hnb hread
        rw [hanswer]
        exact ⟨s, SessionStep.read buf hopen hbs hnb, h.readFrame
          (ReadFrame.fread _ _ _ _ _ _ _ _ hread)
          (VolumeFrame.stepFrame.fread _ _ _ _ _ _ _ _ hread)⟩
      | fseek fd' offset whence =>
        obtain rfl := Option.some.inj hfd
        obtain ⟨r, hseek, rfl⟩ := Call.run_ok hrun
        obtain ⟨rfl, rfl⟩ := Prod.mk.inj
          (Except.ok.inj
            ((fseek_spec ht.openFd offset whence).symm.trans hseek))
        rw [ht.type]
        exact ⟨_, SessionStep.seek hopen, hmoved _⟩
      | fstat fd' stat =>
        obtain rfl := Option.some.inj hfd
        obtain ⟨r, hstat, rfl⟩ :=
          Call.run_ok (f := fun r : ℤ × FileStat => Reply.stat r.1 r.2) hrun
        obtain ⟨rfl, rfl⟩ := Prod.mk.inj
          (Except.ok.inj ((fstat_spec ht.openFd stat).symm.trans hstat))
        have hanswer : Reply.stat (statResult t.info stat).1
          (statResult t.info stat).2
            = statAnswer f.item stat := by
          unfold statResult statAnswer
          rw [ht.type, ht.entry]
          split <;> rfl
        exact ⟨s, hanswer ▸ SessionStep.stat hopen, h⟩
      | fclose fd' =>
        obtain rfl := Option.some.inj hfd
        obtain ⟨r, hclose, rfl⟩ := Call.run_ok hrun
        by_cases hfile : itemType f.item = FatItemType.file
        · obtain ⟨rfl, hserves⟩ := h.close hopen hfile hclose
          exact ⟨_, SessionStep.close hopen hfile, hserves⟩
        · rw [ht.openFd.fclose_eq,
            if_neg (by rw [ht.type]; exact hfile)] at hclose
          obtain ⟨rfl, rfl⟩ := Prod.mk.inj (Except.ok.inj hclose)
          have hdir : itemType f.item = FatItemType.directory := by
            cases htype : itemType f.item with
            | file => exact absurd htype hfile
            | directory => rfl
          exact ⟨s, SessionStep.keep hopen hdir, h⟩

/-- **A run of calls is a session.** The induction is on the run: what has been
called so far is a session that the kernel serves, and the next call is a step
of it. -/
theorem Serves.run {k₀ : Kernel} {history : List (Call × Reply)}
    (h₀ : Serves sectors pd items Session.start k₀) (hrun : Run k₀ history k) :
    ∃ s, SessionRun sectors pd items history s
      ∧ Serves sectors pd items s k := by
  induction hrun with
  | start => exact ⟨Session.start, SessionRun.start, h₀⟩
  | call _ hcall ih =>
    obtain ⟨s, hsession, hserves⟩ := ih
    obtain ⟨s', hstep, hserves'⟩ := hserves.call hcall
    exact ⟨s', hsession.step hstep, hserves'⟩

end Serving

/-! ## After mounting

The two theorems about a kernel that has mounted its disk, and nothing else. -/

/-- **A kernel that has just mounted its disk**: it had a heap in use below
`2 ^ 31`, five free blocks for the structures of the volume, and no open files;
the clusters of the disk have sectors, and its root directory ends and has at
most `quietItems` live entries. Then `fat16_resolve` has returned `0`. Nothing
is asked of what is free after that, so the heap may be full. -/
structure JustMounted (k k₁ : Kernel)
    (entries : List FatDirectoryItem) : Prop where
  heapOk : k.HeapOk
  below : k.HeapBelow
  free : 5 ≤ k.freeBlocks
  empty : ∀ i, i < fsMaxFileDescriptors → (k.fileDescriptors i).addr = 0
  cluster_ne_zero : (fatHeaderOf (k.sectors 0)).sectorsPerCluster ≠ 0
  listing : Entries IsFree (scanned k.sectors (rootStart k.sectors)) entries
  low : (liveItems entries).length ≤ quietItems
  mounted : fat16Resolve DiskRef.primary k = Except.ok (0, k₁)

/-- **The sessions on a disk**: those on the volume that its sector `0`
describes, with the live entries of its root directory. -/
abbrev DiskSession (sectors : ℤ → ℕ → Byte) (entries : List FatDirectoryItem)
    (history : List (Call × Reply)) (s : Session) : Prop :=
  SessionRun sectors (volumeOf sectors (liveItems entries).length)
    (liveItems entries) history s

/-- **The reads inside a file give its bytes**: of every file that a session has
open and that is stored on the disk, every part is read, as far as it lies in
the cluster of the position. -/
def ReadsFiles (sectors : ℤ → ℕ → Byte) (s : Session) (k : Kernel) : Prop :=
  ∀ (fd : ℤ) (f : OpenEntry) (len : ℕ) (c : ℕ → ℤ), s.files fd = some f →
    StoredFile sectors (volumeOf sectors 0) f.item len c →
    ∀ (blockSize numBlocks : Word) (data : Output Byte),
      0 < blockSize.toNat * numBlocks.toNat →
      f.pos.toNat + blockSize.toNat * numBlocks.toNat ≤ f.item.filesize.toNat →
      ∃ out k', fread k.sectors data blockSize numBlocks fd k
        = Except.ok ((0, out), k')
        ∧ ReadsBytes (contentByte sectors c)
          (clusterSize (volumeOf sectors 0)) f.pos.toNat
          (blockSize.toNat * numBlocks.toNat) data out

/-- **Runs after mounting are sessions on the disk**, in which files are
read. -/
theorem JustMounted.run {k k₁ k₂ : Kernel} {entries : List FatDirectoryItem}
    (h : JustMounted k k₁ entries) {history : List (Call × Reply)}
    (hrun : Run k₁ history k₂) :
    ∃ s, DiskSession k.sectors entries history s
      ∧ ReadsFiles k.sectors s k₂ := by
  obtain ⟨pd, hdisk⟩ :=
    fat16Resolve_serves h.heapOk h.free h.cluster_ne_zero h.listing
      h.low h.mounted
  have hbelow₁ : k₁.HeapBelow := by
    unfold Kernel.HeapBelow
    rw [hdisk.heap]
    exact h.below
  have hstart := Serves.start hdisk.service hbelow₁ fun i hi => by
    rw [hdisk.fileDescriptors]
    exact h.empty i hi
  rw [hdisk.sectors] at hstart
  obtain ⟨s, hsession, hserves⟩ := hstart.run hrun
  obtain ⟨cluster, fat, directory, rfl⟩ := hdisk.volume
  refine ⟨s, hsession.withStreams Ptr.null Ptr.null Ptr.null, ?_⟩
  intro fd f len c hopen hstored blockSize numBlocks data hpos hend
  exact hserves.read_inFile hopen (hstored.withStreams _ cluster fat directory)
    rfl hpos hend data

/-- **A mounted disk serves sessions.** For every kernel that has just mounted
its disk, and every run of calls after that, whatever the calls are and in
whatever order: the run is a session on the disk, and in the state that it ends
in every part of an open file that is stored on the disk is read with its bytes.
And the answers are those of the sectors alone: whenever another kernel has
mounted a disk with the same sectors, whatever else is different about it, and
the same calls return there, then, as long as the sectors settle every `fopen`
among them, both runs give the same answers, but for the bytes that reads at
negative positions get from outside the sector buffers. -/
theorem mounted_disk_serves_sessions {k k₁ k₂ : Kernel}
    {entries : List FatDirectoryItem} (h : JustMounted k k₁ entries)
    {history : List (Call × Reply)} (hrun : Run k₁ history k₂) :
    (∃ s, DiskSession k.sectors entries history s ∧ ReadsFiles k.sectors s k₂)
      ∧ ∀ {k' k₁' k₂' : Kernel} {entries' : List FatDirectoryItem}
        {history' : List (Call × Reply)}, JustMounted k' k₁' entries' →
        k'.sectors = k.sectors →
        Run k₁' history' k₂' → history'.map Prod.fst = history.map Prod.fst →
        (∀ e ∈ history,
          e.1.Determined k.sectors
            (volumeOf k.sectors (liveItems entries).length)
          (liveItems entries)) →
        SameAnswers history history' := by
  obtain ⟨s, hsession, hreads⟩ := h.run hrun
  refine ⟨⟨s, hsession, hreads⟩, fun h' hsectors hrun' hcalls hdet => ?_⟩
  obtain ⟨s', hsession', -⟩ := h'.run hrun'
  have hlisting' := h'.listing
  rw [hsectors] at hlisting' hsession'
  obtain rfl := h.listing.unique hlisting'
  exact (hsession.unique hsession' hcalls hdet).1

/-- The disk of the file of two clusters, mounted. -/
theorem fileDisk_justMounted :
    ∃ k₁, JustMounted fileDiskKernel k₁ [twoClusterItem] := by
  have hfree : 5 ≤ fileDiskKernel.freeBlocks := by
    rw [fileDiskKernel_freeBlocks]
    omega
  obtain ⟨k₁, hmount⟩ := fat16Resolve_returns (k := fileDiskKernel)
    PathParser.bootedKernel_heapOk hfree
    (show (volumeOf fileDisk 0).header
      = fatHeaderOf (fileDiskKernel.sectors 0) from rfl) rfl
    fileDisk_listing fileDisk_spareTable
  exact ⟨k₁, {
    heapOk := PathParser.bootedKernel_heapOk
    below := fileDiskKernel_heapBelow
    free := hfree
    empty := fun _ _ => rfl
    cluster_ne_zero := by decide
    listing := fileDisk_listing
    low := by
      rw [liveItems_fileDisk]
      decide
    mounted := hmount }⟩

/-- The theorem on the disk of the file of two clusters, for the session that
opens the file. -/
theorem mounted_disk_serves_sessions_fopen :
    ∃ k₁ k₂ r s, fat16Resolve DiskRef.primary fileDiskKernel = Except.ok (0, k₁)
      ∧ fopen samplePath readMode k₁ = Except.ok (r, k₂)
      ∧ DiskSession fileDisk [twoClusterItem]
        [(Call.fopen samplePath readMode, Reply.result r)] s := by
  obtain ⟨k₁, h⟩ := fileDisk_justMounted
  obtain ⟨pd, hdisk⟩ :=
    fat16Resolve_serves h.heapOk h.free h.cluster_ne_zero h.listing
      h.low h.mounted
  have hspent := hdisk.spent
  rw [liveItems_fileDisk, fileDiskKernel_freeBlocks,
    List.length_singleton] at hspent
  obtain ⟨r, k₂, hopen, -⟩ := fopen_returns hdisk.service samplePath_pathOf
    fileDisk_finds
    (fun item' hitem' => by
      obtain rfl := Option.some.inj hitem'
      rfl) (show str2Filemode readMode = FileMode.read by decide)
    (show 7 ≤ k₁.freeBlocks by omega)
  have hcall : (Call.fopen samplePath readMode).run k₁
      = Except.ok (Reply.result r, k₂) := by
    rw [Call.run, Machine.bind_ok hopen]
    rfl
  obtain ⟨⟨s, hsession, -⟩, -⟩ :=
    mounted_disk_serves_sessions h (Run.start.call hcall)
  exact ⟨k₁, k₂, r, s, h.mounted, hopen, hsession⟩

end File

end N00bOS
