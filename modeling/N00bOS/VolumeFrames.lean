import N00bOS.OpenClose

/-!
# What keeps a volume mounted

The functions of the file system are made of few steps: they move streams,
allocate, free, and put items, directories and arrays in their stores. A
relation between states that each of these stays within (`StepFrame`) is stayed
within by every function up to the lookup of a path. Two uses of that are here:
streams stay on their disk, and nothing else of what a mounted volume consists
of changes at all (`VolumeFrame`). So a volume stays mounted while paths are
parsed and looked up (`Mounted.volumeFrame`).

The relation is a parameter, and what is asked of it is a structure with one
field for each step. So each function is gone through once, for every relation;
its lemma follows the calls that the function makes, and knows nothing of what
is being kept. A temporary buffer on a full heap is twelve bytes below the heap
table, which is why the memory there is only kept but for these (`SameLow`).
-/

namespace N00bOS

open KernelM Machine

/-- **A relation that the steps of the file system stay within.** There is one
field for each kind of step; that steps can be put together is asked beside
this, of the relation as a preorder. -/
structure StepFrame (R : Kernel → Kernel → Prop) : Prop where
  seek : ∀ stream pos, Keeps R (Streamer.seek stream pos)
  read : ∀ {α : Type} (source : ℤ → ℕ → α) stream out total,
    Keeps R (Streamer.read source stream out total)
  allocate : ∀ size, Keeps R (KernelM.allocate size)
  kfree : ∀ ptr, Keeps R (KernelM.kfree ptr)
  setFatDirectory : ∀ id v,
    Keeps R (modify fun k => k.setFatDirectory id v : KernelM Unit)
  setItemArray : ∀ id v,
    Keeps R (modify fun k => k.setItemArray id v : KernelM Unit)
  setFatItem : ∀ id v,
    Keeps R (modify fun k => k.setFatItem id v : KernelM Unit)

namespace StepFrame

variable {R : Kernel → Kernel → Prop} [IsPreorder Kernel R]

/-! ## Reading

The streams, the sectors, and `fread` of a file: they move a stream and take a
temporary buffer. -/

theorem deref {T : Type} (store : Kernel → ℕ → Option T) (p : Ptr) :
    Keeps R (KernelM.deref store p) := by
  intro k v k' h
  obtain ⟨-, -, rfl⟩ := deref_eq_ok h
  exact Std.Refl.refl _

theorem derefDisk (d : DiskRef) : Keeps R (KernelM.derefDisk d) := by
  cases d with
  | null => exact Keeps.fault
  | primary =>
    intro k v k' h
    obtain ⟨-, rfl⟩ := Prod.mk.inj (Except.ok.inj h)
    exact Std.Refl.refl _

theorem privateData (d : DiskRef) : Keeps R (Fat16.privateData d) :=
  (derefDisk _).bind fun _ => deref _ _

theorem readItem (item : Ptr) (idx : ℕ) :
    Keeps R (Fat16.readItem item idx) := by
  refine Keeps.ite (Keeps.get.bind fun k => Keeps.pure) ?_
  refine (deref _ _).bind fun items => ?_
  cases items[idx]? with
  | none => exact Keeps.fault
  | some v => exact Keeps.pure

theorem localItem (out : Output Byte) : Keeps R (Fat16.localItem out) :=
  Keeps.get.bind fun _ => Keeps.pure

variable (h : StepFrame R)
include h

theorem getFatEntry (d : DiskRef) (cluster : ℤ) :
    Keeps R (Fat16.getFatEntry d cluster) := by
  refine (privateData _).bind fun pd => Keeps.ite Keeps.pure ?_
  refine (h.seek _ _).bind fun res => Keeps.ite Keeps.pure ?_
  exact Keeps.get.bind fun k => (h.read _ _ _ _).bind fun r =>
    Keeps.ite Keeps.pure
    (Keeps.get.bind fun _ => Keeps.pure)

theorem walkClusters (d : DiskRef) (left : ℕ) (cluster : ℤ) :
    Keeps R (Fat16.walkClusters d left cluster) := by
  induction left generalizing cluster with
  | zero => exact Keeps.pure
  | succ left ih =>
    exact (h.getFatEntry _ _).bind fun _ =>
      Keeps.ite Keeps.pure (Keeps.ite Keeps.pure
      (Keeps.ite Keeps.pure (Keeps.ite Keeps.pure
        (Keeps.ite Keeps.pure (ih _)))))

theorem getCluster (d : DiskRef) (startingCluster offset : ℤ) :
    Keeps R (Fat16.getCluster d startingCluster offset) :=
  (privateData _).bind fun _ => Keeps.ite Keeps.fault (h.walkClusters _ _ _)

theorem readChunks {α : Type} (source : ℤ → ℕ → α) (d : DiskRef) (stream : Ptr)
    (pd : FatPrivate) (startingCluster offset totalBytes : ℤ) (rounds : ℕ)
    (bytesRead res : ℤ) (out : Output α) :
    Keeps R (Fat16.readChunks source d stream pd startingCluster offset
      totalBytes rounds bytesRead res out) := by
  induction rounds generalizing bytesRead res out with
  | zero => exact Keeps.fault
  | succ rounds ih =>
    refine Keeps.ite ?_ Keeps.pure
    refine (h.getCluster _ _ _).bind fun _ => Keeps.ite Keeps.pure ?_
    refine (h.seek _ _).bind fun _ => Keeps.ite Keeps.pure ?_
    exact (h.read _ _ _ _).bind fun _ => Keeps.ite Keeps.pure (ih _ _ _)

theorem readInternal {α : Type} (source : ℤ → ℕ → α) (d : DiskRef)
    (startingCluster offset totalBytes : ℤ) (out : Output α) :
    Keeps R (Fat16.readInternal source d startingCluster offset
      totalBytes out) :=
  (privateData _).bind fun _ => (privateData _).bind fun _ =>
    h.readChunks _ _ _ _ _ _ _ _ _ _ _

/-- **`fread`**, on whatever descriptor: it moves streams, and takes and gives
back a temporary buffer. -/
theorem fread {α : Type} (source : ℤ → ℕ → α) (data : Output α)
    (blockSize numBlocks : Word) (fd : ℤ) :
    Keeps R (File.fread source data blockSize numBlocks fd) := by
  refine Keeps.ite Keeps.pure
    (Keeps.bind (Keeps.ite Keeps.pure (Keeps.get.bind fun _ =>
      Keeps.pure)) fun _ => Keeps.ite Keeps.pure ?_)
  refine (deref _ _).bind fun _ =>
    Keeps.bind (Keeps.ite Keeps.fault Keeps.pure) fun _ => ?_
  exact (deref _ _).bind fun _ => (deref _ _).bind fun _ => Keeps.ite Keeps.pure
    ((readItem _ _).bind fun _ => h.readInternal _ _ _ _ _ _)

theorem countItems (stream : Ptr) (rounds numItems : ℕ) :
    Keeps R (Fat16.countItems stream none rounds numItems) := by
  induction rounds generalizing numItems with
  | zero => exact Keeps.fault
  | succ rounds ih =>
    exact Keeps.get.bind fun k => (h.read _ _ _ _).bind fun r =>
      Keeps.ite Keeps.pure
      ((localItem _).bind fun item =>
        Keeps.ite Keeps.pure (Keeps.ite (ih _) (ih _)))

theorem getDirectoryTotalItems (d : DiskRef) (sector : Word) :
    Keeps R (Fat16.getDirectoryTotalItems d sector none) :=
  (privateData _).bind fun _ => (h.seek _ _).bind fun _ =>
    Keeps.ite Keeps.pure (h.countItems _ _ _)

/-! ## Items and directories

Making an item, loading what it is of, and freeing it. -/

theorem cloneDirectoryItem (v : FatDirectoryItem) :
    Keeps R (Fat16.cloneDirectoryItem v) :=
  (h.allocate _).bind fun _ => (h.setItemArray _ _).bind fun _ => Keeps.pure

theorem kfreeItem (item : Ptr) (idx : ℕ) : Keeps R (Fat16.kfreeItem item idx) :=
  (h.kfree _).bind fun _ => Keeps.ite (h.setItemArray _ _) Keeps.pure

theorem freeItems (item : Ptr) (left idx : ℕ) :
    Keeps R (Fat16.freeItems item left idx) := by
  induction left generalizing idx with
  | zero => exact Keeps.pure
  | succ left ih =>
    exact Keeps.ite ((h.kfreeItem _ _).bind fun _ => ih _) (ih _)

theorem directoryFree (directory : Ptr) :
    Keeps R (Fat16.directoryFree directory) :=
  Keeps.ite ((deref _ _).bind fun _ => (h.freeItems _ _ _).bind fun _ =>
    (h.kfree _).bind fun _ =>
      h.setFatDirectory _ _) Keeps.pure

theorem itemFree (item : Ptr) : Keeps R (Fat16.itemFree item) := by
  refine (deref _ _).bind fun i => ?_
  cases i.type with
  | directory =>
    exact (h.directoryFree _).bind fun _ => (h.kfree _).bind fun _ =>
      h.setFatItem _ _
  | file =>
    exact (h.kfree _).bind fun _ => (h.setItemArray _ _).bind fun _ =>
      (h.kfree _).bind fun _ =>
        h.setFatItem _ _

theorem loadDirectory (d : DiskRef) (v : FatDirectoryItem) :
    Keeps R (Fat16.loadDirectory d v) := by
  refine Keeps.ite Keeps.pure ?_
  refine (privateData _).bind fun pd => (h.allocate _).bind fun directory => ?_
  refine (h.setFatDirectory _ _).bind fun _ =>
    (h.getDirectoryTotalItems _ _).bind fun total => ?_
  refine (h.allocate _).bind fun items => (h.setItemArray _ _).bind fun _ => ?_
  refine (h.setFatDirectory _ _).bind fun _ => Keeps.get.bind fun k => ?_
  refine (h.readInternal _ _ _ _ _ _).bind fun r => ?_
  exact Keeps.ite ((h.directoryFree _).bind fun _ => Keeps.pure)
    (Keeps.get.bind fun _ => (h.setItemArray _ _).bind fun _ => Keeps.pure)

theorem newItem (d : DiskRef) (v : FatDirectoryItem) :
    Keeps R (Fat16.newItem d v) := by
  refine (h.allocate _).bind fun item => (h.setFatItem _ _).bind fun _ =>
    Keeps.ite ?_ ?_
  · exact (h.loadDirectory _ _).bind fun _ =>
      (h.setFatItem _ _).bind fun _ => Keeps.pure
  · exact (h.cloneDirectoryItem _).bind fun _ =>
      (h.setFatItem _ _).bind fun _ => Keeps.pure

/-! ## Lookup

The scan for a name, and the walk from item to item. -/

theorem findItemInDirectory (d : DiskRef) (directory : FatDirectory)
    (name : Ptr) :
    Keeps R (Fat16.findItemInDirectory d directory name) := by
  have hloop : ∀ left idx,
      Keeps R (Fat16.findFromItem d directory name left idx) := by
    intro left
    induction left with
    | zero => exact fun _ => Keeps.pure
    | succ left ih =>
      exact fun idx => (readItem _ _).bind fun _ => (deref _ _).bind fun _ =>
        Keeps.ite (h.newItem _ _) (ih _)
  exact hloop _ _

theorem walkPath (d : DiskRef) (item : Ptr) (parts : List PathPart) :
    Keeps R (Fat16.walkPath (Fat16.findItemInDirectory d) item parts) := by
  induction parts generalizing item with
  | nil => exact Keeps.pure
  | cons part rest ih =>
    exact (deref _ _).bind fun _ => Keeps.ite Keeps.pure
      ((deref _ _).bind fun _ => (h.findItemInDirectory _ _ _).bind fun _ =>
        (h.itemFree _).bind fun _ => ih _)

theorem getItem (d : DiskRef) (parts : List PathPart) :
    Keeps R (Fat16.getItem d parts) := by
  cases parts with
  | nil => exact Keeps.fault
  | cons part rest =>
    exact (privateData _).bind fun _ =>
      (h.findItemInDirectory _ _ _).bind fun _ =>
        Keeps.ite Keeps.pure (h.walkPath _ _ _)

end StepFrame

/-! ## The volume

What the relation is used at: a mounted volume. -/

open Fat16

/-- **The memory below the table stays**, but for the twelve bytes there that a
temporary buffer on a full heap may write to. -/
def SameLow (k k' : Kernel) : Prop :=
  k.heap.Placed → SameBelow (heapTableAddress.toNat - 12) k.mem k'.mem

namespace SameLow

variable {k k' k'' : Kernel}

theorem refl (k : Kernel) : SameLow k k := fun _ => SameBelow.refl _ _

theorem trans (h₁ : SameLow k k') (h₂ : SameLow k' k'')
    (hheap : k'.heap = k.heap) :
    SameLow k k'' := fun hp => (h₁ hp).trans (h₂ (hheap ▸ hp))

/-- A structure that is allocated lies in the heap. -/
theorem allocate {size : Word} {p : Ptr}
    (h : allocate size k = Except.ok (p, k')) :
    SameLow k k' := by
  obtain ⟨m, hfit, -, rfl⟩ := allocate_run h
  exact fun hp => (Heap.kzallocFit_sameBelow hp hfit).mono (Nat.sub_le _ _)

/-- A buffer of less than a block lies in it, or twelve blocks below it. -/
theorem kzalloc {size p : Word} (hsize : size.toNat < 4096)
    (h : kzalloc size k = Except.ok (p, k')) : SameLow k k' := by
  obtain ⟨m, hrun, rfl⟩ := kzalloc_run h
  intro hp
  obtain ⟨p', m', hrun', hlow, -⟩ := Heap.kzalloc_small hp k.mem hsize
  obtain ⟨rfl, rfl⟩ := Prod.mk.inj (Option.some.inj (hrun.symm.trans hrun'))
  exact hlow

/-- What is given back is an entry of the table. -/
theorem freed (k : Kernel) (ptr : Word) : SameLow k (k.freed ptr) := fun hp =>
  (Heap.kfree_sameBelow hp k.mem ptr).mono (Nat.sub_le _ _)

end SameLow

/-- **The volume stays**: nothing that it consists of changes, but for the
positions of its streams, and no string that there is. The table of
descriptors, the sectors, the private data and the root directory with its
items are as they were. -/
structure VolumeFrame (k k' : Kernel) : Prop extends OpenFrame k k' where
  low : SameLow k k'
  strings : ∀ id, id < k.nextId → k'.strings id = k.strings id
  streams : ∀ s, StreamLive k s → StreamLive k' s

instance : IsPreorder Kernel VolumeFrame where
  refl k := ⟨Std.Refl.refl _, SameLow.refl k, fun _ _ => rfl, fun _ h => h⟩
  trans _ _ _ h₁ h₂ := ⟨IsTrans.trans _ _ _ h₁.toOpenFrame h₂.toOpenFrame,
    h₁.low.trans h₂.low h₁.heap,
    fun id hid => (h₂.strings id (Nat.lt_of_lt_of_le hid h₁.nextId)).trans
      (h₁.strings id hid),
    fun s hs => h₂.streams s (h₁.streams s hs)⟩

namespace VolumeFrame

variable {k k' : Kernel}

/-- A change of memory that keeps what is below the table, and of the stores of
the lookup. -/
theorem of_eq (h : k' = { k with
      mem := k'.mem, fatDirectories := k'.fatDirectories, itemArrays :=
        k'.itemArrays
      fatItems := k'.fatItems, pathRoots := k'.pathRoots })
        (hlow : SameLow k k') :
    VolumeFrame k k' := by
  refine ⟨OpenFrame.of_eq (by rw [h]),
    hlow, fun id _ => ?_, fun s hs => ?_⟩ <;> rw [h]
  exact hs

/-- A stream that moves stays on its disk. -/
theorem setDiskStream {id : ℕ} {s : DiskStream} (hs : k.diskStreams id = some s)
    (pos : ℤ) :
    VolumeFrame k (k.setDiskStream id (some { s with pos := pos })) := by
  refine ⟨OpenFrame.of_eq rfl, SameLow.refl k, fun _ _ => rfl, fun t ht => ?_⟩
  obtain ⟨hne, q, hq⟩ := ht
  refine ⟨hne, ?_⟩
  by_cases hid : t.id = id
  · have hd : s.d = DiskRef.primary := by
      rw [hid, hs] at hq
      rw [Option.some.inj hq]
    refine ⟨pos, ?_⟩
    show Function.update k.diskStreams id _ t.id = _
    rw [hid, Function.update_self, hd]
  · refine ⟨q, ?_⟩
    show Function.update k.diskStreams id _ t.id = _
    rw [Function.update_of_ne hid]
    exact hq

theorem seek (stream : Ptr) (pos : ℤ) :
    Keeps VolumeFrame (Streamer.seek stream pos) := by
  intro k r k' h
  obtain ⟨s, k₁, hs, hrest⟩ := bind_eq_ok.mp h
  obtain ⟨-, hs, rfl⟩ := deref_eq_ok hs
  rw [modify_bind] at hrest
  obtain ⟨-, rfl⟩ := Prod.mk.inj (Except.ok.inj hrest)
  exact setDiskStream hs pos

theorem kzalloc {size : Word} (hsize : size.toNat < 4096) :
    Keeps VolumeFrame (KernelM.kzalloc size) := by
  intro k p k' h
  have hlow := SameLow.kzalloc hsize h
  obtain ⟨m, -, rfl⟩ := kzalloc_run h
  exact of_eq rfl hlow

theorem kfree (ptr : Word) : Keeps VolumeFrame (KernelM.kfree ptr) :=
  Keeps.modify fun k => of_eq rfl (SameLow.freed k ptr)

theorem read {α : Type} (source : ℤ → ℕ → α) (stream : Ptr) (out : Output α)
    (total : ℤ) :
    Keeps VolumeFrame (Streamer.read source stream out total) := by
  intro k r k' h
  rw [Streamer.read] at h
  obtain ⟨s, k₁, hs, h₁⟩ := bind_eq_ok.mp h
  obtain ⟨-, hs, rfl⟩ := deref_eq_ok hs
  obtain ⟨disk, k₂, hdisk, h₂⟩ := bind_eq_ok.mp h₁
  have hframe₂ := StepFrame.derefDisk (R := VolumeFrame) _ _ _ _ hdisk
  obtain ⟨buf, k₃, halloc, h₃⟩ := bind_eq_ok.mp h₂
  have hframe₃ := IsTrans.trans _ _ _ hframe₂ (kzalloc (by decide) _ _ _ halloc)
  have hs₃ : k₃.diskStreams stream.id = some s := by
    obtain ⟨m, -, rfl⟩ := kzalloc_run halloc
    have hk₂ : k₂ = k₁ := by
      cases hd : s.d with
      | null => rw [hd] at hdisk; cases hdisk
      | primary =>
        rw [hd] at hdisk
        exact (Prod.mk.inj (Except.ok.inj hdisk)).2.symm
    rw [hk₂]
    exact hs
  cases hloop : Streamer.readLoop source s.d buf s.pos total
    (total.toNat + 1) 0 0 out with
  | error e =>
    rw [hloop] at h₃
    cases h₃
  | ok res =>
    simp only [hloop] at h₃
    split at h₃
    · obtain ⟨-, rfl⟩ := Prod.mk.inj (Except.ok.inj h₃)
      exact hframe₃
    · rw [modify_bind] at h₃
      obtain ⟨u, k₄, hfree, h₄⟩ := bind_eq_ok.mp h₃
      obtain ⟨-, rfl⟩ := Prod.mk.inj (Except.ok.inj h₄)
      exact IsTrans.trans _ _ _ hframe₃
        (IsTrans.trans _ _ _ (setDiskStream hs₃ _) (kfree _ _ _ _ hfree))

theorem allocate (size : Word) : Keeps VolumeFrame (KernelM.allocate size) := by
  intro k p k' h
  have hlow := SameLow.allocate h
  obtain ⟨m, -, -, rfl⟩ := allocate_run h
  exact ⟨OpenFrame.allocate _ _ _ _ h, hlow, fun _ _ => rfl, fun _ hs => hs⟩

/-- **The steps of the file system leave the volume alone.** What they change
in memory is from the heap table on, but for the bytes that `SameLow` leaves
out, and nothing of the volume is there. -/
theorem stepFrame : StepFrame VolumeFrame where
  seek := seek
  read := read
  allocate := allocate
  kfree := kfree
  setFatDirectory _ _ := Keeps.modify fun k => of_eq rfl (SameLow.refl k)
  setItemArray _ _ := Keeps.modify fun k => of_eq rfl (SameLow.refl k)
  setFatItem _ _ := Keeps.modify fun k => of_eq rfl (SameLow.refl k)

/-! ### Paths

The parser allocates its strings and parts, and leaves what was there before. -/

theorem setPathRoot (id : ℕ) (v : Option PathRoot) :
    Keeps VolumeFrame (modify fun k => k.setPathRoot id v : KernelM Unit) :=
  Keeps.modify fun k => of_eq rfl (SameLow.refl k)

/-- A string is put where nothing was. -/
theorem getPathPartStr (path : List Byte) :
    Keeps VolumeFrame (PathParser.getPathPartStr path) := by
  refine Keeps.ite Keeps.pure ?_
  intro k r k' h
  obtain ⟨p, k₁, halloc, h₁⟩ := bind_eq_ok.mp h
  rw [modify_bind] at h₁
  obtain ⟨-, rfl⟩ := Prod.mk.inj (Except.ok.inj h₁)
  have hlow := SameLow.allocate halloc
  obtain ⟨m, -, hid, rfl⟩ := allocate_run halloc
  refine ⟨IsTrans.trans _ _ _ (OpenFrame.allocate _ _ _ _ halloc)
    (OpenFrame.of_eq rfl), hlow, fun id hlt => ?_, fun _ hs => hs⟩
  show Function.update k.strings p.id _ id = _
  rw [Function.update_of_ne (by omega)]

theorem parsePathPart (path : List Byte) :
    Keeps VolumeFrame (PathParser.parsePathPart path) :=
  (getPathPartStr _).bind fun _ => (allocate _).bind fun _ => Keeps.pure

theorem parseLoop (rounds : ℕ) (parts : List PathPart) (path : List Byte) :
    Keeps VolumeFrame (PathParser.parseLoop rounds parts path) := by
  induction rounds generalizing parts path with
  | zero => exact Keeps.fault
  | succ rounds ih =>
    exact Keeps.ite Keeps.pure ((parsePathPart _).bind fun _ => ih _ _)

theorem getDrive (path : List Byte) :
    Keeps VolumeFrame (PathParser.getDrive path) :=
  (kzalloc (by decide)).bind fun _ => (kfree _).bind fun _ => Keeps.pure

theorem parse (path : List Byte) :
    Keeps VolumeFrame (PathParser.parse path) := by
  refine Keeps.ite Keeps.pure (Keeps.ite Keeps.pure
    ((getDrive _).bind fun drive =>
      Keeps.ite Keeps.pure ?_))
  refine Keeps.bind ((allocate _).bind fun _ =>
    (setPathRoot _ _).bind fun _ => Keeps.pure)
    fun root => ?_
  exact (parsePathPart _).bind fun _ => (parseLoop _ _ _).bind fun _ =>
    (setPathRoot _ _).bind fun _ => Keeps.pure

end VolumeFrame

/-- **A volume stays mounted.** Its private data and the filesystem of the disk
are what they were, and its streams are still there, wherever they stand now.
-/
theorem Fat16.Mounted.volumeFrame {k k' : Kernel} {pd : FatPrivate}
    (hm : Mounted k pd) (h : VolumeFrame k k') (hk : k'.HeapOk) :
    Mounted k' pd where
  heap := hk
  fs := by rw [h.disk]; exact hm.fs
  ne_null := by rw [h.disk]; exact hm.ne_null
  privateData := by rw [h.disk, h.fatPrivates]; exact hm.privateData
  cluster := h.streams _ hm.cluster
  fat := h.streams _ hm.fat
  directory := h.streams _ hm.directory

/-- A heap that has grown is one in use. -/
theorem Kernel.Grows.heapOk {k k' : Kernel} (h : k.Grows k') (hk : k.HeapOk) :
    k'.HeapOk := by
  obtain ⟨hw, es, hinv⟩ := hk
  obtain ⟨new, hnew⟩ := h.holds es ⟨hw, hinv⟩
  exact ⟨hnew.1, _, hnew.2⟩

end N00bOS
