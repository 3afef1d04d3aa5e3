import N00bOS.File
import N00bOS.KernelSpec

/-!
# What the file system leaves alone

Two relations between the states before and after a function that has returned.
A function that reads (`ReadFrame`) moves streams and takes and gives back
temporary buffers: the block table is the same, and every structure. Everything
under `fopen` and `fclose` but their last steps (`OpenFrame`) leaves the
descriptor table, the descriptors and their private data as they are. Each
theorem here is about the function it is named after.

Both are preorders, so the theorems follow the text of the functions with the
rules of `N00bOS.Machine`: a theorem for each function that is called, in the
order of the source, and for a loop an induction on its bound. Nothing is asked
of the state, and so the frames hold of every run that returns, on any disk,
whatever is in the directories.
-/

namespace N00bOS

open KernelM

/-! ## Functions that read

A temporary buffer that is taken and given back leaves the table as it was,
whether a block was free or not. -/

/-- **Only streams and temporaries change.** What a temporary leaves in memory
depends on the heap: the block that was free, on a heap with one, and twelve
blocks below the heap on a full one. The table is as before in both cases. -/
structure ReadFrame (k k' : Kernel) : Prop where
  eq : k' = { k with mem := k'.mem, diskStreams := k'.diskStreams }
  table : k.HeapOk → SameTable k.heap k.mem k'.mem

theorem ReadFrame.heap {k k' : Kernel} (h : ReadFrame k k') :
    k'.heap = k.heap := by rw [h.eq]

theorem ReadFrame.heapOk {k k' : Kernel} (h : ReadFrame k k') (hk : k.HeapOk) :
    k'.HeapOk := by
  obtain ⟨hp, es, hinv⟩ := hk
  refine ⟨h.heap ▸ hp, es, ?_⟩
  rw [h.heap]
  exact hinv.congr (h.table ⟨hp, es, hinv⟩)

instance : IsPreorder Kernel ReadFrame where
  refl _ := ⟨rfl, fun _ => SameTable.refl _ _⟩
  trans k k' k'' h₁ h₂ := by
    refine ⟨?_, fun hk => (h₁.table hk).trans ?_⟩
    · rw [h₂.eq, h₁.eq]
    · rw [← h₁.heap]
      exact h₂.table (h₁.heapOk hk)

/-- With the disk there, the loop of `read` has no error to return. -/
theorem Streamer.readLoop_status {α : Type} {source : ℤ → ℕ → α} {buf : Word}
    {pos total : ℤ} {rounds bytesRead sectorsRead : ℕ} {out : Output α}
    {r : ℤ × Output α}
    (h : readLoop source DiskRef.primary buf pos total rounds bytesRead
      sectorsRead out = Except.ok r) :
    r.1 = 0 := by
  induction rounds generalizing bytesRead sectorsRead out with
  | zero => cases h
  | succ rounds ih =>
    rw [readLoop] at h
    split at h
    · simp only at h
      split at h
      · next res hblock => cases hblock
      · exact ih h
    · rw [← Except.ok.inj h]

/-- **What a read that returns has done**: it has taken a sector buffer, read
without an error, moved the stream, and given the buffer back. -/
theorem Streamer.read_eq_ok {α : Type} {source : ℤ → ℕ → α} {stream : Ptr}
    {out : Output α} {total : ℤ} {k k' : Kernel} {r : ℤ × Output α}
    (h : read source stream out total k = Except.ok (r, k')) :
    r.1 = 0 ∧ ∃ p m s, k.heap.kzalloc k.mem 512 = some (p, m)
      ∧ k' = { k.setDiskStream stream.id (some s) with
        mem := k.heap.kfree m p } := by
  rw [read] at h
  obtain ⟨s, k₁, hs, h₁⟩ := Machine.bind_eq_ok.mp h
  obtain ⟨-, -, rfl⟩ := deref_eq_ok hs
  obtain ⟨disk, k₂, hdisk, h₂⟩ := Machine.bind_eq_ok.mp h₁
  have hprimary : s.d = DiskRef.primary ∧ k₂ = k₁ := by
    cases hd : s.d with
    | null => rw [hd] at hdisk; cases hdisk
    | primary =>
      rw [hd] at hdisk
      exact ⟨rfl, (Prod.mk.inj (Except.ok.inj hdisk)).2.symm⟩
  obtain ⟨hd, rfl⟩ := hprimary
  obtain ⟨buf, k₃, halloc, h₃⟩ := Machine.bind_eq_ok.mp h₂
  obtain ⟨m, hfit, rfl⟩ := kzalloc_run halloc
  cases hloop : readLoop source s.d buf s.pos total
    (total.toNat + 1) 0 0 out with
  | error e =>
    rw [hloop] at h₃
    cases h₃
  | ok res =>
    rw [hloop] at h₃
    have hzero : res.1 = 0 := readLoop_status (hd ▸ hloop)
    simp only [hzero, Int.lt_irrefl, if_false] at h₃
    rw [Machine.modify_bind] at h₃
    obtain ⟨u, k₄, hfree, h₄⟩ := Machine.bind_eq_ok.mp h₃
    obtain ⟨-, rfl⟩ := Prod.mk.inj (Except.ok.inj hfree)
    obtain ⟨rfl, rfl⟩ := Prod.mk.inj (Except.ok.inj h₄)
    exact ⟨rfl, buf, m, _, hfit, rfl⟩

namespace ReadFrame

open Machine

theorem deref {T : Type} (store : Kernel → ℕ → Option T) (p : Ptr) :
    Keeps ReadFrame (KernelM.deref store p) := by
  intro k v k' h
  obtain ⟨-, -, rfl⟩ := deref_eq_ok h
  exact Std.Refl.refl _

theorem derefDisk (d : DiskRef) : Keeps ReadFrame (KernelM.derefDisk d) := by
  cases d with
  | null => exact Keeps.fault
  | primary =>
    intro k v k' h
    obtain ⟨-, rfl⟩ := Prod.mk.inj (Except.ok.inj h)
    exact Std.Refl.refl _

theorem setDiskStream (id : ℕ) (v : Option DiskStream) :
    Keeps ReadFrame (modify fun k => k.setDiskStream id v : KernelM Unit) :=
  Keeps.modify fun _ => ⟨rfl, fun _ => SameTable.refl _ _⟩

/-- A buffer that is taken and given back leaves the table as it was. -/
theorem of_kzalloc_kfree {k : Kernel} {size p : Word} {m : Memory}
    (hsize : size.toNat < 4096) (h : k.heap.kzalloc k.mem size = some (p, m)) :
    ReadFrame k { k with mem := k.heap.kfree m p } := by
  refine ⟨rfl, ?_⟩
  rintro ⟨hp, es, hinv⟩
  exact sameTable_kzalloc_kfree hp hinv hsize h

theorem seek (stream : Ptr) (pos : ℤ) :
    Keeps ReadFrame (Streamer.seek stream pos) :=
  (deref _ _).bind fun _ => (setDiskStream _ _).bind fun _ => Keeps.pure

theorem read {α : Type} (source : ℤ → ℕ → α) (stream : Ptr) (out : Output α)
    (total : ℤ) :
    Keeps ReadFrame (Streamer.read source stream out total) := by
  intro k r k' h
  obtain ⟨-, p, m, s, hfit, rfl⟩ := Streamer.read_eq_ok h
  exact ⟨rfl, (of_kzalloc_kfree (by decide) hfit).table⟩

theorem privateData (d : DiskRef) : Keeps ReadFrame (Fat16.privateData d) :=
  (derefDisk _).bind fun _ => deref _ _

theorem getFatEntry (d : DiskRef) (cluster : ℤ) :
    Keeps ReadFrame (Fat16.getFatEntry d cluster) := by
  refine (privateData _).bind fun pd => Keeps.ite Keeps.pure ?_
  refine (seek _ _).bind fun res => Keeps.ite Keeps.pure ?_
  exact Keeps.get.bind fun k => (read _ _ _ _).bind fun r =>
    Keeps.ite Keeps.pure
    (Keeps.get.bind fun _ => Keeps.pure)

theorem walkClusters (d : DiskRef) (left : ℕ) (cluster : ℤ) :
    Keeps ReadFrame (Fat16.walkClusters d left cluster) := by
  induction left generalizing cluster with
  | zero => exact Keeps.pure
  | succ left ih =>
    exact (getFatEntry _ _).bind fun _ =>
      Keeps.ite Keeps.pure (Keeps.ite Keeps.pure
      (Keeps.ite Keeps.pure (Keeps.ite Keeps.pure
        (Keeps.ite Keeps.pure (ih _)))))

theorem getCluster (d : DiskRef) (startingCluster offset : ℤ) :
    Keeps ReadFrame (Fat16.getCluster d startingCluster offset) :=
  (privateData _).bind fun _ => Keeps.ite Keeps.fault (walkClusters _ _ _)

theorem readChunks {α : Type} (source : ℤ → ℕ → α) (d : DiskRef) (stream : Ptr)
    (pd : FatPrivate) (startingCluster offset totalBytes : ℤ) (rounds : ℕ)
    (bytesRead res : ℤ) (out : Output α) :
    Keeps ReadFrame (Fat16.readChunks source d stream pd startingCluster offset
      totalBytes rounds bytesRead res out) := by
  induction rounds generalizing bytesRead res out with
  | zero => exact Keeps.fault
  | succ rounds ih =>
    refine Keeps.ite ?_ Keeps.pure
    refine (getCluster _ _ _).bind fun _ => Keeps.ite Keeps.pure ?_
    refine (seek _ _).bind fun _ => Keeps.ite Keeps.pure ?_
    exact (read _ _ _ _).bind fun _ => Keeps.ite Keeps.pure (ih _ _ _)

theorem readInternal {α : Type} (source : ℤ → ℕ → α) (d : DiskRef)
    (startingCluster offset totalBytes : ℤ) (out : Output α) :
    Keeps ReadFrame (Fat16.readInternal source d startingCluster offset
      totalBytes out) :=
  (privateData _).bind fun _ => (privateData _).bind fun _ =>
    readChunks _ _ _ _ _ _ _ _ _ _ _

theorem readItem (item : Ptr) (idx : ℕ) :
    Keeps ReadFrame (Fat16.readItem item idx) := by
  refine Keeps.ite (Keeps.get.bind fun k => Keeps.pure) ?_
  refine (deref _ _).bind fun items => ?_
  cases items[idx]? with
  | none => exact Keeps.fault
  | some v => exact Keeps.pure

theorem localItem (out : Output Byte) : Keeps ReadFrame (Fat16.localItem out) :=
  Keeps.get.bind fun _ => Keeps.pure

theorem countItems (stream : Ptr) (rounds numItems : ℕ) :
    Keeps ReadFrame (Fat16.countItems stream none rounds numItems) := by
  induction rounds generalizing numItems with
  | zero => exact Keeps.fault
  | succ rounds ih =>
    exact Keeps.get.bind fun k => (read _ _ _ _).bind fun r =>
      Keeps.ite Keeps.pure
      ((localItem _).bind fun item =>
        Keeps.ite Keeps.pure (Keeps.ite (ih _) (ih _)))

theorem getDirectoryTotalItems (d : DiskRef) (sector : Word) :
    Keeps ReadFrame (Fat16.getDirectoryTotalItems d sector none) :=
  (privateData _).bind fun _ => (seek _ _).bind fun _ =>
    Keeps.ite Keeps.pure (countItems _ _ _)

theorem getFileDescriptor (fd : ℤ) :
    Keeps ReadFrame (File.getFileDescriptor fd) :=
  Keeps.ite Keeps.pure (Keeps.get.bind fun _ => Keeps.pure)

theorem filesystemOf (desc : FileDescriptor) :
    Keeps ReadFrame (File.filesystemOf desc) :=
  Keeps.ite Keeps.fault Keeps.pure

theorem fread {α : Type} (source : ℤ → ℕ → α) (data : Output α)
    (blockSize numBlocks : Word) (fd : ℤ) :
    Keeps ReadFrame (File.fread source data blockSize numBlocks fd) := by
  refine Keeps.ite Keeps.pure ((getFileDescriptor _).bind fun _ =>
    Keeps.ite Keeps.pure ?_)
  refine (deref _ _).bind fun _ => (filesystemOf _).bind fun _ => ?_
  exact (deref _ _).bind fun _ => (deref _ _).bind fun _ => Keeps.ite Keeps.pure
    ((readItem _ _).bind fun _ => readInternal _ _ _ _ _ _)

theorem fstat (fd : ℤ) (stat : FileStat) :
    Keeps ReadFrame (File.fstat fd stat) := by
  refine Keeps.ite Keeps.pure ((getFileDescriptor _).bind fun _ =>
    Keeps.ite Keeps.pure ?_)
  refine (deref _ _).bind fun _ => (filesystemOf _).bind fun _ => ?_
  exact (deref _ _).bind fun _ => (deref _ _).bind fun _ => Keeps.ite Keeps.pure
    ((readItem _ _).bind fun _ => Keeps.ite Keeps.pure Keeps.pure)

end ReadFrame

/-! ## Functions that allocate and free

What may change is memory, and the stores that a lookup uses: directories,
items, their arrays, and the parts of paths. -/

/-- **The open files stay.** It is what functions keep that allocate and free
while a path is looked up: private data, descriptors and slots are not theirs
to change. -/
structure OpenFrame (k k' : Kernel) : Prop where
  heap : k'.heap = k.heap
  nextId : k.nextId ≤ k'.nextId
  sectors : k'.sectors = k.sectors
  disk : k'.disk = k.disk
  fatPrivates : k'.fatPrivates = k.fatPrivates
  fileDescriptors : k'.fileDescriptors = k.fileDescriptors
  fileDescriptorStructs : k'.fileDescriptorStructs = k.fileDescriptorStructs
  fatItemDescriptors : k'.fatItemDescriptors = k.fatItemDescriptors

instance : IsPreorder Kernel OpenFrame where
  refl _ := ⟨rfl, Nat.le_refl _, rfl, rfl, rfl, rfl, rfl, rfl⟩
  trans _ _ _ h₁ h₂ := ⟨h₂.heap.trans h₁.heap, h₁.nextId.trans h₂.nextId,
    h₂.sectors.trans h₁.sectors, h₂.disk.trans h₁.disk,
    h₂.fatPrivates.trans h₁.fatPrivates,
    h₂.fileDescriptors.trans h₁.fileDescriptors,
    h₂.fileDescriptorStructs.trans h₁.fileDescriptorStructs,
    h₂.fatItemDescriptors.trans h₁.fatItemDescriptors⟩

namespace OpenFrame

open Machine

/-- A change of memory and of the stores of the lookup. -/
theorem of_eq {k k' : Kernel} (h : k' = { k with
      mem := k'.mem, diskStreams := k'.diskStreams, fatDirectories :=
        k'.fatDirectories
      itemArrays := k'.itemArrays, fatItems := k'.fatItems, pathRoots :=
        k'.pathRoots
      strings := k'.strings }) : OpenFrame k k' := by
  rw [h]
  exact ⟨rfl, Nat.le_refl _, rfl, rfl, rfl, rfl, rfl, rfl⟩

theorem of_readFrame {k k' : Kernel} (h : ReadFrame k k') : OpenFrame k k' :=
  of_eq (by rw [h.eq])

/-- A function that reads leaves the open files alone. -/
theorem of_reads {α : Type} {x : KernelM α} (h : Keeps ReadFrame x) :
    Keeps OpenFrame x :=
  h.mono fun _ _ => of_readFrame

theorem deref {T : Type} (store : Kernel → ℕ → Option T) (p : Ptr) :
    Keeps OpenFrame (KernelM.deref store p) :=
  of_reads (ReadFrame.deref store p)

theorem kzalloc (size : Word) : Keeps OpenFrame (KernelM.kzalloc size) := by
  intro k p k' h
  obtain ⟨m, -, rfl⟩ := kzalloc_run h
  exact of_eq rfl

theorem allocate (size : Word) : Keeps OpenFrame (KernelM.allocate size) := by
  intro k p k' h
  obtain ⟨m, -, -, rfl⟩ := allocate_run h
  exact ⟨rfl, Nat.le_succ _, rfl, rfl, rfl, rfl, rfl, rfl⟩

theorem kfree (ptr : Word) : Keeps OpenFrame (KernelM.kfree ptr) :=
  Keeps.modify fun _ => of_eq rfl

theorem setFatDirectory (id : ℕ) (v : Option FatDirectory) :
    Keeps OpenFrame (modify fun k => k.setFatDirectory id v : KernelM Unit) :=
  Keeps.modify fun _ => of_eq rfl

theorem setItemArray (id : ℕ) (v : Option (List FatDirectoryItem)) :
    Keeps OpenFrame (modify fun k => k.setItemArray id v : KernelM Unit) :=
  Keeps.modify fun _ => of_eq rfl

theorem setFatItem (id : ℕ) (v : Option FatItem) :
    Keeps OpenFrame (modify fun k => k.setFatItem id v : KernelM Unit) :=
  Keeps.modify fun _ => of_eq rfl

theorem setPathRoot (id : ℕ) (v : Option PathRoot) :
    Keeps OpenFrame (modify fun k => k.setPathRoot id v : KernelM Unit) :=
  Keeps.modify fun _ => of_eq rfl

theorem setString (id : ℕ) (v : Option (List Byte)) :
    Keeps OpenFrame (modify fun k => k.setString id v : KernelM Unit) :=
  Keeps.modify fun _ => of_eq rfl

/-! ## Items and directories

Making and freeing them. -/

theorem cloneDirectoryItem (v : FatDirectoryItem) :
    Keeps OpenFrame (Fat16.cloneDirectoryItem v) :=
  (allocate _).bind fun _ => (setItemArray _ _).bind fun _ => Keeps.pure

theorem kfreeItem (item : Ptr) (idx : ℕ) :
    Keeps OpenFrame (Fat16.kfreeItem item idx) :=
  (kfree _).bind fun _ => Keeps.ite (setItemArray _ _) Keeps.pure

theorem freeItems (item : Ptr) (left idx : ℕ) :
    Keeps OpenFrame (Fat16.freeItems item left idx) := by
  induction left generalizing idx with
  | zero => exact Keeps.pure
  | succ left ih => exact Keeps.ite ((kfreeItem _ _).bind fun _ => ih _) (ih _)

theorem directoryFree (directory : Ptr) :
    Keeps OpenFrame (Fat16.directoryFree directory) :=
  Keeps.ite ((deref _ _).bind fun _ => (freeItems _ _ _).bind fun _ =>
    (kfree _).bind fun _ =>
      setFatDirectory _ _) Keeps.pure

theorem itemFree (item : Ptr) : Keeps OpenFrame (Fat16.itemFree item) := by
  refine (deref _ _).bind fun i => ?_
  cases i.type with
  | directory =>
    exact (directoryFree _).bind fun _ => (kfree _).bind fun _ => setFatItem _ _
  | file =>
    exact (kfree _).bind fun _ => (setItemArray _ _).bind fun _ =>
      (kfree _).bind fun _ =>
        setFatItem _ _

theorem loadDirectory (d : DiskRef) (v : FatDirectoryItem) :
    Keeps OpenFrame (Fat16.loadDirectory d v) := by
  refine Keeps.ite Keeps.pure ?_
  refine (of_reads (ReadFrame.privateData _)).bind fun pd =>
    (allocate _).bind fun directory => ?_
  refine (setFatDirectory _ _).bind fun _ =>
    (of_reads (ReadFrame.getDirectoryTotalItems _ _)).bind fun total => ?_
  refine (allocate _).bind fun items => (setItemArray _ _).bind fun _ => ?_
  refine (setFatDirectory _ _).bind fun _ => Keeps.get.bind fun k => ?_
  refine (of_reads (ReadFrame.readInternal _ _ _ _ _ _)).bind fun r => ?_
  exact Keeps.ite ((directoryFree _).bind fun _ => Keeps.pure)
    (Keeps.get.bind fun _ => (setItemArray _ _).bind fun _ => Keeps.pure)

theorem newItem (d : DiskRef) (v : FatDirectoryItem) :
    Keeps OpenFrame (Fat16.newItem d v) := by
  refine (allocate _).bind fun item => (setFatItem _ _).bind fun _ =>
    Keeps.ite ?_ ?_
  · exact (loadDirectory _ _).bind fun _ =>
      (setFatItem _ _).bind fun _ => Keeps.pure
  · exact (cloneDirectoryItem _).bind fun _ =>
      (setFatItem _ _).bind fun _ => Keeps.pure

/-! ## Lookup

Finding an item, by its name and by a path. -/

theorem findFromItem (d : DiskRef) (directory : FatDirectory) (name : Ptr)
    (left idx : ℕ) :
    Keeps OpenFrame (Fat16.findFromItem d directory name left idx) := by
  induction left generalizing idx with
  | zero => exact Keeps.pure
  | succ left ih =>
    exact (of_reads (ReadFrame.readItem _ _)).bind fun _ =>
      (deref _ _).bind fun _ =>
        Keeps.ite (newItem _ _) (ih _)

theorem walkPath {find : FatDirectory → Ptr → KernelM Ptr}
    (hfind : ∀ directory name, Keeps OpenFrame (find directory name))
    (item : Ptr) (parts : List PathPart) :
    Keeps OpenFrame (Fat16.walkPath find item parts) := by
  induction parts generalizing item with
  | nil => exact Keeps.pure
  | cons part rest ih =>
    exact (deref _ _).bind fun _ => Keeps.ite Keeps.pure
      ((deref _ _).bind fun _ => (hfind _ _).bind fun _ =>
        (itemFree _).bind fun _ => ih _)

theorem getItem (d : DiskRef) (parts : List PathPart) :
    Keeps OpenFrame (Fat16.getItem d parts) := by
  have hfind : ∀ directory name,
      Keeps OpenFrame (Fat16.findItemInDirectory d directory name) :=
    fun directory name => findFromItem _ _ _ _ _
  cases parts with
  | nil => exact Keeps.fault
  | cons part rest =>
    exact (of_reads (ReadFrame.privateData _)).bind fun _ =>
      (hfind _ _).bind fun _ =>
        Keeps.ite Keeps.pure (walkPath hfind _ _)

/-! ## Paths

Parsing a path, and giving one back. -/

theorem getPathPartStr (path : List Byte) :
    Keeps OpenFrame (PathParser.getPathPartStr path) :=
  Keeps.ite Keeps.pure ((allocate _).bind fun _ =>
    (setString _ _).bind fun _ => Keeps.pure)

theorem parsePathPart (path : List Byte) :
    Keeps OpenFrame (PathParser.parsePathPart path) :=
  (getPathPartStr _).bind fun _ => (allocate _).bind fun _ => Keeps.pure

theorem parseLoop (rounds : ℕ) (parts : List PathPart) (path : List Byte) :
    Keeps OpenFrame (PathParser.parseLoop rounds parts path) := by
  induction rounds generalizing parts path with
  | zero => exact Keeps.fault
  | succ rounds ih =>
    exact Keeps.ite Keeps.pure ((parsePathPart _).bind fun _ => ih _ _)

theorem parse (path : List Byte) : Keeps OpenFrame (PathParser.parse path) := by
  refine Keeps.ite Keeps.pure (Keeps.ite Keeps.pure ?_)
  refine Keeps.bind ((kzalloc _).bind fun _ => (kfree _).bind fun _ =>
    Keeps.pure) fun drive => ?_
  refine Keeps.ite Keeps.pure ?_
  refine Keeps.bind ((allocate _).bind fun _ =>
    (setPathRoot _ _).bind fun _ => Keeps.pure)
    fun root => ?_
  exact (parsePathPart _).bind fun _ => (parseLoop _ _ _).bind fun _ =>
    (setPathRoot _ _).bind fun _ => Keeps.pure

end OpenFrame

end N00bOS
