import N00bOS.FileTable

/-!
# Divisions by the size of a cluster

`get_cluster` divides by the size of a cluster, and `read_internal_from_stream`
takes a remainder by it; neither looks whether it is zero. On a volume whose
clusters have a size (`HasClusters`) they do not have to: no function of the
file system divides by zero there, and none changes the volume. Each theorem
`NeverDivides` is about the function it is named after, down from the
primitives to the five file calls, and `Run.hasClusters` is about runs of
calls.

`NeverDivides` is `Machine.FreeOf` for this fault and this invariant, so that
the proofs follow the text of the functions with its rules; only where a
division stands is the invariant used (`getCluster`). Nothing is asked of the
rest of the state: the heap may be full, directories may be broken, and
pointers may dangle – such runs may end in other faults, but never in this one.
-/

namespace N00bOS

open KernelM Machine

/-- **The clusters of the mounted volume have a size.** A kernel without a
volume has nothing to divide by, so it meets this as well. -/
def HasClusters (k : Kernel) : Prop :=
  ∀ pd, k.fatPrivates k.disk.fsPrivateData.id = some pd →
    Fat16.clusterSizeBytes pd ≠ 0

/-- **A program never divides by zero** on a volume whose clusters have a size,
and leaves it so. Programs that do can be put one after the other, so each
function is checked on its own. -/
abbrev NeverDivides {α : Type} (x : KernelM α) : Prop :=
  FreeOf HasClusters Fault.divisionByZero x

/-- The volume is all it is about. -/
theorem HasClusters.congr {k k' : Kernel} (h : HasClusters k)
    (hdisk : k'.disk = k.disk) (hprivates : k'.fatPrivates = k.fatPrivates) :
    HasClusters k' := by
  intro pd hpd
  rw [hdisk, hprivates] at hpd
  exact h pd hpd

namespace NeverDivides

/-! ## The primitives

What every program is made of. -/

/-- A change of the state that leaves the volume alone. -/
theorem modify_of {f : Kernel → Kernel} (hdisk : ∀ k, (f k).disk = k.disk)
    (hprivates : ∀ k, (f k).fatPrivates = k.fatPrivates) :
    NeverDivides (modify f : KernelM Unit) :=
  FreeOf.modify fun k hk => hk.congr (hdisk k) (hprivates k)

theorem setDiskStream (id : ℕ) (v : Option DiskStream) :
    NeverDivides (modify fun k => k.setDiskStream id v : KernelM Unit) :=
  modify_of (fun _ => rfl) fun _ => rfl

theorem setFatDirectory (id : ℕ) (v : Option FatDirectory) :
    NeverDivides (modify fun k => k.setFatDirectory id v : KernelM Unit) :=
  modify_of (fun _ => rfl) fun _ => rfl

theorem setItemArray (id : ℕ) (v : Option (List FatDirectoryItem)) :
    NeverDivides (modify fun k => k.setItemArray id v : KernelM Unit) :=
  modify_of (fun _ => rfl) fun _ => rfl

theorem setFatItem (id : ℕ) (v : Option FatItem) :
    NeverDivides (modify fun k => k.setFatItem id v : KernelM Unit) :=
  modify_of (fun _ => rfl) fun _ => rfl

theorem setFatItemDescriptor (id : ℕ) (v : Option FatItemDescriptor) :
    NeverDivides (modify fun k => k.setFatItemDescriptor id v : KernelM Unit) :=
  modify_of (fun _ => rfl) fun _ => rfl

theorem setFileDescriptor (id : ℕ) (v : Option FileDescriptor) :
    NeverDivides (modify fun k => k.setFileDescriptor id v : KernelM Unit) :=
  modify_of (fun _ => rfl) fun _ => rfl

theorem setPathRoot (id : ℕ) (v : Option PathRoot) :
    NeverDivides (modify fun k => k.setPathRoot id v : KernelM Unit) :=
  modify_of (fun _ => rfl) fun _ => rfl

theorem setString (id : ℕ) (v : Option (List Byte)) :
    NeverDivides (modify fun k => k.setString id v : KernelM Unit) :=
  modify_of (fun _ => rfl) fun _ => rfl

theorem setSlot (idx : ℕ) (p : Ptr) : NeverDivides (modify fun k =>
    { k with
        fileDescriptors := Function.update k.fileDescriptors idx p } : KernelM
            Unit) :=
  modify_of (fun _ => rfl) fun _ => rfl

theorem deref {T : Type} (store : Kernel → ℕ → Option T) (p : Ptr) :
    NeverDivides (KernelM.deref store p) := by
  intro k hk
  constructor
  · rw [KernelM.deref]
    split
    · exact fun h => absurd (Except.error.inj h) (by decide)
    · cases store k p.id with
      | some v => rintro ⟨⟩
      | none => exact fun h => absurd (Except.error.inj h) (by decide)
  · intro v k' h
    obtain ⟨-, -, rfl⟩ := deref_eq_ok h
    exact hk

theorem derefDisk (d : DiskRef) : NeverDivides (KernelM.derefDisk d) := by
  cases d with
  | null => exact FreeOf.fault (by decide)
  | primary =>
    intro k hk
    refine ⟨by rintro ⟨⟩, fun v k' h => ?_⟩
    obtain ⟨-, rfl⟩ := Prod.mk.inj (Except.ok.inj h)
    exact hk

theorem kzalloc (size : Word) : NeverDivides (KernelM.kzalloc size) := by
  intro k hk
  refine ⟨?_, fun p k' h => ?_⟩
  · rw [KernelM.kzalloc]
    cases k.heap.kzalloc k.mem size with
    | none => exact fun h => absurd (Except.error.inj h) (by decide)
    | some r => rintro ⟨⟩
  · have hframe := OpenFrame.kzalloc size k p k' h
    exact hk.congr hframe.disk hframe.fatPrivates

theorem allocate (size : Word) : NeverDivides (KernelM.allocate size) := by
  intro k hk
  refine ⟨?_, fun p k' h => ?_⟩
  · rw [KernelM.allocate]
    cases k.heap.kzallocFit k.mem size with
    | none => exact fun h => absurd (Except.error.inj h) (by decide)
    | some r => rintro ⟨⟩
  · have hframe := OpenFrame.allocate size k p k' h
    exact hk.congr hframe.disk hframe.fatPrivates

theorem kfree (ptr : Word) : NeverDivides (KernelM.kfree ptr) :=
  modify_of (fun _ => rfl) fun _ => rfl

/-! ## Streams

Reading divides by the sector size, which is a constant. -/

theorem seek (stream : Ptr) (pos : ℤ) :
    NeverDivides (Streamer.seek stream pos) :=
  (deref _ _).bind fun _ => (setDiskStream _ _).bind fun _ => FreeOf.pure

/-- The loop of `read` fails only by not ending. -/
theorem readLoop_error {α : Type} {source : ℤ → ℕ → α} {d : DiskRef}
    {buf : Word} {pos total : ℤ} {rounds bytesRead sectorsRead : ℕ}
    {out : Output α} {e : Fault}
    (h : Streamer.readLoop source d buf pos total rounds bytesRead sectorsRead
      out = Except.error e) :
    e = Fault.diverged := by
  induction rounds generalizing bytesRead sectorsRead out with
  | zero => exact (Except.error.inj h).symm
  | succ rounds ih =>
    rw [Streamer.readLoop] at h
    split at h
    · simp only at h
      split at h
      · cases h
      · exact ih h
    · cases h

theorem read {α : Type} (source : ℤ → ℕ → α) (stream : Ptr) (out : Output α)
    (total : ℤ) :
    NeverDivides (Streamer.read source stream out total) := by
  refine (deref _ _).bind fun s => (derefDisk _).bind fun _ =>
    (kzalloc _).bind fun buf => ?_
  cases hloop : Streamer.readLoop source s.d buf s.pos total
    (total.toNat + 1) 0 0 out with
  | error e =>
    refine FreeOf.fault ?_
    rw [readLoop_error hloop]
    decide
  | ok r =>
    exact FreeOf.ite (fun _ => FreeOf.pure) fun _ =>
      (setDiskStream _ _).bind fun _ =>
       (kfree _).bind fun _ => FreeOf.pure

/-! ## Clusters

Where the two divisions are. -/

theorem privateData (d : DiskRef) : NeverDivides (Fat16.privateData d) :=
  (derefDisk _).bind fun _ => deref _ _

/-- The private data of the volume has clusters with a size. -/
theorem privateData_hasClusters (d : DiskRef) :
    Triple HasClusters (Fat16.privateData d) fun pd _ =>
      Fat16.clusterSizeBytes pd ≠ 0 := by
  intro k pd k' hk h
  obtain ⟨disk, k₁, hdisk, hderef⟩ := bind_eq_ok.mp h
  cases d with
  | null => cases hdisk
  | primary =>
    obtain ⟨rfl, rfl⟩ := Prod.mk.inj (Except.ok.inj hdisk)
    exact hk pd (deref_eq_ok hderef).2.1

theorem getFatEntry (d : DiskRef) (cluster : ℤ) :
    NeverDivides (Fat16.getFatEntry d cluster) := by
  refine (privateData _).bind fun pd =>
    FreeOf.ite (fun _ => FreeOf.pure) fun _ => ?_
  refine (seek _ _).bind fun res =>
    FreeOf.ite (fun _ => FreeOf.pure) fun _ => ?_
  exact FreeOf.get.bind fun k => (read _ _ _ _).bind fun r =>
    FreeOf.ite (fun _ => FreeOf.pure) fun _ =>
      FreeOf.get.bind fun _ => FreeOf.pure

theorem walkClusters (d : DiskRef) (left : ℕ) (cluster : ℤ) :
    NeverDivides (Fat16.walkClusters d left cluster) := by
  induction left generalizing cluster with
  | zero => exact FreeOf.pure
  | succ left ih =>
    exact (getFatEntry _ _).bind fun _ =>
      FreeOf.ite (fun _ => FreeOf.pure) fun _ =>
        FreeOf.ite (fun _ => FreeOf.pure) fun _ =>
          FreeOf.ite (fun _ => FreeOf.pure) fun _ =>
        FreeOf.ite (fun _ => FreeOf.pure) fun _ =>
          FreeOf.ite (fun _ => FreeOf.pure) fun _ => ih _

/-- **`get_cluster`** divides by the size that the volume has. It reads it from
the private data, and that is the one of the volume as long as the private data
stays. -/
theorem getCluster (d : DiskRef) (startingCluster offset : ℤ) :
    NeverDivides (Fat16.getCluster d startingCluster offset) :=
  (privateData _).bind_of (privateData_hasClusters d) fun _ hpd =>
    FreeOf.ite (fun hzero => absurd hzero hpd) fun _ => walkClusters _ _ _

theorem readChunks {α : Type} (source : ℤ → ℕ → α) (d : DiskRef) (stream : Ptr)
    (pd : FatPrivate) (startingCluster offset totalBytes : ℤ) (rounds : ℕ)
    (bytesRead res : ℤ) (out : Output α) :
    NeverDivides (Fat16.readChunks source d stream pd startingCluster offset
      totalBytes rounds bytesRead res out) := by
  induction rounds generalizing bytesRead res out with
  | zero => exact FreeOf.fault (by decide)
  | succ rounds ih =>
    refine FreeOf.ite (fun _ => ?_) fun _ => FreeOf.pure
    refine (getCluster _ _ _).bind fun _ =>
      FreeOf.ite (fun _ => FreeOf.pure) fun _ => ?_
    refine (seek _ _).bind fun _ =>
      FreeOf.ite (fun _ => FreeOf.pure) fun _ => ?_
    exact (read _ _ _ _).bind fun _ => FreeOf.ite (fun _ => FreeOf.pure)
      fun _ => ih _ _ _

theorem readInternal {α : Type} (source : ℤ → ℕ → α) (d : DiskRef)
    (startingCluster offset totalBytes : ℤ) (out : Output α) :
    NeverDivides (Fat16.readInternal source d startingCluster offset
      totalBytes out) :=
  (privateData _).bind fun _ => (privateData _).bind fun _ =>
    readChunks _ _ _ _ _ _ _ _ _ _ _

/-! ## Items and directories

Every directory and every item is made of streams, allocations and stores. -/

theorem readItem (item : Ptr) (idx : ℕ) :
    NeverDivides (Fat16.readItem item idx) := by
  refine FreeOf.ite (fun _ => FreeOf.get.bind fun k => FreeOf.pure) fun _ => ?_
  refine (deref _ _).bind fun items => ?_
  cases items[idx]? with
  | none => exact FreeOf.fault (by decide)
  | some v => exact FreeOf.pure

theorem localItem (out : Output Byte) : NeverDivides (Fat16.localItem out) :=
  FreeOf.get.bind fun _ => FreeOf.pure

theorem countItems (stream : Ptr) (rounds numItems : ℕ) :
    NeverDivides (Fat16.countItems stream none rounds numItems) := by
  induction rounds generalizing numItems with
  | zero => exact FreeOf.fault (by decide)
  | succ rounds ih =>
    exact FreeOf.get.bind fun k => (read _ _ _ _).bind fun r =>
      FreeOf.ite (fun _ => FreeOf.pure)
      fun _ => (localItem _).bind fun item =>
        FreeOf.ite (fun _ => FreeOf.pure) fun _ =>
      FreeOf.ite (fun _ => ih _) fun _ => ih _

theorem getDirectoryTotalItems (d : DiskRef) (sector : Word) :
    NeverDivides (Fat16.getDirectoryTotalItems d sector none) :=
  (privateData _).bind fun _ => (seek _ _).bind fun _ =>
    FreeOf.ite (fun _ => FreeOf.pure) fun _ => countItems _ _ _

theorem cloneDirectoryItem (v : FatDirectoryItem) :
    NeverDivides (Fat16.cloneDirectoryItem v) :=
  (allocate _).bind fun _ => (setItemArray _ _).bind fun _ => FreeOf.pure

theorem kfreeItem (item : Ptr) (idx : ℕ) :
    NeverDivides (Fat16.kfreeItem item idx) :=
  (kfree _).bind fun _ => FreeOf.ite (fun _ => setItemArray _ _)
    fun _ => FreeOf.pure

theorem freeItems (item : Ptr) (left idx : ℕ) :
    NeverDivides (Fat16.freeItems item left idx) := by
  induction left generalizing idx with
  | zero => exact FreeOf.pure
  | succ left ih =>
    exact FreeOf.ite (fun _ => (kfreeItem _ _).bind fun _ => ih _) fun _ => ih _

theorem directoryFree (directory : Ptr) :
    NeverDivides (Fat16.directoryFree directory) :=
  FreeOf.ite (fun _ => (deref _ _).bind fun _ => (freeItems _ _ _).bind fun _ =>
    (kfree _).bind fun _ => setFatDirectory _ _) fun _ => FreeOf.pure

theorem itemFree (item : Ptr) : NeverDivides (Fat16.itemFree item) := by
  refine (deref _ _).bind fun i => ?_
  cases i.type with
  | directory =>
    exact (directoryFree _).bind fun _ => (kfree _).bind fun _ => setFatItem _ _
  | file =>
    exact (kfree _).bind fun _ => (setItemArray _ _).bind fun _ =>
      (kfree _).bind fun _ => setFatItem _ _

theorem loadDirectory (d : DiskRef) (v : FatDirectoryItem) :
    NeverDivides (Fat16.loadDirectory d v) := by
  refine FreeOf.ite (fun _ => FreeOf.pure) fun _ => ?_
  refine (privateData _).bind fun pd => (allocate _).bind fun directory => ?_
  refine (setFatDirectory _ _).bind fun _ =>
    (getDirectoryTotalItems _ _).bind fun total => ?_
  refine (allocate _).bind fun items => (setItemArray _ _).bind fun _ => ?_
  refine (setFatDirectory _ _).bind fun _ => FreeOf.get.bind fun k => ?_
  refine (readInternal _ _ _ _ _ _).bind fun r => ?_
  exact FreeOf.ite (fun _ => (directoryFree _).bind fun _ => FreeOf.pure)
    fun _ =>
      FreeOf.get.bind fun _ => (setItemArray _ _).bind fun _ => FreeOf.pure

theorem newItem (d : DiskRef) (v : FatDirectoryItem) :
    NeverDivides (Fat16.newItem d v) := by
  refine (allocate _).bind fun item => (setFatItem _ _).bind fun _ =>
    FreeOf.ite (fun _ => ?_) fun _ => ?_
  · exact (loadDirectory _ _).bind fun _ => (setFatItem _ _).bind fun _ =>
      FreeOf.pure
  · exact (cloneDirectoryItem _).bind fun _ => (setFatItem _ _).bind fun _ =>
      FreeOf.pure

/-! ## Lookup

A scan that makes an item, and a walk that makes and frees them. -/

theorem findFromItem (d : DiskRef) (directory : FatDirectory) (name : Ptr)
    (left idx : ℕ) :
    NeverDivides (Fat16.findFromItem d directory name left idx) := by
  induction left generalizing idx with
  | zero => exact FreeOf.pure
  | succ left ih =>
    exact (readItem _ _).bind fun _ => (deref _ _).bind fun _ =>
      FreeOf.ite (fun _ => newItem _ _) fun _ => ih _

theorem walkPath {find : FatDirectory → Ptr → KernelM Ptr}
    (hfind : ∀ directory name, NeverDivides (find directory name)) (item : Ptr)
    (parts : List PathPart) :
    NeverDivides (Fat16.walkPath find item parts) := by
  induction parts generalizing item with
  | nil => exact FreeOf.pure
  | cons part rest ih =>
    exact (deref _ _).bind fun _ => FreeOf.ite (fun _ => FreeOf.pure) fun _ =>
      (deref _ _).bind fun _ => (hfind _ _).bind fun _ =>
        (itemFree _).bind fun _ => ih _

theorem getItem (d : DiskRef) (parts : List PathPart) :
    NeverDivides (Fat16.getItem d parts) := by
  have hfind : ∀ directory name,
      NeverDivides (Fat16.findItemInDirectory d directory name) :=
    fun directory name => findFromItem _ _ _ _ _
  cases parts with
  | nil => exact FreeOf.fault (by decide)
  | cons part rest =>
    exact (privateData _).bind fun _ => (hfind _ _).bind fun _ =>
      FreeOf.ite (fun _ => FreeOf.pure) fun _ => walkPath hfind _ _

/-! ## Paths

The parser does not look at the volume at all. -/

theorem parsePathPart (path : List Byte) :
    NeverDivides (PathParser.parsePathPart path) := by
  refine FreeOf.bind (FreeOf.ite (fun _ => FreeOf.pure) fun _ => ?_) fun _ =>
    (allocate _).bind fun _ => FreeOf.pure
  exact (allocate _).bind fun _ => (setString _ _).bind fun _ => FreeOf.pure

theorem parseLoop (rounds : ℕ) (parts : List PathPart) (path : List Byte) :
    NeverDivides (PathParser.parseLoop rounds parts path) := by
  induction rounds generalizing parts path with
  | zero => exact FreeOf.fault (by decide)
  | succ rounds ih =>
    exact FreeOf.ite (fun _ => FreeOf.pure) fun _ =>
      (parsePathPart _).bind fun _ => ih _ _

theorem parse (path : List Byte) : NeverDivides (PathParser.parse path) := by
  refine FreeOf.ite (fun _ => FreeOf.pure) fun _ =>
    FreeOf.ite (fun _ => FreeOf.pure) fun _ => ?_
  refine FreeOf.bind ((kzalloc _).bind fun _ => (kfree _).bind fun _ =>
    FreeOf.pure) fun drive => ?_
  refine FreeOf.ite (fun _ => FreeOf.pure) fun _ => ?_
  refine FreeOf.bind ((allocate _).bind fun _ => (setPathRoot _ _).bind fun _ =>
     FreeOf.pure) fun root => ?_
  exact (parsePathPart _).bind fun _ => (parseLoop _ _ _).bind fun _ =>
    (setPathRoot _ _).bind fun _ => FreeOf.pure

/-! ## The file calls

The calls, and with them the runs. -/

/-- What a call on a descriptor does before it goes to the file system. -/
theorem onDescriptor {α : Type} (fd : ℤ) (invalid : α)
    {f : FileDescriptor → KernelM α} (hf : ∀ desc, NeverDivides (f desc)) :
    NeverDivides (do
      let fileDesc ← File.getFileDescriptor fd
      if fileDesc.addr = 0 then
        return invalid
      let desc ← KernelM.deref Kernel.fileDescriptorStructs fileDesc
      File.filesystemOf desc
      f desc) := by
  refine FreeOf.bind (FreeOf.ite (fun _ => FreeOf.pure) fun _ =>
    FreeOf.get.bind fun _ =>
      FreeOf.pure) fun _ => FreeOf.ite (fun _ => FreeOf.pure) fun _ => ?_
  exact (deref _ _).bind fun desc =>
    FreeOf.bind (FreeOf.ite (fun _ => FreeOf.fault (by decide))
    fun _ => FreeOf.pure) fun _ => hf desc

theorem newFileDescriptor : NeverDivides File.newFileDescriptor := by
  refine FreeOf.get.bind fun k => ?_
  cases File.freeSlot k.fileDescriptors with
  | none => exact FreeOf.pure
  | some idx =>
    exact (allocate _).bind fun _ => (setFileDescriptor _ _).bind fun _ =>
      (setSlot _ _).bind fun _ => FreeOf.pure

theorem fat16Open (d : DiskRef) (path : List PathPart) (mode : Fat16.FileMode) :
    NeverDivides (Fat16.fat16Open d path mode) := by
  refine FreeOf.ite (fun _ => FreeOf.pure) fun _ =>
    (allocate _).bind fun _ => ?_
  refine (setFatItemDescriptor _ _).bind fun _ => (getItem _ _).bind fun _ => ?_
  exact (setFatItemDescriptor _ _).bind fun _ =>
    FreeOf.ite (fun _ => FreeOf.pure) fun _ => FreeOf.pure

theorem fopen (filename mode : List Byte) :
    NeverDivides (File.fopen filename mode) := by
  refine (parse _).bind fun _ => FreeOf.ite (fun _ => FreeOf.pure) fun _ => ?_
  refine (deref _ _).bind fun _ => FreeOf.ite (fun _ => FreeOf.pure) fun _ => ?_
  refine FreeOf.ite (fun _ => FreeOf.pure) fun _ =>
    (derefDisk _).bind fun _ => ?_
  refine FreeOf.ite (fun _ => FreeOf.pure) fun _ =>
    FreeOf.ite (fun _ => FreeOf.pure) fun _ => ?_
  refine (fat16Open _ _ _).bind fun _ =>
    FreeOf.ite (fun _ => FreeOf.pure) fun _ => ?_
  refine newFileDescriptor.bind fun descriptor => ?_
  cases descriptor with
  | error result => exact FreeOf.pure
  | ok descriptor =>
    exact (deref _ _).bind fun _ =>
      (setFileDescriptor _ _).bind fun _ => FreeOf.pure

theorem fread {α : Type} (source : ℤ → ℕ → α) (data : Output α)
    (blockSize numBlocks : Word) (fd : ℤ) :
    NeverDivides (File.fread source data blockSize numBlocks fd) :=
  FreeOf.ite (fun _ => FreeOf.pure) fun _ => onDescriptor _ _ fun _ =>
    (deref _ _).bind fun _ => (deref _ _).bind fun _ =>
      FreeOf.ite (fun _ => FreeOf.pure) fun _ =>
    (readItem _ _).bind fun _ => readInternal _ _ _ _ _ _

theorem fseek (fd offset : ℤ) (whence : Fat16.FileSeekMode) :
    NeverDivides (File.fseek fd offset whence) := by
  refine FreeOf.ite (fun _ => FreeOf.pure) fun _ => onDescriptor _ _ fun _ =>
    (deref _ _).bind fun _ => (deref _ _).bind fun _ =>
      FreeOf.ite (fun _ => FreeOf.pure) fun _ => ?_
  refine FreeOf.ite (fun _ => (setFatItemDescriptor _ _).bind fun _ =>
    FreeOf.pure)
    fun _ => FreeOf.ite (fun _ => FreeOf.pure) fun _ => FreeOf.ite (fun _ => ?_)
    fun _ => FreeOf.pure
  exact (setFatItemDescriptor _ _).bind fun _ => FreeOf.pure

theorem fstat (fd : ℤ) (stat : FileStat) : NeverDivides (File.fstat fd stat) :=
  FreeOf.ite (fun _ => FreeOf.pure) fun _ => onDescriptor _ _ fun _ =>
    (deref _ _).bind fun _ => (deref _ _).bind fun _ =>
      FreeOf.ite (fun _ => FreeOf.pure) fun _ =>
    (readItem _ _).bind fun _ => FreeOf.ite (fun _ => FreeOf.pure)
      fun _ => FreeOf.pure

theorem fclose (fd : ℤ) : NeverDivides (File.fclose fd) := by
  refine FreeOf.ite (fun _ => FreeOf.pure) fun _ => onDescriptor _ _ fun _ =>
    (deref _ _).bind fun _ => (deref _ _).bind fun _ =>
      FreeOf.ite (fun _ => FreeOf.pure) fun _ => ?_
  refine FreeOf.bind ((deref _ _).bind fun _ => (itemFree _).bind fun _ => ?_)
    fun _ => FreeOf.pure
  exact (kfree _).bind fun _ => setFatItemDescriptor _ _

/-- **No call divides by zero.** A call is put together from the functions
above, and each of them keeps the size for the next. -/
theorem call (c : File.Call) : NeverDivides c.run := by
  cases c with
  | fopen filename mode => exact (fopen _ _).bind fun _ => FreeOf.pure
  | fread data blockSize numBlocks fd =>
    exact FreeOf.get.bind fun _ => (fread _ _ _ _ _).bind fun _ => FreeOf.pure
  | fseek fd offset whence => exact (fseek _ _ _).bind fun _ => FreeOf.pure
  | fstat fd stat => exact (fstat _ _).bind fun _ => FreeOf.pure
  | fclose fd => exact (fclose _).bind fun _ => FreeOf.pure

end NeverDivides

/-- **The clusters keep their size** in a run of calls. Nothing in a run mounts
a volume, so the private data of the first state is that of the last. -/
theorem File.Run.hasClusters {k k' : Kernel}
    {history : List (File.Call × File.Reply)} (h : File.Run k history k')
    (hk : HasClusters k) : HasClusters k' := by
  induction h with
  | start => exact hk
  | call _ hcall ih => exact (NeverDivides.call _ _ ih).2 _ _ hcall

end N00bOS
