import N00bOS.ClusterSpec
import N00bOS.File

/-!
# Calls on open descriptors

What `fread`, `fseek` and `fstat` do on a descriptor that is open (`OpenFd`):
their results are functions of the descriptor's own position and item and of
the volume, and their effects are the position and a quiet change.

`OpenFd k fd o pos` collects what lies between a descriptor and a byte of its
file – the slot, the structure, its private data, the item and the entry of the
directory (`OpenInfo`) – as one hypothesis, with the position apart, because it
is the only part that the calls move. The three specifications below are the
only lemmas about these calls that later modules use; none of them unfolds the
calls again.
-/

namespace N00bOS

open KernelM Fat16

namespace File

/-- What a descriptor leads to. -/
structure OpenInfo where
  /-- The descriptor's private data, a `fat_item_descriptor`. -/
  privateData : Ptr
  /-- Its item. -/
  item : Ptr
  /-- The item itself. -/
  fatItem : FatItem
  /-- The directory entry of the file, for a file. -/
  directoryItem : FatDirectoryItem

/-- **An open descriptor**, at a position: its slot is taken, and from there
lead pointers to the descriptor, the private data, the item and the entry. What
is at their ends is `OpenInfo`. -/
structure OpenFd (k : Kernel) (fd : ℤ) (o : OpenInfo) (pos : Word) : Prop where
  nonneg : 0 ≤ fd
  lt : fd < 512
  slot : (k.fileDescriptors fd.toNat).addr ≠ 0
  struct : ∃ idx, k.fileDescriptorStructs (k.fileDescriptors fd.toNat).id
    = some ⟨idx, FilesystemRef.fat16, o.privateData, DiskRef.primary⟩
  privateData_ne_null : o.privateData.addr ≠ 0
  descriptor : k.fatItemDescriptors o.privateData.id = some ⟨o.item, pos⟩
  item_ne_null : o.item.addr ≠ 0
  item : k.fatItems o.item.id = some o.fatItem
  entry : o.fatItem.type = FatItemType.file → o.fatItem.entry.addr ≠ 0
    ∧ ∃ rest, k.itemArrays o.fatItem.entry.id = some (o.directoryItem :: rest)

namespace OpenFd

variable {k k' : Kernel} {fd : ℤ} {o : OpenInfo} {pos : Word}

/-- A quiet change leaves a descriptor open. -/
theorem quiet (h : OpenFd k fd o pos) (hq : Quiet k k') :
    OpenFd k' fd o pos := by
  rw [hq.eq]
  exact ⟨h.nonneg, h.lt, h.slot, h.struct, h.privateData_ne_null, h.descriptor,
    h.item_ne_null, h.item, h.entry⟩

/-- A position that is set. -/
theorem setPos (h : OpenFd k fd o pos) (pos' : Word) :
    OpenFd (k.setFatItemDescriptor o.privateData.id (some ⟨o.item, pos'⟩))
      fd o pos' :=
  ⟨h.nonneg, h.lt, h.slot, h.struct, h.privateData_ne_null,
    Function.update_self _ _ _, h.item_ne_null, h.item, h.entry⟩

/-- Another descriptor's position that is set. -/
theorem setPos_of_ne (h : OpenFd k fd o pos) {id : ℕ}
    (hid : o.privateData.id ≠ id) (v : Option FatItemDescriptor) :
    OpenFd (k.setFatItemDescriptor id v) fd o pos :=
  ⟨h.nonneg, h.lt, h.slot, h.struct, h.privateData_ne_null,
    (Function.update_of_ne hid _ _).trans h.descriptor, h.item_ne_null,
    h.item, h.entry⟩

/-- The position that is there, set again. -/
theorem setPos_self (h : OpenFd k fd o pos) :
    k.setFatItemDescriptor o.privateData.id (some ⟨o.item, pos⟩) = k := by
  rw [Kernel.setFatItemDescriptor, ← h.descriptor, Function.update_eq_self]

/-- The lookup of a descriptor. -/
theorem getFileDescriptor (h : OpenFd k fd o pos) :
    File.getFileDescriptor fd k = Except.ok (k.fileDescriptors fd.toNat,
      k) := by
  have hlo := h.nonneg
  have hhi := h.lt
  rw [File.getFileDescriptor,
    if_neg (show ¬ (fd < 0 ∨ fd ≥ (fsMaxFileDescriptors : ℤ)) by
      unfold fsMaxFileDescriptors; omega), Machine.bind_ok
        (Machine.get_apply k)]
  rfl

theorem deref_privateData (h : OpenFd k fd o pos) :
    deref Kernel.fatItemDescriptors o.privateData k
      = Except.ok (⟨o.item, pos⟩, k) :=
  deref_ok h.privateData_ne_null h.descriptor

theorem deref_item (h : OpenFd k fd o pos) :
    deref Kernel.fatItems o.item k = Except.ok (o.fatItem, k) :=
  deref_ok h.item_ne_null h.item

/-- The entry of a file. -/
theorem readItem_entry (h : OpenFd k fd o pos)
    (hfile : o.fatItem.type = FatItemType.file) :
    readItem o.fatItem.entry 0 k = Except.ok (o.directoryItem, k) := by
  obtain ⟨hne, rest, hitems⟩ := h.entry hfile
  rw [readItem, if_neg hne, Machine.bind_ok (deref_ok hne hitems)]
  rfl

end OpenFd

/-! ## `fseek`

A seek is arithmetic on the position; nothing is read, and the size of the file
is not looked at. -/

/-- The position after a seek. -/
def seekPos (type : FatItemType) (whence : FileSeekMode) (offset : ℤ)
    (pos : Word) : Word :=
  if type = FatItemType.file then
    if whence = seekSet then BitVec.ofInt 32 offset
    else if whence = seekCurrent then pos + BitVec.ofInt 32 offset
    else pos
  else pos

/-- The status of a seek. -/
def seekStatus (type : FatItemType) (whence : FileSeekMode) : ℤ :=
  if type = FatItemType.file ∧ (whence = seekSet ∨ whence = seekCurrent) then 0
    else -einval

/-- **`fseek`** sets the position, and nothing else. Status and position are
functions of the type of the item, the mode and the offset; the size of the
file is not looked at. -/
theorem fseek_spec {k : Kernel} {fd : ℤ} {o : OpenInfo} {pos : Word}
    (h : OpenFd k fd o pos) (offset : ℤ) (whence : FileSeekMode) :
    fseek fd offset whence k = Except.ok (seekStatus o.fatItem.type whence,
      k.setFatItemDescriptor o.privateData.id
        (some ⟨o.item, seekPos o.fatItem.type whence offset pos⟩)) := by
  obtain ⟨idx, hstruct⟩ := h.struct
  rw [fseek, if_neg (Int.not_lt.mpr h.nonneg),
    Machine.bind_ok h.getFileDescriptor, if_neg h.slot,
    Machine.bind_ok (deref_ok h.slot hstruct)]
  show fat16Seek o.privateData offset whence k = _
  rw [fat16Seek, Machine.bind_ok h.deref_privateData,
    Machine.bind_ok h.deref_item]
  unfold seekPos seekStatus
  by_cases hfile : o.fatItem.type = FatItemType.file
  · rw [if_neg (not_not.mpr hfile), if_pos hfile]
    by_cases hset : whence = seekSet
    · rw [if_pos hset, if_pos hset, if_pos ⟨hfile, Or.inl hset⟩]
      rfl
    · rw [if_neg hset, if_neg hset]
      by_cases hcur : whence = seekCurrent
      · rw [if_neg (by rw [hcur]; decide), if_pos hcur, if_pos hcur,
          if_pos ⟨hfile, Or.inr hcur⟩]
        rfl
      · have hnot : ¬ (o.fatItem.type = FatItemType.file
            ∧ (whence = seekSet ∨ whence = seekCurrent)) := by tauto
        rw [if_neg hcur, if_neg hcur, if_neg hnot, h.setPos_self, ite_self]
        rfl
  · rw [if_pos hfile, if_neg hfile, if_neg (fun hc => hfile hc.1),
      h.setPos_self]
    rfl

/-! ## `fread`

A read finds the cluster of the position and reads from there. Where it starts
(`readPos`) is a function of the FAT, the header and the position. -/

/-- The first cluster of a file. -/
def firstCluster (o : OpenInfo) : ℤ := (getFirstCluster o.directoryItem).toInt

theorem firstCluster_bounds (o : OpenInfo) :
    0 ≤ firstCluster o ∧ firstCluster o ≤ 65535 := by
  unfold firstCluster getFirstCluster
  have :=
    (o.directoryItem.hi16BitsFirstCluster
      ||| o.directoryItem.lo16BitsFirstCluster).isLt
  rw [BitVec.toInt_eq_toNat_of_lt (by rw [BitVec.toNat_setWidth]; omega),
    BitVec.toNat_setWidth]
  omega

/-- The cluster that a read of a file at a position starts in, or the
error. -/
def readCluster (k : Kernel) (pd : FatPrivate) (o : OpenInfo)
    (pos : Word) : ℤ :=
  clusterAt k.sectors pd (firstCluster o) pos.toInt

/-- The byte position on the disk that it reads from. -/
def readPos (k : Kernel) (pd : FatPrivate) (o : OpenInfo) (pos : Word) : ℤ :=
  startingPos pd (readCluster k pd o pos) pos.toInt

/-- **The result of a read of `n` bytes** of a file at a position: nothing is
read, or there is the error of the walk, or the bytes from where the walk
leads. It is a function of the volume and of the place of the next sector
buffer. -/
def readResult {α : Type} (source : ℤ → ℕ → α) (k : Kernel) (pd : FatPrivate)
    (o : OpenInfo) (pos n : Word) (out : Output α) : ℤ × Output α :=
  if n.toInt ≤ 0 then (0, out)
  else if readCluster k pd o pos < 0 then (readCluster k pd o pos, out)
  else (0, readOutput source k.freshBlock pd (readPos k pd o pos) n.toInt out)

/-- **`fat16_read` of a file** is `read_internal`, from its first cluster and
its position. -/
theorem OpenFd.fat16Read_eq {α : Type} (source : ℤ → ℕ → α) {k : Kernel}
    {fd : ℤ} {o : OpenInfo} {pos : Word} (h : OpenFd k fd o pos)
    (hfile : o.fatItem.type = FatItemType.file) (blockSize numBlocks : Word)
    (out : Output α) :
    fat16Read source DiskRef.primary o.privateData blockSize numBlocks out k
      = readInternal source DiskRef.primary (firstCluster o) pos.toInt
        (blockSize * numBlocks).toInt
          out k := by
  rw [fat16Read, Machine.bind_ok h.deref_privateData,
    Machine.bind_ok h.deref_item, if_neg (not_not.mpr hfile),
    Machine.bind_ok (h.readItem_entry hfile)]
  rfl

/-- **`fread` through a descriptor** is `fat16_read`. The slot is taken and the
filesystem is there, and the sizes that `fread` turns down are excluded. -/
theorem OpenFd.fread_eq {α : Type} (source : ℤ → ℕ → α) {k : Kernel} {fd : ℤ}
    {o : OpenInfo} {pos : Word} (h : OpenFd k fd o pos)
    {blockSize numBlocks : Word} (hbs : blockSize ≠ 0) (hnb : numBlocks ≠ 0)
    (out : Output α) :
    fread source out blockSize numBlocks fd k
      = fat16Read source DiskRef.primary o.privateData blockSize
        numBlocks out k := by
  obtain ⟨idx, hstruct⟩ := h.struct
  have hgo : ¬ (blockSize = 0 ∨ numBlocks = 0 ∨ fd < 0) := by
    have hfd := Int.not_lt.mpr h.nonneg
    tauto
  rw [fread, if_neg hgo, Machine.bind_ok h.getFileDescriptor, if_neg h.slot,
    Machine.bind_ok (deref_ok h.slot hstruct)]
  rfl

/-- `fat16_read`, on the private data of an open file. -/
theorem fat16Read_spec {α : Type} (source : ℤ → ℕ → α) {k : Kernel}
    {pd : FatPrivate} {fd : ℤ} {o : OpenInfo} {pos : Word} (hm : Mounted k pd)
    (hspc : clusterSizeBytes pd ≠ 0) (h : OpenFd k fd o pos)
    (hfile : o.fatItem.type = FatItemType.file) (blockSize numBlocks : Word)
    (out : Output α) :
    ∃ k', Quiet k k' ∧
      fat16Read source DiskRef.primary o.privateData blockSize numBlocks out k
        = Except.ok (readResult source k pd o pos (blockSize * numBlocks) out,
          k') := by
  obtain ⟨h₀, h₁⟩ := firstCluster_bounds o
  obtain ⟨k', hq, hread⟩ := readInternal_spec source hm hspc h₀ h₁ pos.toInt
    (blockSize * numBlocks).toInt out
  exact ⟨k', hq,
    (h.fat16Read_eq source hfile blockSize numBlocks out).trans hread⟩

/-- The result of a read through a descriptor. -/
def freadResult {α : Type} (source : ℤ → ℕ → α) (k : Kernel) (pd : FatPrivate)
    (o : OpenInfo) (pos blockSize numBlocks : Word) (out : Output α) :
    ℤ × Output α :=
  if blockSize = 0 ∨ numBlocks = 0 ∨ o.fatItem.type ≠ FatItemType.file then
    (-einval, out)
  else readResult source k pd o pos (blockSize * numBlocks) out

/-- **`fread`** returns what is at the descriptor's position, and moves
nothing but streams. -/
theorem fread_spec {α : Type} (source : ℤ → ℕ → α) {k : Kernel}
    {pd : FatPrivate} {fd : ℤ} {o : OpenInfo} {pos : Word} (hm : Mounted k pd)
    (hspc : clusterSizeBytes pd ≠ 0) (h : OpenFd k fd o pos)
    (blockSize numBlocks : Word) (out : Output α) :
    ∃ k', Quiet k k' ∧ fread source out blockSize numBlocks fd k
      = Except.ok (freadResult source k pd o pos blockSize numBlocks out,
        k') := by
  unfold freadResult
  by_cases hzero : blockSize = 0 ∨ numBlocks = 0
  · rw [fread, if_pos (by tauto), if_pos (by tauto)]
    exact ⟨k, Quiet.refl k, rfl⟩
  · rw [h.fread_eq source (fun hc => hzero (Or.inl hc))
      (fun hc => hzero (Or.inr hc))]
    by_cases hfile : o.fatItem.type = FatItemType.file
    · obtain ⟨k', hq, hread⟩ :=
        fat16Read_spec source hm hspc h hfile blockSize numBlocks out
      rw [if_neg (by tauto)]
      exact ⟨k', hq, hread⟩
    · rw [if_pos (by tauto)]
      refine ⟨k, Quiet.refl k, ?_⟩
      rw [fat16Read, Machine.bind_ok h.deref_privateData,
        Machine.bind_ok h.deref_item, if_pos hfile]
      rfl

/-! ## `fstat`

The status of a file is in its directory entry. -/

/-- The result of `fstat`. -/
def statResult (o : OpenInfo) (stat : FileStat) : ℤ × FileStat :=
  if o.fatItem.type ≠ FatItemType.file then (-einval, stat)
  else (0,
    { filesize := o.directoryItem.filesize
      flags :=
        if o.directoryItem.attributeByte.setWidth 32 &&& fileStatReadOnly ≠ 0
        then fileStatReadOnly
        else stat.flags })

/-- **`fstat`** returns what the directory entry says, and changes
nothing. -/
theorem fstat_spec {k : Kernel} {fd : ℤ} {o : OpenInfo} {pos : Word}
    (h : OpenFd k fd o pos) (stat : FileStat) :
    fstat fd stat k = Except.ok (statResult o stat, k) := by
  obtain ⟨idx, hstruct⟩ := h.struct
  rw [fstat, if_neg (Int.not_lt.mpr h.nonneg),
    Machine.bind_ok h.getFileDescriptor, if_neg h.slot,
    Machine.bind_ok (deref_ok h.slot hstruct)]
  show fat16Stat o.privateData stat k = _
  rw [fat16Stat, Machine.bind_ok h.deref_privateData,
    Machine.bind_ok h.deref_item]
  unfold statResult
  by_cases hfile : o.fatItem.type = FatItemType.file
  · rw [if_neg (not_not.mpr hfile), if_neg (not_not.mpr hfile),
      Machine.bind_ok (h.readItem_entry hfile)]
    by_cases hro : o.directoryItem.attributeByte.setWidth 32
      &&& fileStatReadOnly ≠ 0
    · rw [if_pos hro, if_pos hro]
      rfl
    · rw [if_neg hro, if_neg hro]
      rfl
  · rw [if_pos hfile, if_pos hfile]
    rfl

end File

end N00bOS
