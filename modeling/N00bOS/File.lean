import N00bOS.Fat16
import N00bOS.PathParser

/-!
# Files

`fs/file.cpp`: the descriptor table, the five file calls over it, and the
search for the filesystem of a disk. A descriptor is the index of a slot; the
slot points to a `file_descriptor`, which has the filesystem and its private
data. The calls look the descriptor up and call through the filesystem's
functions, which are those of `N00bOS.Fat16`.

Nothing in the source ever empties a slot: `fclose` frees the structure and
leaves the pointer. The model does so too, and the pointer then dangles.
-/

namespace N00bOS

open KernelM

namespace File

open Fat16

/-- `FS_MAX_FILE_DESCRIPTORS`. -/
def fsMaxFileDescriptors : ℕ := 512

/-- `get_file_descriptor`. -/
def getFileDescriptor (fd : ℤ) : KernelM Ptr := do
  if fd < 0 ∨ fd ≥ fsMaxFileDescriptors then
    return Ptr.null
  let k ← get
  return k.fileDescriptors fd.toNat

/-- The first slot that is free. -/
def freeSlot (table : ℕ → Ptr) : Option ℕ :=
  (List.range fsMaxFileDescriptors).find? fun idx => (table idx).addr = 0

/-- `new_file_descriptor`: the descriptor, or the error. -/
def newFileDescriptor : KernelM (Except ℤ Ptr) := do
  let k ← get
  match freeSlot k.fileDescriptors with
  | some idx =>
    let descriptor ← allocate 16
    modify fun k => k.setFileDescriptor descriptor.id
      (some ⟨idx, FilesystemRef.null, Ptr.null, DiskRef.null⟩)
    modify fun k =>
      { k with
        fileDescriptors := Function.update k.fileDescriptors idx descriptor }
    return Except.ok descriptor
  | none => return Except.error (-enomem)

/-- `str_2_filemode`. -/
def str2Filemode (str : List Byte) : FileMode :=
  if strncmp str [0x72#8] 1 = 0 then FileMode.read
  else if strncmp str [0x77#8] 1 = 0 then FileMode.write
  else if strncmp str [0x61#8] 1 = 0 then FileMode.append
  else FileMode.invalid

/-- `fopen`. -/
def fopen (filename mode : List Byte) : KernelM ℤ := do
  let rootPath ← PathParser.parse filename
  -- valid root path parsed?
  if rootPath.addr = 0 then
    return -einval
  let root ← deref Kernel.pathRoots rootPath
  if root.path = [] then
    return -einval
  let disk := diskGet root.driveNumber
  -- disk exists?
  if disk = DiskRef.null then
    return -eio
  let d ← derefDisk disk
  if d.fs = FilesystemRef.null then
    return -eio
  let filemode := str2Filemode mode
  if filemode = FileMode.invalid then
    return -einval
  -- now open on the filesystem
  let descriptorPrivateData ← fat16Open disk root.path filemode
  if descriptorPrivateData.isErr then
    return descriptorPrivateData.errorI
  -- setup filedescriptor for the file
  match ← newFileDescriptor with
  | Except.error result => return result
  | Except.ok descriptor =>
    let desc ← deref Kernel.fileDescriptorStructs descriptor
    modify fun k => k.setFileDescriptor descriptor.id
      (some ⟨desc.index, d.fs, descriptorPrivateData, disk⟩)
    return desc.index

/-- The `fs` of a descriptor, which is called through. -/
def filesystemOf (desc : FileDescriptor) : KernelM Unit :=
  if desc.fs = FilesystemRef.null then Machine.fault Fault.nullDereference
    else return

/-- `fread`: the status and the data. -/
def fread {α : Type} (source : ℤ → ℕ → α) (data : Output α)
    (blockSize numBlocks : Word) (fd : ℤ) : KernelM (ℤ × Output α) := do
  if blockSize = 0 ∨ numBlocks = 0 ∨ fd < 0 then
    return (-einval, data)
  let fileDesc ← getFileDescriptor fd
  if fileDesc.addr = 0 then
    return (-einval, data)
  let desc ← deref Kernel.fileDescriptorStructs fileDesc
  filesystemOf desc
  fat16Read source desc.d desc.privateData blockSize numBlocks data

/-- `fseek`. -/
def fseek (fd offset : ℤ) (whence : FileSeekMode) : KernelM ℤ := do
  if fd < 0 then
    return -einval
  let fileDesc ← getFileDescriptor fd
  if fileDesc.addr = 0 then
    return -einval
  let desc ← deref Kernel.fileDescriptorStructs fileDesc
  filesystemOf desc
  fat16Seek desc.privateData offset whence

/-- `fstat`: the status and the `file_stat`. -/
def fstat (fd : ℤ) (stat : FileStat) : KernelM (ℤ × FileStat) := do
  if fd < 0 then
    return (-einval, stat)
  let fileDesc ← getFileDescriptor fd
  if fileDesc.addr = 0 then
    return (-einval, stat)
  let desc ← deref Kernel.fileDescriptorStructs fileDesc
  filesystemOf desc
  fat16Stat desc.privateData stat

/-- `fclose`. -/
def fclose (fd : ℤ) : KernelM ℤ := do
  if fd < 0 then
    return -einval
  let fileDesc ← getFileDescriptor fd
  if fileDesc.addr = 0 then
    return -einval
  let desc ← deref Kernel.fileDescriptorStructs fileDesc
  filesystemOf desc
  fat16Close desc.privateData

/-- `resolve`, over the table of filesystems. A filesystem is called through
its `resolve`. -/
def resolve {F : Type} (resolveOf : F → DiskRef → KernelM ℤ) (d : DiskRef) :
    List (Option F) → KernelM (Option F)
  | [] => return none
  | none :: filesystems => resolve resolveOf d filesystems
  | some filesystem :: filesystems => do
    let result ← resolveOf filesystem d
    if result = 0 then
      return some filesystem
    resolve resolveOf d filesystems

end File

end N00bOS
