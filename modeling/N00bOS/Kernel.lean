import Mathlib.Logic.Function.Basic
import N00bOS.Heap
import N00bOS.Machine

/-!
# The state of the kernel

The file system keeps its structures on the kernel heap. In this model the
memory of the machine is real – `mem`, with the block table of the heap in it,
allocated and freed by the functions of `N00bOS.Heap` – and what the
allocations hold is kept beside it, in one store for each C structure, so that
a function reads a structure and not its bytes. A pointer carries the machine
address, which is what `kfree` and the null test look at, and the number of the
allocation it was made by, which is what finds the structure: an address that
is handed out a second time is a new allocation, and the old pointer dangles.
What is not a structure is in `mem`: the block table, the output buffers of the
callers, the items of the root directory, whose pointer is null, and the pages
of the temporary buffers. Of these it has the zeros that `kzalloc` leaves; what
a sector buffer is then filled with goes on to the reader and is not put there.

`kzalloc` never returns null, and its callers go on with what they get. For a
buffer that is given back at once the model does so too (`KernelM.kzalloc`): on
a full heap it is the page below the heap. A structure that is kept would lie
in that page together with every other one that found no room, and what the
code does with such structures is not modelled: the program faults
(`KernelM.allocate`). It also faults where C gives no meaning to what the code
does, when a null or dangling pointer is dereferenced or a division is by zero.
The code and the static data of the kernel are not in `mem`, and neither are
the bytes of a structure. So a structure keeps what it holds as long as its
block is not handed out again, and for that the mark of the block has to stay:
the one function that writes to memory which is not its own, into the items of
the root directory, faults where it would write over the mark of a block in
use, or over the kernel (`Kernel.Spared`).

An `int` that overflows wraps around (`wrap32`), as it does in the code that
the compiler makes, and the results say where that happens. There is one disk
and one file system, so the pointers to them are enumerations; which file
systems there are, and in which order they are asked, is in
`N00bOS.Filesystems`.
-/

namespace N00bOS

/-- Why a run of the kernel stops making sense. -/
inductive Fault where
  /-- A null pointer is dereferenced. -/
  | nullDereference
  /-- A pointer to freed memory is dereferenced. -/
  | danglingDereference
  /-- An array is read or written outside its bounds. -/
  | outOfBounds
  /-- A division by zero. -/
  | divisionByZero
  /-- The heap has no run of blocks for a structure. -/
  | outOfMemory
  /-- The mark of a block in use, or the kernel itself, is written over. -/
  | overwritten
  /-- A loop does not end. -/
  | diverged
  deriving DecidableEq, Repr

/-- **A pointer**: its address, and the number of the allocation it points to.
Two pointers may have one address, when one of them dangles. -/
structure Ptr where
  /-- The machine address. -/
  addr : Word
  /-- The number of the allocation; `0` when there is none. -/
  id : ℕ
  deriving DecidableEq, Repr

namespace Ptr

/-- `nullptr`. -/
def null : Ptr := ⟨0, 0⟩

/-- `ERROR`: an error code made a pointer. -/
def error (value : ℤ) : Ptr := ⟨BitVec.ofInt 32 value, 0⟩

/-- `ERROR_I`. -/
def errorI (p : Ptr) : ℤ := p.addr.toInt

/-- `ISERR`. -/
def isErr (p : Ptr) : Bool := p.addr.toInt < 0

end Ptr

/-- The value of an `int` after an operation that may overflow: the number
between `-2 ^ 31` and `2 ^ 31 - 1` that is the same modulo `2 ^ 32`. -/
def wrap32 (n : ℤ) : ℤ := n.bmod (2 ^ 32)

/-- `disk*`: there is one disk. -/
inductive DiskRef where
  | null
  | primary
  deriving DecidableEq, Repr

/-- `filesystem*`: there is one filesystem. -/
inductive FilesystemRef where
  | null
  | fat16
  deriving DecidableEq, Repr

/-- `disk`: what of it changes. -/
structure Disk where
  /-- The filesystem mounted. -/
  fs : FilesystemRef
  /-- The filesystem's own data. -/
  fsPrivateData : Ptr

/-- `disk_stream`. -/
structure DiskStream where
  /-- The byte position. -/
  pos : ℤ
  /-- The disk. -/
  d : DiskRef

/-- `fat_header`, the fields that are read, and the signature of the
extended header. -/
structure FatHeader where
  /-- `sectors_per_cluster`. -/
  sectorsPerCluster : BitVec 8
  /-- `reserved_sectors`. -/
  reservedSectors : BitVec 16
  /-- `fat_copies`. -/
  fatCopies : BitVec 8
  /-- `root_dir_entries`. -/
  rootDirEntries : BitVec 16
  /-- `sectors_per_fat`. -/
  sectorsPerFat : BitVec 16
  /-- `shared.extender_header.signature`. -/
  signature : BitVec 8
  deriving DecidableEq

/-- `fat_directory_item`: its 32 bytes, as they are on disk. -/
abbrev FatDirectoryItem := Fin 32 → Byte

namespace FatDirectoryItem

/-- The bytes are counted from `0`. -/
instance : NeZero 32 := ⟨by decide⟩

variable (item : FatDirectoryItem)

/-- `filename`. -/
def filename :
    List Byte := (List.finRange 8).map fun i => item (i.castLE (by decide))

/-- `ext`. -/
def ext : List Byte :=
  (List.finRange 3).map fun i => item ((i.natAdd 8).castLE (by decide))

/-- `attribute`. -/
def attributeByte : Byte := item 11

/-- `hi_16bits_first_cluster`. -/
def hi16BitsFirstCluster : BitVec 16 := item 21 ++ item 20

/-- `lo_16bits_first_cluster`. -/
def lo16BitsFirstCluster : BitVec 16 := item 27 ++ item 26

/-- `filesize`. -/
def filesize : Word := item 31 ++ item 30 ++ item 29 ++ item 28

end FatDirectoryItem

/-- The `fat_directory_item` at an address. -/
def loadItem (m : Memory) (addr : Word) : FatDirectoryItem :=
  fun j => m (Memory.offset addr j)

/-- A `fat_directory_item` stored at an address. -/
def storeItem (m : Memory) (addr : Word) (item : FatDirectoryItem) : Memory :=
  fun x =>
  if h : (x - addr).toNat < 32 then item ⟨(x - addr).toNat, h⟩ else m x

/-- What was stored is loaded. -/
theorem loadItem_storeItem (m : Memory) (addr : Word)
    (item : FatDirectoryItem) :
    loadItem (storeItem m addr item) addr = item := by
  funext j
  have hj := j.isLt
  have hoffset : (Memory.offset addr j - addr).toNat = j := by
    unfold Memory.offset
    bv_omega
  have hin : (Memory.offset addr j - addr).toNat < 32 := by omega
  rw [loadItem, storeItem, dif_pos hin]
  exact congrArg item (Fin.ext hoffset)

/-- Every other byte is as it was. -/
theorem storeItem_of_notMem {m : Memory} {addr x : Word}
    {item : FatDirectoryItem} (hend : addr.toNat + 32 ≤ 2 ^ 32)
    (h : x.toNat < addr.toNat ∨ addr.toNat + 32 ≤ x.toNat) :
    storeItem m addr item x = m x := by
  refine dif_neg ?_
  bv_omega

/-- `fat_directory`. -/
structure FatDirectory where
  /-- The items, an array. -/
  item : Ptr
  /-- How many there are. -/
  total : ℤ
  /-- The first sector (of the root directory). -/
  sectorPos : ℤ
  /-- The sector after the last (of the root directory). -/
  sectorPosEnd : ℤ

/-- `fat_item_type`. -/
inductive FatItemType where
  | directory
  | file
  deriving DecidableEq, Repr

/-- `fat_item`. -/
structure FatItem where
  /-- The union of `directory_item` and `directory`. -/
  entry : Ptr
  /-- Which of the two it is. -/
  type : FatItemType
  deriving DecidableEq

/-- `fat_item_descriptor`. -/
structure FatItemDescriptor where
  /-- The item that is open. -/
  item : Ptr
  /-- The position in it. -/
  pos : Word
  deriving DecidableEq

/-- `fat_private`. Its three streams are allocations of their own, and the root
directory is a part of it. -/
structure FatPrivate where
  /-- The header. -/
  header : FatHeader
  /-- The root directory. -/
  rootDirectory : FatDirectory
  /-- `cluster_read_stream`. -/
  clusterReadStream : Ptr
  /-- `fat_read_stream`. -/
  fatReadStream : Ptr
  /-- `directory_read_stream`. -/
  directoryReadStream : Ptr

/-- `file_descriptor`. -/
structure FileDescriptor where
  /-- The slot it is in. -/
  index : ℤ
  /-- The filesystem. -/
  fs : FilesystemRef
  /-- What the filesystem's `open` returned. -/
  privateData : Ptr
  /-- The disk. -/
  d : DiskRef

/-- `path_part`. The list that `next` links is a list here. -/
structure PathPart where
  /-- The allocation of the part itself. -/
  self : Ptr
  /-- Its name. -/
  partName : Ptr

/-- `path_root`. -/
structure PathRoot where
  /-- The drive. -/
  driveNumber : ℤ
  /-- The parts, in order. -/
  path : List PathPart

/-- `file_stat`. -/
structure FileStat where
  /-- `flags`. -/
  flags : Word
  /-- `filesize`. -/
  filesize : Word
  deriving DecidableEq

/-- **The state**: heap, disk, descriptor table, and what each live
allocation holds. -/
structure Kernel where
  /-- The heap structure. -/
  heap : Heap
  /-- The memory. -/
  mem : Memory
  /-- The number of the next allocation. -/
  nextId : ℕ
  /-- What `ata::read_sector` delivers for a sector. -/
  sectors : ℤ → ℕ → Byte
  /-- `primary_disk`. -/
  disk : Disk
  /-- `file_descriptors`. -/
  fileDescriptors : ℕ → Ptr
  /-- The live `disk_stream`s. -/
  diskStreams : ℕ → Option DiskStream
  /-- The live `fat_private`s. -/
  fatPrivates : ℕ → Option FatPrivate
  /-- The live `fat_directory`s. -/
  fatDirectories : ℕ → Option FatDirectory
  /-- The live arrays of `fat_directory_item`. -/
  itemArrays : ℕ → Option (List FatDirectoryItem)
  /-- The live `fat_item`s. -/
  fatItems : ℕ → Option FatItem
  /-- The live `fat_item_descriptor`s. -/
  fatItemDescriptors : ℕ → Option FatItemDescriptor
  /-- The live `file_descriptor`s. -/
  fileDescriptorStructs : ℕ → Option FileDescriptor
  /-- The live `path_root`s. -/
  pathRoots : ℕ → Option PathRoot
  /-- The live strings, without their terminator. -/
  strings : ℕ → Option (List Byte)

/-- **A program of the kernel.** It goes from state to state and returns a
value, or it ends in a fault, after which nothing is said of the state. -/
abbrev KernelM := Machine Fault Kernel

namespace KernelM

/-- Read a structure through a pointer. -/
def deref {T : Type} (store : Kernel → ℕ → Option T) (p : Ptr) : KernelM T :=
  fun k =>
  if p.addr = 0 then Except.error Fault.nullDereference
  else
    match store k p.id with
    | some v => Except.ok (v, k)
    | none => Except.error Fault.danglingDereference

/-- Read the disk structure through a pointer. -/
def derefDisk : DiskRef → KernelM Disk
  | DiskRef.null => Machine.fault Fault.nullDereference
  | DiskRef.primary => fun k => Except.ok (k.disk, k)

/-- `kzalloc`, for a buffer that is given back at once: the address. Where no
run of blocks is free, it is what the failed search leads to. -/
def kzalloc (size : Word) : KernelM Word := fun k =>
  match k.heap.kzalloc k.mem size with
  | some (p, m) => Except.ok (p, { k with mem := m })
  | none => Except.error Fault.diverged

/-- `kzalloc`, for a buffer that is kept: the address. -/
def allocateBuffer (size : Word) : KernelM Word := fun k =>
  match k.heap.kzallocFit k.mem size with
  | some (p, m) => Except.ok (p, { k with mem := m })
  | none => Except.error Fault.outOfMemory

/-- `kzalloc`, for a structure: a pointer with a number of its own. Where no
run of blocks is free, the structure would share its page with others, and the
program faults. -/
def allocate (size : Word) : KernelM Ptr := fun k =>
  match k.heap.kzallocFit k.mem size with
  | some (p, m) =>
    Except.ok (⟨p, k.nextId⟩, { k with mem := m, nextId := k.nextId + 1 })
  | none => Except.error Fault.outOfMemory

/-- `kfree`: what it does to the table. -/
def kfree (ptr : Word) : KernelM Unit :=
  modify fun k => { k with mem := k.heap.kfree k.mem ptr }

end KernelM

/-- Where the kernel is loaded to. -/
def kernelAddress : Word := 0x0100000

/-- **A mark of the heap table stays what it is** when a byte is written over
it: a block that is in use stays in use, and gets no link to the next one. What
a free block is marked with does not matter. -/
def MarkStays (mark byte : Byte) : Prop :=
  getEntryType mark = heapBlockTableEntryFree
    ∨ getEntryType byte ≠ heapBlockTableEntryFree
      ∧ (mark &&& heapBlockHasNext = 0 → byte &&& heapBlockHasNext = 0)

instance (mark byte : Byte) : Decidable (MarkStays mark byte) :=
  inferInstanceAs (Decidable (_ ∨ _ ∧ (_ → _)))

/-- **What is in use is spared** when an item is stored at an address: the item
lies below the kernel, and each byte of it that lies in the heap table leaves
the mark that it is written over what it is. -/
def Kernel.Spared (k : Kernel) (addr : Word) (item : FatDirectoryItem) : Prop :=
  addr.toNat + 32 ≤ kernelAddress.toNat
    ∧ ∀ j : Fin 32, (Memory.offset addr j - k.heap.table.entries).toNat
        < k.heap.total → MarkStays (k.mem (Memory.offset addr j)) (item j)

instance (k : Kernel) (addr : Word) (item : FatDirectoryItem) :
    Decidable (k.Spared addr item) :=
  inferInstanceAs (Decidable (_ ∧ ∀ _ : Fin 32, _ → _))

/-! ## The structures by number

One way to put a structure into an allocation, or to take it out, for each
store. Reading is `deref`. -/

namespace Kernel

variable (k : Kernel) (id : ℕ)

/-- Put a `disk_stream` in an allocation, or take it out. -/
def setDiskStream (v : Option DiskStream) : Kernel :=
  { k with diskStreams := Function.update k.diskStreams id v }

/-- Put a `fat_private` in an allocation, or take it out. -/
def setFatPrivate (v : Option FatPrivate) : Kernel :=
  { k with fatPrivates := Function.update k.fatPrivates id v }

/-- Put a `fat_directory` in an allocation, or take it out. -/
def setFatDirectory (v : Option FatDirectory) : Kernel :=
  { k with fatDirectories := Function.update k.fatDirectories id v }

/-- Put an array of items in an allocation, or take it out. -/
def setItemArray (v : Option (List FatDirectoryItem)) : Kernel :=
  { k with itemArrays := Function.update k.itemArrays id v }

/-- Put a `fat_item` in an allocation, or take it out. -/
def setFatItem (v : Option FatItem) : Kernel :=
  { k with fatItems := Function.update k.fatItems id v }

/-- Put a `fat_item_descriptor` in an allocation, or take it out. -/
def setFatItemDescriptor (v : Option FatItemDescriptor) : Kernel :=
  { k with fatItemDescriptors := Function.update k.fatItemDescriptors id v }

@[simp] theorem fatItemDescriptors_setFatItemDescriptor
    (v : Option FatItemDescriptor) :
    (k.setFatItemDescriptor id v).fatItemDescriptors
      = Function.update k.fatItemDescriptors id v :=
  rfl

/-- Put a `file_descriptor` in an allocation, or take it out. -/
def setFileDescriptor (v : Option FileDescriptor) : Kernel :=
  { k with
    fileDescriptorStructs := Function.update k.fileDescriptorStructs id v }

/-- Put a `path_root` in an allocation, or take it out. -/
def setPathRoot (v : Option PathRoot) : Kernel :=
  { k with pathRoots := Function.update k.pathRoots id v }

/-- Put a string in an allocation, or take it out. -/
def setString (v : Option (List Byte)) : Kernel :=
  { k with strings := Function.update k.strings id v }

end Kernel

end N00bOS
