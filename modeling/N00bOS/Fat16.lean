import N00bOS.DiskStreamer
import N00bOS.Libc

/-!
# The FAT16 file system

`fs/fat/fat16.cpp`: positions on the volume, the walk of the FAT, the reading
loop, the two directory loaders, the lookup of names and paths, the operations
on open files, and mounting. Every function of the file is here under its own
name, in the order of the source, with the branches that return an error.

The root directory's array of items is never allocated: its pointer is null,
and the items are written to the memory from address `0` on, the first
`lowItemsCapacity` of them below the heap table and the others over it. An item
that would make a block in use look free, or lie over the kernel, is a fault
(`writeItem`). What a structure is read into is a local output buffer, which
becomes the structure with the values that the bytes have in memory
(`Fetched.value`).

Loops have a bound: the number of items or links that are left, or the number
of bytes to read. Only the scan of a directory has none in the source. Its
positions are `int`s and repeat, so a scan that has not ended after all of them
never ends (`countItems`).

`get_item` is given its lookup of a component as a parameter (`getItemWith`),
and is then applied to the lookup of the file: what is proved of the walk over
the parts of a path holds for every lookup.
-/

namespace N00bOS

open KernelM

namespace Fat16

/-- `FAT16_SIGNATURE`. -/
def fat16Signature : BitVec 8 := 0x29#8

/-- `FAT16_FAT_ENTRY_SIZE`. -/
def fat16FatEntrySize : ℤ := 0x02

/-- `FAT16_FAT_RESERVED_CLUSTER_START`. -/
def fat16FatReservedClusterStart : ℤ := 0xFFF0

/-- `FAT16_FAT_RESERVED_CLUSTER_END`. -/
def fat16FatReservedClusterEnd : ℤ := 0xFFF6

/-- `FAT16_FAT_BAD_SECTOR`. -/
def fat16FatBadSector : ℤ := 0xFFF7

/-- `FAT16_FAT_LAST_CLUSTER_IN_FILE_START`. -/
def fat16FatLastClusterInFileStart : ℤ := 0xFFF8

/-- `FAT16_FAT_LAST_CLUSTER_IN_FILE_END`. -/
def fat16FatLastClusterInFileEnd : ℤ := 0xFFFF

/-- `FAT16_UNUSED`. -/
def fat16Unused : ℤ := 0x00

/-- `FAT_FILE_SUBDIRECTORY`. -/
def fatFileSubdirectory : Byte := 0x10#8

/-- `sizeof(fat_directory_item)`. -/
def directoryItemSize : ℤ := 32

/-- How many items there is room for below the heap table. -/
def lowItemsCapacity : ℕ := 1008

example : lowItemsCapacity * directoryItemSize = heapTableAddress.toInt := by
  decide

/-- The `fat_directory_item` at index `idx` of an output buffer. -/
def itemOf (m : Memory) (out : Output Byte) (idx : ℕ) : FatDirectoryItem :=
  fun j => (out (32 * idx + j)).value m

/-- A buffer of zeros. -/
def zeroOutput : Output Byte := fun _ => Fetched.sector 0

/-- `d->fs_private_data`. -/
def privateData (d : DiskRef) : KernelM FatPrivate := do
  let disk ← derefDisk d
  deref Kernel.fatPrivates disk.fsPrivateData

/-- `directory->item[idx]`. -/
def readItem (item : Ptr) (idx : ℕ) : KernelM FatDirectoryItem := do
  if item.addr = 0 then
    let k ← get
    return loadItem k.mem (item.addr + BitVec.ofNat 32 (32 * idx))
  else
    let items ← deref Kernel.itemArrays item
    match items[idx]? with
    | some directoryItem => return directoryItem
    | none => Machine.fault Fault.outOfBounds

/-- `directory->item[idx] = directoryItem`. -/
def writeItem (item : Ptr) (idx : ℕ) (directoryItem : FatDirectoryItem) :
    KernelM Unit := do
  if item.addr = 0 then
    let addr := item.addr + BitVec.ofNat 32 (32 * idx)
    let k ← get
    if k.Spared addr directoryItem then
      modify fun k => { k with mem := storeItem k.mem addr directoryItem }
    else Machine.fault Fault.overwritten
  else
    let items ← deref Kernel.itemArrays item
    if idx < items.length then
      modify fun k => k.setItemArray item.id
        (some (items.set idx directoryItem))
    else Machine.fault Fault.outOfBounds

/-- `clone_directory_item`, of one item. -/
def cloneDirectoryItem (directoryItem : FatDirectoryItem) : KernelM Ptr := do
  let copy ← allocate 32
  modify fun k => k.setItemArray copy.id (some [directoryItem])
  return copy

/-- The `fat_directory_item` that a read has put into a local variable. -/
def localItem (out : Output Byte) : KernelM FatDirectoryItem := do
  let k ← get
  return itemOf k.mem out 0

/-- `directory->item[num_items] = *clone_directory_item(&item)`, if a
directory is provided. The clone is read at once, and never given back. -/
def populateItem (directory : Option FatDirectory) (numItems : ℕ)
    (item : FatDirectoryItem) :
    KernelM Unit :=
  match directory with
  | some directory => do
    let _ ← kzalloc 32
    writeItem directory.item numItems item
  | none => return

/-- The loop of `get_directory_total_items`: the count, or the error. A
stream position repeats after `2 ^ 27` items, so a scan that has not ended
by then never ends. -/
def countItems (directoryStream : Ptr) (directory : Option FatDirectory) :
    ℕ → ℕ → KernelM ℤ
  | 0, _ => Machine.fault Fault.diverged
  | rounds + 1, numItems => do
    let k ← get
    let (result, out) ←
      Streamer.read k.sectors directoryStream zeroOutput directoryItemSize
    if result ≠ 0 then
      return result
    let item ← localItem out
    if item 0 = 0x00#8 then
      -- no filename so not populated
      return numItems
    if item 0 = 0xE5#8 then
      -- item is unused so do not count it
      countItems directoryStream directory rounds numItems
    else
      populateItem directory numItems item
      countItems directoryStream directory rounds (numItems + 1)

/-- `get_directory_total_items`. -/
def getDirectoryTotalItems (d : DiskRef) (directoryStartSector : Word)
    (directory : Option FatDirectory) : KernelM ℤ := do
  let privateData ← privateData d
  let directoryStartPos := directoryStartSector * BitVec.ofInt 32 sectorSize
  let directoryStream := privateData.directoryReadStream
  let result ← Streamer.seek directoryStream directoryStartPos.toInt
  if result ≠ 0 then
    return result
  countItems directoryStream directory (2 ^ 27) 0

/-- `get_fat_entry`. -/
def getFatEntry (d : DiskRef) (cluster : ℤ) : KernelM ℤ := do
  let privateData ← privateData d
  let fatStream := privateData.fatReadStream
  if fatStream.addr = 0 then
    return -1
  -- first FAT sector starts after the reserved sectors
  let firstFatSector : ℤ := privateData.header.reservedSectors.toNat
  let fatTablePos := wrap32 (firstFatSector * sectorSize)
  let res ← Streamer.seek fatStream
    (wrap32 (fatTablePos + wrap32 (cluster * fat16FatEntrySize)))
  if res < 0 then
    return res
  let k ← get
  let (res, out) ← Streamer.read k.sectors fatStream zeroOutput 2
  if res < 0 then
    return res
  let k ← get
  return (((out 0).value k.mem).toNat : ℤ) + 256 * ((out 1).value k.mem).toNat

/-- `get_first_cluster`. -/
def getFirstCluster (directoryItem : FatDirectoryItem) : Word :=
  (directoryItem.hi16BitsFirstCluster
    ||| directoryItem.lo16BitsFirstCluster).setWidth 32

/-- The loop of `get_cluster`, over the `left` links that remain. -/
def walkClusters (d : DiskRef) : ℕ → ℤ → KernelM ℤ
  | 0, cluster => return cluster
  | left + 1, cluster => do
    let fatEntry ← getFatEntry d cluster
    if fatEntry < 0 then
      return fatEntry
    if fat16FatLastClusterInFileStart ≤ fatEntry
      ∧ fatEntry ≤ fat16FatLastClusterInFileEnd then
      return -eio
    if fatEntry = fat16FatBadSector then
      return -eio
    if fat16FatReservedClusterStart ≤ fatEntry
      ∧ fatEntry ≤ fat16FatReservedClusterEnd then
      return -eio
    if fatEntry = fat16Unused then
      return -eio
    walkClusters d left fatEntry

/-- `sectors_per_cluster * sector_size`. -/
def clusterSizeBytes (privateData : FatPrivate) : ℤ :=
  privateData.header.sectorsPerCluster.toNat * sectorSize

/-- `get_cluster`. -/
def getCluster (d : DiskRef) (startingCluster offset : ℤ) : KernelM ℤ := do
  let privateData ← privateData d
  if clusterSizeBytes privateData = 0 then
    Machine.fault Fault.divisionByZero
  let clusterOffset := offset.tdiv (clusterSizeBytes privateData)
  walkClusters d clusterOffset.toNat startingCluster

/-- `cluster_to_sector`. -/
def clusterToSector (privateData : FatPrivate) (cluster : ℤ) : ℤ :=
  wrap32 (privateData.rootDirectory.sectorPosEnd
    + wrap32 (wrap32 (cluster - 2)
      * privateData.header.sectorsPerCluster.toNat))

/-- The loop of `read_internal_from_stream`: the status and the output. Each
round reads at least one byte, so `totalBytes` rounds are enough. -/
def readChunks {α : Type} (source : ℤ → ℕ → α) (d : DiskRef) (stream : Ptr)
    (privateData : FatPrivate) (startingCluster offset totalBytes : ℤ) :
    ℕ → ℤ → ℤ → Output α → KernelM (ℤ × Output α)
  | 0, _, _, _ => Machine.fault Fault.diverged
  | rounds + 1, bytesRead, res, out =>
    if bytesRead < totalBytes then do
      let cluster ← getCluster d startingCluster offset
      if cluster < 0 then
        return (cluster, out)
      let offsetFromCluster := offset.tmod (clusterSizeBytes privateData)
      let startingSector := clusterToSector privateData cluster
      let startingPos :=
        wrap32 (wrap32 (startingSector * sectorSize) + offsetFromCluster)
      let bytesRemaining := totalBytes - bytesRead
      let totalToRead :=
        if bytesRemaining > clusterSizeBytes privateData then
          clusterSizeBytes privateData
        else bytesRemaining
      let res ← Streamer.seek stream startingPos
      if res < 0 then
        return (res, out)
      let (res, out) ← Streamer.read source stream out totalToRead
      if res < 0 then
        return (res, out)
      readChunks source d stream privateData startingCluster offset
        totalBytes rounds
        (bytesRead + totalToRead) res out
    else return (res, out)

/-- `read_internal_from_stream`. -/
def readInternalFromStream {α : Type} (source : ℤ → ℕ → α) (d : DiskRef)
    (stream : Ptr) (startingCluster offset totalBytes : ℤ) (out : Output α) :
    KernelM (ℤ × Output α) := do
  let privateData ← privateData d
  readChunks source d stream privateData startingCluster offset totalBytes
    (totalBytes.toNat + 1) 0 0 out

/-- `read_internal`. -/
def readInternal {α : Type} (source : ℤ → ℕ → α) (d : DiskRef)
    (startingCluster offset totalBytes : ℤ) (out : Output α) :
    KernelM (ℤ × Output α) := do
  let privateData ← privateData d
  let clusterStream := privateData.clusterReadStream
  readInternalFromStream source d clusterStream startingCluster offset
    totalBytes out

/-! ## Directories and items

Structures that are allocated, cloned and given back. A directory has its items
in an array, and an item that is a directory has that directory. -/

/-- `kfree(&directory->item[idx])`. Only the first item is where an
allocation starts. -/
def kfreeItem (item : Ptr) (idx : ℕ) : KernelM Unit := do
  kfree (item.addr + BitVec.ofNat 32 (32 * idx))
  if idx = 0 then
    modify fun k => k.setItemArray item.id none

/-- The loop of `directory_free`, over the `left` items from `idx` on. -/
def freeItems (item : Ptr) : ℕ → ℕ → KernelM Unit
  | 0, _ => return
  | left + 1, idx => do
    if item.addr + BitVec.ofNat 32 (32 * idx) ≠ 0 then
      kfreeItem item idx
    freeItems item left (idx + 1)

/-- `directory_free`. -/
def directoryFree (directory : Ptr) : KernelM Unit := do
  if directory.addr ≠ 0 then
    let dir ← deref Kernel.fatDirectories directory
    freeItems dir.item dir.total.toNat 0
    kfree directory.addr
    modify fun k => k.setFatDirectory directory.id none

/-- `item_free`. -/
def itemFree (item : Ptr) : KernelM Unit := do
  let i ← deref Kernel.fatItems item
  match i.type with
  | FatItemType.directory => directoryFree i.entry
  | FatItemType.file =>
    kfree i.entry.addr
    modify fun k => k.setItemArray i.entry.id none
  kfree item.addr
  modify fun k => k.setFatItem item.id none

/-- `item_descriptor_free`. -/
def itemDescriptorFree (itemDesc : Ptr) : KernelM Unit := do
  let desc ← deref Kernel.fatItemDescriptors itemDesc
  itemFree desc.item
  kfree itemDesc.addr
  modify fun k => k.setFatItemDescriptor itemDesc.id none

/-- The items of an output buffer. -/
def itemsOf (m : Memory) (out : Output Byte) (total : ℕ) :
    List FatDirectoryItem :=
  (List.range total).map (itemOf m out)

/-- `load_directory`. -/
def loadDirectory (d : DiskRef) (directoryItem : FatDirectoryItem) :
    KernelM Ptr := do
  if directoryItem.attributeByte &&& fatFileSubdirectory = 0 then
    return Ptr.null
  let privateData ← privateData d
  let directory ← allocate 16
  modify fun k => k.setFatDirectory directory.id (some ⟨Ptr.null, 0, 0, 0⟩)
  let cluster := getFirstCluster directoryItem
  let sector := clusterToSector privateData cluster.toInt
  -- We are not loading the items in here hence 'nullptr'
  let totalItems ← getDirectoryTotalItems d (BitVec.ofInt 32 sector) none
  let directorySize := BitVec.ofInt 32 (totalItems * directoryItemSize)
  let items ← allocate directorySize
  modify fun k => k.setItemArray items.id
    (some (List.replicate (directorySize.toNat / 32) fun _ => 0))
  modify fun k => k.setFatDirectory directory.id
    (some ⟨items, totalItems, 0, 0⟩)
  let k ← get
  let (res, out) ← readInternal k.sectors d cluster.toInt 0x00
    directorySize.toInt zeroOutput
  if res < 0 then
    directoryFree directory
    return Ptr.null
  let k ← get
  let loaded := itemsOf k.mem out (directorySize.toNat / 32)
  modify fun k => k.setItemArray items.id (some loaded)
  return directory

/-- `new_item`. -/
def newItem (d : DiskRef) (directoryItem : FatDirectoryItem) : KernelM Ptr := do
  let item ← allocate 8
  modify fun k => k.setFatItem item.id (some ⟨Ptr.null, FatItemType.directory⟩)
  if directoryItem.attributeByte &&& fatFileSubdirectory ≠ 0 then
    -- this is a directory
    let directory ← loadDirectory d directoryItem
    modify fun k => k.setFatItem item.id
      (some ⟨directory, FatItemType.directory⟩)
    return item
  -- this is a file
  let copy ← cloneDirectoryItem directoryItem
  modify fun k => k.setFatItem item.id (some ⟨copy, FatItemType.file⟩)
  return item

/-- `get_space_terminated_string`, into a zeroed buffer. -/
def getSpaceTerminatedString (str : List Byte) : List Byte :=
  str.takeWhile fun c => c ≠ 0x00#8 ∧ c ≠ 0x20#8

/-- `get_filename`. -/
def getFilename (directoryItem : FatDirectoryItem) : List Byte :=
  getSpaceTerminatedString directoryItem.filename ++
    (if directoryItem 8 ≠ 0x00#8 ∧ directoryItem 8 ≠ 0x20#8 then
      0x2E#8 :: getSpaceTerminatedString directoryItem.ext
    else [])

/-- The loop of `find_item_in_directory`, over the `left` items from
`itemIdx` on. -/
def findFromItem (d : DiskRef) (directory : FatDirectory) (name : Ptr) :
    ℕ → ℕ → KernelM Ptr
  | 0, _ => return Ptr.null
  | left + 1, itemIdx => do
    let directoryItem ← readItem directory.item itemIdx
    let partName ← deref Kernel.strings name
    if strcasecmp (getFilename directoryItem) partName = 0 then
      newItem d directoryItem
    else
      findFromItem d directory name left (itemIdx + 1)

/-- `find_item_in_directory`. -/
def findItemInDirectory (d : DiskRef) (directory : FatDirectory) (name : Ptr) :
    KernelM Ptr :=
  findFromItem d directory name directory.total.toNat 0

/-- The loop of `get_item`, with the lookup of a component given. -/
def walkPath (find : FatDirectory → Ptr → KernelM Ptr) :
    Ptr → List PathPart → KernelM Ptr
  | currentItem, [] => return currentItem
  | currentItem, nextPart :: rest => do
    let current ← deref Kernel.fatItems currentItem
    if current.type ≠ FatItemType.directory then
      -- e.g. we were searching for c.txt in /a/b/c.txt but a or b turned out
      -- not to be directories to traverse
      return Ptr.null
    -- the lookup starts by reading `directory->total`
    let directory ← deref Kernel.fatDirectories current.entry
    let tmpItem ← find directory nextPart.partName
    itemFree currentItem
    walkPath find tmpItem rest

/-- `get_item`, with the lookup of a component given. -/
def getItemWith (find : FatDirectory → Ptr → KernelM Ptr) (d : DiskRef) :
    List PathPart → KernelM Ptr
  | [] => Machine.fault Fault.nullDereference
  | part :: rest => do
    let privateData ← privateData d
    -- first get the root directory item
    let rootItem ← find privateData.rootDirectory part.partName
    if rootItem.addr = 0 then
      return Ptr.null
    walkPath find rootItem rest

/-- `get_item`. -/
def getItem (d : DiskRef) (path : List PathPart) : KernelM Ptr :=
  getItemWith (findItemInDirectory d) d path

/-- `get_root_directory`. The directory it fills in is the one in the
private data. -/
def getRootDirectory (d : DiskRef) (privateDataPtr : Ptr) : KernelM ℤ := do
  let privateData ← deref Kernel.fatPrivates privateDataPtr
  let primaryHeader := privateData.header
  -- directories and files i.e. data starts after the FAT metadata
  let rootDirSectorPos : ℤ :=
    primaryHeader.fatCopies.toNat * primaryHeader.sectorsPerFat.toNat
      + primaryHeader.reservedSectors.toNat
  let rootDirSize : Word := primaryHeader.rootDirEntries.setWidth 32 * 32#32
  let directoryTotalItems ← getDirectoryTotalItems d
    (BitVec.ofInt 32 rootDirSectorPos)
    (some privateData.rootDirectory)
  if directoryTotalItems < 0 then
    return directoryTotalItems
  -- set the sectory offsets
  let sectorPosEnd :=
    (BitVec.ofInt 32 rootDirSectorPos + rootDirSize
      / BitVec.ofInt 32 sectorSize).toInt
  let privateData ← deref Kernel.fatPrivates privateDataPtr
  modify fun k => k.setFatPrivate privateDataPtr.id (some { privateData with
    rootDirectory := { privateData.rootDirectory with
      total := directoryTotalItems
      sectorPos := rootDirSectorPos
      sectorPosEnd := sectorPosEnd } })
  return 0

/-! ## The file operations

The five entries of the `filesystem` structure that work on a file. -/

/-- `FILE_MODE`. -/
inductive FileMode where
  | read
  | write
  | append
  | invalid
  deriving DecidableEq, Repr

/-- `FILE_SEEK_MODE`: an `unsigned int`. -/
abbrev FileSeekMode := Word

/-- `SEEK_SET`. -/
def seekSet : FileSeekMode := 0#32

/-- `SEEK_CURRENT`. -/
def seekCurrent : FileSeekMode := 1#32

/-- `SEEK_END`. -/
def seekEnd : FileSeekMode := 2#32

/-- `FILE_STAT_READ_ONLY`. -/
def fileStatReadOnly : Word := 1#32

/-- `fat16_open`. -/
def fat16Open (d : DiskRef) (path : List PathPart) (mode : FileMode) :
    KernelM Ptr := do
  if mode ≠ FileMode.read then
    return Ptr.error (-erofs)
  let descriptor ← allocate 8
  modify fun k => k.setFatItemDescriptor descriptor.id (some ⟨Ptr.null, 0⟩)
  let item ← getItem d path
  modify fun k => k.setFatItemDescriptor descriptor.id (some ⟨item, 0⟩)
  if item.addr = 0 then
    return Ptr.error (-eio)
  return descriptor

/-- `fat16_read`: the status and the output. -/
def fat16Read {α : Type} (source : ℤ → ℕ → α) (d : DiskRef) (privateData : Ptr)
    (blockSize numBlocks : Word) (out : Output α) : KernelM (ℤ × Output α) := do
  let fat16Desc ← deref Kernel.fatItemDescriptors privateData
  let item ← deref Kernel.fatItems fat16Desc.item
  let offset := fat16Desc.pos
  if item.type ≠ FatItemType.file then
    return (-einval, out)
  let directoryItem ← readItem item.entry 0
  let cluster := getFirstCluster directoryItem
  readInternal source d cluster.toInt offset.toInt
    (blockSize * numBlocks).toInt out

/-- `fat16_seek`. -/
def fat16Seek (privateData : Ptr) (offset : ℤ) (seekMode : FileSeekMode) :
    KernelM ℤ := do
  let fat16Desc ← deref Kernel.fatItemDescriptors privateData
  let item ← deref Kernel.fatItems fat16Desc.item
  if item.type ≠ FatItemType.file then
    return -einval
  if seekMode = seekSet then
    modify fun k => k.setFatItemDescriptor privateData.id
      (some { fat16Desc with pos := BitVec.ofInt 32 offset })
    return 0
  else if seekMode = seekEnd then
    return -einval
  else if seekMode = seekCurrent then
    modify fun k => k.setFatItemDescriptor privateData.id
      (some { fat16Desc with pos := fat16Desc.pos + BitVec.ofInt 32 offset })
    return 0
  else
    return -einval

/-- `fat16_stat`: the status and the `file_stat`. -/
def fat16Stat (privateData : Ptr) (stat : FileStat) :
    KernelM (ℤ × FileStat) := do
  let fat16Desc ← deref Kernel.fatItemDescriptors privateData
  let item ← deref Kernel.fatItems fat16Desc.item
  if item.type ≠ FatItemType.file then
    return (-einval, stat)
  let fileItem ← readItem item.entry 0
  let stat := { stat with filesize := fileItem.filesize }
  if fileItem.attributeByte.setWidth 32 &&& fileStatReadOnly ≠ 0 then
    return (0, { stat with flags := fileStatReadOnly })
  return (0, stat)

/-- `fat16_close`. -/
def fat16Close (privateData : Ptr) : KernelM ℤ := do
  let fat16Desc ← deref Kernel.fatItemDescriptors privateData
  let item ← deref Kernel.fatItems fat16Desc.item
  if item.type ≠ FatItemType.file then
    return -einval
  itemDescriptorFree privateData
  return 0

/-! ## Mounting

`fat16_resolve`: the header is read from the first sector, and the root
directory is scanned. What comes before the label of its `goto` is a function
of its own. -/

/-- `primary_disk.id`. -/
def primaryDiskId : ℤ := 0

/-- `sizeof(fat_h)`: the header and the extended header, as they are on
disk. -/
def fatHeaderSize : ℤ := 62

/-- `bytes_per_sector`, in the first sector of a volume. No function reads
it. -/
def bytesPerSector (sector : ℕ → Byte) : BitVec 16 := sector 12 ++ sector 11

/-- `fat_h`, in the first sector of a volume. -/
def fatHeaderOf (sector : ℕ → Byte) : FatHeader where
  sectorsPerCluster := sector 13
  reservedSectors := sector 15 ++ sector 14
  fatCopies := sector 16
  rootDirEntries := sector 18 ++ sector 17
  sectorsPerFat := sector 23 ++ sector 22
  signature := sector 38

/-- The `fat_h` that a read has put into the private data. -/
def localHeader (out : Output Byte) : KernelM FatHeader := do
  let k ← get
  return fatHeaderOf fun i => (out i).value k.mem

/-- A `fat_private` of zeros. -/
def zeroPrivate : FatPrivate where
  header := fatHeaderOf fun _ => 0
  rootDirectory := ⟨Ptr.null, 0, 0, 0⟩
  clusterReadStream := Ptr.null
  fatReadStream := Ptr.null
  directoryReadStream := Ptr.null

/-- An assignment to fields of a `fat_private`. -/
def setPrivate (privateData : Ptr) (f : FatPrivate → FatPrivate) :
    KernelM Unit := do
  let pd ← deref Kernel.fatPrivates privateData
  modify fun k => k.setFatPrivate privateData.id (some (f pd))

/-- `init_fat_private`. -/
def initFatPrivate (d : DiskRef) (privateData : Ptr) : KernelM Unit := do
  let _ ← derefDisk d
  let clusterReadStream ← Streamer.newStream primaryDiskId
  setPrivate privateData ({ · with clusterReadStream })
  let fatReadStream ← Streamer.newStream primaryDiskId
  setPrivate privateData ({ · with fatReadStream })
  let directoryReadStream ← Streamer.newStream primaryDiskId
  setPrivate privateData ({ · with directoryReadStream })

/-- `close_fat_private`. -/
def closeFatPrivate (privateData : Ptr) : KernelM Unit := do
  let pd ← deref Kernel.fatPrivates privateData
  Streamer.close pd.clusterReadStream
  Streamer.close pd.fatReadStream
  Streamer.close pd.directoryReadStream

/-- What `fat16_resolve` does with its stream, up to the label. -/
def readVolume (d : DiskRef) (privateData stream : Ptr) : KernelM ℤ := do
  if stream.addr = 0 then
    return -enomem
  -- read in header
  let k ← get
  let (result, out) ← Streamer.read k.sectors stream zeroOutput fatHeaderSize
  if result ≠ 0 then
    return result
  let header ← localHeader out
  setPrivate privateData ({ · with header })
  if header.signature ≠ fat16Signature then
    -- this is not FAT16
    return -efsnotpresent
  -- read in root directory
  getRootDirectory d privateData

/-- `fat16_resolve`. -/
def fat16Resolve (d : DiskRef) : KernelM ℤ := do
  -- Create private data
  let privateData ← allocate 92
  modify fun k => k.setFatPrivate privateData.id (some zeroPrivate)
  initFatPrivate d privateData
  modify fun k => { k with disk := ⟨FilesystemRef.fat16, privateData⟩ }
  let stream ← Streamer.newStream primaryDiskId
  let result ← readVolume d privateData stream
  if stream.addr ≠ 0 then
    Streamer.close stream
  if result < 0 ∧ privateData.addr ≠ 0 then
    closeFatPrivate privateData
    kfree privateData.addr
    modify fun k => k.setFatPrivate privateData.id none
    modify fun k => { k with disk := ⟨FilesystemRef.null, Ptr.null⟩ }
  return result

end Fat16

end N00bOS
