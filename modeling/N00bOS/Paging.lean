import N00bOS.Heap

/-!
# Page tables

`arch/i386/paging`: a directory of 1024 page tables of 1024 entries each, all
of them allocated on the kernel heap and read through addresses found in
memory. An entry is a word in the flat memory, so that the tables are what the
processor would read (`pagingWalk`), and a write to a wrong place is a write to
whatever lies there.

`pagingNew` takes the allocator as a parameter. The code's is `kzalloc`; the
specifications use `kzallocFit` to say that every allocation succeeded. The
arithmetic of the source is kept as it is: pointer differences count entries
and not bytes (`pagingMap`), and an address that is not aligned is aligned by
adding to it (`pagingAlign`).
-/

namespace N00bOS

open Memory (index)

/-- `PAGING_TOTAL_ENTRIES_PER_TABLE`. -/
def pagingTotalEntriesPerTable : ℕ := 1024

/-- `PAGING_PAGE_SIZE`. -/
def pagingPageSize : Word := 4096#32

/-- `PAGING_IS_WRITABLE`. -/
def pagingIsWritable : Byte := 0b00000010#8

/-- `PAGING_ACCESS_FROM_ALL`. -/
def pagingAccessFromAll : Byte := 0b00000100#8

/-- `PAGING_IS_PRESENT`. -/
def pagingIsPresent : Byte := 0b00000001#8

/-- `PAGING_ADDRESS_MASK`. -/
def pagingAddressMask : Word := 0xfffff000#32

/-- `PAGING_TOTAL_ENTRIES_PER_TABLE * PAGING_PAGE_SIZE`: what one page table
covers. -/
def pagingTableSpan : Word :=
  BitVec.ofNat 32 pagingTotalEntriesPerTable * pagingPageSize

/-- `sizeof(PAGING_ENTRY) * PAGING_TOTAL_ENTRIES_PER_TABLE`. -/
def pagingTableSize : Word := 4#32 * BitVec.ofNat 32 pagingTotalEntriesPerTable

/-- `sizeof(paging_chunk)`: one pointer. -/
def pagingChunkSize : Word := 4#32

/-- `paging_is_aligned`. -/
def pagingIsAligned (address : Word) : Bool := address % pagingPageSize = 0

/-- `paging_get_idxs`: the directory and the table index, or the error. -/
def pagingGetIdxs (virtualAddress : Word) : Except ℤ (Word × Word) :=
  if !pagingIsAligned virtualAddress then
    Except.error (-einval)
  else
    Except.ok (virtualAddress / pagingTableSpan,
      virtualAddress % pagingTableSpan / pagingPageSize)

/-- `paging_set`: the status and the memory afterwards. -/
def pagingSet (m : Memory) (directory virtualAddress value : Word) :
    ℤ × Memory :=
  match pagingGetIdxs virtualAddress with
  | Except.error result => (result, m)
  | Except.ok (directoryIdx, tableIdx) =>
    let tableEntry := m.load32 (index directory directoryIdx.toNat)
    let table := tableEntry &&& pagingAddressMask
    (0, m.store32 (index table tableIdx.toNat) value)

/-- The inner loop of `paging_new`, over the `left` entries from `tableIdx`
on. -/
def pagingFillTable (table offset : Word) (flags : Byte) :
    ℕ → ℕ → Memory → Memory
  | 0, _, m => m
  | left + 1, tableIdx, m =>
    let entry :=
      (offset + BitVec.ofNat 32 tableIdx * pagingPageSize) ||| flags.setWidth 32
    pagingFillTable table offset flags left (tableIdx + 1)
      (m.store32 (index table tableIdx) entry)

/-- The outer loop of `paging_new`, over the `left` tables from `dirIdx` on. -/
def pagingFillDirectory (kzalloc : Memory → Word → Option (Word × Memory))
    (directory : Word) (flags : Byte) : ℕ → ℕ → Word → Memory → Option Memory
  | 0, _, _, m => some m
  | left + 1, dirIdx, offset, m => do
    let (table, m) ← kzalloc m pagingTableSize
    let m := pagingFillTable table offset flags pagingTotalEntriesPerTable 0 m
    let entry := table ||| flags.setWidth 32 ||| pagingIsWritable.setWidth 32
    let m := m.store32 (index directory dirIdx) entry
    pagingFillDirectory kzalloc directory flags left (dirIdx + 1)
      (offset + pagingTableSpan) m

/-- `paging_new`: the chunk and the memory afterwards. -/
def pagingNew (kzalloc : Memory → Word → Option (Word × Memory)) (flags : Byte)
    (m : Memory) :
    Option (Word × Memory) := do
  let (directory, m) ← kzalloc m pagingTableSize
  let m ← pagingFillDirectory kzalloc directory flags
    pagingTotalEntriesPerTable 0 0 m
  let (chunk, m) ← kzalloc m pagingChunkSize
  return (chunk, m.store32 chunk directory)

/-- `paging_chunk::directory_entry`. -/
def pagingDirectory (m : Memory) (chunk : Word) : Word := m.load32 chunk

/-- The loop of `paging_free`, over the `left` tables from `idx` on. -/
def pagingFreeTables (kfree : Memory → Word → Memory) (chunk : Word) :
    ℕ → ℕ → Memory → Memory
  | 0, _, m => m
  | left + 1, idx, m =>
    let dirEntry := m.load32 (index (pagingDirectory m chunk) idx)
    let table := dirEntry &&& pagingAddressMask
    pagingFreeTables kfree chunk left (idx + 1) (kfree m table)

/-- `paging_free`. -/
def pagingFree (kfree : Memory → Word → Memory) (chunk : Word)
    (m : Memory) : Memory :=
  let m := pagingFreeTables kfree chunk pagingTotalEntriesPerTable 0 m
  let m := kfree m (pagingDirectory m chunk)
  kfree m chunk

/-- `paging_map`, over a number of pages: the status and the memory
afterwards. -/
def pagingMapPages (directory : Word) (flags : Word) :
    ℕ → Word → Word → Memory → ℤ × Memory
  | 0, _, _, m => (0, m)
  | left + 1, virtualAddress, physicalAddress, m =>
    let entry := physicalAddress ||| flags
    let (result, m) := pagingSet m directory virtualAddress entry
    if result ≠ 0 then (result, m)
    else pagingMapPages directory flags left (virtualAddress + pagingPageSize)
      (physicalAddress + pagingPageSize) m

/-- `paging_map`, up to an end address. The end and the start are pointers to
`PAGING_ENTRY`, and their difference counts entries of four bytes. -/
def pagingMap (m : Memory)
    (directory virtualAddress physicalAddress physicalAddressEnd : Word)
    (flags : Word) : ℤ × Memory :=
  if !pagingIsAligned virtualAddress then
    (-einval, m)
  else if !pagingIsAligned physicalAddress then
    (-einval, m)
  else if !pagingIsAligned physicalAddressEnd then
    (-einval, m)
  else if physicalAddressEnd < physicalAddress then
    (-einval, m)
  else
    let totalBytes := (physicalAddressEnd - physicalAddress).toInt.tdiv 4
    let totalPages := BitVec.ofInt 32 totalBytes / pagingPageSize
    pagingMapPages directory flags totalPages.toInt.toNat virtualAddress
      physicalAddress m

/-- `paging_align`. What is added to an unaligned address is that address,
rounded up. -/
def pagingAlign (address : Word) : Word :=
  if address % pagingPageSize ≠ 0 then
    address + (address - address % pagingPageSize + pagingPageSize)
  else address

/-- The walk the processor makes for a virtual address: directory index,
`PAGING_ADDRESS_MASK`, table index. -/
def pagingWalk (m : Memory) (directory virtualAddress : Word) : Word :=
  let directoryIdx := virtualAddress / pagingTableSpan
  let tableIdx := virtualAddress % pagingTableSpan / pagingPageSize
  let tableEntry := m.load32 (index directory directoryIdx.toNat)
  let table := tableEntry &&& pagingAddressMask
  m.load32 (index table tableIdx.toNat)

end N00bOS
