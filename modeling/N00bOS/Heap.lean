import N00bOS.Config

/-!
# The kernel heap

`mm/heap`: a table with one byte per 4KB block, and the find-first-fit strategy
over it. The heap works on the flat memory of the machine, and its table is
part of that memory: an index that leaves the table writes somewhere else, and
the model writes there too.

A pointer that the code computes from a failed search is computed here in the
same way, so nothing in this file assumes that a search succeeds: `kmalloc` and
`kzalloc` are the functions of the source, on every memory and for every size.
`heapMalloc` returns `none` where the C++ function never returns, which is the
marking loop with a bound that no index reaches.

`kzallocFit` is the one definition that is not in the source. It is `kzalloc`
where the search finds a run, and nothing otherwise; the structures that the
kernel keeps are allocated with it (see `Kernel`), so that what is proved of
them is proved where there is room.

The layout is a parameter (`HeapConfig`), with the fields that `config.h`
meets: the results hold for every size of the table, and the kernel's heap is
the instance `kernelHeapConfig`.
-/

namespace N00bOS

/-- `HEAP_BLOCK_TABLE_ENTRY_TAKEN`. -/
def heapBlockTableEntryTaken : Byte := 0x01#8

/-- `HEAP_BLOCK_TABLE_ENTRY_FREE`. -/
def heapBlockTableEntryFree : Byte := 0x00#8

/-- `HEAP_BLOCK_HAS_NEXT`. -/
def heapBlockHasNext : Byte := 0b10000000#8

/-- `HEAP_BLOCK_IS_FIRST`. -/
def heapBlockIsFirst : Byte := 0b01000000#8

/-- `heap_table`: where the table is and how many entries it has. -/
structure HeapTable where
  /-- The address of the first entry. -/
  entries : Word
  /-- The number of entries. -/
  totalEntries : Word

/-- `heap`: a table and the address of the first data block. -/
structure Heap where
  /-- The block table. -/
  table : HeapTable
  /-- The address of block `0`. -/
  startAddress : Word

/-- `memset`, on `n` bytes. -/
def memset (m : Memory) (mem : Word) (value : Byte) (n : Word) : Memory :=
  m.fill mem value n.toNat

/-! ## heap_utilities.cpp

Rounding, addresses and indices. They are functions of words: a size near
`2 ^ 32` wraps when it is rounded up, and an address below the heap becomes a
large index. -/

/-- `validate_alignment`. -/
def validateAlignment (addr : Word) : Bool := addr % heapBlockSize = 0

/-- `align_to_upper`. A size that is a multiple of the block size already
goes up by a whole block. -/
def alignToUpper (size : Word) : Word :=
  let remainder := size % heapBlockSize
  let leftover := heapBlockSize - remainder
  size + leftover

/-- `get_entry_type`: the low nibble. -/
def getEntryType (entry : Byte) : Byte := entry &&& 0x0f#8

namespace Heap

/-- The number of table entries, as a number. -/
def total (h : Heap) : ℕ := h.table.totalEntries.toNat

/-- `entries + idx`. -/
def entryAddress (h : Heap) (idx : ℕ) : Word :=
  h.table.entries + BitVec.ofNat 32 idx

/-- `entries[idx]`. -/
def entry (h : Heap) (m : Memory) (idx : ℕ) : Byte := m (h.entryAddress idx)

/-- `block_idx_2_block_address`. -/
def blockIdx2BlockAddress (h : Heap) (blockIdx : Word) : Word :=
  let dataOffset := blockIdx * heapBlockSize
  h.startAddress + dataOffset

/-- `block_address_2_block_idx`. -/
def blockAddress2BlockIdx (h : Heap) (addr : Word) : Word :=
  let dataOffset := addr - h.startAddress
  dataOffset / heapBlockSize

/-! ## find_first_fit_strategy.cpp

The search, the marking loop and the freeing loop. Each loop is a recursion on
the number of entries that are left, or on a bound that the machine's words
give it. -/

/-- The inner loop of `find_first_fit_start_block`: how many free entries
there are from `idxRange` on, among the `left` entries that remain. -/
def contiguousBlockCount (h : Heap) (m : Memory) : ℕ → ℕ → ℕ
  | 0, _ => 0
  | left + 1, idxRange =>
    if getEntryType (h.entry m idxRange) = heapBlockTableEntryFree then
      contiguousBlockCount h m left (idxRange + 1) + 1
    else 0

/-- The outer loop of `find_first_fit_start_block`, from `idx`. Each round
moves `idx` up, so as many rounds as there are entries are enough. -/
def findFrom (h : Heap) (m : Memory) (blockSize : Word) : ℕ → ℕ → ℤ
  | 0, _ => -enomem
  | rounds + 1, idx =>
    if idx < h.total then
      let count := contiguousBlockCount h m (h.total - idx) idx
      if blockSize ≤ BitVec.ofNat 32 count * heapBlockSize then (idx : ℤ)
      else findFrom h m blockSize rounds (idx + count + 1)
    else -enomem

/-- `find_first_fit_start_block`. -/
def findFirstFitStartBlock (h : Heap) (m : Memory) (blockSize : Word) : ℤ :=
  findFrom h m blockSize (h.total + 1) 0

/-- The marking loop of `heap_malloc`, from `idx` up to `finalBlockIdx`. The
bound counts iterations: `idx` has `2 ^ 32` values, so a loop that has not
ended by then never ends. -/
def markEntries (h : Heap) (finalBlockIdx : Word) :
    ℕ → Word → Memory → Option Memory
  | 0, _, _ => none
  | bound + 1, idx, m =>
    if idx ≤ finalBlockIdx then
      let m := m.store8 (h.entryAddress idx.toNat) heapBlockTableEntryTaken
      let m :=
        if idx ≠ finalBlockIdx then
          m.store8 (h.entryAddress idx.toNat)
            (h.entry m idx.toNat ||| heapBlockHasNext)
        else m
      markEntries h finalBlockIdx bound (idx + 1) m
    else some m

/-- `heap_malloc`: the address returned and the memory afterwards. -/
def heapMalloc (h : Heap) (m : Memory) (blockSize : Word) :
    Option (Word × Memory) :=
  let alignedSize := alignToUpper blockSize
  let firstBlockIdx := BitVec.ofInt 32 (h.findFirstFitStartBlock m alignedSize)
  let dataStart := h.blockIdx2BlockAddress firstBlockIdx
  let m := memset m dataStart 0x00 alignedSize
  let numBlocks := alignedSize / heapBlockSize
  let finalBlockIdx := firstBlockIdx + numBlocks - 1
  let m := m.store8 (h.entryAddress firstBlockIdx.toNat) heapBlockIsFirst
  (h.markEntries finalBlockIdx (2 ^ 32) firstBlockIdx m).map
    (fun m => (dataStart, m))

/-- The loop of `heap_free`, from `idx`, over the `left` entries up to the
end of the table. -/
def freeFrom (h : Heap) : ℕ → ℕ → Memory → Memory
  | 0, _, m => m
  | left + 1, idx, m =>
    let block := h.entry m idx
    let m := m.store8 (h.entryAddress idx) heapBlockTableEntryFree
    if block &&& heapBlockHasNext = 0 then m else freeFrom h left (idx + 1) m

/-- `heap_free`. -/
def heapFree (h : Heap) (m : Memory) (addr : Word) : Memory :=
  let blockIdx := (h.blockAddress2BlockIdx addr).toNat
  h.freeFrom (h.total - blockIdx) blockIdx m

/-! ## kheap.cpp

The interface of the heap, and how it is made. -/

/-- `kmalloc`: the strategy is find-first-fit. -/
def kmalloc (h : Heap) (m : Memory) (size : Word) : Option (Word × Memory) :=
  h.heapMalloc m size

/-- `kzalloc`. -/
def kzalloc (h : Heap) (m : Memory) (size : Word) : Option (Word × Memory) :=
  (h.kmalloc m size).map (fun r => (r.1, memset r.2 r.1 0x00 size))

/-- **`kzalloc`, when it finds a run**: a `none` is a request that finds none,
or a call that does not return. Structures are allocated with this one: a
structure that finds no run would be put where the block table or other data
is, and nothing that the code does after that is described by a store of
structures. -/
def kzallocFit (h : Heap) (m : Memory) (size : Word) : Option (Word × Memory) :=
  if 0 ≤ h.findFirstFitStartBlock m (alignToUpper size) then h.kzalloc m size
    else none

/-- `kfree`. -/
def kfree (h : Heap) (m : Memory) (ptr : Word) : Memory := h.heapFree m ptr

end Heap

/-- `validate_heap_table`. -/
def validateHeapTable (startPtr endPtr : Word) (table : HeapTable) : Bool :=
  let tableSize := endPtr - startPtr
  let tableTotalBlocks := tableSize / heapBlockSize
  tableTotalBlocks = table.totalEntries

/-- `default_heap_create`: the status, the heap structure and the memory
afterwards. -/
def defaultHeapCreate (heap : Heap) (startPtr endPtr : Word) (table : HeapTable)
    (m : Memory) : ℤ × Heap × Memory :=
  if !validateAlignment startPtr || !validateAlignment endPtr then
    (-einval, heap, m)
  else
    let heap : Heap := ⟨table, startPtr⟩
    if !validateHeapTable startPtr endPtr table then
      (-einval, heap, m)
    else
      (0, heap, memset m table.entries heapBlockTableEntryFree
        table.totalEntries)

/-- **A layout for the heap**: how many blocks it has, where its data and
its table are, and that the two fit in memory without meeting. The constants
of `config.h` are one (`kernelHeapConfig`). -/
structure HeapConfig where
  /-- `HEAP_SIZE_BYTES / HEAP_BLOCK_SIZE`. -/
  totalBlocks : ℕ
  /-- `HEAP_ADDRESS`. -/
  heapAddress : Word
  /-- `HEAP_TABLE_ADDRESS`. -/
  heapTableAddress : Word
  /-- The size in bytes is a machine word. -/
  size_lt : totalBlocks * 4096 < 2 ^ 32
  /-- The data starts on a block boundary. -/
  aligned : heapAddress.toNat % 4096 = 0
  /-- The data ends inside the address space. -/
  data_le : heapAddress.toNat + totalBlocks * 4096 ≤ 2 ^ 32
  /-- The table ends inside the address space. -/
  table_le : heapTableAddress.toNat + totalBlocks ≤ 2 ^ 32
  /-- The table is not part of the data. -/
  apart : heapTableAddress.toNat + totalBlocks ≤ heapAddress.toNat
    ∨ heapAddress.toNat + totalBlocks * 4096 ≤ heapTableAddress.toNat

/-- The layout of `config.h`. -/
def kernelHeapConfig : HeapConfig where
  totalBlocks := 25600
  heapAddress := N00bOS.heapAddress
  heapTableAddress := N00bOS.heapTableAddress
  size_lt := by decide
  aligned := by decide
  data_le := by decide
  table_le := by decide
  apart := by decide

example :
    BitVec.ofNat 32 (kernelHeapConfig.totalBlocks * 4096) = heapSizeBytes := by
  decide

/-- `kheap_init`, for a layout: the heap structure and the memory afterwards.
`kernel_heap` is a zero-initialised static, and the status of `create` is not
looked at. -/
def kheapInit (c : HeapConfig) (m : Memory) : Heap × Memory :=
  let sizeBytes := BitVec.ofNat 32 (c.totalBlocks * 4096)
  let table : HeapTable := ⟨c.heapTableAddress, sizeBytes / heapBlockSize⟩
  let endPtr := c.heapAddress + sizeBytes
  (defaultHeapCreate ⟨⟨0, 0⟩, 0⟩ c.heapAddress endPtr table m).2

end N00bOS
