import N00bOS.FlatMemory

/-!
# Configuration and status codes

The constants of `config.h` and `status.h` that the modelled code reads: where
the kernel heap and its table lie, how large a path and a user program's stack
are, how many processes and allocations there may be, and the numbers of the
errors. An error `E` is returned as the negative number `-E`, so the
definitions here are the positive numbers, as they are in the header.

Addresses and sizes are 32-bit words, because the code computes with them in
`uint32_t` and wraps around; counts that only bound a loop or a table are
natural numbers.
-/

namespace N00bOS

/-- `HEAP_SIZE_BYTES`: 100MB. -/
def heapSizeBytes : Word := 104857600#32

/-- `HEAP_BLOCK_SIZE`: 4KB. -/
def heapBlockSize : Word := 4096#32

/-- `HEAP_ADDRESS`. -/
def heapAddress : Word := 0x01000000#32

/-- `HEAP_TABLE_ADDRESS`. -/
def heapTableAddress : Word := 0x00007E00#32

/-- `FS_MAX_PATH_SIZE`. -/
def fsMaxPathSize : ℕ := 255

/-- `PROGRAM_VIRTUAL_ADDRESS`. -/
def programVirtualAddress : Word := 0x400000#32

/-- `PROGRAM_USER_PROGRAM_STACK_SIZE`: 16KB. -/
def programUserProgramStackSize : Word := 16384#32

/-- `PROGRAM_VIRTUAL_STACK_ADDRESS_START`. -/
def programVirtualStackAddressStart : Word := 0x3FF000#32

/-- `PROGRAM_MAX_ALLOCATIONS`. -/
def programMaxAllocations : ℕ := 1024

/-- `MAX_PROCESSES`. -/
def maxProcesses : ℕ := 512

/-- `USER_DATA_SEGMENT`. -/
def userDataSegment : Word := 0x23#32

/-- `EIO`: I/O error. -/
def eio : ℤ := 5

/-- `ENOMEM`: cannot allocate memory. -/
def enomem : ℤ := 12

/-- `EINVAL`: invalid argument. -/
def einval : ℤ := 22

/-- `EROFS`: read-only file system. -/
def erofs : ℤ := 30

/-- `EFSNOTPRESENT`: FS not found on disk. -/
def efsnotpresent : ℤ := 134

@[simp] theorem heapBlockSize_toNat : heapBlockSize.toNat = 4096 := rfl

end N00bOS
