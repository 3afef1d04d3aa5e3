import N00bOS.Kernel

/-!
# Reading the disk

`disk/disk.cpp` and `disk/disk_streamer.cpp`. The disk is the function from
sectors to bytes that `ata::read_sector` delivers; reading it always succeeds.
That the driver delivers such a function is what `N00bOS.AtaSpec` is about.

`readLoop` does not look at the bytes it copies, so it is stated for a source
with values of any type. Run on the sectors of the disk it is the code. Run on
a source that gives every place its own name, it says where each byte of the
output came from. At a negative position the loop indexes the sector buffer
from before its start; such a byte is named by its address (`Fetched.stray`),
and its value is what the memory holds there (`Fetched.value`). Between the
copy and the return of `read` nothing writes there: the buffer is given back,
which changes the block table only.

The division and the remainder of C truncate, and so do those here (`Int.tdiv`,
`Int.tmod`): a position of `-100` is in sector `0`, at offset `-100`.
-/

namespace N00bOS

open KernelM

/-- `sector_size` of the primary disk: `DISK_BLOCK_SIZE`. -/
def sectorSize : ℤ := 512

/-- `disk::get`. -/
def diskGet (index : ℤ) : DiskRef :=
  if index ≠ 0 then DiskRef.null else DiskRef.primary

/-- `disk::read_block`, for one block: the error, or what is read into the
buffer. -/
def readBlock {α : Type} (source : ℤ → ℕ → α) (disk : DiskRef) (lba : ℤ) :
    Except ℤ (ℕ → α) :=
  if disk ≠ DiskRef.primary then Except.error (-einval)
    else Except.ok (source lba)

/-- What a read leaves in a byte of its output: a byte of a sector, or what
the memory holds at an address outside the sector buffer. -/
inductive Fetched (α : Type) where
  /-- A byte of a sector. -/
  | sector (value : α)
  /-- The byte at an address outside the buffer. -/
  | stray (addr : Word)
  deriving DecidableEq, Repr

/-- **The byte that was fetched**, in the memory that it was fetched from. For
a byte from before the sector buffer this looks at the address that it has in
memory, which may be in the buffer of another caller. The structures that the
kernel keeps under numbers are not in this memory, so a stray byte is followed
into a buffer, and not into a structure. -/
def Fetched.value (m : Memory) : Fetched Byte → Byte
  | Fetched.sector b => b
  | Fetched.stray addr => m addr

/-- The contents of an output buffer. -/
abbrev Output (α : Type) := ℕ → Fetched α

/-- `buf[idx]`, for the sector buffer at `buf`. -/
def bufferByte {α : Type} (buf : Word) (bytes : ℕ → α) (idx : ℤ) : Fetched α :=
  if 0 ≤ idx ∧ idx < sectorSize then Fetched.sector (bytes idx.toNat)
  else Fetched.stray (buf + BitVec.ofInt 32 idx)

/-- A copying loop: `n` bytes of the sector buffer, from `first` on, to the
output from `start` on. -/
def copyOut {α : Type} (out : Output α) (start n : ℕ) (buf : Word)
    (bytes : ℕ → α) (first : ℤ) : Output α :=
  fun i => if start ≤ i ∧ i < start + n then
    bufferByte buf bytes (first + (i - start : ℕ))
    else out i

namespace Streamer

/-- The loop of `read`: the status and the output. Each round copies at least
one byte, so `total` rounds are enough. -/
def readLoop {α : Type} (source : ℤ → ℕ → α) (d : DiskRef) (buf : Word)
    (pos total : ℤ) :
    ℕ → ℕ → ℕ → Output α → Except Fault (ℤ × Output α)
  | 0, _, _, _ => Except.error Fault.diverged
  | rounds + 1, bytesRead, sectorsRead, out =>
    if bytesRead < total then
      let sector := (wrap32 (pos + bytesRead)).tdiv sectorSize
      let offset := (wrap32 (pos + bytesRead)).tmod sectorSize
      match readBlock source d sector with
      | Except.error res => Except.ok (res, out)
      | Except.ok bytes =>
        -- read down 0->offset bytes but not for the first sector read
        let leading := if 0 < sectorsRead then offset.toNat else 0
        let out := copyOut out bytesRead leading buf bytes 0
        let bytesRead := bytesRead + leading
        -- read up to the sector boundary or the remainder to total
        let remainderToNextSector := sectorSize - offset
        let remainder := total - bytesRead
        let bytesToRead :=
          if remainder > remainderToNextSector then remainderToNextSector
            else remainder
        let out := copyOut out bytesRead bytesToRead.toNat buf bytes offset
        readLoop source d buf pos total rounds (bytesRead + bytesToRead.toNat)
          (sectorsRead + 1)
          out
    else Except.ok (0, out)

/-- `new_stream`. -/
def newStream (diskId : ℤ) : KernelM Ptr := do
  let disk := diskGet diskId
  if disk = DiskRef.null then
    return Ptr.null
  let stream ← allocate 8
  modify fun k => k.setDiskStream stream.id (some ⟨0, disk⟩)
  return stream

/-- `seek`. -/
def seek (stream : Ptr) (pos : ℤ) : KernelM ℤ := do
  let s ← deref Kernel.diskStreams stream
  modify fun k => k.setDiskStream stream.id (some { s with pos := pos })
  return 0

/-- `read`: the status and the output. -/
def read {α : Type} (source : ℤ → ℕ → α) (stream : Ptr) (out : Output α)
    (total : ℤ) :
    KernelM (ℤ × Output α) := do
  let s ← deref Kernel.diskStreams stream
  -- `stream->d->sector_size`
  let _ ← derefDisk s.d
  let buf ← kzalloc 512
  match readLoop source s.d buf s.pos total (total.toNat + 1) 0 0 out with
  | Except.error e => Machine.fault e
  | Except.ok (res, out) =>
    if res < 0 then
      return (res, out)
    modify fun k => k.setDiskStream stream.id
      (some { s with pos := wrap32 (s.pos + total) })
    kfree buf
    return (0, out)

/-- `close`. -/
def close (stream : Ptr) : KernelM Unit := do
  kfree stream.addr
  modify fun k => k.setDiskStream stream.id none

end Streamer

end N00bOS
