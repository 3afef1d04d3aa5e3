import N00bOS.AtaChannel
import N00bOS.DiskStreamer

/-!
# The ATA driver

`drivers/ata/ata.cpp` over the ports of `arch/i386/io/io.asm`,
`disk::read_block` above it, and the second driver the repository has: the one
of the boot loader, in `boot.asm`, which loads the kernel.

The drivers are written for any ports. What the status register says is up to
the device, so the loop that polls it may run for ever: `fuel` bounds how often
the status is read for one sector, and a run that gives up on it has not ended.

This module has the code only. What the driver reads, on a channel that keeps
its contract, is in `N00bOS.AtaSpec`, and the boot loader is compared with it,
for any device, in `N00bOS.BootLoader`.
-/

namespace N00bOS

/-- **What a driver works on**: a device and the memory. They have nothing to
do with each other but through the driver. -/
structure Board (δ : Type) where
  /-- The device behind the ports. -/
  device : δ
  /-- The memory. -/
  mem : Memory

/-- Programs that use the ports. -/
abbrev DriverM (δ : Type) := Machine Fault (Board δ)

namespace Ata

variable {δ : Type} (P : Ports δ)

/-- `outb`. -/
def outb (port : BitVec 16) (val : Byte) : DriverM δ PUnit :=
  modify fun b => { b with device := P.outb b.device port val }

/-- `insb`. -/
def insb (port : BitVec 16) : DriverM δ Byte := fun b =>
  Except.ok ((P.inb b.device port).1,
    { b with device := (P.inb b.device port).2 })

/-- `insw`. -/
def insw (port : BitVec 16) : DriverM δ (BitVec 16) := fun b =>
  Except.ok ((P.inw b.device port).1,
    { b with device := (P.inw b.device port).2 })

/-- `DATA_REGISTER`. -/
def dataRegister : BitVec 16 := 0x1F0

/-- `SECTOR_COUNT_REGISTER`. -/
def sectorCountRegister : BitVec 16 := 0x1F2

/-- `LBA_LOW_REGISTER`. -/
def lbaLowRegister : BitVec 16 := 0x1F3

/-- `LBA_MID_REGISTER`. -/
def lbaMidRegister : BitVec 16 := 0x1F4

/-- `LBA_HIGH_REGISTER`. -/
def lbaHighRegister : BitVec 16 := 0x1F5

/-- `DRIVE_HEAD_REGISTER`. -/
def driveHeadRegister : BitVec 16 := 0x1F6

/-- `READ_STATUS_REGISTER`. -/
def readStatusRegister : BitVec 16 := 0x1F7

/-- `WRITE_COMMAND_REGISTER`. -/
def writeCommandRegister : BitVec 16 := 0x1F7

/-- `MASTER_DRIVE`. -/
def masterDrive : Byte := 0xE0

/-- `READ_WITH_RETRY`. -/
def readWithRetry : Byte := 0x20

/-- `while (!(c & 0x08))`, for at most `fuel` more readings of the status. The
bit says that a sector is there to be read. -/
def pollStatus : ℕ → Byte → DriverM δ PUnit
  | 0, _ => Machine.fault Fault.diverged
  | fuel + 1, c =>
    if c &&& 0x08 = 0 then do
      let c ← insb P readStatusRegister
      pollStatus fuel c
    else pure PUnit.unit

/-- The loop that copies words from the disk to the buffer. -/
def copyWords : ℕ → Word → DriverM δ Word
  | 0, ptr => pure ptr
  | words + 1, ptr => do
    let w ← insw P dataRegister
    modify fun b => { b with mem := b.mem.store16 ptr w }
    copyWords words (ptr + 2)

/-- The loop over the sectors. -/
def copySectors (fuel : ℕ) : ℕ → Word → DriverM δ PUnit
  | 0, _ => pure PUnit.unit
  | sectors + 1, ptr => do
    -- wait for buffer to be ready
    let c ← insb P readStatusRegister
    pollStatus P fuel c
    let ptr ← copyWords P 256 ptr
    copySectors fuel sectors ptr

/-- `ata::read_sector`. -/
def readSector (fuel : ℕ) (lba total : BitVec 32) (buf : Word) :
    DriverM δ ℤ := do
  -- upper 8bits to the HD controller
  outb P driveHeadRegister
    ((lba.sshiftRight 24 ||| masterDrive.setWidth 32).setWidth 8)
  outb P sectorCountRegister (total.setWidth 8)
  outb P lbaLowRegister ((lba &&& 0xFF).setWidth 8)
  outb P lbaMidRegister ((lba.sshiftRight 8).setWidth 8)
  outb P lbaHighRegister ((lba.sshiftRight 16).setWidth 8)
  outb P writeCommandRegister readWithRetry
  copySectors P fuel total.toInt.toNat buf
  return 0

/-- `disk::read_block`. -/
def readBlock (fuel : ℕ) (disk : DiskRef) (lba total : BitVec 32) (buf : Word) :
    DriverM δ ℤ :=
  if disk ≠ DiskRef.primary then pure (-einval)
    else readSector P fuel lba total buf

/-- A call of `read_block` for one block, which is how the streams read. -/
structure Request where
  /-- The disk. -/
  disk : DiskRef
  /-- The sector. -/
  lba : ℤ
  /-- Where it goes. -/
  buf : Word

/-- A run of calls: what they return. -/
def readBlocks (fuel : ℕ) : List Request → DriverM δ (List ℤ)
  | [] => pure []
  | r :: rs => do
    let res ← readBlock P fuel r.disk (BitVec.ofInt 32 r.lba) 1 r.buf
    let rest ← readBlocks fuel rs
    return res :: rest

end Ata

/-! ## The boot loader

The registers that the listing goes on with are arguments and results, and the
stack is in memory. Memory is flat, which the listing leaves to the machine in
two places: it enters protected mode without loading `es` again, which is taken
to have base `0` and no limit, as `gdt_data` has; and it does not enable A20,
which is taken to be enabled. -/

namespace Boot

variable {δ : Type} (P : Ports δ)

/-- `push`: where the stack is then. -/
def push (esp value : Word) : DriverM δ Word := do
  modify fun b => { b with mem := b.mem.store32 (esp - 4) value }
  return esp - 4

/-- `pop`: the value, and where the stack is then. -/
def pop (esp : Word) : DriverM δ (Word × Word) := fun b =>
  Except.ok ((b.mem.load32 esp, esp + 4), b)

/-- `.try_again`. -/
def tryAgain : ℕ → DriverM δ PUnit
  | 0 => Machine.fault Fault.diverged
  | fuel + 1 => do
    let al ← Ata.insb P 0x1F7
    -- `jz`
    if al &&& 8 = 0 then tryAgain fuel else pure PUnit.unit

/-- `rep insw`: where `edi` is then. It stores at `es:edi`, which is taken to
be the address `edi`. Nothing loads `es` after `load_protected`: its base is
the `0` from real mode, and its limit is taken not to matter. -/
def repInsw : ℕ → Word → DriverM δ Word
  | 0, edi => pure edi
  | ecx + 1, edi => do
    let w ← Ata.insw P 0x1F0
    modify fun b => { b with mem := b.mem.store16 edi w }
    repInsw ecx (edi + 2)

/-- `.next_sector`, for at most so many rounds. `loop` counts `ecx` down
before it looks at it. -/
def nextSector (fuel : ℕ) : ℕ → Word → Word → Word → DriverM δ PUnit
  | 0, _, _, _ => Machine.fault Fault.diverged
  | rounds + 1, ecx, edi, esp => do
    let esp ← push esp ecx
    tryAgain P fuel
    let edi ← repInsw P 256 edi
    let (ecx, esp) ← pop esp
    let ecx := ecx - 1
    if ecx ≠ 0 then nextSector fuel rounds ecx edi esp else pure PUnit.unit

/-- `ata_lba_read`: the sector in `eax`, the number of sectors in `ecx`, where
they go in `edi`. After `2 ^ 32` rounds `ecx` is where it was. -/
def ataLbaRead (fuel : ℕ) (eax ecx edi esp : Word) : DriverM δ PUnit := do
  let ebx := eax
  Ata.outb P 0x1F6 ((eax >>> 24 ||| 0xE0).setWidth 8)
  Ata.outb P 0x1F2 (ecx.setWidth 8)
  Ata.outb P 0x1F3 (ebx.setWidth 8)
  Ata.outb P 0x1F4 ((ebx >>> 8).setWidth 8)
  Ata.outb P 0x1F5 ((ebx >>> 16).setWidth 8)
  Ata.outb P 0x1F7 0x20
  nextSector P fuel (2 ^ 32) ecx edi esp

/-- `load32`, up to the jump into the kernel; `call` pushes where it returns
to. The hundred sectors go to 1 MB and on, to addresses that need A20. It is
taken to be enabled; the listing does not do it. -/
def load32 (fuel : ℕ) (esp returnAddress : Word) : DriverM δ PUnit := do
  let esp ← push esp returnAddress
  ataLbaRead P fuel 1 100 0x0100000 esp

end Boot

end N00bOS
