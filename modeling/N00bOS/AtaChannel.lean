import N00bOS.FlatMemory

/-!
# Drives behind I/O ports

A program reaches a disk through ports: it writes the registers of the channel,
gives a command, waits for the status register to announce a sector, and reads
the sector from the data register, word by word. What the ports do is hardware,
so it is a parameter here: `Ports` is what reading and writing a port does to
the state of a device, and `Channel.Contract` is what the standard promises of
a channel with two drives, for the one command that reads sectors.

The promise is made about a `Channel`, which is what a program may know of a
device: the registers it wrote, and how far the transfer has come. It says
nothing about writes in the middle of a transfer. A sector takes an unknown
time to be found, and `waits` only says that the time is finite; a sector that
the drive does not have is never announced.

Nothing in this module is about one driver. A driver is verified against
`Channel.Contract`, for every device that keeps it; and that the contract can
be kept is shown by a device that does (`Idealized.contract`), which the
examples are run on.
-/

/-- **The ports** of a device with states in `δ`: what a byte or a word that is
read is, and what reading and writing does to the device. Reading may change
it, as it does at the port of the data. -/
structure Ports (δ : Type) where
  /-- A byte is written to a port. -/
  outb : δ → BitVec 16 → Byte → δ
  /-- A byte is read from a port. -/
  inb : δ → BitVec 16 → Byte × δ
  /-- A word is read from a port. -/
  inw : δ → BitVec 16 → BitVec 16 × δ

/-- **Two drives**: how many sectors each of them has, and the bytes of its
sectors. A drive that is not there has none. -/
structure Drives where
  /-- The number of sectors. -/
  capacity : Bool → ℕ
  /-- The bytes of a sector. -/
  sector : Bool → ℕ → ℕ → Byte

namespace Drives

variable (D : Drives)

/-- The bytes from sector `lba` on. -/
def bytes (drive : Bool) (lba : ℕ) :
    ℕ → Byte := fun i => D.sector drive (lba + i / 512) (i % 512)

/-- Word `w` of a sector, low byte first. -/
def word (drive : Bool) (lba w : ℕ) : BitVec 16 :=
  D.sector drive lba (2 * w + 1) ++ D.sector drive lba (2 * w)

end Drives

namespace Channel

/-- The registers that say what is to be read. -/
inductive Register where
  | sectorCount
  | lbaLow
  | lbaMid
  | lbaHigh
  | driveHead
  deriving DecidableEq, Repr

/-- The port of a register. -/
def Register.port : Register → BitVec 16
  | sectorCount => 0x1F2
  | lbaLow => 0x1F3
  | lbaMid => 0x1F4
  | lbaHigh => 0x1F5
  | driveHead => 0x1F6

/-- The port of the data. -/
def dataPort : BitVec 16 := 0x1F0

/-- The port of the status and of the commands. -/
def commandPort : BitVec 16 := 0x1F7

/-- The command that reads sectors. -/
def readCommand : Byte := 0x20

/-- What the registers hold. -/
abbrev Registers := Register → Byte

namespace Registers

variable (r : Registers)

/-- The drive that is selected. -/
def drive : Bool := (r .driveHead).getLsbD 4

/-- The first sector: 28 bits in four registers. -/
def lba : ℕ :=
  (r .lbaLow).toNat + 256 * (r .lbaMid).toNat + 65536 * (r .lbaHigh).toNat
    + 16777216 * ((r .driveHead).toNat % 16)

/-- The number of sectors; `0` stands for 256. -/
def count : ℕ := if r .sectorCount = 0 then 256 else (r .sectorCount).toNat

/-- The sector is named by its number. -/
def LbaMode : Prop := (r .driveHead).getLsbD 6 = true

instance : Decidable r.LbaMode := inferInstanceAs (Decidable (_ = _))

end Registers

/-- **How far a transfer has come.** For each of its sectors it goes from
`seeking` to `ready`; after the last one it is `idle`, and at a sector that the
drive does not have it is `aborted`. -/
inductive Phase where
  /-- There is none. -/
  | idle
  /-- The next sector is looked for; it is one of `left`. -/
  | seeking (drive : Bool) (next left : ℕ)
  /-- A sector is there, and its first `word` words are read. -/
  | ready (drive : Bool) (next left word : ℕ)
  /-- The next sector does not exist. -/
  | aborted
  deriving DecidableEq, Repr

namespace Phase

/-- A command may be given. -/
def Resting (p : Phase) : Prop := p = idle ∨ p = aborted

instance (p : Phase) :
    Decidable p.Resting := inferInstanceAs (Decidable (_ ∨ _))

/-- The phase in which `left` sectors from `next` on are still to come. -/
def fetch (D : Drives) (drive : Bool) (next left : ℕ) : Phase :=
  if left = 0 then idle
  else if next < D.capacity drive then seeking drive next left
  else aborted

end Phase

/-- **The contract of a channel** with two drives: what of the state of the
device a program may know, and what the ports do to that. -/
structure Contract {δ : Type} (P : Ports δ) (D : Drives) where
  /-- The registers. -/
  registers : δ → Registers
  /-- The transfer. -/
  phase : δ → Phase
  /-- How often the status may be read before a sector is announced. -/
  waits : δ → ℕ
  /-- A register takes what is written to it. -/
  registers_outb : ∀ d r v, (phase d).Resting →
    registers (P.outb d r.port v) = Function.update (registers d) r v
  /-- Writing a register starts nothing. -/
  resting_outb : ∀ d (r : Register) v, (phase d).Resting →
    (phase (P.outb d r.port v)).Resting
  /-- The command starts a transfer of what the registers say. -/
  phase_command : ∀ d, (phase d).Resting → (registers d).LbaMode →
    phase (P.outb d commandPort readCommand)
      = Phase.fetch D (registers d).drive (registers d).lba (registers d).count
  /-- A sector is announced, or it is not and the wait is shorter. -/
  status_seeking : ∀ d drive next left,
    phase d = Phase.seeking drive next left →
    (((P.inb d commandPort).1.getLsbD 3 = true
        ∧ phase (P.inb d commandPort).2 = Phase.ready drive next left 0)
      ∨ ((P.inb d commandPort).1.getLsbD 3 = false
        ∧ phase (P.inb d commandPort).2 = Phase.seeking drive next left
        ∧ waits (P.inb d commandPort).2 < waits d))
  /-- Without a transfer nothing is announced. -/
  status_resting : ∀ d, (phase d).Resting →
    (P.inb d commandPort).1.getLsbD 3 = false
      ∧ phase (P.inb d commandPort).2 = phase d
  /-- The next word of the sector. -/
  data_word : ∀ d drive next left w, phase d = Phase.ready drive next left w →
    (P.inw d dataPort).1 = D.word drive next w
  /-- After the last word of the sector, the next sector. -/
  data_phase : ∀ d drive next left w, phase d = Phase.ready drive next left w →
    phase (P.inw d dataPort).2
      = if w < 255 then Phase.ready drive next left (w + 1)
        else Phase.fetch D drive (next + 1) (left - 1)

/-! ## A channel that keeps the contract

Its drives take the same time for every sector, and it has no state but the
registers, the phase, and how long there is still to wait. -/

/-- The state of the channel. -/
structure Idealized where
  registers : Registers
  phase : Phase
  waits : ℕ

namespace Idealized

/-- The register of a port. -/
def registerOf (port : BitVec 16) : Option Register :=
  [Register.sectorCount, .lbaLow, .lbaMid, .lbaHigh, .driveHead].find? fun r =>
    r.port = port

/-- **The ports** of a channel whose drives announce a sector after `latency`
further readings of the status. -/
def ports (D : Drives) (latency : ℕ) : Ports Idealized where
  outb d port v :=
    if d.phase.Resting then
      if port = commandPort then
        if v = readCommand ∧ d.registers.LbaMode then
          { d with
            phase := Phase.fetch D d.registers.drive d.registers.lba
              d.registers.count
            waits := latency }
        else d
      else
        match registerOf port with
        | some r => { d with registers := Function.update d.registers r v }
        | none => d
    else d
  inb d port :=
    if port = commandPort then
      match d.phase with
      | .idle => (0x50, d)
      | .seeking drive next left =>
        if d.waits = 0 then (0x58, { d with phase := .ready drive next left 0 })
        else (0x80, { d with waits := d.waits - 1 })
      | .ready _ _ _ _ => (0x58, d)
      | .aborted => (0x51, d)
    else (0xFF, d)
  inw d port :=
    if port = dataPort then
      match d.phase with
      | .ready drive next left w =>
        (D.word drive next w,
          { d with
            phase := if w < 255 then .ready drive next left (w + 1)
              else Phase.fetch D drive (next + 1) (left - 1)
            waits := latency })
      | _ => (0xFFFF, d)
    else (0xFFFF, d)

/-- The port of a register is its own. -/
theorem registerOf_port (r : Register) : registerOf r.port = some r := by
  cases r <;> decide

/-- No register is at the port of the commands. -/
theorem port_ne_commandPort (r : Register) : r.port ≠ commandPort := by
  cases r <;> decide

variable (D : Drives) (latency : ℕ)

theorem outb_register {d : Idealized} (h : d.phase.Resting) (r : Register)
    (v : Byte) :
    (ports D latency).outb d r.port v
      = { d with registers := Function.update d.registers r v } := by
  show (if d.phase.Resting then _ else _) = _
  rw [if_pos h, if_neg (port_ne_commandPort r), registerOf_port]

/-- **The contract is kept.** What a program may know of the device is all of
its state, so each clause is a case distinction on the phase. -/
def contract : Contract (ports D latency) D where
  registers := Idealized.registers
  phase := Idealized.phase
  waits := Idealized.waits
  registers_outb d r v h := by rw [outb_register D latency h]
  resting_outb d r v h := by rw [outb_register D latency h]; exact h
  phase_command d h hmode := by
    show Idealized.phase (if d.phase.Resting then _ else _) = _
    rw [if_pos h, if_pos rfl, if_pos ⟨rfl, hmode⟩]
  status_seeking d drive next left h := by
    have hbusy : (0x80 : Byte).getLsbD 3 = false := by decide
    have hready : (0x58 : Byte).getLsbD 3 = true := by decide
    simp only [ports, if_pos, h]
    by_cases hzero : d.waits = 0
    · left
      rw [if_pos hzero]
      exact ⟨hready, rfl⟩
    · right
      rw [if_neg hzero]
      exact ⟨hbusy, rfl, Nat.sub_one_lt hzero⟩
  status_resting d h := by
    rcases h with h | h
    all_goals
      simp only [ports, if_pos, h]
      decide
  data_word d drive next left w h := by
    simp only [ports, if_pos, h]
  data_phase d drive next left w h := by
    simp only [ports, if_pos, h]

end Idealized

end Channel
