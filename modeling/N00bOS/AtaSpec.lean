import N00bOS.Ata

/-!
# What the ATA driver reads

The driver against the contract of the channel. A transfer that has begun is
followed sector by sector: the status is polled until the sector is announced
(`poll_seeking`), its words are copied (`copyWords_spec`), and the channel goes
on to the next one. The loop of the driver counts sectors on its own, so it
ends with the transfer only when both counts are the same: then it returns with
the sectors (`copySectors_returns`), and else it waits for one that does not
come (`copySectors_diverges`).

What the registers say after the command is bits of the two arguments
(`command_spec`): the number of the sector in 28 bits, with the drive in the
next one, and the number of sectors in one byte, where `0` stands for 256. From
there on a call is one of three, by its count and by what the drive has
(`readSector_meaning`).

The streams read one sector at a time, through `disk::read_block`. That a run
of such calls does what the function `N00bOS.readBlock` from sectors to bytes
says (`readBlocks_refines`) is what lets the file system be verified over
sectors.
-/

namespace N00bOS

namespace Ata

open Channel

variable {δ : Type} {P : Ports δ} {D : Drives}

@[simp] theorem insb_apply (port : BitVec 16) (b : Board δ) :
    insb P port b = Except.ok ((P.inb b.device port).1,
      { b with device := (P.inb b.device port).2 }) :=
  rfl

@[simp] theorem insw_apply (port : BitVec 16) (b : Board δ) :
    insw P port b = Except.ok ((P.inw b.device port).1,
      { b with device := (P.inw b.device port).2 }) :=
  rfl

/-! ## Waiting for a sector

The polling loop is followed along `waits` of the contract, which becomes less
with each reading that finds nothing. -/

/-- The status is read where commands are written. -/
theorem readStatusRegister_eq : readStatusRegister = commandPort := rfl

/-- The bit that is tested. -/
theorem dataRequest_eq_zero {c : Byte} :
    c &&& 0x08 = 0 ↔ c.getLsbD 3 = false := by
  revert c
  decide

/-- One reading of the status. -/
theorem poll_succ (fuel : ℕ) (b : Board δ) :
    (insb P readStatusRegister >>= pollStatus P (fuel + 1)) b
      = if (P.inb b.device commandPort).1.getLsbD 3 = false then
          (insb P readStatusRegister >>= pollStatus P fuel)
            { b with device := (P.inb b.device commandPort).2 }
        else Except.ok (PUnit.unit,
            { b with device := (P.inb b.device commandPort).2 }) := by
  rw [readStatusRegister_eq, Machine.bind_ok (insb_apply _ _), pollStatus,
    readStatusRegister_eq]
  by_cases hclear : (P.inb b.device commandPort).1.getLsbD 3 = false
  · rw [if_pos hclear, if_pos (dataRequest_eq_zero.mpr hclear)]
  · rw [if_neg hclear, if_neg (mt dataRequest_eq_zero.mp hclear)]
    rfl

/-- **A sector that is looked for is announced** after finitely many readings.
The induction is on how often the status may still be read without it, which
the contract bounds for each state of the device. -/
theorem poll_seeking (C : Contract P D) {drive : Bool} {next left : ℕ} (d : δ)
    (hd : C.phase d = Phase.seeking drive next left) :
    ∃ d' fuel₀, C.phase d' = Phase.ready drive next left 0
      ∧ ∀ fuel, fuel₀ ≤ fuel → ∀ mem,
        (insb P readStatusRegister >>= pollStatus P fuel) ⟨d, mem⟩
          = Except.ok (PUnit.unit, ⟨d', mem⟩) := by
  induction hn : C.waits d using Nat.strong_induction_on generalizing d with
  | _ n ih =>
    subst hn
    rcases C.status_seeking d drive next left hd with
      ⟨hset, hready⟩ | ⟨hclear, hseek, hlt⟩
    · refine ⟨_, 1, hready, fun fuel hfuel mem => ?_⟩
      obtain ⟨fuel, rfl⟩ := Nat.exists_eq_add_of_le' hfuel
      rw [poll_succ, if_neg (ne_of_eq_of_ne hset (by decide))]
    · obtain ⟨d', fuel₀, hready, hpoll⟩ := ih _ hlt _ hseek rfl
      refine ⟨d', fuel₀ + 1, hready, fun fuel hfuel mem => ?_⟩
      obtain ⟨fuel, rfl⟩ := Nat.exists_eq_add_of_le'
        (Nat.le_of_add_left_le hfuel)
      rw [poll_succ, if_pos hclear]
      exact hpoll fuel (by omega) mem

/-- **Without a sector to come the loop does not end**, however long it is
given: the bit is not set, and reading it changes nothing. -/
theorem poll_resting (C : Contract P D) (fuel : ℕ) (b : Board δ)
    (hb : (C.phase b.device).Resting) :
    (insb P readStatusRegister >>= pollStatus P fuel) b
      = Except.error Fault.diverged := by
  induction fuel generalizing b with
  | zero =>
    rw [Machine.bind_ok (insb_apply _ _), pollStatus, Machine.fault_apply]
  | succ fuel ih =>
    obtain ⟨hclear, hphase⟩ := C.status_resting b.device hb
    rw [poll_succ, if_pos hclear]
    exact ih _ (hphase ▸ hb)

/-- A loop that ends leaves a sector that is announced. -/
theorem poll_ok (C : Contract P D) {drive : Bool} {next left : ℕ} (fuel : ℕ)
    (b : Board δ) (hb : C.phase b.device = Phase.seeking drive next left) :
    (insb P readStatusRegister >>= pollStatus P fuel) b
      = Except.error Fault.diverged
      ∨ ∃ d', C.phase d' = Phase.ready drive next left 0
        ∧ (insb P readStatusRegister >>= pollStatus P fuel) b
          = Except.ok (PUnit.unit, { b with device := d' }) := by
  induction fuel generalizing b with
  | zero =>
    refine Or.inl ?_
    rw [Machine.bind_ok (insb_apply _ _), pollStatus, Machine.fault_apply]
  | succ fuel ih =>
    rw [poll_succ]
    rcases C.status_seeking b.device drive next left hb with
      ⟨hset, hready⟩ | ⟨hclear, hseek, -⟩
    · rw [if_neg (ne_of_eq_of_ne hset (by decide))]
      exact Or.inr ⟨_, hready, rfl⟩
    · rw [if_pos hclear]
      exact ih _ hseek

/-! ## Copying the words of a sector

One word after the other, with the place in the buffer and the place in the
sector side by side. -/

/-- Where a transfer is after `w` words of a sector. -/
def afterWords (D : Drives) (drive : Bool) (next left w : ℕ) : Phase :=
  if w < 256 then Phase.ready drive next left w
    else Phase.fetch D drive (next + 1) (left - 1)

/-- **The words of a sector are copied**, and the transfer goes on. Each word
is stored where the one before it ends, so the bytes in the buffer are those of
the sector, in order, from its first word to the last. -/
theorem copyWords_spec (C : Contract P D) {drive : Bool} {lba k left : ℕ}
    (m : Memory) (buf : Word) (hk : 512 * (k + 1) < 2 ^ 32) (n : ℕ) :
    ∀ w d, w + n = 256 → C.phase d = afterWords D drive (lba + k) left w →
      ∃ d', C.phase d' = Phase.fetch D drive (lba + (k + 1)) (left - 1)
        ∧ copyWords P n (Memory.offset buf (512 * k + 2 * w))
            ⟨d, m.put buf (D.bytes drive lba) (512 * k + 2 * w)⟩
          = Except.ok (Memory.offset buf (512 * (k + 1)),
              ⟨d', m.put buf (D.bytes drive lba) (512 * (k + 1))⟩) := by
  induction n with
  | zero =>
    intro w d hw hd
    obtain rfl : w = 256 := by omega
    refine ⟨d, hd, ?_⟩
    rw [show 512 * (k + 1) = 512 * k + 2 * 256 by omega, copyWords]
    rfl
  | succ n ih =>
    intro w d hw hd
    rw [afterWords, if_pos (by omega)] at hd
    have hword : D.word drive (lba + k) w
        = D.bytes drive lba (512 * k + 2 * w + 1) ++ D.bytes drive lba
          (512 * k + 2 * w) := by
      rw [Drives.word, Drives.bytes, Drives.bytes,
        show (512 * k + 2 * w + 1) / 512 = k by omega,
        show (512 * k + 2 * w + 1) % 512 = 2 * w + 1 by omega,
        show (512 * k + 2 * w) / 512 = k by omega,
        show (512 * k + 2 * w) % 512 = 2 * w by omega]
    have hphase : C.phase (P.inw d dataPort).2
        = afterWords D drive (lba + k) left (w + 1) := by
      rw [C.data_phase d drive (lba + k) left w hd, afterWords]
      exact if_congr (by omega) rfl rfl
    obtain ⟨d', hd', hcopy⟩ := ih (w + 1) _ (by omega) hphase
    refine ⟨d', hd', ?_⟩
    have hread : (P.inw d dataRegister).1 = D.word drive (lba + k) w :=
      C.data_word d drive (lba + k) left w hd
    rw [copyWords, Machine.bind_ok (insw_apply _ _), Machine.modify_bind]
    dsimp only
    rw [hread, hword, Memory.put_store16 _ _ _ (by omega),
      show Memory.offset buf (512 * k + 2 * w) + 2
        = Memory.offset buf (512 * k + 2 * (w + 1)) from
        Memory.offset_add _ _ 2]
    exact hcopy

/-- A sector is copied behind those that are there. -/
theorem copySector_spec (C : Contract P D) {drive : Bool} {lba k left : ℕ}
    (m : Memory) (buf : Word) (hk : 512 * (k + 1) < 2 ^ 32) (d : δ)
    (hd : C.phase d = Phase.ready drive (lba + k) left 0) :
    ∃ d', C.phase d' = Phase.fetch D drive (lba + (k + 1)) (left - 1)
      ∧ copyWords P 256 (Memory.offset buf (512 * k)) ⟨d,
        m.put buf (D.bytes drive lba) (512 * k)⟩
        = Except.ok (Memory.offset buf (512 * (k + 1)),
            ⟨d', m.put buf (D.bytes drive lba) (512 * (k + 1))⟩) := by
  have h := copyWords_spec C m buf hk 256 0 d rfl hd
  simp only [Nat.mul_zero, Nat.add_zero] at h
  exact h

/-! ## Sector after sector

The induction is on the sectors that are still to come. Each of them takes its
own number of readings, so the fuel that is enough is the largest of these. -/

/-- The wait for a sector is a step of its own. -/
theorem copySectors_succ (fuel n : ℕ) (ptr : Word) :
    copySectors P fuel (n + 1) ptr
      = (insb P readStatusRegister >>= pollStatus P fuel) >>= fun _ =>
          copyWords P 256 ptr >>= copySectors P fuel n := by
  rw [copySectors, bind_assoc]

/-- **The sectors of a transfer are copied**, as long as there are some. What a
round needs is the phase in which so many are still to come; the last round
leaves the channel idle. -/
theorem copySectors_returns (C : Contract P D) {drive : Bool} {lba : ℕ}
    (m : Memory) (buf : Word) (n : ℕ) :
    ∀ k left d, C.phase d = Phase.fetch D drive (lba + k) left → n ≤ left →
      lba + (k + n) ≤ D.capacity drive → 512 * (k + n) < 2 ^ 32 →
      ∃ d' fuel₀, C.phase d' = Phase.fetch D drive (lba + (k + n)) (left - n)
        ∧ ∀ fuel, fuel₀ ≤ fuel →
          copySectors P fuel n (Memory.offset buf (512 * k))
              ⟨d, m.put buf (D.bytes drive lba) (512 * k)⟩
            = Except.ok (PUnit.unit,
              ⟨d', m.put buf (D.bytes drive lba) (512 * (k + n))⟩) := by
  induction n with
  | zero => exact fun k left d hd _ _ _ => ⟨d, 0, hd, fun _ _ => rfl⟩
  | succ n ih =>
    intro k left d hd hleft hcap hfit
    rw [Phase.fetch, if_neg (by omega), if_pos (by omega)] at hd
    obtain ⟨d₁, fuel₁, hready, hpoll⟩ := poll_seeking C d hd
    obtain ⟨d₂, hfetch, hcopy⟩ := copySector_spec C m buf (by omega) d₁ hready
    obtain ⟨d₃, fuel₃, hend, hrest⟩ :=
      ih (k + 1) (left - 1) d₂ hfetch (by omega) (by omega) (by omega)
    rw [show k + (n + 1) = k + 1 + n by omega,
      show left - (n + 1) = left - 1 - n by omega]
    refine ⟨d₃, max fuel₁ fuel₃, hend, fun fuel hfuel => ?_⟩
    rw [copySectors_succ,
      Machine.bind_ok (hpoll fuel (le_of_max_le_left hfuel) _),
      Machine.bind_ok hcopy, hrest fuel (le_of_max_le_right hfuel)]

/-- **A loop that asks for more sectors than come does not end.** Either the
drive has been told a smaller number, or it does not have the next one: in both
cases the loop polls a channel that rests. -/
theorem copySectors_diverges (C : Contract P D) {drive : Bool} (fuel n : ℕ) :
    ∀ next left ptr (b : Board δ),
    C.phase b.device = Phase.fetch D drive next left → 0 < n →
      left < n ∨ D.capacity drive < next + n →
      copySectors P fuel n ptr b = Except.error Fault.diverged := by
  induction n with
  | zero =>
    intro _ _ _ _ _ h
    exact absurd h (Nat.lt_irrefl 0)
  | succ n ih =>
    intro next left ptr b hb _ hmore
    rw [copySectors_succ]
    by_cases hrest : (C.phase b.device).Resting
    · rw [Machine.bind_error (poll_resting C fuel b hrest)]
    · -- there is a sector to come, so `n` more are asked for
      have hseek : 0 < left ∧ next < D.capacity drive := by
        rw [hb, Phase.fetch] at hrest
        constructor
        · refine Nat.pos_of_ne_zero fun h => hrest ?_
          rw [if_pos h]
          exact Or.inl rfl
        · by_contra h
          refine hrest ?_
          rw [if_neg h]
          split
          · exact Or.inl rfl
          · exact Or.inr rfl
      rw [Phase.fetch, if_neg hseek.1.ne', if_pos hseek.2] at hb
      rcases poll_ok C fuel b hb with hpoll | ⟨d₁, hready, hpoll⟩
      · rw [Machine.bind_error hpoll]
      · obtain ⟨d₂, hfetch, hcopy⟩ :=
          copySector_spec C b.mem ptr (k := 0) (by decide) d₁ hready
        simp only [Nat.mul_zero, Memory.offset_zero, Memory.put_zero] at hcopy
        rw [Machine.bind_ok hpoll, Machine.bind_ok hcopy]
        exact ih _ _ _ _ hfetch (by omega) (by omega)

/-! ## The registers

What the five registers hold after the driver has written them, as a command
reads them. -/

/-- A byte of an `int`, shifted down. -/
theorem setWidth_sshiftRight (lba : BitVec 32) {i : ℕ} (hi : i + 8 ≤ 32) :
    (lba.sshiftRight i).setWidth 8 = lba.extractLsb' i 8 := by
  refine BitVec.eq_of_getLsbD_eq fun j hj => ?_
  rw [BitVec.getLsbD_setWidth, BitVec.getLsbD_sshiftRight,
    BitVec.getLsbD_extractLsb']
  simp [hj, show ¬ 32 ≤ j by omega, show i + j < 32 by omega]

/-- What goes to the drive register: the upper bits, and the master drive. -/
def driveHeadByte (lba : BitVec 32) : Byte :=
  (lba.sshiftRight 24 ||| masterDrive.setWidth 32).setWidth 8

theorem driveHeadByte_eq (lba : BitVec 32) :
    driveHeadByte lba = lba.extractLsb' 24 8 ||| masterDrive := by
  rw [driveHeadByte, BitVec.setWidth_or, setWidth_sshiftRight lba (by decide)]
  rfl

/-- The registers that `read_sector` leaves. -/
def sectorRegisters (lba total : BitVec 32) : Registers
  | .driveHead => driveHeadByte lba
  | .sectorCount => total.setWidth 8
  | .lbaLow => (lba &&& 0xFF).setWidth 8
  | .lbaMid => (lba.sshiftRight 8).setWidth 8
  | .lbaHigh => (lba.sshiftRight 16).setWidth 8

variable (lba total : BitVec 32)

/-- The sector is named by its number. -/
theorem sectorRegisters_lbaMode : (sectorRegisters lba total).LbaMode := by
  show (driveHeadByte lba).getLsbD 6 = true
  rw [driveHeadByte_eq, BitVec.getLsbD_or]
  exact Bool.or_eq_true_iff.mpr (Or.inr (by decide))

/-- Bit 28 of the number selects the drive. -/
theorem sectorRegisters_drive :
    (sectorRegisters lba total).drive = lba.getLsbD 28 := by
  show (driveHeadByte lba).getLsbD 4 = _
  rw [driveHeadByte_eq, BitVec.getLsbD_or, BitVec.getLsbD_extractLsb',
    show masterDrive.getLsbD 4 = false by decide, Bool.or_false]
  simp

/-- The 28 bits below it are the sector on the drive. -/
theorem sectorRegisters_lba :
    (sectorRegisters lba total).lba = lba.toNat % 2 ^ 28 := by
  have hhead : (driveHeadByte lba).toNat % 16 = lba.toNat / 2 ^ 24 % 16 := by
    rw [driveHeadByte_eq, BitVec.toNat_or, show (16 : ℕ) = 2 ^ 4 by decide,
      Nat.or_mod_two_pow]
    have hzero : masterDrive.toNat % 2 ^ 4 = 0 := by decide
    rw [hzero, Nat.or_zero, BitVec.extractLsb'_toNat, Nat.shiftRight_eq_div_pow]
    omega
  have hlow : ((lba &&& 0xFF).setWidth 8).toNat = lba.toNat % 256 := by
    have hmask : (lba &&& 0xFF).setWidth 8 = lba.setWidth 8 := by
      rw [BitVec.setWidth_and]
      exact BitVec.and_allOnes
    rw [hmask, BitVec.toNat_setWidth]
  show ((lba &&& 0xFF).setWidth 8).toNat + 256
    * ((lba.sshiftRight 8).setWidth 8).toNat
      + 65536 * ((lba.sshiftRight 16).setWidth 8).toNat + 16777216
        * ((driveHeadByte lba).toNat % 16)
    = _
  rw [hhead, hlow, setWidth_sshiftRight lba (by decide),
    setWidth_sshiftRight lba (by decide), BitVec.extractLsb'_toNat,
    BitVec.extractLsb'_toNat, Nat.shiftRight_eq_div_pow,
    Nat.shiftRight_eq_div_pow]
  omega

/-- The number of sectors is what its lower byte says. -/
theorem sectorRegisters_count :
    (sectorRegisters lba total).count = if total.toNat % 256 = 0 then 256
      else total.toNat % 256 := by
  show (if total.setWidth 8 = 0 then 256 else (total.setWidth 8).toNat) = _
  rw [BitVec.toNat_setWidth]
  refine if_congr ?_ rfl rfl
  rw [← BitVec.toNat_inj, BitVec.toNat_setWidth]
  exact Iff.rfl

/-- **The command is given**: the registers are written, and the transfer
begins. -/
theorem command_spec (C : Contract P D) (buf : Word) (b : Board δ)
    (hb : (C.phase b.device).Resting) :
    ∃ d, C.phase d = Phase.fetch D (lba.getLsbD 28) (lba.toNat % 2 ^ 28)
          (if total.toNat % 256 = 0 then 256 else total.toNat % 256)
      ∧ ∀ fuel, readSector P fuel lba total buf b
        = (copySectors P fuel total.toInt.toNat buf >>= fun _ =>
          pure 0) { b with device := d } := by
  let d₁ := P.outb b.device Register.driveHead.port
    (sectorRegisters lba total .driveHead)
  let d₂ := P.outb d₁ Register.sectorCount.port
    (sectorRegisters lba total .sectorCount)
  let d₃ := P.outb d₂ Register.lbaLow.port (sectorRegisters lba total .lbaLow)
  let d₄ := P.outb d₃ Register.lbaMid.port (sectorRegisters lba total .lbaMid)
  let d₅ := P.outb d₄ Register.lbaHigh.port (sectorRegisters lba total .lbaHigh)
  have h₁ : (C.phase d₁).Resting := C.resting_outb _ _ _ hb
  have h₂ : (C.phase d₂).Resting := C.resting_outb _ _ _ h₁
  have h₃ : (C.phase d₃).Resting := C.resting_outb _ _ _ h₂
  have h₄ : (C.phase d₄).Resting := C.resting_outb _ _ _ h₃
  have h₅ : (C.phase d₅).Resting := C.resting_outb _ _ _ h₄
  have hregisters : C.registers d₅ = sectorRegisters lba total := by
    rw [C.registers_outb d₄ _ _ h₄, C.registers_outb d₃ _ _ h₃,
      C.registers_outb d₂ _ _ h₂, C.registers_outb d₁ _ _ h₁,
      C.registers_outb b.device _ _ hb]
    funext r
    cases r <;> rfl
  refine ⟨P.outb d₅ commandPort readCommand, ?_, fun _ => rfl⟩
  have hcommand := C.phase_command d₅ h₅
    (hregisters ▸ sectorRegisters_lbaMode lba total)
  rw [hregisters, sectorRegisters_drive, sectorRegisters_lba,
    sectorRegisters_count] at hcommand
  exact hcommand

/-! ## What a call does

The three cases of a call, from the loops above. -/

/-- **A call asks for what there is**: no more sectors than the register of
their number can say, and none behind the end of the drive. It is what the
driver does not check. -/
def Readable (D : Drives) (lba total : BitVec 32) : Prop :=
  total.toNat ≤ 256
    ∧ lba.toNat % 2 ^ 28 + total.toNat ≤ D.capacity (lba.getLsbD 28)

/-- The bytes that a call asks for. -/
def requested (D : Drives) (lba : BitVec 32) : ℕ → Byte :=
  D.bytes (lba.getLsbD 28) (lba.toNat % 2 ^ 28)

/-- A count that is positive. -/
theorem toInt_toNat_of_pos {total : BitVec 32} (h : 0 < total.toInt) :
    total.toInt.toNat = total.toNat ∧ 0 < total.toNat := by
  rw [BitVec.toInt_eq_toNat_cond] at h ⊢
  have := total.isLt
  split at h
  · rename_i hlt
    rw [if_pos hlt]
    omega
  · omega

variable {lba total}

/-- **A call that asks for what there is returns with it.** The buffer has the
bytes of the sectors, one sector after the other, and the channel is idle
again. -/
theorem readSector_returns (C : Contract P D) (buf : Word) {b : Board δ}
    (hb : (C.phase b.device).Resting) (hpos : 0 < total.toInt)
    (hread : Readable D lba total) :
    ∃ d fuel₀, C.phase d = Phase.idle ∧ ∀ fuel, fuel₀ ≤ fuel →
      readSector P fuel lba total buf b
        = Except.ok (0,
          ⟨d, b.mem.put buf (requested D lba) (512 * total.toNat)⟩) := by
  obtain ⟨hmax, hcap⟩ := hread
  obtain ⟨hrounds, hone⟩ := toInt_toNat_of_pos hpos
  obtain ⟨d, hfetch, hrun⟩ := command_spec lba total C buf b hb
  have hcount : (if total.toNat % 256 = 0 then 256 else total.toNat % 256)
      = total.toNat := by
    split <;> omega
  rw [hcount] at hfetch
  have hlast : lba.toNat % 2 ^ 28 + (0 + total.toNat)
      ≤ D.capacity (lba.getLsbD 28) := by
    rwa [Nat.zero_add]
  obtain ⟨d', fuel₀, hend, hcopy⟩ :=
    copySectors_returns C b.mem buf total.toNat 0 total.toNat d
    hfetch le_rfl hlast (by omega)
  simp only [Nat.mul_zero, Nat.zero_add, Memory.offset_zero, Memory.put_zero,
    Nat.sub_self]
    at hcopy hend
  refine ⟨d', fuel₀, by rw [hend, Phase.fetch, if_pos rfl],
    fun fuel hfuel => ?_⟩
  rw [hrun, hrounds, Machine.bind_ok (hcopy fuel hfuel)]
  rfl

/-- **A call that asks for more does not return.** The sectors that there are
have been copied by then, into a buffer that the caller does not see again. -/
theorem readSector_diverges (C : Contract P D) (buf : Word) {b : Board δ}
    (hb : (C.phase b.device).Resting) (hpos : 0 < total.toInt)
    (hread : ¬ Readable D lba total) (fuel : ℕ) :
    readSector P fuel lba total buf b = Except.error Fault.diverged := by
  obtain ⟨hrounds, hone⟩ := toInt_toNat_of_pos hpos
  obtain ⟨d, hfetch, hrun⟩ := command_spec lba total C buf b hb
  rw [hrun, hrounds, Machine.bind_error
    (copySectors_diverges C fuel total.toNat _ _ buf _ hfetch hone ?_)]
  rw [Readable, not_and_or, Nat.not_le, Nat.not_le] at hread
  refine hread.imp_left fun hmax => ?_
  split <;> omega

/-- **What `read_sector` does**, whatever it is called with. With nothing to
read it returns, but the drive has been told to read all the same and waits
with its first sector, if it has that. With as many sectors as the drive can be
told, and has, the buffer receives them and nothing else changes. With more it
waits for a sector that does not come. -/
theorem readSector_meaning (C : Contract P D) (lba total : BitVec 32)
    (buf : Word) (b : Board δ) (hb : (C.phase b.device).Resting) :
    (total.toInt ≤ 0 → ∃ d,
        C.phase d = Phase.fetch D (lba.getLsbD 28) (lba.toNat % 2 ^ 28)
          (if total.toNat % 256 = 0 then 256 else total.toNat % 256)
        ∧ ∀ fuel, readSector P fuel lba total buf b = Except.ok (0,
          { b with device := d }))
      ∧ (0 < total.toInt → Readable D lba total → ∃ d fuel₀,
        C.phase d = Phase.idle
        ∧ ∀ fuel, fuel₀ ≤ fuel → readSector P fuel lba total buf b
          = Except.ok (0,
            ⟨d, b.mem.put buf (requested D lba) (512 * total.toNat)⟩))
      ∧ (0 < total.toInt → ¬ Readable D lba total →
        ∀ fuel, readSector P fuel lba total buf b
          = Except.error Fault.diverged) := by
  refine ⟨fun hle => ?_, readSector_returns C buf hb,
    readSector_diverges C buf hb⟩
  obtain ⟨d, hfetch, hrun⟩ := command_spec lba total C buf b hb
  refine ⟨d, hfetch, fun fuel => ?_⟩
  rw [hrun, Int.toNat_of_nonpos hle]
  rfl

/-- Two drives for the examples: a master with 128 sectors, and no slave. -/
def smallDrives : Drives where
  capacity drive := if drive then 0 else 128
  sector _ lba i := BitVec.ofNat 8 (lba + i)

/-- A board with these drives, before the first command. -/
def smallBoard : Board Idealized := ⟨⟨fun _ => 0, Phase.idle, 0⟩, fun _ => 0⟩

/-- Two sectors of the master are read, one of the slave is waited for. -/
theorem readSector_meaning_small :
    (∃ d fuel₀, ((Idealized.contract smallDrives 3).phase d = Phase.idle
      ∧ ∀ fuel, fuel₀ ≤ fuel →
        readSector (Idealized.ports smallDrives 3) fuel 14 2 0x8000 smallBoard
        = Except.ok (0,
          ⟨d, smallBoard.mem.put 0x8000 (requested smallDrives 14) 1024⟩)))
      ∧ ∀ fuel, readSector (Idealized.ports smallDrives 3) fuel 0x10000000 1
        0x8000 smallBoard
        = Except.error Fault.diverged :=
  ⟨(readSector_meaning (Idealized.contract smallDrives 3) 14 2 0x8000 smallBoard
      (Or.inl rfl)).2.1 (by decide) ⟨by decide, by decide⟩,
    (readSector_meaning (Idealized.contract smallDrives 3) 0x10000000 1
      0x8000 smallBoard
      (Or.inl rfl)).2.2 (by decide) fun h => absurd h.2 (by decide)⟩

/-! ## Runs of calls

The rest of the kernel reads the disk through `N00bOS.readBlock`, a function
from sectors to bytes. -/

/-- The sectors of the drives under the numbers the kernel uses. -/
def sectorsOf (D : Drives) (lba : ℤ) : ℕ → Byte :=
  D.sector ((BitVec.ofInt 32 lba).getLsbD 28)
    ((BitVec.ofInt 32 lba).toNat % 2 ^ 28)

/-- A call, by `N00bOS.readBlock`: what it returns, and the memory after it. -/
def Request.serve (sectors : ℤ → ℕ → Byte) (r : Request) (m : Memory) :
    ℤ × Memory :=
  match N00bOS.readBlock sectors r.disk r.lba with
  | Except.error res => (res, m)
  | Except.ok bytes => (0, m.put r.buf bytes 512)

/-- A run of calls, by `N00bOS.readBlock`. -/
def serveAll (sectors : ℤ → ℕ → Byte) : List Request → Memory → List ℤ × Memory
  | [], m => ([], m)
  | r :: rs, m =>
    let first := r.serve sectors m
    let rest := serveAll sectors rs first.2
    (first.1 :: rest.1, rest.2)

/-- The sector that a request names is on its drive. -/
def Request.OnDrive (D : Drives) (r : Request) : Prop :=
  (BitVec.ofInt 32 r.lba).toNat % 2 ^ 28
    < D.capacity ((BitVec.ofInt 32 r.lba).getLsbD 28)

instance (D : Drives) (r : Request) : Decidable (r.OnDrive D) :=
  inferInstanceAs (Decidable (_ < _))

/-- One block of a drive is one of its sectors. -/
theorem put_requested (m : Memory) (buf : Word) (lba : ℤ) :
    m.put buf (requested D (BitVec.ofInt 32 lba)) 512
      = m.put buf (sectorsOf D lba) 512 := by
  funext x
  rw [Memory.put, Memory.put]
  split
  · rename_i h
    rw [requested, Drives.bytes, Nat.div_eq_of_lt h, Nat.mod_eq_of_lt h]
    rfl
  · rfl

/-- **One call refines `N00bOS.readBlock`.** With enough fuel it returns the
same, the buffer has the same bytes, and the channel rests afterwards, as it
did before. -/
theorem readBlock_refines (C : Contract P D) {b : Board δ}
    (hb : (C.phase b.device).Resting) (r : Request)
    (hr : r.disk = DiskRef.primary → r.OnDrive D) :
    ∃ d fuel₀, (C.phase d).Resting ∧ ∀ fuel, fuel₀ ≤ fuel →
      readBlock P fuel r.disk (BitVec.ofInt 32 r.lba) 1 r.buf b
        = Except.ok ((r.serve (sectorsOf D) b.mem).1,
          ⟨d, (r.serve (sectorsOf D) b.mem).2⟩) := by
  by_cases hdisk : r.disk = DiskRef.primary
  · have honly := hr hdisk
    have hread : Readable D (BitVec.ofInt 32 r.lba) 1 := ⟨by decide, honly⟩
    obtain ⟨d, fuel₀, hidle, hrun⟩ :=
      readSector_returns C r.buf hb (by decide) hread
    refine ⟨d, fuel₀, Or.inl hidle, fun fuel hfuel => ?_⟩
    rw [readBlock, if_neg (not_not.mpr hdisk), hrun fuel hfuel, Request.serve,
      N00bOS.readBlock, if_neg (not_not.mpr hdisk),
      show 512 * (1 : BitVec 32).toNat = 512 from rfl, put_requested]
  · refine ⟨b.device, 0, hb, fun fuel _ => ?_⟩
    rw [readBlock, if_pos hdisk, Request.serve, N00bOS.readBlock, if_pos hdisk]
    rfl

/-- **A run of calls refines `N00bOS.readBlock`.** Every call returns what the
function from sectors to bytes says, the buffers receive the bytes one after
the other, and the channel rests in between. The sectors that are asked for are
on their drives; a call for no disk is answered without the drive. That the
channel rests again is what lets the next call begin. -/
theorem readBlocks_refines (C : Contract P D) (rs : List Request) (b : Board δ)
    (hb : (C.phase b.device).Resting)
    (hrs : ∀ r ∈ rs, r.disk = DiskRef.primary → r.OnDrive D) :
    ∃ d fuel₀, (C.phase d).Resting ∧ ∀ fuel, fuel₀ ≤ fuel →
      readBlocks P fuel rs b
        = Except.ok ((serveAll (sectorsOf D) rs b.mem).1,
          ⟨d, (serveAll (sectorsOf D) rs b.mem).2⟩) := by
  induction rs generalizing b with
  | nil => exact ⟨b.device, 0, hb, fun _ _ => rfl⟩
  | cons r rs ih =>
    obtain ⟨d₁, fuel₁, hrest₁, hfirst⟩ :=
      readBlock_refines C hb r (hrs r List.mem_cons_self)
    obtain ⟨d₂, fuel₂, hrest₂, hrun⟩ :=
      ih ⟨d₁, (r.serve (sectorsOf D) b.mem).2⟩ hrest₁
      fun r' hr' => hrs r' (List.mem_cons_of_mem r hr')
    refine ⟨d₂, max fuel₁ fuel₂, hrest₂, fun fuel hfuel => ?_⟩
    rw [readBlocks, Machine.bind_ok (hfirst fuel (le_of_max_le_left hfuel)),
      Machine.bind_ok (hrun fuel (le_of_max_le_right hfuel))]
    rfl

/-- Two sectors read from the small drives, and a call for no disk between. -/
theorem readBlocks_refines_small :
    ∃ d fuel₀, ((Idealized.contract smallDrives 3).phase d).Resting
      ∧ ∀ fuel, fuel₀ ≤ fuel →
      readBlocks (Idealized.ports smallDrives 3) fuel
          [⟨.primary, 3, 0x8000⟩, ⟨.null, 4, 0x8000⟩,
            ⟨.primary, 5, 0x8100⟩] smallBoard
        = Except.ok ([0, -einval, 0],
          ⟨d, ((smallBoard.mem.put 0x8000 (sectorsOf smallDrives 3) 512).put
            0x8100 (sectorsOf smallDrives 5) 512)⟩) :=
  readBlocks_refines (Idealized.contract smallDrives 3)
    [⟨.primary, 3, 0x8000⟩, ⟨.null, 4, 0x8000⟩, ⟨.primary, 5, 0x8100⟩]
      smallBoard (Or.inl rfl)
    (by
      simp only [List.forall_mem_cons, List.not_mem_nil, IsEmpty.forall_iff,
        implies_true, and_true]
      exact ⟨fun _ => by decide, (nomatch ·), fun _ => by decide⟩)

end Ata

end N00bOS
