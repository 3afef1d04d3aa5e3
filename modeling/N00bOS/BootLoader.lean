import N00bOS.AtaSpec

/-!
# The boot loader reads as the driver does

The repository reads the disk twice: in C++, and before that in the boot
loader, in assembly. Whatever the device behind the ports does, the two give it
the same commands in the same order and store the same words. The loader keeps
its counter on the stack, so the memory may differ in one word there
(`ataLbaRead_agrees`).

The two loops are compared round by round. Waiting and copying are the same
program (`tryAgain_eq`, `repInsw_eq`), and what they do to the device does not
depend on the memory, so a round of one is a round of the other
(`round_agrees`). The counters run in opposite directions, `ecx` down and the
number of the driver up, and the induction is on the rounds that are left
(`nextSector_agrees`).

What the driver is known to read, the loader then reads too
(`ataLbaRead_loads`), and with its arguments that is the kernel
(`load32_loads`).
-/

namespace N00bOS

namespace Boot

variable {δ : Type} {P : Ports δ}

/-- **Two runs agree** off a set of addresses: both fault, or both return with
the same device and the same memory elsewhere. A run that does not end is a
fault as well. -/
inductive Agrees {α β : Type} (S : Set Word) :
    Except Fault (α × Board δ) → Except Fault (β × Board δ) → Prop where
  /-- Both fault. -/
  | error (e : Fault) : Agrees S (Except.error e) (Except.error e)
  /-- Both return. -/
  | ok {a : α} {b : β} {d : δ} {m₁ m₂ : Memory} (h : Set.EqOn m₂ m₁ Sᶜ) :
      Agrees S (Except.ok (a, ⟨d, m₁⟩)) (Except.ok (b, ⟨d, m₂⟩))

/-- `.try_again` is the polling loop. -/
theorem tryAgain_eq (fuel : ℕ) :
    tryAgain P fuel = Ata.insb P Ata.readStatusRegister >>= Ata.pollStatus
      P fuel := by
  induction fuel with
  | zero => rfl
  | succ fuel ih =>
    funext b
    rw [Ata.poll_succ, tryAgain, Machine.bind_ok (Ata.insb_apply _ _), ih]
    by_cases hclear : (P.inb b.device Channel.commandPort).1.getLsbD 3 = false
    · rw [if_pos hclear]
      exact congrFun (if_pos (Ata.dataRequest_eq_zero.mpr hclear)) _
    · rw [if_neg hclear]
      exact congrFun (if_neg (mt Ata.dataRequest_eq_zero.mp hclear)) _

/-- `rep insw` is the copying loop. -/
theorem repInsw_eq (n : ℕ) :
    ∀ edi, repInsw P n edi = Ata.copyWords P n edi := by
  induction n with
  | zero => exact fun _ => rfl
  | succ n ih =>
    intro edi
    simp only [repInsw, Ata.copyWords, ih]
    rfl

/-- What the copying loop does, for any device: it stores a block that does
not depend on the memory. -/
theorem copyWords_put (n : ℕ) : ∀ ptr d, 2 * n < 2 ^ 32 → ∃ d' f, ∀ m,
    Ata.copyWords P n ptr ⟨d, m⟩
      = Except.ok (Memory.offset ptr (2 * n), ⟨d', m.put ptr f (2 * n)⟩) := by
  induction n with
  | zero =>
    intro ptr d _
    refine ⟨d, fun _ => 0, fun m => ?_⟩
    rw [Nat.mul_zero, Memory.offset_zero, Memory.put_zero]
    rfl
  | succ n ih =>
    intro ptr d hn
    obtain ⟨d', f, hrest⟩ := ih (Memory.offset ptr 2)
      (P.inw d Ata.dataRegister).2 (by omega)
    obtain ⟨g, hput⟩ := Memory.exists_store16_put ptr
      (P.inw d Ata.dataRegister).1 f
      (n := 2 * n) (by omega)
    refine ⟨d', g, fun m => ?_⟩
    have hend : Memory.offset (Memory.offset ptr 2) (2 * n)
        = Memory.offset ptr (2 * (n + 1)) := by
      rw [Nat.mul_add_one, Nat.add_comm]
      exact Memory.offset_add ptr 2 (2 * n)
    rw [Ata.copyWords, Machine.bind_ok (Ata.insw_apply _ _),
      Machine.modify_bind]
    refine (hrest _).trans ?_
    rw [hend, hput, Nat.mul_add_one]

/-- The polling loop looks at the device only. -/
theorem poll_mem (fuel : ℕ) : ∀ d : δ,
    (∀ m, (Ata.insb P Ata.readStatusRegister >>= Ata.pollStatus P fuel) ⟨d, m⟩
        = Except.error Fault.diverged)
      ∨ ∃ d', ∀ m,
        (Ata.insb P Ata.readStatusRegister >>= Ata.pollStatus P fuel) ⟨d, m⟩
        = Except.ok (PUnit.unit, ⟨d', m⟩) := by
  induction fuel with
  | zero => exact fun d => Or.inl fun m => rfl
  | succ fuel ih =>
    intro d
    by_cases hclear : (P.inb d Channel.commandPort).1.getLsbD 3 = false
    · refine (ih (P.inb d Channel.commandPort).2).imp (fun h m => ?_)
        fun ⟨d', h⟩ => ⟨d', fun m => ?_⟩
      · rw [Ata.poll_succ, if_pos hclear]
        exact h m
      · rw [Ata.poll_succ, if_pos hclear]
        exact h m
    · refine Or.inr ⟨(P.inb d Channel.commandPort).2, fun m => ?_⟩
      rw [Ata.poll_succ, if_neg hclear]

/-- A run of bytes that misses a word is not all of memory. -/
theorem lt_of_disjoint {a e : Word} {n : ℕ}
    (h : Disjoint (Memory.region a n) (Memory.region e 4)) : n < 2 ^ 32 := by
  by_contra hle
  have he : e ∈ Memory.region e 4 := by
    rw [Memory.mem_region, BitVec.sub_self]
    decide
  have ha : e ∈ Memory.region a n :=
    lt_of_lt_of_le (e - a).isLt (Nat.not_lt.mp hle)
  exact Set.disjoint_left.mp h ha he

/-- The counter survives the sector that is stored. -/
theorem load32_pushed {m : Memory} {edi sp ecx : Word} {f : ℕ → Byte} {n : ℕ}
    (h : Disjoint (Memory.region edi n) (Memory.region sp 4)) :
    ((m.store32 sp ecx).put edi f n).load32 sp = ecx := by
  rw [Memory.load32_of_eqOn_compl (Memory.eqOn_put _ _ _ _) h.symm,
    Memory.load32_store32_self]

/-- One round of both loops. The loader pushes its counter, waits, copies and
pops it again; the sector does not go over the word on the stack, so what is
popped is what was pushed. -/
theorem round_agrees (fuel n rounds : ℕ) (ecx edi esp : Word) (d : δ)
    {m₁ m₂ : Memory}
    (hdisj : Disjoint (Memory.region edi 512) (Memory.region (esp - 4) 4))
    (hmem : Set.EqOn m₂ m₁ (Memory.region (esp - 4) 4)ᶜ) :
    (Ata.copySectors P fuel (n + 1) edi ⟨d, m₁⟩ = Except.error Fault.diverged
        ∧ nextSector P fuel (rounds + 1) ecx edi esp ⟨d,
          m₂⟩ = Except.error Fault.diverged)
      ∨ ∃ d' m₁' m₂', Set.EqOn m₂' m₁' (Memory.region (esp - 4) 4)ᶜ
        ∧ Ata.copySectors P fuel (n + 1) edi ⟨d, m₁⟩
          = Ata.copySectors P fuel n (Memory.offset edi 512) ⟨d', m₁'⟩
        ∧ nextSector P fuel (rounds + 1) ecx edi esp ⟨d, m₂⟩
          = (if ecx - 1 ≠ 0 then
            nextSector P fuel rounds (ecx - 1) (Memory.offset edi 512) esp
              else pure PUnit.unit) ⟨d', m₂'⟩ := by
  have hpush : push (esp) ecx (⟨d, m₂⟩ : Board δ)
      = Except.ok (esp - 4, ⟨d, m₂.store32 (esp - 4) ecx⟩) := rfl
  rw [Ata.copySectors_succ, nextSector, Machine.bind_ok hpush,
    tryAgain_eq, repInsw_eq]
  rcases poll_mem (P := P) fuel d with hpoll | ⟨d₁, hpoll⟩
  · left
    rw [Machine.bind_error (hpoll m₁), Machine.bind_error (hpoll _)]
    exact ⟨rfl, rfl⟩
  · right
    obtain ⟨d₂, f, hcopy⟩ := copyWords_put (P := P) 256 edi d₁ (by decide)
    have hpop : pop (esp - 4)
      (⟨d₂, (m₂.store32 (esp - 4) ecx).put edi f 512⟩ : Board δ)
        = Except.ok ((ecx, esp),
          ⟨d₂, (m₂.store32 (esp - 4) ecx).put edi f 512⟩) := by
      rw [pop, load32_pushed hdisj, BitVec.sub_add_cancel]
    refine ⟨d₂, m₁.put edi f 512, (m₂.store32 (esp - 4) ecx).put edi f 512,
      Memory.put_congr ((Memory.eqOn_store32 _ _ _).trans hmem) _ _ _, ?_, ?_⟩
    · rw [Machine.bind_ok (hpoll m₁), Machine.bind_ok (hcopy m₁)]
    · rw [Machine.bind_ok (hpoll _), Machine.bind_ok (hcopy _),
        Machine.bind_ok hpop]

/-- **The loops over the sectors agree**: the one that counts `ecx` down, and
keeps it on the stack, and the one that counts up. -/
theorem nextSector_agrees (fuel : ℕ) (esp : Word) (n : ℕ) :
    ∀ rounds (ecx edi : Word) (d : δ) m₁ m₂, ecx.toNat = n + 1 → n < rounds →
      Disjoint (Memory.region edi (512 * (n + 1))) (Memory.region (esp - 4) 4) →
      Set.EqOn m₂ m₁ (Memory.region (esp - 4) 4)ᶜ →
      Agrees (Memory.region (esp - 4) 4)
        (Ata.copySectors P fuel (n + 1) edi ⟨d, m₁⟩)
        (nextSector P fuel rounds ecx edi esp ⟨d, m₂⟩) := by
  induction n with
  | zero =>
    intro rounds ecx edi d m₁ m₂ hecx hrounds hdisj hmem
    obtain ⟨rounds, rfl⟩ := Nat.exists_eq_add_of_le' hrounds
    rcases round_agrees (P := P) fuel 0 rounds ecx edi esp d hdisj hmem with
      ⟨h₁, h₂⟩ | ⟨d', m₁', m₂', hmem', h₁, h₂⟩
    · rw [h₁, h₂]
      exact Agrees.error _
    · have hlast : ¬ ecx - 1 ≠ 0 := by
        rw [not_not]
        bv_omega
      rw [h₁, h₂, if_neg hlast]
      exact Agrees.ok hmem'
  | succ n ih =>
    intro rounds ecx edi d m₁ m₂ hecx hrounds hdisj hmem
    obtain ⟨rounds, rfl⟩ := Nat.exists_eq_add_of_le'
      (Nat.succ_le_of_lt (Nat.zero_lt_of_lt hrounds))
    have hfit := lt_of_disjoint hdisj
    rcases round_agrees (P := P) fuel (n + 1) rounds ecx edi esp d
        (hdisj.mono_left (Memory.region_subset (by omega))) hmem with
      ⟨h₁, h₂⟩ | ⟨d', m₁', m₂', hmem', h₁, h₂⟩
    · rw [h₁, h₂]
      exact Agrees.error _
    · have hmore : ecx - 1 ≠ 0 := by bv_omega
      rw [h₁, h₂, if_pos hmore]
      refine ih rounds (ecx - 1) _ d' m₁' m₂' (by bv_omega) (by omega)
        (hdisj.mono_left ?_) hmem'
      exact Memory.region_add_subset (by omega) (by omega)

/-- A result that is dropped. -/
theorem Agrees.bind_pure {α β γ : Type} {S : Set Word} {x : DriverM δ α}
    {b : Board δ} {r : Except Fault (β × Board δ)} (h : Agrees S (x b) r)
    (c : γ) :
    Agrees S ((x >>= fun _ => pure c) b) r := by
  generalize hx : x b = left at h
  cases h with
  | error e =>
    rw [Machine.bind_error hx]
    exact Agrees.error e
  | ok hmem =>
    rw [Machine.bind_ok hx]
    exact Agrees.ok hmem

/-- A byte of a word, shifted down by the loader or by the driver. -/
theorem setWidth_ushiftRight (x : Word) {i : ℕ} (hi : i + 8 ≤ 32) :
    (x >>> i).setWidth 8 = (x.sshiftRight i).setWidth 8 := by
  rw [Ata.setWidth_sshiftRight x hi]
  refine BitVec.eq_of_getLsbD_eq fun j hj => ?_
  rw [BitVec.getLsbD_setWidth, BitVec.getLsbD_ushiftRight,
    BitVec.getLsbD_extractLsb']

/-- The drive register receives the same byte. -/
theorem driveHead_eq (x : Word) :
    (x >>> 24 ||| 0xE0).setWidth 8
      = (x.sshiftRight 24 ||| Ata.masterDrive.setWidth 32).setWidth 8 := by
  rw [BitVec.setWidth_or, BitVec.setWidth_or,
    setWidth_ushiftRight x (by decide)]
  rfl

/-- The lowest byte is the one that is left of the mask. -/
theorem lbaLow_eq (x : Word) : x.setWidth 8 = (x &&& 0xFF).setWidth 8 := by
  rw [BitVec.setWidth_and]
  exact BitVec.and_allOnes.symm

/-- **The same command**: the loader and the driver write the same bytes to
the same ports, and go on with the same device. -/
theorem command_agrees (P : Ports δ) (fuel : ℕ) (eax ecx edi esp : Word)
    (b : Board δ) :
    ∃ d, Ata.readSector P fuel eax ecx edi b
        = (Ata.copySectors P fuel ecx.toInt.toNat edi >>= fun _ =>
          pure 0) ⟨d, b.mem⟩
      ∧ ataLbaRead P fuel eax ecx edi esp b
        = nextSector P fuel (2 ^ 32) ecx edi esp ⟨d, b.mem⟩ := by
  refine ⟨_, rfl, ?_⟩
  rw [ataLbaRead, driveHead_eq, lbaLow_eq eax,
    setWidth_ushiftRight eax (by decide), setWidth_ushiftRight eax (by decide)]
  rfl

/-- The loops after the command. -/
theorem loops_agree (fuel : ℕ) (d : δ) (m : Memory) {ecx edi esp : Word}
    (hpos : 0 < ecx.toInt)
    (hstack : Disjoint (Memory.region edi (512 * ecx.toNat))
      (Memory.region (esp - 4) 4)) :
    Agrees (Memory.region (esp - 4) 4)
      (Ata.copySectors P fuel ecx.toInt.toNat edi ⟨d, m⟩)
      (nextSector P fuel (2 ^ 32) ecx edi esp ⟨d, m⟩) := by
  obtain ⟨hcount, hone⟩ := Ata.toInt_toNat_of_pos hpos
  obtain ⟨n, hn⟩ : ∃ n, ecx.toNat = n + 1 := ⟨ecx.toNat - 1, by omega⟩
  have hrounds : n < 2 ^ 32 := by
    have := ecx.isLt
    omega
  rw [hn] at hstack
  rw [hcount, hn]
  exact nextSector_agrees fuel esp n (2 ^ 32) ecx edi d m m hn hrounds hstack
    (Set.eqOn_refl _ _)

/-- **The boot loader reads as the driver does.** For any device, any sector
and any positive count, when the counter on the stack is not where the sectors
go. Nothing is asked of the device, which need not be a drive at all. -/
theorem ataLbaRead_agrees (P : Ports δ) (fuel : ℕ) (eax ecx edi esp : Word)
    (b : Board δ) (hpos : 0 < ecx.toInt)
    (hstack : Disjoint (Memory.region edi (512 * ecx.toNat))
      (Memory.region (esp - 4) 4)) :
    Agrees (Memory.region (esp - 4) 4) (Ata.readSector P fuel eax ecx edi b)
      (ataLbaRead P fuel eax ecx edi esp b) := by
  obtain ⟨d, hdriver, hloader⟩ := command_agrees P fuel eax ecx edi esp b
  rw [hdriver, hloader]
  exact (loops_agree fuel d b.mem hpos hstack).bind_pure 0

/-- Two runs of bytes that lie apart. -/
theorem disjoint_region {a e : Word} {n k : ℕ} (ha : a.toNat + n ≤ 2 ^ 32)
    (he : e.toNat + k ≤ a.toNat) :
    Disjoint (Memory.region a n) (Memory.region e k) := by
  rw [Set.disjoint_left]
  intro x hx hxe
  rw [Memory.mem_region_of_le ha] at hx
  rw [Memory.mem_region_of_le (by omega)] at hxe
  omega

/-- The small drives, read by both: the stack ends below the sectors. -/
theorem ataLbaRead_agrees_small :
    Agrees (Memory.region (0x7c00 - 4) 4)
      (Ata.readSector (Channel.Idealized.ports Ata.smallDrives 3) 10 14 2 0x8000
        Ata.smallBoard)
      (ataLbaRead (Channel.Idealized.ports Ata.smallDrives 3) 10 14 2
        0x8000 0x7c00
        Ata.smallBoard) :=
  ataLbaRead_agrees _ 10 14 2 0x8000 0x7c00 Ata.smallBoard (by decide)
    (disjoint_region (by decide) (by decide))

/-- **The loader loads what there is**, for a channel that keeps its
contract. -/
theorem ataLbaRead_loads {D : Drives} (C : Channel.Contract P D)
    (eax ecx edi esp : Word) {b : Board δ} (hb : (C.phase b.device).Resting)
    (hpos : 0 < ecx.toInt) (hread : Ata.Readable D eax ecx)
    (hstack : Disjoint (Memory.region edi (512 * ecx.toNat))
      (Memory.region (esp - 4) 4)) :
    ∃ d fuel₀, C.phase d = Channel.Phase.idle ∧ ∀ fuel, fuel₀ ≤ fuel → ∃ m,
      ataLbaRead P fuel eax ecx edi esp b = Except.ok (PUnit.unit, ⟨d, m⟩)
        ∧ Set.EqOn m (b.mem.put edi (Ata.requested D eax) (512 * ecx.toNat))
          (Memory.region (esp - 4) 4)ᶜ := by
  obtain ⟨d, fuel₀, hidle, hrun⟩ := Ata.readSector_returns C edi hb hpos hread
  refine ⟨d, fuel₀, hidle, fun fuel hfuel => ?_⟩
  obtain ⟨d', hdriver, hloader⟩ := command_agrees P fuel eax ecx edi esp b
  have hagrees :=
    (loops_agree (P := P) fuel d' b.mem hpos hstack).bind_pure (0 : ℤ)
  rw [← hdriver, hrun fuel hfuel] at hagrees
  rw [hloader]
  generalize nextSector P fuel (2 ^ 32) ecx edi esp ⟨d', b.mem⟩ = r at hagrees
  cases hagrees with
  | ok hmem => exact ⟨_, rfl, hmem⟩

/-- **The kernel is loaded**: the hundred sectors after the boot sector are at
1 MB, when the stack ends below. Two words are pushed before the first sector
is stored, the place to return to and the counter. -/
theorem load32_loads {D : Drives} (C : Channel.Contract P D)
    (esp returnAddress : Word) {b : Board δ} (hb : (C.phase b.device).Resting)
    (hcap : 101 ≤ D.capacity false) (hlow : 8 ≤ esp.toNat)
    (hhigh : esp.toNat ≤ 0x0100000) :
    ∃ d fuel₀, C.phase d = Channel.Phase.idle ∧ ∀ fuel, fuel₀ ≤ fuel → ∃ m,
      load32 P fuel esp returnAddress b = Except.ok (PUnit.unit, ⟨d, m⟩)
        ∧ ∀ i, i < 51200 → m (Memory.offset 0x0100000 i) = D.sector false
          (1 + i / 512) (i % 512) := by
  have hesp : (esp - 4 - 4).toNat + 4 ≤ 0x0100000 := by bv_omega
  have hstack : Disjoint (Memory.region 0x0100000 51200)
      (Memory.region (esp - 4 - 4) 4) :=
    disjoint_region (by decide) hesp
  obtain ⟨d, fuel₀, hidle, hrun⟩ := ataLbaRead_loads C 1 100 0x0100000 (esp - 4)
    (b := { b with mem := b.mem.store32 (esp - 4) returnAddress })
      hb (by decide)
    ⟨by decide, hcap⟩ hstack
  refine ⟨d, fuel₀, hidle, fun fuel hfuel => ?_⟩
  obtain ⟨m, hload, hmem⟩ := hrun fuel hfuel
  refine ⟨m, hload, fun i hi => ?_⟩
  have hin : Memory.offset 0x0100000 i ∈ Memory.region 0x0100000 51200 :=
    (Memory.offset_mem_region (by omega)).mpr hi
  rw [hmem (Set.disjoint_left.mp hstack hin)]
  exact Memory.put_offset _ _ _ hi (by decide)

/-- The kernel loaded from the small drives, the stack at the boot sector. -/
theorem load32_loads_small :
    ∃ d fuel₀, (Channel.Idealized.contract Ata.smallDrives 3).phase d
      = Channel.Phase.idle
      ∧ ∀ fuel, fuel₀ ≤ fuel → ∃ m,
        load32 (Channel.Idealized.ports Ata.smallDrives 3) fuel 0x7c00 0x7e00
          Ata.smallBoard
            = Except.ok (PUnit.unit, ⟨d, m⟩)
          ∧ ∀ i, i < 51200 →
            m (Memory.offset 0x0100000 i)
              = Ata.smallDrives.sector false (1 + i / 512) (i % 512) :=
  load32_loads (Channel.Idealized.contract Ata.smallDrives 3) 0x7c00 0x7e00
    (Or.inl rfl)
    (by decide) (by decide) (by decide)

end Boot

end N00bOS
