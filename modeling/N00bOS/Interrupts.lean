import N00bOS.Descriptors

/-!
# Interrupts

`idt_set` scatters the address of a handler over a gate of eight bytes, and
`idt_init` makes a gate for every vector. `deliver` is what the processor does
with a vector: it reads the gate, then the descriptor of the segment that the
gate names, and goes to an address. With the two tables that `kernel_main`
makes, and after any calls of `idt_set`, that is the address of the handler
that was set last (`interrupts_reach_their_handlers`).

The proof is about bytes on one side and about the table on the other. A gate
in bytes gives back the address, the selector and the attributes that `idt_set`
put in its fields (`deliver_interruptGate`), and the descriptor of the kernel's
code is read as in `N00bOS.Descriptors` (`structuredGdt_code`). The table is a
function from numbers to handlers (`Installed`); the loop of `idt_init` makes
it that of the first handlers, and each `idt_set` changes it at one number
(`Run.installed`).
-/

namespace N00bOS

/-- `idt_descriptor`. -/
@[ext]
structure IdtDescriptor where
  offset1 : BitVec 16
  selector : BitVec 16
  zero : Byte
  typeAttributes : Byte
  offset2 : BitVec 16
  deriving DecidableEq

/-- The table `idt_descs`. -/
abbrev IdtDescs := ℕ → IdtDescriptor

namespace Idt

open Gdt

/-- `NOOBOS_TOTAL_INTERRUPTS`. -/
def noobosTotalInterrupts : ℕ := 512

/-- `KERNEL_CODE_SELECTOR`. -/
def kernelCodeSelector : BitVec 16 := 0x08#16

/-- What `idt_set` puts in a descriptor. -/
def interruptGate (address : Word) : IdtDescriptor where
  offset1 := (address &&& 0x0000FFFF#32).setWidth 16
  selector := kernelCodeSelector
  zero := 0
  typeAttributes := 0xEE#8
  offset2 := (address >>> 16).setWidth 16

/-- `idt_set`. There is no descriptor for a number outside the table. -/
def idtSet (interruptNumber : ℤ) (address : Word) (idtDescs : IdtDescs) :
    Option IdtDescs :=
  if 0 ≤ interruptNumber ∧ interruptNumber < noobosTotalInterrupts then
    some (Function.update idtDescs interruptNumber.toNat
      (interruptGate address))
  else none

/-- The addresses of the handlers that `idt_init` sets. -/
structure Handlers where
  idtZero : Word
  int21h : Word
  noInterrupt : Word

/-- The loop of `idt_init`, over the `left` numbers from `i` on. -/
def idtFill (noInterrupt : Word) : ℕ → ℕ → IdtDescs → Option IdtDescs
  | 0, _, idtDescs => some idtDescs
  | left + 1, i, idtDescs => do
    let idtDescs ← idtSet i noInterrupt idtDescs
    idtFill noInterrupt left (i + 1) idtDescs

/-- The table after the `memset` of `idt_init`. -/
def clearedDescs : IdtDescs := fun _ => ⟨0, 0, 0, 0, 0⟩

/-- `idt_init`. -/
def idtInit (handlers : Handlers) : Option IdtDescs := do
  let idtDescs ← idtFill handlers.noInterrupt noobosTotalInterrupts 0
    clearedDescs
  -- example divide by zero
  let idtDescs ← idtSet 0 handlers.idtZero idtDescs
  -- keyboard interrupt
  idtSet 0x21 handlers.int21h idtDescs

/-- `idtr_desc.limit`: `sizeof(idt_descs) - 1`. -/
def idtrLimit : BitVec 16 := BitVec.ofNat 16 (8 * noobosTotalInterrupts - 1)

/-- The table `structured_gdt` of `kernel_main`, for an address of its `tss`. -/
def structuredGdt (tss : Word) : List StructuredGdt :=
  [⟨0x00#32, 0x0#32, 0x0#8⟩,
    ⟨0x00#32, 0xFFFFFFFF#32, 0x9A#8⟩,
    ⟨0x00#32, 0xFFFFFFFF#32, 0x92#8⟩,
    ⟨0x00#32, 0xFFFFFFFF#32, 0xF8#8⟩,
    ⟨0x00#32, 0xFFFFFFFF#32, 0xF2#8⟩,
    ⟨tss, 100#32, 0xE9#8⟩]

/-- The size that `gdt_load` is given: `sizeof(gdt_real)`. -/
def gdtLoadSize : ℕ := 48

/-! ## The processor

What is read of the two tables, and which checks are made, as far as an
interrupt in the kernel is concerned. It is written from the layout of a gate
in memory, and not from `idt_set`. -/

/-- The bytes of a descriptor: it is packed, and the low byte of a field comes
first. -/
def descriptorByte (desc : IdtDescriptor) : ℕ → Byte
  | 0 => desc.offset1.setWidth 8
  | 1 => (desc.offset1 >>> 8).setWidth 8
  | 2 => desc.selector.setWidth 8
  | 3 => (desc.selector >>> 8).setWidth 8
  | 4 => desc.zero
  | 5 => desc.typeAttributes
  | 6 => desc.offset2.setWidth 8
  | _ => (desc.offset2 >>> 8).setWidth 8

/-- The bytes of a table, from its start on. -/
def idtBytes (idtDescs : IdtDescs) (i : ℕ) : Byte :=
  descriptorByte (idtDescs (i / 8)) (i % 8)

/-- **Where an interrupt goes**: the address, the privilege level of the code
there, and the level up to which programs may raise it themselves. -/
structure Delivery where
  address : Word
  level : BitVec 2
  callers : BitVec 2
  deriving DecidableEq

/-- **What the processor does with a vector.** It goes through a present gate of
32 bits to a present code segment, and faults otherwise. -/
def deliver (gdt : ℕ → Byte) (gdtLimit : ℕ) (idt : ℕ → Byte) (idtLimit : ℕ)
    (vector : Byte) :
    Option Delivery :=
  let gate := 8 * vector.toNat
  let offset : Word :=
    idt (gate + 7) ++ idt (gate + 6) ++ idt (gate + 1) ++ idt (gate + 0)
  let selector : BitVec 16 := idt (gate + 3) ++ idt (gate + 2)
  let attributes := idt (gate + 5)
  let segment := 8 * (selector >>> 3).toNat
  let code := descriptor fun j => gdt (segment + j)
  if gate + 7 ≤ idtLimit ∧ attributes.getLsbD 7
    ∧ attributes.extractLsb' 0 5 = 0b01110#5
      ∧ segment ≠ 0 ∧ segment + 7 ≤ gdtLimit
      ∧ code.access.getLsbD 7 ∧ code.access.getLsbD 4 ∧ code.access.getLsbD 3
      ∧ offset ≤ code.limit then
    some ⟨code.base + offset, code.access.extractLsb' 5 2,
      attributes.extractLsb' 5 2⟩
  else none

/-! ## One gate

The fields of a descriptor and the bytes that they are in memory. -/

/-- The low half of an address, in bytes. -/
theorem offset1_bytes (address : Word) :
    (interruptGate address).offset1.setWidth 8 = uint8 address
      ∧ ((interruptGate address).offset1 >>> 8).setWidth 8
        = uint8 (address >>> 8) := by
  have hlow : (interruptGate address).offset1 = address.setWidth 16 := by
    apply BitVec.eq_of_toNat_eq
    rw [interruptGate, BitVec.toNat_setWidth, BitVec.toNat_setWidth,
      BitVec.toNat_and, show (0x0000FFFF#32).toNat = 2 ^ 16 - 1 from rfl,
      Nat.and_two_pow_sub_one_eq_mod]
    omega
  rw [hlow]
  refine ⟨?_, ?_⟩
  · ext i hi
    simp only [uint8, BitVec.getElem_setWidth, BitVec.getLsbD_setWidth]
    simp [show i < 16 by omega]
  · ext i hi
    simp only [uint8, BitVec.getElem_setWidth, BitVec.getLsbD_ushiftRight,
      BitVec.getLsbD_setWidth]
    simp [show 8 + i < 16 by omega]

/-- The high half. -/
theorem offset2_bytes (address : Word) :
    (interruptGate address).offset2.setWidth 8 = uint8 (address >>> 16)
      ∧ ((interruptGate address).offset2 >>> 8).setWidth 8
        = uint8 (address >>> 24) := by
  refine ⟨?_, ?_⟩
  · ext i hi
    simp only [interruptGate, uint8, BitVec.getElem_setWidth,
      BitVec.getLsbD_setWidth]
    simp [show i < 16 by omega]
  · ext i hi
    simp only [interruptGate, uint8, BitVec.getElem_setWidth,
      BitVec.getLsbD_ushiftRight, BitVec.getLsbD_setWidth]
    simp [show 8 + i < 16 by omega, ← Nat.add_assoc]

/-- **The offset of a gate** is the address. Its halves stand at the two ends
of the gate, each with its low byte first. -/
theorem offset_append (address : Word) :
    descriptorByte (interruptGate address) 7
      ++ descriptorByte (interruptGate address) 6
      ++ descriptorByte (interruptGate address) 1
      ++ descriptorByte (interruptGate address) 0
      = address := by
  have h₁ := offset1_bytes address
  have h₂ := offset2_bytes address
  simp only [descriptorByte, h₁.1, h₁.2, h₂.1, h₂.2]
  exact uint8_append address

/-- The bytes of a gate in the table. -/
theorem idtBytes_gate (idtDescs : IdtDescs) (n : ℕ) {j : ℕ} (hj : j < 8) :
    idtBytes idtDescs (8 * n + j) = descriptorByte (idtDescs n) j := by
  rw [idtBytes, show (8 * n + j) / 8 = n by omega,
    show (8 * n + j) % 8 = j by omega]

/-! ## The segments of the kernel

The one segment that gates name. -/

/-- The limits of the table can be held. -/
theorem structuredGdt_admissible (tss : Word) :
    ∀ source ∈ structuredGdt tss, AdmissibleLimit source.limit := by
  intro source hsource
  simp only [structuredGdt, List.mem_cons, List.not_mem_nil,
    or_false] at hsource
  rcases hsource with rfl | rfl | rfl | rfl | rfl | rfl
  all_goals
    show AdmissibleLimit _
    dsimp only
    decide

/-- **The segment of the kernel's code** is the whole address space, at level
`0`. It is the descriptor that the selector in every gate names. -/
theorem structuredGdt_code (tss : Word) (gdt : GdtBytes) :
    ∃ gdt', structuredGdtToGdt (structuredGdt tss) gdt = some gdt'
      ∧ descriptor (fun j => gdt' (8 + j)) = ⟨0x00#32, 0xFFFFFFFF#32,
        0x9A#8⟩ := by
  obtain ⟨gdt', hrun, htable, -⟩ :=
    structuredGdtToGdtFrom_spec (structuredGdt tss) 0 gdt
    (structuredGdt_admissible tss)
  exact ⟨gdt', hrun, htable 1 (show 1 < 6 by decide)⟩

/-- **A gate leads to its handler.** The two halves of the address are put
together again, the segment has base `0`, and no address is behind its limit.
-/
theorem deliver_interruptGate {gdt : GdtBytes}
    (hcode : descriptor (fun j => gdt (8 + j))
      = ⟨0x00#32, 0xFFFFFFFF#32, 0x9A#8⟩)
    {idtDescs : IdtDescs} {vector : Byte} {address : Word}
    (hgate : idtDescs vector.toNat = interruptGate address) :
    deliver gdt gdtLoadSize (idtBytes idtDescs) idtrLimit.toNat vector
      = some ⟨address, 0, 3⟩ := by
  have hvector := vector.isLt
  have hlimit : 8 * vector.toNat + 7 ≤ idtrLimit.toNat := by
    rw [show idtrLimit.toNat = 4095 from rfl]
    omega
  rw [deliver]
  simp only [idtBytes_gate idtDescs vector.toNat (show 0 < 8 by decide),
    idtBytes_gate idtDescs vector.toNat (show 1 < 8 by decide),
    idtBytes_gate idtDescs vector.toNat (show 2 < 8 by decide),
    idtBytes_gate idtDescs vector.toNat (show 3 < 8 by decide),
    idtBytes_gate idtDescs vector.toNat (show 5 < 8 by decide),
    idtBytes_gate idtDescs vector.toNat (show 6 < 8 by decide),
    idtBytes_gate idtDescs vector.toNat (show 7 < 8 by decide), hgate,
    offset_append]
  -- the selector is the one of the kernel's code
  have hselector : descriptorByte (interruptGate address) 3
    ++ descriptorByte (interruptGate address) 2
      = kernelCodeSelector := by
    show (kernelCodeSelector >>> 8).setWidth 8 ++ kernelCodeSelector.setWidth 8
      = kernelCodeSelector
    decide
  have hsegment : 8 * (kernelCodeSelector >>> 3).toNat = 8 := by decide
  have hattributes : descriptorByte (interruptGate address) 5 = 0xEE#8 := rfl
  simp only [hselector, hsegment, hcode, hattributes]
  have hoffset : address ≤ 0xFFFFFFFF#32 :=
    BitVec.le_def.mpr (Nat.le_of_lt_succ address.isLt)
  rw [if_pos ⟨hlimit, by decide, by decide, by decide, by decide, by decide,
    by decide, by decide, hoffset⟩, BitVec.zero_add]
  rfl

/-! ## The table

`idt_init`, and then any calls of `idt_set` with numbers in the table. -/

/-- **A table of gates**, to the handler of each number. The handlers are a
function of the number, of which only the numbers in the table matter. -/
def Installed (handler : ℕ → Word) (idtDescs : IdtDescs) : Prop :=
  ∀ n, n < noobosTotalInterrupts → idtDescs n = interruptGate (handler n)

/-- **`idt_set`** changes the handler of its number. It has a result exactly
for the numbers of the table. -/
theorem idtSet_eq_some {interruptNumber : ℤ} {address : Word}
    {idtDescs idtDescs' : IdtDescs} :
    idtSet interruptNumber address idtDescs = some idtDescs'
      ↔ (0 ≤ interruptNumber ∧ interruptNumber < noobosTotalInterrupts)
        ∧ idtDescs' = Function.update idtDescs interruptNumber.toNat
          (interruptGate address) := by
  rw [idtSet]
  by_cases h : 0 ≤ interruptNumber ∧ interruptNumber < noobosTotalInterrupts
  · rw [if_pos h, Option.some.injEq, eq_comm]
    exact (and_iff_right h).symm
  · rw [if_neg h]
    exact iff_of_false (nomatch ·) fun h' => h h'.1

theorem Installed.idtSet {handler : ℕ → Word} {idtDescs idtDescs' : IdtDescs}
    (h : Installed handler idtDescs) {interruptNumber : ℤ} {address : Word}
    (hset : Idt.idtSet interruptNumber address idtDescs = some idtDescs') :
    Installed (Function.update handler interruptNumber.toNat address)
      idtDescs' := by
  obtain ⟨-, rfl⟩ := idtSet_eq_some.mp hset
  intro n hn
  by_cases hnumber : n = interruptNumber.toNat
  · rw [hnumber, Function.update_self, Function.update_self]
  · rw [Function.update_of_ne hnumber, Function.update_of_ne hnumber]
    exact h n hn

/-- A number of the table can be set. -/
theorem idtSet_natCast {n : ℕ} (hn : n < noobosTotalInterrupts) (address : Word)
    (idtDescs : IdtDescs) : Idt.idtSet n address idtDescs
      = some (Function.update idtDescs n (interruptGate address)) :=
  idtSet_eq_some.mpr
    ⟨⟨Int.natCast_nonneg n, by omega⟩, by rw [Int.toNat_natCast]⟩

/-- **The loop** makes a gate for each number from `i` on, and leaves those
before it. -/
theorem idtFill_spec (noInterrupt : Word) (left : ℕ) {i : ℕ}
    (idtDescs : IdtDescs) (hle : i + left ≤ noobosTotalInterrupts) :
    ∃ idtDescs', idtFill noInterrupt left i idtDescs = some idtDescs'
      ∧ (∀ n, i ≤ n → n < i + left → idtDescs' n = interruptGate noInterrupt)
      ∧ ∀ n, n < i → idtDescs' n = idtDescs n := by
  induction left generalizing i idtDescs with
  | zero =>
    exact ⟨idtDescs, rfl, fun n h₁ h₂ => absurd h₂ (by omega), fun _ _ => rfl⟩
  | succ left ih =>
    obtain ⟨idtDescs', hrun, hfilled, hbefore⟩ := ih
      (i := i + 1) (Function.update idtDescs i (interruptGate noInterrupt))
        (by omega)
    refine ⟨idtDescs', ?_, fun n h₁ h₂ => ?_, fun n hn => ?_⟩
    · rw [idtFill, idtSet_natCast (by omega)]
      exact hrun
    · rcases Nat.eq_or_lt_of_le h₁ with rfl | hlt
      · rw [hbefore i (Nat.lt_succ_self i), Function.update_self]
      · exact hfilled n hlt (by omega)
    · rw [hbefore n (Nat.lt_succ_of_lt hn),
        Function.update_of_ne (Nat.ne_of_lt hn)]

/-- The handler that `idt_init` sets for a number. -/
def Handlers.first (handlers : Handlers) (n : ℕ) : Word :=
  if n = 0x21 then handlers.int21h
  else if n = 0 then handlers.idtZero
  else handlers.noInterrupt

/-- **`idt_init`** returns, and has made a gate for every number. The first
ones it sets a second time, which replaces the gate that the loop has made. -/
theorem idtInit_installed (handlers : Handlers) :
    ∃ idtDescs, idtInit handlers = some idtDescs
      ∧ Installed handlers.first idtDescs := by
  obtain ⟨idtDescs, hfill, hfilled, -⟩ :=
    idtFill_spec handlers.noInterrupt noobosTotalInterrupts
    (i := 0) clearedDescs (by omega)
  have hinstalled : Installed (fun _ => handlers.noInterrupt) idtDescs :=
    fun n hn => hfilled n (Nat.zero_le n) (by omega)
  have hzero := idtSet_natCast (n := 0) (by decide) handlers.idtZero idtDescs
  have hkeyboard := idtSet_natCast (n := 0x21) (by decide) handlers.int21h
    (Function.update idtDescs 0 (interruptGate handlers.idtZero))
  have hfirst : Function.update (Function.update (fun _ => handlers.noInterrupt)
    0 handlers.idtZero)
      0x21 handlers.int21h = handlers.first := by
    funext n
    rw [Function.update_apply, Function.update_apply, Handlers.first]
  refine ⟨_, ?_, hfirst ▸ (hinstalled.idtSet hzero).idtSet hkeyboard⟩
  rw [idtInit, hfill]
  exact (congrArg (fun idtDescs => idtDescs >>= Idt.idtSet 0x21 handlers.int21h)
    hzero).trans
    hkeyboard

/-- **A run of `idt_set`** after `idt_init`: the calls, the latest first, and
the table after them. -/
inductive Run (handlers : Handlers) : List (ℤ × Word) → IdtDescs → Prop where
  | init {idtDescs : IdtDescs} : idtInit handlers = some idtDescs →
      Run handlers [] idtDescs
  | set {calls : List (ℤ × Word)} {idtDescs idtDescs' : IdtDescs}
      {interruptNumber : ℤ}
      {address : Word} : Run handlers calls idtDescs →
      idtSet interruptNumber address idtDescs = some idtDescs' →
      Run handlers ((interruptNumber, address) :: calls) idtDescs'

/-- The handler of a number after some calls: that of the latest call for it, or
else the first one. -/
def Handlers.after (handlers : Handlers) (calls : List (ℤ × Word))
    (n : ℕ) : Word :=
  ((calls.find? fun call => call.1 = (n : ℤ)).map Prod.snd).getD
    (handlers.first n)

/-- **After every run** there is a gate to the handler of each number. An
`idt_set` puts one gate in the place of another and keeps all the others, so
this is kept by each call. -/
theorem Run.installed {handlers : Handlers} {calls : List (ℤ × Word)}
    {idtDescs : IdtDescs} (h : Run handlers calls idtDescs) :
    Installed (handlers.after calls) idtDescs := by
  induction h with
  | init hinit =>
    obtain ⟨idtDescs', hinit', hinstalled⟩ := idtInit_installed handlers
    obtain rfl := Option.some.inj (hinit.symm.trans hinit')
    exact hinstalled
  | @set calls idtDescs idtDescs' interruptNumber address _ hset ih =>
    obtain ⟨⟨hlo, -⟩, -⟩ := idtSet_eq_some.mp hset
    have hafter : Function.update (handlers.after calls)
      interruptNumber.toNat address
        = handlers.after ((interruptNumber, address) :: calls) := by
      funext n
      rw [Function.update_apply, Handlers.after, Handlers.after,
        List.find?_cons]
      by_cases hn : interruptNumber = n
      · rw [if_pos (by omega), decide_eq_true hn]
        rfl
      · rw [if_neg (by omega), decide_eq_false hn]
    exact hafter ▸ ih.idtSet hset

/-- **Interrupts reach their handlers.** For every place of the task state
segment and whatever the tables held before: `structured_gdt_to_gdt` and
`idt_init` return, and after every run of `idt_set` the processor goes from each
of its 256 vectors to the handler that was set for it last, at level `0`;
programs of every level can raise it. -/
theorem interrupts_reach_their_handlers (handlers : Handlers) (tss : Word)
    (gdt : GdtBytes) :
    ∃ gdt', structuredGdtToGdt (structuredGdt tss) gdt = some gdt'
      ∧ (∃ idtDescs, idtInit handlers = some idtDescs)
      ∧ ∀ calls idtDescs, Run handlers calls idtDescs → ∀ vector : Byte,
        deliver gdt' gdtLoadSize (idtBytes idtDescs) idtrLimit.toNat vector
          = some ⟨handlers.after calls vector.toNat, 0, 3⟩ := by
  obtain ⟨gdt', hrun, hcode⟩ := structuredGdt_code tss gdt
  obtain ⟨idtDescs, hinit, -⟩ := idtInit_installed handlers
  refine ⟨gdt', hrun, ⟨idtDescs, hinit⟩, fun calls idtDescs hcalls vector => ?_⟩
  have hvector := vector.isLt
  exact deliver_interruptGate hcode (hcalls.installed vector.toNat
    (Nat.lt_trans hvector (show 2 ^ 8 < 512 by decide)))

end Idt

end N00bOS
