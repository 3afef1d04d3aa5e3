import N00bOS.AddressSpaces
import N00bOS.Processes
import N00bOS.TaskRuns

/-!
# Mapping a program

`mmap_process` puts the pages of a program at `PROGRAM_VIRTUAL_ADDRESS`. A size
that is not a multiple of the page size makes `paging_align` return an address
that is not aligned either, and nothing is mapped; a multiple makes
`paging_map` count a quarter of the pages. So a program is fully mapped after
the call exactly when the pages that are not counted were mapped to it before
(`program_fully_mapped_iff`).

What a virtual address goes to is what the walk of the processor finds in the
tables (`pagingWalk`), before the call and after it. `Mappable.walk` says so
for every address, from the specification of `paging_map` in
`N00bOS.PagingWalk`: the pages that are counted go to the program, and all
others where they went. The theorem compares that with what a loader should
have done, page by page.
-/

namespace N00bOS

open SystemM Machine

/-! ## Pages and flags

An entry of a page table is an aligned address with flags below it, and is
taken apart by masking. -/

/-- Masking an aligned address with flags gives it back. -/
theorem or_flags_and_mask {x : Word} (hx : x.toNat % 4096 = 0) :
    (x ||| Process.programFlags) &&& pagingAddressMask = x := by
  have hmask : x &&& pagingAddressMask = x := by
    apply BitVec.eq_of_toNat_eq
    rw [and_pagingAddressMask_toNat]
    omega
  rw [BitVec.and_or_distrib_right, hmask,
    show Process.programFlags &&& pagingAddressMask = 0#32 by decide,
    BitVec.or_zero]

/-- The flags are there. -/
theorem or_flags_and_flags (x : Word) :
    (x ||| Process.programFlags) &&& Process.programFlags
      = Process.programFlags := by
  ext i hi
  rw [BitVec.getElem_and, BitVec.getElem_or]
  cases x[i] <;> cases Process.programFlags[i] <;> rfl

theorem programVirtualAddress_aligned :
    programVirtualAddress.toNat % 4096 = 0 := by decide

/-- **A virtual address goes to a physical one**, with the flags of a
program. -/
def MapsTo (m : Memory) (directory va pa : Word) : Prop :=
  let entry := pagingWalk m directory va
  (entry &&& pagingAddressMask) + va % pagingPageSize = pa
    ∧ entry &&& Process.programFlags = Process.programFlags

/-- An address of a program is mapped right when its page is. -/
theorem mapsTo_iff {m : Memory} {directory pa : Word} {o : ℕ}
    (ho : o < 2 ^ 32) :
    MapsTo m directory (programVirtualAddress + BitVec.ofNat 32 o)
      (pa + BitVec.ofNat 32 o)
      ↔ pagingWalk m directory (programVirtualAddress + BitVec.ofNat 32 o)
        &&& pagingAddressMask
            = pa + BitVec.ofNat 32 (o / 4096 * 4096)
        ∧ pagingWalk m directory (programVirtualAddress + BitVec.ofNat 32 o)
            &&& Process.programFlags = Process.programFlags := by
  have hrem : (programVirtualAddress + BitVec.ofNat 32 o) % pagingPageSize
      = BitVec.ofNat 32 (o % 4096) := by
    apply BitVec.eq_of_toNat_eq
    rw [BitVec.toNat_umod, BitVec.toNat_add, BitVec.toNat_ofNat,
      BitVec.toNat_ofNat]
    show (4194304 + o % 2 ^ 32) % 2 ^ 32 % 4096 = _
    omega
  have hsplit : pa + BitVec.ofNat 32 o
      = pa + BitVec.ofNat 32 (o / 4096 * 4096) + BitVec.ofNat 32
        (o % 4096) := by
    rw [BitVec.add_assoc, ← BitVec.ofNat_add, Nat.div_add_mod' o 4096]
  unfold MapsTo
  rw [hrem, hsplit]
  exact and_congr_left fun _ => BitVec.add_left_inj _

/-! ## `mmap_process`

One call of `paging_map`, on the address space of the task. -/

/-- **A process ready to be mapped**: it is live, its program starts on a page
and ends inside the address space, and its task is live, with an address space
in memory. -/
structure Mappable (s : System) (proc : Ptr) (pr : Process)
    (t : Task) : Prop where
  /-- The process. -/
  proc_ne_null : proc.addr ≠ 0
  process : s.processStructs proc.id = some pr
  /-- Its program. -/
  size_pos : 1 ≤ pr.size.toNat
  aligned : pr.physMem.addr.toNat % 4096 = 0
  end_lt : pr.physMem.addr.toNat + pr.size.toNat < 2 ^ 32
  /-- Its task. -/
  task_ne_null : pr.task.addr ≠ 0
  task : s.tasks pr.task.id = some t
  /-- The address space of the task. -/
  wf : s.kernel.heap.Wf
  space : ∃ L page es, s.kernel.heap.HeapInv s.kernel.mem es
    ∧ SpaceAt s.kernel.heap s.kernel.mem t.pageDirectory L page
    ∧ (∀ e ∈ L.extents, e ∈ es) ∧ L.extents.Nodup

/-- **The program is fully mapped**: `mmap_process` returns `0`, and then every
address of the program goes to its byte, with the flags, while the walk of every
other address is what it was. -/
def FullyMapped (s : System) (proc : Ptr) (pr : Process) (t : Task) : Prop :=
  ∃ m', Process.mmapProcess proc s
      = Except.ok (0, s.withKernel { s.kernel with mem := m' })
    ∧ (∀ o, o < pr.size.toNat → MapsTo m' (pagingDirectory m' t.pageDirectory)
        (programVirtualAddress + BitVec.ofNat 32 o)
          (pr.physMem.addr + BitVec.ofNat 32 o))
    ∧ ∀ va,
      (pr.size.toNat + 4095) / 4096 ≤ pageNumber programVirtualAddress va →
        pagingWalk m' (pagingDirectory m' t.pageDirectory) va
          = pagingWalk s.kernel.mem
            (pagingDirectory s.kernel.mem t.pageDirectory) va

/-- **What `mmap_process` leaves out was there before.** Of a program below
2GB it maps the first quarter of the pages, and the others were mapped right
already; of a larger one it maps pages behind the end as well, and those had
the entries it writes. -/
def MappedBefore (s : System) (pr : Process) (t : Task) : Prop :=
  (pr.size.toNat < 2 ^ 31 → ∀ i, pr.size.toNat / 16384 ≤ i →
    i < pr.size.toNat / 4096 →
    MapsTo s.kernel.mem (pagingDirectory s.kernel.mem t.pageDirectory)
      (programVirtualAddress + BitVec.ofNat 32 (i * 4096))
      (pr.physMem.addr + BitVec.ofNat 32 (i * 4096)))
  ∧ (2 ^ 31 ≤ pr.size.toNat → ∀ i, pr.size.toNat / 4096 ≤ i →
    i < 786432 + pr.size.toNat / 16384 →
    pagingWalk s.kernel.mem (pagingDirectory s.kernel.mem t.pageDirectory)
        (programVirtualAddress + BitVec.ofNat 32 (i * 4096))
      = (pr.physMem.addr + BitVec.ofNat 32 (i * 4096)) ||| Process.programFlags)

section Mapping

variable {s : System} {proc : Ptr} {pr : Process} {t : Task}

/-- The run of `mmap_process` is `paging_map` on the address space. -/
theorem Mappable.run (h : Mappable s proc pr t) :
    Process.mmapProcess proc s
      = Except.ok
        ((pagingMap s.kernel.mem (pagingDirectory s.kernel.mem t.pageDirectory)
          programVirtualAddress pr.physMem.addr
            (pagingAlign (pr.physMem.addr + pr.size))
          Process.programFlags).1,
        s.withKernel { s.kernel with
          mem :=
            (pagingMap s.kernel.mem
              (pagingDirectory s.kernel.mem t.pageDirectory)
            programVirtualAddress pr.physMem.addr
              (pagingAlign (pr.physMem.addr + pr.size))
            Process.programFlags).2 }) := by
  rw [Process.mmapProcess, Process.mmapBinary,
    bind_ok (deref_ok h.proc_ne_null h.process),
    bind_ok (deref_ok h.task_ne_null h.task), get_bind]
  rfl

/-- A size that is not a multiple of the page size is turned away. -/
theorem Mappable.not_fullyMapped_of_not_aligned (h : Mappable s proc pr t)
    (hsize : ¬ pr.size.toNat % 4096 = 0) : ¬ FullyMapped s proc pr t := by
  rintro ⟨m', hrun, -⟩
  have hend : ¬ (pr.physMem.addr + pr.size).toNat % 4096 = 0 := by
    have hadd : (pr.physMem.addr + pr.size).toNat
        = pr.physMem.addr.toNat + pr.size.toNat := by
      rw [BitVec.toNat_add, Nat.mod_eq_of_lt h.end_lt]
    have := h.aligned
    omega
  rw [h.run, pagingMap_of_not_isRange fun hr =>
    pagingAlign_of_not_aligned hend hr.physicalEnd]
    at hrun
  exact absurd (Prod.mk.inj (Except.ok.inj hrun)).1
    (show ¬ (-einval : ℤ) = 0 by decide)

/-- **Every walk after the call**, for a multiple of the page size: the pages
that are counted go to the program, and the others where they went. -/
theorem Mappable.walk (h : Mappable s proc pr t)
    (hsize : pr.size.toNat % 4096 = 0) :
    ∃ m', Process.mmapProcess proc s
      = Except.ok (0, s.withKernel { s.kernel with mem := m' })
      ∧ ∀ va, pagingWalk m' (pagingDirectory m' t.pageDirectory) va
        = if pageNumber programVirtualAddress va < mappedPages pr.size then
            (pr.physMem.addr
              + BitVec.ofNat 32 (pageNumber programVirtualAddress va * 4096))
                ||| Process.programFlags
          else pagingWalk s.kernel.mem
              (pagingDirectory s.kernel.mem t.pageDirectory) va := by
  obtain ⟨L, page, es, hinv, hspace, hmem, hnd⟩ := h.space
  have hadd : (pr.physMem.addr + pr.size).toNat
      = pr.physMem.addr.toNat + pr.size.toNat := by
    rw [BitVec.toNat_add, Nat.mod_eq_of_lt h.end_lt]
  have hend : (pr.physMem.addr + pr.size).toNat % 4096 = 0 := by
    have := h.aligned
    omega
  have hr : IsRange programVirtualAddress pr.physMem.addr
      (pr.physMem.addr + pr.size) :=
    ⟨programVirtualAddress_aligned, h.aligned, hend,
      hadd ▸ Nat.le_add_right _ _⟩
  have hsub : pr.physMem.addr + pr.size - pr.physMem.addr = pr.size := by
    rw [BitVec.add_comm, BitVec.add_sub_cancel]
  obtain ⟨m', hpages, -, hspace', -⟩ :=
    pagingMapPages_spec h.wf hmem hnd Process.programFlags
    (mappedPages pr.size) (Nat.le_of_lt (mappedPages_lt pr.size))
      pr.physMem.addr
    programVirtualAddress_aligned hinv hspace
  have hrun := h.run
  rw [pagingAlign_of_aligned hend, pagingMap_of_isRange hr, hsub,
    hspace.directory_eq, hpages]
    at hrun
  refine ⟨m', hrun, fun va => ?_⟩
  rw [hspace'.walk, hspace.walk, mapRange,
    pageNumber_pageBase programVirtualAddress_aligned]

end Mapping

/-! ## When a program is fully mapped

The pages that are left out are those from the first quarter on; below 2GB that
is most of the program. -/

/-- Only what the walk finds matters. -/
theorem MapsTo.congr {m m' : Memory} {directory directory' va pa : Word}
    (hwalk : pagingWalk m' directory' va = pagingWalk m directory va) :
    MapsTo m' directory' va pa ↔ MapsTo m directory va pa := by
  unfold MapsTo
  rw [hwalk]

section Iff

variable {s : System} {proc : Ptr} {pr : Process} {t : Task}

/-- A walk for an address is one for its page. -/
theorem Mappable.walk_page (h : Mappable s proc pr t) (va : Word) :
    pagingWalk s.kernel.mem (pagingDirectory s.kernel.mem t.pageDirectory) va
      = pagingWalk s.kernel.mem (pagingDirectory s.kernel.mem t.pageDirectory)
          (programVirtualAddress
            + BitVec.ofNat 32 (pageNumber programVirtualAddress va
              * 4096)) := by
  obtain ⟨L, page, es, -, hspace, -, -⟩ := h.space
  have hidem : pageBase (pageBase va) = pageBase va := by
    refine pageBase_of_aligned ?_
    rw [pageBase, and_pagingAddressMask_toNat]
    omega
  rw [hspace.walk, hspace.walk,
    ← pageBase_eq programVirtualAddress_aligned, hidem]

/-- The pages between the end of the program and the last one counted, either
way round. -/
theorem mappedBefore_iff (hsize : pr.size.toNat % 4096 = 0) :
    MappedBefore s pr t
      ↔ (∀ i, mappedPages pr.size ≤ i → i < pr.size.toNat / 4096 →
          MapsTo s.kernel.mem (pagingDirectory s.kernel.mem t.pageDirectory)
            (programVirtualAddress + BitVec.ofNat 32 (i * 4096))
            (pr.physMem.addr + BitVec.ofNat 32 (i * 4096)))
        ∧ ∀ i, pr.size.toNat / 4096 ≤ i → i < mappedPages pr.size →
          pagingWalk s.kernel.mem (pagingDirectory s.kernel.mem t.pageDirectory)
              (programVirtualAddress + BitVec.ofNat 32 (i * 4096))
            = (pr.physMem.addr + BitVec.ofNat 32 (i * 4096))
              ||| Process.programFlags :=
  mappedPages_between_iff hsize _ _

/-- **A program is fully mapped exactly when its size is a multiple of the page
size and the pages that `mmap_process` leaves out were mapped to it before.**
`paging_align` does not align the end of any other size, so nothing is mapped
of it. And of the pages of the range `paging_map` counts a quarter, and more
than there are from 2GB on. -/
theorem program_fully_mapped_iff (h : Mappable s proc pr t) :
    FullyMapped s proc pr t ↔ pr.size.toNat % 4096 = 0
      ∧ MappedBefore s pr t := by
  by_cases hsize : pr.size.toNat % 4096 = 0
  swap
  · exact iff_of_false (h.not_fullyMapped_of_not_aligned hsize) fun hcon =>
      hsize hcon.1
  have hsizelt := pr.size.isLt
  have hcount := mappedPages_lt pr.size
  obtain ⟨m', hrun, hwalk⟩ := h.walk hsize
  have hround : (pr.size.toNat + 4095) / 4096 = pr.size.toNat / 4096 := by omega
  rw [mappedBefore_iff hsize]
  constructor
  · rintro ⟨m'', hrun', hmaps, hother⟩
    have hm : m'' = m' := by
      have hsame := (Prod.mk.inj (Except.ok.inj (hrun'.symm.trans hrun))).2
      exact congrArg (fun s => s.kernel.mem) hsame
    subst hm
    refine ⟨hsize, fun i h₁ h₂ => ?_, fun i h₁ h₂ => ?_⟩
    · -- a page that was not counted is mapped as it was
      have hnum := pageNumber_add programVirtualAddress (i * 4096) (by omega)
      rw [Nat.mul_div_cancel i (by decide)] at hnum
      have hsame := hwalk (programVirtualAddress + BitVec.ofNat 32 (i * 4096))
      rw [hnum, if_neg (Nat.not_lt.mpr h₁)] at hsame
      exact (MapsTo.congr hsame).mp (hmaps (i * 4096) (by omega))
    · -- a page behind the end has the entry it had
      have hnum := pageNumber_add programVirtualAddress (i * 4096) (by omega)
      rw [Nat.mul_div_cancel i (by decide)] at hnum
      have hset := hwalk (programVirtualAddress + BitVec.ofNat 32 (i * 4096))
      rw [hnum, if_pos h₂] at hset
      rw [← hset, hother _ (by rw [hnum, hround]; exact h₁)]
  · rintro ⟨-, hleft, hbehind⟩
    refine ⟨m', hrun, fun o ho => ?_, fun va hva => ?_⟩
    · have hnum := pageNumber_add programVirtualAddress o (by omega)
      have hset := hwalk (programVirtualAddress + BitVec.ofNat 32 o)
      rw [hnum] at hset
      by_cases hlt : o / 4096 < mappedPages pr.size
      · rw [if_pos hlt] at hset
        have haligned : (pr.physMem.addr
            + BitVec.ofNat 32 (o / 4096 * 4096)).toNat % 4096 = 0 := by
          have := h.aligned
          rw [BitVec.toNat_add, BitVec.toNat_ofNat]
          omega
        rw [mapsTo_iff (by omega), hset]
        exact ⟨or_flags_and_mask haligned, or_flags_and_flags _⟩
      · have hpage := hleft (o / 4096) (Nat.le_of_not_lt hlt) (by omega)
        have hsame := h.walk_page (programVirtualAddress + BitVec.ofNat 32 o)
        rw [hnum] at hsame
        rw [if_neg hlt, hsame] at hset
        rw [mapsTo_iff (by omega), Nat.mul_div_cancel _ (by decide)] at hpage
        rw [mapsTo_iff (by omega), hset]
        exact hpage
    · rw [hwalk va]
      by_cases hlt : pageNumber programVirtualAddress va < mappedPages pr.size
      · rw [if_pos hlt, h.walk_page va, hbehind _ (hround ▸ hva) hlt]
      · rw [if_neg hlt]

end Iff

/-! ## After boot

A system with one process and a task, whose address space maps every page to
itself. -/

/-- The process of `mappingSystem`. -/
def mappingProcess (physMem size : Word) : Process :=
  { Process.initProcess with
    task := ⟨heapAddress, 1⟩, physMem := ⟨physMem, 2⟩, size }

/-- The task of `mappingSystem`. -/
def mappingTask (chunk : Word) : Task :=
  ⟨chunk, Task.startRegisters, Ptr.null, Ptr.null⟩

/-- The system after boot with one process, whose program is at `physMem`, and
its task, whose address space is at `chunk`. -/
def mappingSystem (m : Memory) (chunk physMem size : Word) : System :=
  { bootedSystem with
    kernel := { bootedSystem.kernel with mem := m }
    tasks := fun _ => some (mappingTask chunk)
    processStructs := fun _ => some (mappingProcess physMem size) }

/-- There is one, with an address space that maps every page to itself. -/
theorem exists_mappable (flags : Byte) (physMem size : Word)
    (hsize : 1 ≤ size.toNat) (haligned : physMem.toNat % 4096 = 0)
    (hend : physMem.toNat + size.toNat < 2 ^ 32) :
    ∃ m chunk, Mappable (mappingSystem m chunk physMem size) ⟨heapAddress, 3⟩
        (mappingProcess physMem size) (mappingTask chunk)
      ∧ ∀ va, pagingWalk m (pagingDirectory m chunk) va
        = pageBase va ||| flags.setWidth 32 := by
  have hw : bootedSystem.kernel.heap.Wf := kernelHeapConfig.heap_wf
  have hinit : bootedSystem.kernel.heap.HeapInv bootedSystem.kernel.mem [] :=
    (kheapInit_spec kernelHeapConfig fun _ => 0).2.1
  have hsome := pagingNew_of_room hw (b := 0) flags hinit
    (fun e he => absurd he List.not_mem_nil)
    (show 0 + 2051 ≤ kernelHeapConfig.heap.total by
      rw [kernelHeapConfig.total_heap]
      decide)
  obtain ⟨⟨chunk, m⟩, hnew⟩ := Option.isSome_iff_exists.mp hsome
  obtain ⟨L, hinv, hspace, -⟩ := pagingNew_spec hw flags hinit hnew
  refine ⟨m, chunk, ⟨by decide, rfl, hsize, haligned, hend,
    show heapAddress ≠ 0 by decide, rfl, hw, L, _, _, hinv, hspace,
    fun e he => List.mem_append_left _ he, ?_⟩, fun va => hspace.walk va⟩
  exact (List.nodup_append.mp hinv.packed.nodup).1

/-- The theorem on a program of four pages that is where it is to be mapped
to, in an address space that maps every page to itself with the flags: the
first page is mapped and the three others are left alone. -/
theorem program_fully_mapped_iff_in_place : ∃ m chunk,
    FullyMapped (mappingSystem m chunk programVirtualAddress 16384#32)
      ⟨heapAddress, 3⟩
      (mappingProcess programVirtualAddress 16384#32) (mappingTask chunk) := by
  obtain ⟨m, chunk, h, hwalk⟩ :=
    exists_mappable 7#8 programVirtualAddress 16384#32
    (by decide) (by decide) (by decide)
  refine ⟨m, chunk,
    (program_fully_mapped_iff h).mpr ⟨by decide, fun _ i _ hi => ?_, fun hle =>
      absurd hle (by decide)⟩⟩
  have hi : i < 4 := hi
  have hlt : i * 4096 < 2 ^ 32 := by omega
  have haligned : (programVirtualAddress + BitVec.ofNat 32 (i * 4096)).toNat
      % 4096 = 0 := by
    rw [BitVec.toNat_add, BitVec.toNat_ofNat]
    show (4194304 + i * 4096 % 2 ^ 32) % 2 ^ 32 % 4096 = 0
    omega
  have hpage := hwalk (programVirtualAddress + BitVec.ofNat 32 (i * 4096))
  rw [pageBase_of_aligned haligned,
    show BitVec.setWidth 32 7#8 = Process.programFlags by decide]
    at hpage
  refine (mapsTo_iff hlt).mpr ?_
  rw [Nat.mul_div_cancel i (by decide)]
  exact hpage ▸ ⟨or_flags_and_mask haligned, or_flags_and_flags _⟩

/-- A program of one byte is not mapped, since one byte is no multiple of the
page size; and neither is one of one page, since a quarter of a page is
none. -/
theorem small_programs_not_mapped :
    (∃ m chunk, Mappable (mappingSystem m chunk 0x2000000#32 1#32)
      ⟨heapAddress, 3⟩
        (mappingProcess 0x2000000#32 1#32) (mappingTask chunk)
      ∧ ¬ FullyMapped (mappingSystem m chunk 0x2000000#32 1#32) ⟨heapAddress, 3⟩
        (mappingProcess 0x2000000#32 1#32) (mappingTask chunk))
    ∧ ∃ m chunk,
      Mappable (mappingSystem m chunk 0x2000000#32 4096#32) ⟨heapAddress, 3⟩
        (mappingProcess 0x2000000#32 4096#32) (mappingTask chunk)
      ∧ ¬ FullyMapped (mappingSystem m chunk 0x2000000#32 4096#32) ⟨heapAddress,
        3⟩
        (mappingProcess 0x2000000#32 4096#32) (mappingTask chunk) := by
  constructor
  · obtain ⟨m, chunk, h, -⟩ := exists_mappable 5#8 0x2000000#32 1#32
      (by decide) (by decide) (by decide)
    exact ⟨m, chunk, h, h.not_fullyMapped_of_not_aligned (by decide)⟩
  · obtain ⟨m, chunk, h, hbefore⟩ := exists_mappable 5#8 0x2000000#32 4096#32
      (by decide) (by decide) (by decide)
    refine ⟨m, chunk, h, ?_⟩
    rintro ⟨m'', hrun', hmaps, -⟩
    obtain ⟨m', hrun, hwalk⟩ :=
      h.walk (show (4096#32).toNat % 4096 = 0 by decide)
    have hsame := (Prod.mk.inj (Except.ok.inj (hrun'.symm.trans hrun))).2
    obtain rfl : m'' = m' := congrArg (fun s => s.kernel.mem) hsame
    have hfirst := (hmaps 0 (by decide)).1
    rw [BitVec.add_zero, hwalk programVirtualAddress,
      if_neg (by decide)] at hfirst
    have hpage := hbefore programVirtualAddress
    change (pagingWalk m (pagingDirectory m chunk) programVirtualAddress
      &&& pagingAddressMask) + _
      = _ at hfirst
    rw [hpage] at hfirst
    exact absurd hfirst (by decide)

end N00bOS
