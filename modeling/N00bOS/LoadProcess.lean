import N00bOS.LoadBinary
import N00bOS.TaskRuns

/-!
# Loading a process

`load_process` takes four things one after the other – the process, its
program, its stack and its task – and has one label to give them back. It
should do all of it or nothing. Two things are in the way: `new_task` returns
null for the first task of the list, which the test of its result takes for an
error with the code `0`, so that the label is left with `0` and nothing
registered; and the process is registered before the result of `mmap_process`
is looked at, and stays registered when it is freed. It is all or nothing in
every other case (`load_process_all_or_nothing_iff`).

The loader and the mapping are given: `Loader` says what a loader promises, and
`Mapper` that a mapping changes memory only. A loader that fails has left the
process alone, but nobody says what it has done to the heap: where it fails,
nothing is left of the call exactly when it leaves the table of the heap as it
was. Both are statements about single calls, so a loader may do different
things with different files, and in different states.

The loader of the kernel is one (`loadData_loader`). It never succeeds, and it
keeps the blocks of every path that it parses (`loadData_sameTable_iff`): with
it no process is ever loaded, and nothing is left of a call exactly when the
number is rejected or the path is turned away (`loadProcess_fails`).

The run is followed through its parts: what comes before the mapping
(`prepareProcess_run`), the mapping (`startProcess_run`), and the label, at
which a negative status frees the process. What is freed there is the process
itself; the table of the heap is then as before exactly when nothing else was
taken, which is a comparison of extents (`sameTable_cons_iff`).
-/

namespace N00bOS

open SystemM Machine Linked

@[simp] theorem System.processStructs_setProcess_self (s : System) (id : ℕ)
    (v : Option Process) :
    (s.setProcess id v).processStructs id = v := Function.update_self _ _ _

@[simp] theorem System.processStructs_withKernel (s : System) (k : Kernel) :
    (s.withKernel k).processStructs = s.processStructs := rfl

/-! ## A heap with more allocations

What is known of a heap after some allocations: the old ones keep their data,
and where there is room behind the last one there is room for the next. -/

/-- **The heap has the allocations `new` more** than `es`, which keep their
data. -/
structure HeapGrows (k k' : Kernel) (es new : List Extent) : Prop where
  heap : k'.heap = k.heap
  nextId : k.nextId ≤ k'.nextId
  inv : k.heap.HeapInv k'.mem (new ++ es)
  data : ∀ e ∈ es, Set.EqOn k'.mem k.mem (k.heap.dataRegion e)

namespace HeapGrows

variable {k k' : Kernel} {es : List Extent} {size : Word}

/-- A structure that is allocated. -/
theorem of_allocate {p : Ptr} (hk : k.Holds es)
    (h : KernelM.allocate size k = Except.ok (p, k')) :
    ∃ i, p = ⟨k.heap.blockAddress i, k.nextId⟩
      ∧ HeapGrows k k' es [⟨i, Heap.blocksFor size⟩] := by
  obtain ⟨i, m, hp, rfl, hinv, hdata⟩ := Task.allocate_data hk h
  exact ⟨i, hp, rfl, Nat.le_succ _, hinv, hdata⟩

/-- A buffer that is allocated. -/
theorem of_allocateBuffer {p : Word} (hk : k.Holds es)
    (h : KernelM.allocateBuffer size k = Except.ok (p, k')) :
    ∃ i, p = k.heap.blockAddress i
      ∧ HeapGrows k k' es [⟨i, Heap.blocksFor size⟩] := by
  obtain ⟨m, hfit, rfl⟩ := KernelM.allocateBuffer_run h
  obtain ⟨i, haddr, -, hinv, hdata, -⟩ :=
    Heap.kzallocFit_spec hk.wf hk.2 (Heap.size_lt_of_kzallocFit hfit) hfit
  exact ⟨i, haddr, rfl, Nat.le_refl _, hinv, hdata⟩

/-- A structure is allocated where there is room at the end of the heap. -/
theorem allocate_below (hk : k.Holds es) (size : Word)
    (hsize : size.toNat + 4096 < 2 ^ 32) {b : ℕ} (hb : ∀ e ∈ es, e.stop ≤ b)
    (hroom : b + Heap.blocksFor size ≤ k.heap.total) :
    ∃ i k', KernelM.allocate size k
      = Except.ok (⟨k.heap.blockAddress i, k.nextId⟩, k')
      ∧ HeapGrows k k' es [⟨i, Heap.blocksFor size⟩]
      ∧ ∀ e ∈ [⟨i, Heap.blocksFor size⟩] ++ es,
        e.stop ≤ b + Heap.blocksFor size := by
  obtain ⟨i, m, hfit, hinv, hdata, hstop⟩ :=
    Heap.kzallocFit_below hk.wf hk.2 hsize hb hroom
  exact ⟨i, _, allocate_of_kzallocFit hfit,
    ⟨rfl, Nat.le_succ _, hinv, hdata⟩, hstop⟩

/-- A buffer is allocated where there is room at the end of the heap. -/
theorem allocateBuffer_below (hk : k.Holds es) (size : Word)
    (hsize : size.toNat + 4096 < 2 ^ 32) {b : ℕ} (hb : ∀ e ∈ es, e.stop ≤ b)
    (hroom : b + Heap.blocksFor size ≤ k.heap.total) :
    ∃ i k', KernelM.allocateBuffer size k
      = Except.ok (k.heap.blockAddress i, k')
      ∧ HeapGrows k k' es [⟨i, Heap.blocksFor size⟩]
      ∧ ∀ e ∈ [⟨i, Heap.blocksFor size⟩] ++ es,
        e.stop ≤ b + Heap.blocksFor size := by
  obtain ⟨i, m, hfit, hinv, hdata, hstop⟩ :=
    Heap.kzallocFit_below hk.wf hk.2 hsize hb hroom
  exact ⟨i, { k with mem := m }, by rw [KernelM.allocateBuffer, hfit],
    ⟨rfl, Nat.le_refl _, hinv, hdata⟩, hstop⟩

/-- What is allocated is not null. -/
theorem blockAddress_ne_zero {e : Extent} (hk : k.Holds es)
    (h : HeapGrows k k' es [e]) :
    k.heap.blockAddress e.first ≠ 0 := by
  have hstop := h.inv.packed.stop_le e List.mem_cons_self
  have hpos := h.inv.packed.pos e List.mem_cons_self
  unfold Extent.stop at hstop
  exact N00bOS.blockAddress_ne_zero hk.wf hk.1.start_ne_zero (by omega)

end HeapGrows

/-- The tasks stay where they are while something else is allocated. -/
theorem TaskHeap.grow {s : System} {l : List Ptr} {spot : Ptr → ℕ}
    {layout : Ptr → SpaceLayout} {rest new : List Extent}
    (h : TaskHeap s l spot layout rest) (s' : System)
    (hgrows : HeapGrows s.kernel s'.kernel
      (l.flatMap (ownedBy spot layout) ++ rest) new)
    (htasks : s'.tasks = s.tasks) :
    TaskHeap s' l spot layout (new ++ rest) := by
  have hheap := hgrows.heap
  have hbody : ∀ q, s'.body q = s.body q := fun q => by
    rw [System.body, htasks, System.body]
  refine ⟨hheap ▸ h.placed, ?_, fun p hp => ?_, fun p hp => ?_, h.id_inj,
    fun p hp => Nat.lt_of_lt_of_le (h.id_lt p hp) hgrows.nextId⟩
  · rw [hheap]
    refine hgrows.inv.perm ?_
    rw [← List.append_assoc, ← List.append_assoc]
    exact List.perm_append_comm.append_right rest
  · rw [hheap]
    exact h.addr_eq p hp
  · obtain ⟨chunk, reg, page, hlive, hspace⟩ := h.space p hp
    refine ⟨chunk, reg, page, (hbody p).trans hlive, ?_⟩
    rw [hheap]
    exact hspace.congr fun e he =>
      hgrows.data e (TaskHeap.mem_owned hp (List.mem_cons_of_mem _ he))

/-- The tables of two heaps differ as they do with an extent more on both. -/
theorem sameTable_cons_iff {h : Heap} {m m' n n' : Memory} {e : Extent}
    {es es' : List Extent} (hm : h.HeapInv m es) (hm' : h.HeapInv m' es')
    (hn : h.HeapInv n (e :: es)) (hn' : h.HeapInv n' (e :: es')) :
    SameTable h m m' ↔ SameTable h n n' := by
  refine forall₂_congr fun i hi => ?_
  rw [hm.encodes i hi, hm'.encodes i hi, hn.encodes i hi, hn'.encodes i hi,
    markAt, markAt]
  by_cases hcov : e.Covers i
  · rw [if_pos hcov, if_pos hcov, hn.packed.markAt_tail hcov,
      hn'.packed.markAt_tail hcov]
    exact iff_of_true rfl rfl
  · rw [if_neg hcov, if_neg hcov]

/-! ## What is given

The two parameters of `load_process`, and the functions of the kernel as
instances of them. -/

/-- **A loader**: a negative result leaves the process as it was, its blocks
included, and `0` comes with a program, which is an allocation that holds its
bytes. -/
structure Loader (loadData : List Byte → Ptr → SystemM ℤ) : Prop where
  nonpos : ∀ filename p s r s',
    loadData filename p s = Except.ok (r, s') → r ≤ 0
  fails : ∀ filename p s r s',
    loadData filename p s = Except.ok (r, s') → r < 0 →
    ∃ k' programs, s' = { s with kernel := k', programs }
      ∧ k'.heap = s.kernel.heap
      ∧ ∀ e es, s.kernel.Holds (e :: es) →
        p.addr = s.kernel.heap.blockAddress e.first →
        ∃ es', k'.Holds (e :: es')
  loads : ∀ filename p s s' pr, s.processStructs p.id = some pr →
    loadData filename p s = Except.ok (0, s') →
    ∃ k' physMem size programs, s' = { s with
        kernel := k'
        programs
        processStructs := Function.update s.processStructs p.id
          (some { pr with physMem, size }) }
      ∧ ∀ es, s.kernel.Holds es → ∃ e new,
        physMem.addr = s.kernel.heap.blockAddress e.first
        ∧ size.toNat ≤ 4096 * e.count ∧ HeapGrows s.kernel k' es (e :: new)

/-- **A mapping**: whatever it returns, it has changed memory only.
`mmap_process` is one; what it writes are page tables, and it allocates
nothing. -/
structure Mapper (mmapProcess : Ptr → SystemM ℤ) : Prop where
  maps : ∀ p s r s', mmapProcess p s = Except.ok (r, s') →
    ∃ mem, s' = s.withKernel { s.kernel with mem }

namespace Process

/-- **The loader of the kernel** is a loader: it never succeeds, and what it
allocates it allocates beside the process. It is the one that `load_process` is
compiled with, so the theorem is about the code as it is. -/
theorem loadData_loader : Loader Process.loadData where
  nonpos _ _ _ _ _ h := Int.le_of_lt (loadBinary_run h).1
  fails _ _ _ _ _ h _ := by
    obtain ⟨-, ⟨k', programs, rfl, hgrows⟩, -⟩ := loadBinary_run h
    refine ⟨k', programs, rfl, hgrows.heap, fun e es hes _ => ?_⟩
    obtain ⟨new, hnew⟩ := hgrows.holds _ hes
    exact ⟨new ++ es, hnew.perm List.perm_middle⟩
  loads _ _ _ _ _ _ h := absurd (loadBinary_run h).1 (Int.lt_irrefl 0)

/-- **The loader of the kernel fails without a trace** on the paths that are
turned away, and on no other: what it allocates for a path stays. So which
calls of it leak is a question about the path alone. -/
theorem loadData_sameTable_iff {filename : List Byte} {p : Ptr} {s s' : System}
    {r : ℤ} (hk : s.kernel.HeapOk)
    (h : Process.loadData filename p s = Except.ok (r, s')) :
    SameTable s.kernel.heap s.kernel.mem s'.kernel.mem
      ↔ PathParser.Rejected filename := by
  constructor
  · intro hsame
    by_contra hpath
    obtain ⟨hw, es, hinv⟩ := hk
    obtain ⟨-, ⟨k', programs, rfl, hgrows⟩, hleak, -⟩ := loadBinary_run h
    obtain ⟨new, hne, hnew⟩ := hleak hpath es ⟨hw, hinv⟩
    exact File.not_sameTable_of_leak hgrows.heap ⟨hw, hinv⟩ hne hnew hsame
  · intro hpath
    obtain ⟨-, rfl⟩ := Prod.mk.inj
      (Except.ok.inj (h.symm.trans (loadBinary_of_rejected hpath p s)))
    exact SameTable.refl _ _

/-- With it, the call does not come to the mapping. -/
theorem prepareProcess_loadData {filename : List Byte} {pid : ℤ} {newProc : Ptr}
    {s s' : System} {result : Option ℤ}
    (h : prepareProcess Process.loadData filename pid newProc s
      = Except.ok (result, s')) :
    ∃ r, r < 0 ∧ result = some r := by
  obtain ⟨r, s₁, hload, h₁⟩ := bind_eq_ok.mp h
  have hneg := (loadBinary_run hload).1
  rw [if_pos hneg] at h₁
  exact ⟨r, hneg, (Prod.mk.inj (Except.ok.inj h₁)).1.symm⟩

/-- **The mapping of the kernel** is a mapping. All that it writes are entries
of page tables, which are in memory. -/
theorem mmapProcess_mapper : Mapper Process.mmapProcess where
  maps proc s r s' h := by
    obtain ⟨p, s₁, hp, h₁⟩ := bind_eq_ok.mp h
    obtain ⟨-, -, rfl⟩ := deref_eq_ok hp
    obtain ⟨t, s₂, ht, h₂⟩ := bind_eq_ok.mp h₁
    obtain ⟨-, -, rfl⟩ := deref_eq_ok ht
    exact ⟨_, (Prod.mk.inj (Except.ok.inj h₂)).2.symm⟩

end Process

/-! ## What is promised

A process that is loaded, and a call of which nothing is left. -/

/-- **The process is loaded**: the new process is what `*proc` and its slot
have, its stack and its name are set, and its task is on the list of tasks. -/
def ProcessLoaded (s s' : System) (filename : List Byte) (pid : ℤ)
    (proc : Ptr) : Prop :=
  ∃ newProc k pr tasks, KernelM.allocate Process.processSize s.kernel
    = Except.ok (newProc, k)
    ∧ proc = newProc ∧ s'.processes pid.toNat = newProc
    ∧ s'.processStructs newProc.id = some pr
    ∧ pr.stack ≠ 0
    ∧ pr.name = strncpy Process.initProcess.name filename fsMaxPathSize
    ∧ LinkedList Ptr.null s'.next s'.prev s'.head s'.tail tasks
    ∧ pr.task.addr ≠ 0 ∧ pr.task ∈ tasks

/-- **Nothing is left of the call**: the table of processes, `*proc`, the list
of the tasks `l` and the table of the heap are as before. -/
structure AsBefore (s s' : System) (l : List Ptr)
    (proc proc' : Ptr) : Prop where
  processes : s'.processes = s.processes
  proc : proc' = proc
  head : s'.head = s.head
  tail : s'.tail = s.tail
  current : s'.current = s.current
  tasks : ∀ p ∈ l, s'.tasks p.id = s.tasks p.id
  heap : s'.kernel.heap = s.kernel.heap
  table : SameTable s.kernel.heap s.kernel.mem s'.kernel.mem

/-- **All or nothing**: with `0` the process is loaded, and with a negative
result nothing is left of the call. -/
def AllOrNothing (s s' : System) (l : List Ptr) (filename : List Byte) (pid : ℤ)
    (proc proc' : Ptr) (r : ℤ) : Prop :=
  (r = 0 → ProcessLoaded s s' filename pid proc')
    ∧ (r < 0 → AsBefore s s' l proc proc')

/-- A number that is out of range, or taken. -/
def PidRejected (s : System) (pid : ℤ) : Prop :=
  pid < 0 ∨ pid ≥ maxProcesses ∨ (s.processes pid.toNat).addr ≠ 0

namespace Process

/-- The call comes to `load_data` with the process `newProc`. -/
def ComesToLoad (s : System) (newProc : Ptr) (s₁ : System) : Prop :=
  ∃ k, KernelM.allocate processSize s.kernel = Except.ok (newProc, k)
    ∧ s₁ = (s.withKernel k).setProcess newProc.id (some initProcess)

/-- **The loader fails without a trace**: with a negative result, and the table
of the heap as it was. -/
def FailsClean (loadData : List Byte → Ptr → SystemM ℤ) (filename : List Byte)
    (s : System) : Prop :=
  ∃ newProc s₁ r s₂, ComesToLoad s newProc s₁
    ∧ loadData filename newProc s₁ = Except.ok (r, s₂) ∧ r < 0
    ∧ SameTable s₁.kernel.heap s₁.kernel.mem s₂.kernel.mem

/-- **The process is mapped**: the call comes to `mmap_process`, and that does
not return a negative value. -/
def Maps (loadData : List Byte → Ptr → SystemM ℤ)
    (mmapProcess : Ptr → SystemM ℤ) (filename : List Byte) (pid : ℤ)
    (s : System) : Prop :=
  ∃ newProc s₁ s₂ r s₃, ComesToLoad s newProc s₁
    ∧ prepareProcess loadData filename pid newProc s₁ = Except.ok (none, s₂)
    ∧ mmapProcess newProc s₂ = Except.ok (r, s₃) ∧ 0 ≤ r

variable {s s' : System} {loadData : List Byte → Ptr → SystemM ℤ}
  {mmapProcess : Ptr → SystemM ℤ} {filename : List Byte}
  {proc proc' newProc : Ptr} {pid r : ℤ}

/-- A call comes to `load_data` in one state only. -/
theorem ComesToLoad.unique {p p' : Ptr} {s₁ s₂ : System}
    (h : ComesToLoad s p s₁) (h' : ComesToLoad s p' s₂) : p' = p ∧ s₂ = s₁ := by
  obtain ⟨k, halloc, rfl⟩ := h
  obtain ⟨k', halloc', rfl⟩ := h'
  obtain ⟨rfl, rfl⟩ := Prod.mk.inj (Except.ok.inj (halloc.symm.trans halloc'))
  exact ⟨rfl, rfl⟩

/-- With a result of `load_data` at hand, whether it fails without a trace is
said by that. -/
theorem ComesToLoad.failsClean_iff {s₁ s₂ : System}
    (hcomes : ComesToLoad s newProc s₁)
    (hloaded : loadData filename newProc s₁ = Except.ok (r, s₂)) :
    FailsClean loadData filename s
      ↔ r < 0 ∧ SameTable s₁.kernel.heap s₁.kernel.mem s₂.kernel.mem := by
  constructor
  · rintro ⟨newProc', s₁', r', s₂', hcomes', hloaded', hneg, hsame⟩
    obtain ⟨rfl, rfl⟩ := hcomes.unique hcomes'
    obtain ⟨rfl, rfl⟩ :=
      Prod.mk.inj (Except.ok.inj (hloaded.symm.trans hloaded'))
    exact ⟨hneg, hsame⟩
  · rintro ⟨hneg, hsame⟩
    exact ⟨newProc, s₁, r, s₂, hcomes, hloaded, hneg, hsame⟩

/-- A call that has gone to the label before the mapping is not mapped. -/
theorem ComesToLoad.not_maps {s₁ s₂ : System} {result : ℤ}
    (hcomes : ComesToLoad s newProc s₁)
    (hprepare : prepareProcess loadData filename pid newProc s₁
      = Except.ok (some result, s₂)) :
    ¬ Maps loadData mmapProcess filename pid s := by
  rintro ⟨newProc', s₁', s₂', r', s₃', hcomes', hprepare', -⟩
  obtain ⟨rfl, rfl⟩ := hcomes.unique hcomes'
  cases hprepare.symm.trans hprepare'

/-- A call that has come to the mapping is mapped if the mapping says so. -/
theorem ComesToLoad.maps_iff {s₁ s₂ s₃ : System}
    (hcomes : ComesToLoad s newProc s₁)
    (hprepare : prepareProcess loadData filename pid newProc s₁
      = Except.ok (none, s₂))
    (hmapped : mmapProcess newProc s₂ = Except.ok (r, s₃)) :
    Maps loadData mmapProcess filename pid s ↔ 0 ≤ r := by
  constructor
  · rintro ⟨newProc', s₁', s₂', r', s₃', hcomes', hprepare', hmapped', hnonneg⟩
    obtain ⟨rfl, rfl⟩ := hcomes.unique hcomes'
    obtain ⟨-, rfl⟩ :=
      Prod.mk.inj (Except.ok.inj (hprepare.symm.trans hprepare'))
    obtain ⟨rfl, -⟩ :=
      Prod.mk.inj (Except.ok.inj (hmapped.symm.trans hmapped'))
    exact hnonneg
  · exact fun hnonneg => ⟨_, _, _, _, _, hcomes, hprepare, hmapped, hnonneg⟩

/-- `get_process` returns a slot, or an error that is not null. -/
theorem getProcess_ok (s : System) (pid : ℤ) :
    ∃ p, getProcess pid s = Except.ok (p, s)
      ∧ (p.addr ≠ 0 ↔ PidRejected s pid) := by
  by_cases hpid : pid < 0 ∨ pid ≥ maxProcesses
  · refine ⟨Ptr.error (-einval), by rw [getProcess, if_pos hpid]; rfl, ?_⟩
    exact iff_of_true (by decide) (hpid.imp_right Or.inl)
  · refine ⟨s.processes pid.toNat, by rw [getProcess, if_neg hpid]; rfl, ?_⟩
    unfold PidRejected
    rw [← or_assoc, or_iff_right hpid]

/-! ## `free_process`

Of a process that has no task and no allocations it frees the structure, and it
never changes the table of processes. -/

/-- The table of processes is the same. -/
def SameProcesses (s s' : System) : Prop := s'.processes = s.processes

instance : IsPreorder System SameProcesses where
  refl _ := rfl
  trans _ _ _ h₁ h₂ := Eq.trans h₂ h₁

namespace SameProcesses

theorem deref {T : Type} (store : System → ℕ → Option T) (p : Ptr) :
    Keeps SameProcesses (SystemM.deref store p) := by
  intro s v s' h
  obtain ⟨-, -, rfl⟩ := SystemM.deref_eq_ok h
  rfl

theorem onKernel {α : Type} (x : KernelM α) :
    Keeps SameProcesses (SystemM.onKernel x) := by
  intro s a s' h
  obtain ⟨k, -, rfl⟩ := onKernel_eq_ok.mp h
  rfl

theorem setNext (task next : Ptr) :
    Keeps SameProcesses (Task.setNext task next) :=
  (deref _ _).bind fun _ => Keeps.modify fun _ => rfl

theorem setPrev (task prev : Ptr) :
    Keeps SameProcesses (Task.setPrev task prev) :=
  (deref _ _).bind fun _ => Keeps.modify fun _ => rfl

theorem removeTask (task : Ptr) :
    Keeps SameProcesses (Task.removeTask task) := by
  have hlast : Keeps SameProcesses (do
      Task.setPrev task Ptr.null
      Task.setNext task Ptr.null) := (setPrev _ _).bind fun _ => setNext _ _
  have hnext : Keeps SameProcesses Task.getNextTask :=
    Keeps.get.bind fun _ => (deref _ _).bind fun _ =>
      Keeps.ite Keeps.pure Keeps.pure
  have hcurrent : ∀ current : Ptr, Keeps SameProcesses (do
      modify fun s => { s with current }
      Task.setPrev task Ptr.null
      Task.setNext task Ptr.null : SystemM Unit) :=
    fun _ => Keeps.bind (Keeps.modify fun _ => rfl) fun _ => hlast
  have hends : ∀ p q : Ptr, Keeps SameProcesses (do
      modify fun s => if task.addr = s.head.addr then { s with head := p }
        else s
      modify fun s => if task.addr = s.tail.addr then { s with tail := q }
        else s
      let s ← get
      if task.addr = s.current.addr then
        let current ← Task.getNextTask
        modify fun s => { s with current }
      Task.setPrev task Ptr.null
      Task.setNext task Ptr.null : SystemM Unit) := by
    intro p q
    refine (Keeps.modify fun s => ?_).bind fun _ =>
      (Keeps.modify fun s => ?_).bind fun _ =>
        Keeps.get.bind fun s => Keeps.ite (hnext.bind fun _ => hcurrent _) hlast
    · split <;> rfl
    · split <;> rfl
  refine (deref _ _).bind fun t => Keeps.ite ?_ (Keeps.ite ?_ (hends _ _))
  · exact (setNext _ _).bind fun _ =>
      Keeps.ite ((setPrev _ _).bind fun _ => hends _ _) (hends _ _)
  · exact (setPrev _ _).bind fun _ => hends _ _

theorem freeTask (task : Ptr) : Keeps SameProcesses (Task.freeTask task) :=
  (deref _ _).bind fun _ => (onKernel _).bind fun _ =>
    (removeTask _).bind fun _ =>
      (onKernel _).bind fun _ => Keeps.modify fun _ => rfl

theorem freeAllocations (allocations : List Word) :
    Keeps SameProcesses (Process.freeAllocations allocations) := by
  induction allocations with
  | nil => exact Keeps.pure
  | cons allocation rest ih =>
    exact Keeps.ite ((onKernel _).bind fun _ => ih) Keeps.pure

/-- **`free_process`** does not look at the table of processes, nor write to
it. So a process that has been registered stays so after it is freed. -/
theorem freeProcess (p : Ptr) :
    Keeps SameProcesses (Process.freeProcess p) := by
  have hlast : Keeps SameProcesses (do
      SystemM.onKernel (KernelM.kfree p.addr)
      modify fun s => s.setProcess p.id none : SystemM Unit) :=
    (onKernel _).bind fun _ => Keeps.modify fun _ => rfl
  have hstack : ∀ pr : Process, Keeps SameProcesses (do
      if pr.stack ≠ 0 then
        SystemM.onKernel (KernelM.kfree pr.stack)
      SystemM.onKernel (KernelM.kfree p.addr)
      modify fun s => s.setProcess p.id none : SystemM Unit) :=
    fun pr => Keeps.ite ((onKernel _).bind fun _ => hlast) hlast
  have hrest : Keeps SameProcesses (do
      let pr ← SystemM.deref System.processStructs p
      Process.freeAllocations pr.allocations
      if pr.physMem.addr ≠ 0 then
        SystemM.onKernel (KernelM.kfree pr.physMem.addr)
        modify fun s => s.setProgram pr.physMem.id none
      if pr.stack ≠ 0 then
        SystemM.onKernel (KernelM.kfree pr.stack)
      SystemM.onKernel (KernelM.kfree p.addr)
      modify fun s => s.setProcess p.id none : SystemM Unit) :=
    (deref _ _).bind fun pr => (freeAllocations _).bind fun _ => Keeps.ite
      ((onKernel _).bind fun _ => Keeps.bind (Keeps.modify fun _ => rfl)
        fun _ => hstack pr)
      (hstack pr)
  exact (deref _ _).bind fun pr =>
    Keeps.ite ((freeTask _).bind fun _ => hrest) hrest

end SameProcesses

/-! ## Up to the label

The steps that take the process, its program, its stack and its task, each with
its way to fail. -/

/-- A pointer that is not null is not an error with the code `0`. -/
theorem errorI_ne_zero {p : Ptr} (hp : p.addr ≠ 0) : p.errorI ≠ 0 :=
  fun h => hp (BitVec.eq_of_toInt_eq h)

variable {l : List Ptr} {spot : Ptr → ℕ} {layout : Ptr → SpaceLayout}
  {rest : List Extent}

/-- **Before the mapping** there are three ways: the loader fails, which is all
that has happened; it succeeds and there is no task on the list, so that the
status is `0`; or there is one, and the process has its stack, its name and its
task. -/
theorem prepareProcess_run (hload : Loader loadData)
    (h : TaskHeap s l spot layout rest)
    (hlist : LinkedList Ptr.null s.next s.prev s.head s.tail l)
    (hpr : s.processStructs newProc.id = some initProcess) {result : Option ℤ}
    (hrun : prepareProcess loadData filename pid newProc s
      = Except.ok (result, s')) :
    (∃ r, loadData filename newProc s = Except.ok (r, s') ∧ r < 0
      ∧ result = some r)
      ∨ (∃ s₁, loadData filename newProc s = Except.ok (0, s₁))
        ∧ s'.processes = s.processes
        ∧ (l = [] ∧ result = some 0
          ∨ l ≠ [] ∧ result = none
            ∧ ∃ pr, s'.processStructs newProc.id = some pr ∧ pr.stack ≠ 0
            ∧ pr.name = strncpy initProcess.name filename fsMaxPathSize
            ∧ pr.task.addr ≠ 0
            ∧ LinkedList Ptr.null s'.next s'.prev s'.head s'.tail
              (l ++ [pr.task])) := by
  obtain ⟨loaded, s₁, h₁, h₂⟩ := bind_eq_ok.mp hrun
  by_cases hneg : loaded < 0
  · rw [if_pos hneg] at h₂
    obtain ⟨rfl, rfl⟩ := Prod.mk.inj (Except.ok.inj h₂)
    exact Or.inl ⟨loaded, h₁, hneg, rfl⟩
  rw [if_neg hneg] at h₂
  have hnonpos := hload.nonpos _ _ _ _ _ h₁
  obtain rfl : loaded = 0 := by omega
  refine Or.inr ⟨⟨s₁, h₁⟩, ?_⟩
  -- the program
  obtain ⟨k₁, physMem, size, programs, rfl, hgrows⟩ :=
    hload.loads _ _ _ _ _ hpr h₁
  obtain ⟨e, new, -, -, hgrows₁⟩ := hgrows _ ⟨h.placed, h.inv⟩
  set pr₁ : Process := { initProcess with physMem, size } with hpr₁
  set s₁ : System := { s with
    kernel := k₁
    programs
    processStructs := Function.update s.processStructs newProc.id
      (some pr₁) } with hs₁
  have hheap₁ : TaskHeap s₁ l spot layout (e :: new ++ rest) :=
    h.grow s₁ hgrows₁ rfl
  -- the stack
  obtain ⟨stack, s₂, hstack, h₃⟩ := bind_eq_ok.mp h₂
  obtain ⟨k₂, hbuffer, rfl⟩ := onKernel_eq_ok.mp hstack
  obtain ⟨i, rfl, hgrows₂⟩ := HeapGrows.of_allocateBuffer
    ⟨hheap₁.placed, hheap₁.inv⟩ hbuffer
  have hstack0 := hgrows₂.blockAddress_ne_zero ⟨hheap₁.placed, hheap₁.inv⟩
  rw [if_neg hstack0] at h₃
  -- the name
  obtain ⟨p, s₃, hderef, h₄⟩ := bind_eq_ok.mp h₃
  obtain ⟨hnew, hp, rfl⟩ := deref_eq_ok hderef
  have hlive : (s₁.withKernel k₂).processStructs newProc.id = some pr₁ :=
    Function.update_self _ _ _
  obtain rfl := Option.some.inj (hlive.symm.trans hp)
  rw [modify_bind] at h₄
  set pr₃ : Process := { pr₁ with
    name := strncpy pr₁.name filename fsMaxPathSize
    stack := k₁.heap.blockAddress i
    pid := BitVec.ofInt 16 pid } with hpr₃
  set s₃ := (s₁.withKernel k₂).setProcess newProc.id (some pr₃) with hs₃
  -- the task
  obtain ⟨task, s₄, hnewTask, h₅⟩ := bind_eq_ok.mp h₄
  have hheap₃ := hheap₁.grow s₃ hgrows₂ rfl
  rcases Task.newTask_spec hheap₃ hlist newProc with
    ⟨-, hfail⟩ | ⟨-, -, e, hfail⟩ | hok
  · cases hnewTask.symm.trans hfail
  · cases hnewTask.symm.trans hfail
  obtain ⟨p, k, r', s'', i', L, mem, chunk, -, hrun', hadded, -, hheap₄⟩ := hok
  obtain ⟨rfl, rfl⟩ := Prod.mk.inj (Except.ok.inj (hnewTask.symm.trans hrun'))
  obtain ⟨tasks, structs, hs₄⟩ := hadded.state
  have hresult := hadded.result
  have hprocesses : s₄.processes = s.processes := by rw [hs₄]; rfl
  by_cases hl : l = []
  · rw [if_pos hl] at hresult
    obtain ⟨rfl, -⟩ := hresult
    rw [if_pos (by rfl)] at h₅
    obtain ⟨rfl, rfl⟩ := Prod.mk.inj (Except.ok.inj h₅)
    exact ⟨hprocesses, Or.inl ⟨hl, rfl⟩⟩
  · rw [if_neg hl] at hresult
    obtain ⟨rfl, pr, hpr', hstructs⟩ := hresult
    have htask := hheap₄.distinct.ne_null task
      (List.mem_append_right _ List.mem_cons_self)
    rw [if_neg (errorI_ne_zero htask)] at h₅
    have hlive₃ : s₃.processStructs newProc.id = some pr₃ :=
      Function.update_self _ _ _
    obtain rfl := Option.some.inj (hlive₃.symm.trans hpr')
    have hlive₄ : s₄.processStructs newProc.id = some { pr₃ with task } := by
      rw [hstructs, Function.update_self]
    obtain ⟨p₄, s₅, hderef₄, h₆⟩ := bind_eq_ok.mp h₅
    obtain ⟨-, hp₄, rfl⟩ := deref_eq_ok hderef₄
    obtain rfl := Option.some.inj (hlive₄.symm.trans hp₄)
    rw [modify_bind] at h₆
    obtain ⟨rfl, rfl⟩ := Prod.mk.inj (Except.ok.inj h₆)
    exact ⟨hprocesses,
      Or.inr ⟨hl, rfl, _, Function.update_self _ _ _, hstack0, rfl, htask,
        hadded.links⟩⟩

/-- **What comes to the label**: the status of what came before the mapping, or
that of the mapping, and then the process is registered. A mapping that fails
does not go to the label, so its process is registered all the same. -/
theorem startProcess_run
    (hrun : startProcess loadData mmapProcess filename proc pid newProc s
      = Except.ok ((r, proc'), s')) :
    prepareProcess loadData filename pid newProc s = Except.ok (some r, s')
      ∧ proc' = proc
      ∨ ∃ s₁ s₂,
        prepareProcess loadData filename pid newProc s = Except.ok (none, s₁)
        ∧ mmapProcess newProc s₁ = Except.ok (r, s₂) ∧ proc' = newProc
        ∧ s' = { s₂ with
          processes := Function.update s₂.processes pid.toNat newProc } := by
  obtain ⟨result, s₁, h₁, h₂⟩ := bind_eq_ok.mp hrun
  cases result with
  | some result =>
    obtain ⟨hres, rfl⟩ := Prod.mk.inj (Except.ok.inj h₂)
    obtain ⟨rfl, rfl⟩ := Prod.mk.inj hres
    exact Or.inl ⟨h₁, rfl⟩
  | none =>
    obtain ⟨mapped, s₂, hmapped, h₃⟩ := bind_eq_ok.mp h₂
    rw [modify_bind] at h₃
    obtain ⟨hres, rfl⟩ := Prod.mk.inj (Except.ok.inj h₃)
    obtain ⟨rfl, rfl⟩ := Prod.mk.inj hres
    exact Or.inr ⟨s₁, s₂, h₁, hmapped, rfl, rfl⟩

/-! ## After the label

What a whole call is, put together from its parts, and what it returns. -/

/-- **`free_process`**, of a process that has nothing yet: its own block is
given back. Neither a program nor a stack nor a task is there to be freed. -/
theorem freeProcess_init (hnew : newProc.addr ≠ 0)
    (hpr : s.processStructs newProc.id = some initProcess) :
    freeProcess newProc s = Except.ok ((), (s.withKernel { s.kernel with
      mem := s.kernel.heap.kfree s.kernel.mem newProc.addr }).setProcess
          newProc.id none) := by
  have hnone : freeAllocations initProcess.allocations = pure () := rfl
  rw [freeProcess, bind_ok (deref_ok hnew hpr), if_neg (not_not.mpr (by rfl))]
  refine (bind_ok (deref_ok hnew hpr)).trans ?_
  rw [hnone, pure_bind, if_neg (not_not.mpr (by rfl)),
    if_neg (not_not.mpr (by rfl))]
  exact (bind_ok (onKernel_ok (modify_apply _ _))).trans rfl

/-- What comes after the label: a negative result frees the process. -/
theorem label_eq_ok {s₁ : System} {result : ℤ} {proc₁ : Ptr}
    (h : (do
      if result < 0 then
        freeProcess newProc
      return (result, proc₁) : SystemM (ℤ × Ptr)) s₁
        = Except.ok ((r, proc'), s')) :
    r = result ∧ proc' = proc₁ ∧ (0 ≤ result → s' = s₁)
      ∧ (result < 0 → freeProcess newProc s₁ = Except.ok ((), s')) := by
  by_cases hneg : result < 0
  · rw [if_pos hneg] at h
    obtain ⟨u, s₂, hfree, h₂⟩ := bind_eq_ok.mp h
    obtain ⟨hr, rfl⟩ := Prod.mk.inj (Except.ok.inj h₂)
    obtain ⟨rfl, rfl⟩ := Prod.mk.inj hr
    exact ⟨rfl, rfl, fun hnonneg => absurd hneg (Int.not_lt.mpr hnonneg),
      fun _ => hfree⟩
  · rw [if_neg hneg] at h
    obtain ⟨hr, rfl⟩ := Prod.mk.inj (Except.ok.inj h)
    obtain ⟨rfl, rfl⟩ := Prod.mk.inj hr
    exact ⟨rfl, rfl, fun _ => rfl, fun hneg' => absurd hneg' hneg⟩

/-- A call that comes to the label. -/
theorem loadProcessWith_ok {k : Kernel} {s₁ : System}
    (hpid : ¬ PidRejected s pid)
    (halloc : KernelM.allocate processSize s.kernel = Except.ok (newProc, k))
    (hnew : newProc.addr ≠ 0)
    (hstart : startProcess loadData mmapProcess filename proc pid newProc
      ((s.withKernel k).setProcess newProc.id (some initProcess))
        = Except.ok ((r, proc'), s₁))
    (hlabel : (if r < 0 then freeProcess newProc s₁ else Except.ok ((), s₁))
      = Except.ok ((), s')) :
    loadProcessWith loadData mmapProcess filename proc pid s
      = Except.ok ((r, proc'), s') := by
  obtain ⟨p, hget, hp⟩ := getProcess_ok s pid
  rw [loadProcessWith, bind_ok hget, if_neg fun hne => hpid (hp.mp hne),
    bind_ok (onKernel_ok halloc), if_neg hnew, modify_bind, bind_ok hstart]
  refine when_bind (c := r < 0) (x := freeProcess newProc)
    (f := fun _ => (pure (r, proc') : SystemM (ℤ × Ptr))) (fun hneg => ?_)
      fun hneg => ?_
  · rw [if_pos hneg] at hlabel
    exact hlabel
  · rw [if_neg hneg] at hlabel
    exact (Prod.mk.inj (Except.ok.inj hlabel)).2.symm

end Process

/-! ## All or nothing

The theorem, for every loader and every mapping; and then for those of the
kernel, where the condition is one on the arguments. -/

section AllOrNothing

variable {s s' : System} {loadData : List Byte → Ptr → SystemM ℤ}
  {mmapProcess : Ptr → SystemM ℤ} {filename : List Byte} {proc proc' : Ptr}
  {pid r : ℤ} {l : List Ptr}

/-- **A loader that fails** leaves nothing of the call exactly when it leaves
the table of the heap as it was. -/
theorem asBefore_iff_of_failed {newProc : Ptr} {k k' : Kernel}
    {programs : ℕ → Option (Output Byte)} (hs : TaskList s l)
    (halloc : KernelM.allocate Process.processSize s.kernel
      = Except.ok (newProc, k))
    (hheap' : k'.heap = k.heap)
    (hkept : ∀ e es, k.Holds (e :: es) →
      newProc.addr = k.heap.blockAddress e.first →
      ∃ es', k'.Holds (e :: es'))
    (hfree : Process.freeProcess newProc
      { (s.withKernel k).setProcess newProc.id (some Process.initProcess) with
        kernel := k', programs } = Except.ok ((), s')) :
    AsBefore s s' l proc proc ↔ SameTable k.heap k.mem k'.mem := by
  obtain ⟨spot, layout, rest, hheap⟩ := hs.heap
  have hnew := allocate_ne_null ⟨hheap.placed, _, hheap.inv⟩ halloc
  obtain ⟨i, hp, hgrows⟩ := HeapGrows.of_allocate
    ⟨hheap.placed, hheap.inv⟩ halloc
  have hk : k.heap = s.kernel.heap := hgrows.heap
  have haddr : newProc.addr = k.heap.blockAddress i := by rw [hp, hk]
  obtain ⟨es', hes'⟩ := hkept ⟨i, Heap.blocksFor Process.processSize⟩ _
    ⟨hk ▸ hheap.placed, hk ▸ hgrows.inv⟩ haddr
  obtain ⟨hfreed, -⟩ := hes'.2.kfree_head hes'.wf
  have hrun := Process.freeProcess_init
    (s :=
      { (s.withKernel k).setProcess newProc.id (some Process.initProcess) with
      kernel := k', programs }) hnew (Function.update_self _ _ _)
  obtain ⟨-, rfl⟩ := Prod.mk.inj (Except.ok.inj (hfree.symm.trans hrun))
  -- the process is in front of what is allocated, before the loader and after
  -- it
  have htable : SameTable s.kernel.heap s.kernel.mem
    (k'.heap.kfree k'.mem newProc.addr)
      ↔ SameTable k.heap k.mem k'.mem := by
    have haddr' : newProc.addr = k'.heap.blockAddress i := by rw [haddr, hheap']
    rw [haddr', hheap', hk]
    have hheap'' : k'.heap = s.kernel.heap := hheap'.trans hk
    exact sameTable_cons_iff hheap.inv (hheap'' ▸ hfreed) hgrows.inv
      (hheap'' ▸ hes'.2)
  constructor
  · exact fun h => htable.mp h.table
  · exact fun h => ⟨rfl, rfl, rfl, rfl, rfl, fun _ _ => rfl, hheap'.trans hk,
      htable.mpr h⟩

/-- **`load_process` is all or nothing** exactly when its number is rejected,
when the program cannot be loaded and that leaves the table of the heap as it
was, and when there is a task on the list already and the program can be
mapped. For every loader and every mapping: the theorem is about a call that
returns. -/
theorem load_process_all_or_nothing_iff (hs : TaskList s l)
    (hload : Loader loadData) (hmap : Mapper mmapProcess)
    (hrun : Process.loadProcessWith loadData mmapProcess filename proc pid s
      = Except.ok ((r, proc'), s')) :
    AllOrNothing s s' l filename pid proc proc' r
      ↔ PidRejected s pid ∨ Process.FailsClean loadData filename s
        ∨ (s.head ≠ Ptr.null
          ∧ Process.Maps loadData mmapProcess filename pid s) := by
  obtain ⟨p, hget, hp⟩ := Process.getProcess_ok s pid
  rw [Process.loadProcessWith, bind_ok hget] at hrun
  by_cases hpid : PidRejected s pid
  · rw [if_pos (hp.mpr hpid)] at hrun
    obtain ⟨hr, rfl⟩ := Prod.mk.inj (Except.ok.inj hrun)
    obtain ⟨rfl, rfl⟩ := Prod.mk.inj hr
    refine iff_of_true ⟨fun hzero => absurd hzero (by decide), fun _ => ?_⟩
      (Or.inl hpid)
    exact ⟨rfl, rfl, rfl, rfl, rfl, fun _ _ => rfl, rfl, SameTable.refl _ _⟩
  rw [if_neg fun hne => hpid (hp.mp hne)] at hrun
  -- the new process
  obtain ⟨newProc, s₁, hallocate, h₁⟩ := bind_eq_ok.mp hrun
  obtain ⟨k, halloc, rfl⟩ := onKernel_eq_ok.mp hallocate
  obtain ⟨spot, layout, rest, hheap⟩ := hs.heap
  have hnew := allocate_ne_null ⟨hheap.placed, _, hheap.inv⟩ halloc
  obtain ⟨i, -, hgrows⟩ := HeapGrows.of_allocate
    ⟨hheap.placed, hheap.inv⟩ halloc
  rw [if_neg hnew, modify_bind] at h₁
  obtain ⟨⟨result, proc₁⟩, s₂, hstart, h₂⟩ := bind_eq_ok.mp h₁
  obtain ⟨rfl, rfl, hkept, hfreed⟩ := Process.label_eq_ok h₂
  have hfree : (s.processes pid.toNat).addr = 0 := by
    by_contra hne
    exact hpid (Or.inr (Or.inr hne))
  rw [or_iff_right hpid]
  have hcomes : Process.ComesToLoad s newProc _ := ⟨k, halloc, rfl⟩
  have hheap₁ := hheap.grow ((s.withKernel k).setProcess newProc.id
    (some Process.initProcess))
    hgrows rfl
  have hlive : ((s.withKernel k).setProcess newProc.id
    (some Process.initProcess)).processStructs
      newProc.id = some Process.initProcess := Function.update_self _ _ _
  rcases Process.startProcess_run hstart with
    ⟨hprepare, rfl⟩ | ⟨s₃, s₄, hprepare, hmapped, rfl, rfl⟩
  · -- the call does not come to the mapping
    rw [or_iff_left fun h => hcomes.not_maps hprepare h.2]
    rcases Process.prepareProcess_run hload hheap₁ hs.links hlive hprepare with
      ⟨r', hloaded, hneg, hr⟩ | ⟨⟨s₃, hloaded⟩, hprocs, ⟨-, hr⟩ | ⟨-, hr, -⟩⟩
    · -- the loader has failed
      obtain rfl := Option.some.inj hr
      obtain ⟨k', programs, rfl, hheap', hstays⟩ :=
        hload.fails _ _ _ _ _ hloaded hneg
      have htable : AsBefore s s' l proc' proc'
          ↔ SameTable k.heap k.mem k'.mem :=
        asBefore_iff_of_failed hs halloc hheap' hstays (hfreed hneg)
      rw [hcomes.failsClean_iff hloaded]
      constructor
      · exact fun h => ⟨hneg, htable.mp (h.2 hneg)⟩
      · exact fun h => ⟨fun hzero => absurd hneg (by omega), fun _ =>
          htable.mpr h.2⟩
    · -- the first task of the list: nothing is registered
      obtain rfl := Option.some.inj hr
      obtain rfl := hkept (Int.le_refl 0)
      refine iff_of_false (fun h => ?_) ?_
      · obtain ⟨newProc', k', pr, tasks, halloc', -, hslot, -⟩ := h.1 rfl
        obtain ⟨rfl, -⟩ :=
          Prod.mk.inj (Except.ok.inj (halloc.symm.trans halloc'))
        rw [hprocs] at hslot
        exact hnew (hslot ▸ hfree)
      · rw [hcomes.failsClean_iff hloaded]
        exact fun h => absurd h.1 (Int.lt_irrefl 0)
    · cases hr
  · -- the process is mapped, and registered
    rcases Process.prepareProcess_run hload hheap₁ hs.links hlive hprepare with
      ⟨r', -, -, hr⟩ | ⟨⟨s₅, hloaded⟩, hprocs,
        ⟨-, hr⟩ | ⟨hl, -, pr, hpr, hstack, hname, htask, hlinks⟩⟩
    · cases hr
    · cases hr
    have hclean : ¬ Process.FailsClean loadData filename s := by
      rw [hcomes.failsClean_iff hloaded]
      exact fun h => absurd h.1 (Int.lt_irrefl 0)
    rw [or_iff_right hclean, and_iff_right fun h =>
      hl (hs.links.head_eq_null_iff.mp h), hcomes.maps_iff hprepare hmapped]
    obtain ⟨mem', rfl⟩ := hmap.maps _ _ _ _ hmapped
    constructor
    · intro h
      by_contra hneg
      have hneg := Int.not_le.mp hneg
      -- the process is freed, and its slot still has it
      have hsame := Process.SameProcesses.freeProcess _ _ _ _ (hfreed hneg)
      have hslot : s'.processes pid.toNat = proc' := by
        rw [show s'.processes = Function.update _ pid.toNat proc' from hsame,
          Function.update_self]
      rw [(h.2 hneg).processes] at hslot
      exact hnew (hslot ▸ hfree)
    · intro hnonneg
      obtain rfl := hkept hnonneg
      refine ⟨fun _ => ⟨proc', k, pr, _, halloc, rfl,
        Function.update_self _ _ _, hpr, hstack, hname, hlinks, htask,
        List.mem_append_right _ List.mem_cons_self⟩, fun hneg =>
          absurd hneg (Int.not_lt.mpr hnonneg)⟩

/-- A call that returns and whose number is not rejected has come to
`load_data`. -/
theorem comesToLoad_of_run
    (hrun : Process.loadProcessWith loadData mmapProcess filename proc pid s
      = Except.ok ((r, proc'), s')) (hpid : ¬ PidRejected s pid) :
    ∃ newProc s₁, Process.ComesToLoad s newProc s₁ := by
  obtain ⟨p, hget, hp⟩ := Process.getProcess_ok s pid
  rw [Process.loadProcessWith, bind_ok hget, if_neg fun hne =>
    hpid (hp.mp hne)] at hrun
  obtain ⟨newProc, s₁, hallocate, -⟩ := bind_eq_ok.mp hrun
  obtain ⟨k, halloc, rfl⟩ := onKernel_eq_ok.mp hallocate
  exact ⟨newProc, _, k, halloc, rfl⟩

/-- **The loader of the kernel fails clean** on the paths that are turned
away. -/
theorem failsClean_loadData_iff (hs : TaskList s l) {newProc : Ptr}
    {s₁ : System} (hcomes : Process.ComesToLoad s newProc s₁) :
    Process.FailsClean Process.loadData filename s
      ↔ PathParser.Rejected filename := by
  constructor
  · rintro ⟨newProc', s₁', r', s₂, ⟨k, halloc, rfl⟩, hload, -, hsame⟩
    obtain ⟨spot, layout, rest, hheap⟩ := hs.heap
    obtain ⟨i, -, hgrows⟩ := HeapGrows.of_allocate
      ⟨hheap.placed, hheap.inv⟩ halloc
    have hk : k.HeapOk :=
      ⟨hgrows.heap ▸ hheap.placed, _, hgrows.heap ▸ hgrows.inv⟩
    exact (Process.loadData_sameTable_iff hk hload).mp hsame
  · intro hpath
    exact ⟨newProc, s₁, -einval, s₁, hcomes,
      Process.loadBinary_of_rejected hpath _ _, by decide, SameTable.refl _ _⟩

/-- **With the loader and the mapping of the kernel** a call fails, whatever is
loaded; and nothing is left of it exactly when the number is rejected, or the
path is turned away: a path that is parsed leaves its blocks. -/
theorem loadProcess_fails (hs : TaskList s l)
    (hrun : Process.loadProcess filename proc pid s
      = Except.ok ((r, proc'), s')) :
    r < 0 ∧ (AsBefore s s' l proc proc' ↔ PidRejected s pid
      ∨ PathParser.Rejected filename) := by
  have hneg : r < 0 := by
    obtain ⟨p, hget, -⟩ := Process.getProcess_ok s pid
    rw [Process.loadProcess, Process.loadProcessWith, bind_ok hget] at hrun
    split at hrun
    · exact (Prod.mk.inj (Prod.mk.inj (Except.ok.inj hrun)).1).1 ▸ (by decide)
    obtain ⟨newProc, s₁, -, h₁⟩ := bind_eq_ok.mp hrun
    split at h₁
    · exact (Prod.mk.inj (Prod.mk.inj (Except.ok.inj h₁)).1).1 ▸ (by decide)
    rw [modify_bind] at h₁
    obtain ⟨⟨result, proc₁⟩, s₂, hstart, h₂⟩ := bind_eq_ok.mp h₁
    obtain ⟨rfl, -⟩ := Process.label_eq_ok h₂
    rcases Process.startProcess_run hstart with
      ⟨hprepare, -⟩ | ⟨s₃, s₄, hprepare, -⟩
    · obtain ⟨r', hneg, hr⟩ := Process.prepareProcess_loadData hprepare
      exact Option.some.inj hr ▸ hneg
    · obtain ⟨r', -, hr⟩ := Process.prepareProcess_loadData hprepare
      cases hr
  have hmaps : ¬ Process.Maps Process.loadData Process.mmapProcess
      filename pid s := by
    rintro ⟨newProc, s₁, s₂, r', s₃, -, hprepare, -⟩
    obtain ⟨r'', -, hr⟩ := Process.prepareProcess_loadData hprepare
    cases hr
  have hiff := load_process_all_or_nothing_iff hs Process.loadData_loader
    Process.mmapProcess_mapper hrun
  rw [← or_assoc, or_iff_left fun h => hmaps h.2] at hiff
  have hbefore : AsBefore s s' l proc proc'
      ↔ AllOrNothing s s' l filename pid proc proc' r :=
    ⟨fun h => ⟨fun hzero => absurd hneg (by omega), fun _ => h⟩,
      fun h => h.2 hneg⟩
  rw [hbefore, hiff]
  refine ⟨hneg, or_congr_right' fun hpid => ?_⟩
  obtain ⟨newProc, s₁, hcomes⟩ := comesToLoad_of_run hrun hpid
  exact failsClean_loadData_iff hs hcomes

end AllOrNothing

/-! ## After boot

The system after boot has no process and no task, so the first task is the one
that `new_task` does not return. -/

/-- A mapping that does nothing. -/
theorem nothingMapped_mapper : Mapper fun _ => pure 0 :=
  ⟨fun _ s _ _ h => ⟨s.kernel.mem, (Prod.mk.inj (Except.ok.inj h)).2.symm⟩⟩

theorem not_pidRejected_booted : ¬ PidRejected bootedSystem 0 := by
  unfold PidRejected
  decide

/-- The theorem on a file that is not there, after boot: nothing is left. -/
theorem load_process_all_or_nothing_missing_file : ∃ s',
    Process.loadProcessWith (fun _ _ => pure (-eio)) (fun _ => pure 0)
      [] Ptr.null 0 bootedSystem
        = Except.ok ((-eio, Ptr.null), s')
      ∧ AllOrNothing bootedSystem s' [] [] 0 Ptr.null Ptr.null (-eio) := by
  have hload : Loader (fun _ _ => pure (-eio)) := by
    refine ⟨fun _ _ s r s' h => ?_, fun _ _ s r s' h _ => ?_,
      fun _ _ s s' pr _ h => ?_⟩
    · exact (Prod.mk.inj (Except.ok.inj h)).1 ▸ (by decide)
    · obtain ⟨-, rfl⟩ := Prod.mk.inj (Except.ok.inj h)
      exact ⟨s.kernel, s.programs, rfl, rfl, fun e es hes _ => ⟨es, hes⟩⟩
    · exact absurd (Prod.mk.inj (Except.ok.inj h)).1 (by decide)
  obtain ⟨i, k, halloc, hgrows, -⟩ :=
    HeapGrows.allocate_below bootedSystem_holds
    Process.processSize (by decide) (b := 0)
      (fun e he => absurd he List.not_mem_nil)
    (bootedSystem_total ▸ by decide)
  have hne := hgrows.blockAddress_ne_zero bootedSystem_holds
  obtain ⟨newProc, hp⟩ : ∃ p : Ptr,
    p = ⟨bootedSystem.kernel.heap.blockAddress i,
      bootedSystem.kernel.nextId⟩ := ⟨_, rfl⟩
  rw [← hp] at halloc
  have hnew : newProc.addr ≠ 0 := by
    rw [hp]
    exact hne
  obtain ⟨s₁, hs₁⟩ : ∃ s₁,
    s₁ = (bootedSystem.withKernel k).setProcess newProc.id
      (some Process.initProcess) := ⟨_, rfl⟩
  have hlive : s₁.processStructs newProc.id = some Process.initProcess := by
    rw [hs₁]
    exact Function.update_self _ _ _
  have hstart : Process.startProcess (fun _ _ => pure (-eio)) (fun _ => pure 0)
    [] Ptr.null 0
      newProc s₁ = Except.ok ((-eio, Ptr.null), s₁) := rfl
  rw [hs₁] at hstart
  have hrun := Process.loadProcessWith_ok not_pidRejected_booted
    halloc hnew hstart
    (hs₁ ▸ (if_pos (by decide)).trans (Process.freeProcess_init hnew hlive))
  exact ⟨_, hrun, (load_process_all_or_nothing_iff bootedSystem_taskList hload
    nothingMapped_mapper hrun).mpr
      (Or.inr (Or.inl ⟨newProc, _, -eio, _, ⟨k, halloc, rfl⟩, rfl, by decide,
        SameTable.refl _ _⟩))⟩

/-- A loader of programs of one byte. -/
def oneByteLoader (_ : List Byte) (proc : Ptr) : SystemM ℤ := do
  let physMem ← onKernel (KernelM.allocate 1)
  let pr ← deref System.processStructs proc
  modify fun s => s.setProcess proc.id (some { pr with physMem, size := 1 })
  return 0

theorem oneByteLoader_run {filename : List Byte} {p : Ptr} {s s' : System}
    {r : ℤ} (h : oneByteLoader filename p s = Except.ok (r, s')) :
    r = 0 ∧ ∃ physMem k pr, KernelM.allocate 1 s.kernel = Except.ok (physMem, k)
      ∧ s.processStructs p.id = some pr
      ∧ s' = (s.withKernel k).setProcess p.id
        (some { pr with physMem, size := 1 }) := by
  obtain ⟨physMem, s₁, h₁, h₂⟩ := bind_eq_ok.mp h
  obtain ⟨k, halloc, rfl⟩ := onKernel_eq_ok.mp h₁
  obtain ⟨pr, s₂, h₃, h₄⟩ := bind_eq_ok.mp h₂
  obtain ⟨-, hpr, rfl⟩ := deref_eq_ok h₃
  obtain ⟨rfl, rfl⟩ := Prod.mk.inj (Except.ok.inj h₄)
  exact ⟨rfl, physMem, k, pr, halloc, hpr, rfl⟩

theorem oneByteLoader_loader : Loader oneByteLoader := by
  refine ⟨fun _ _ _ _ _ h => le_of_eq (oneByteLoader_run h).1,
    fun _ _ _ _ _ h hneg => absurd hneg
      (by rw [(oneByteLoader_run h).1]; decide),
    fun _ p s s' pr hpr h => ?_⟩
  obtain ⟨-, physMem, k, pr', halloc, hpr', rfl⟩ := oneByteLoader_run h
  obtain rfl := Option.some.inj (hpr.symm.trans hpr')
  refine ⟨k, physMem, 1, s.programs, rfl, fun es hk => ?_⟩
  obtain ⟨i, rfl, hgrows⟩ := HeapGrows.of_allocate hk halloc
  have hsize : (1 : Word).toNat ≤ 4096 * Heap.blocksFor 1 := by
    unfold Heap.blocksFor
    omega
  exact ⟨⟨i, Heap.blocksFor 1⟩, [], rfl, hsize, hgrows⟩

/-- **The first process after boot**: `load_process` returns `0`, and has not
set `*proc`. -/
theorem load_first_process :
    ∃ s', Process.loadProcessWith oneByteLoader (fun _ => pure 0) []
    Ptr.null 0 bootedSystem = Except.ok ((0, Ptr.null), s') := by
  -- the process, its program and its stack take two, one and five blocks
  obtain ⟨i₁, k₁, halloc₁, hgrows₁, hb₁⟩ :=
    HeapGrows.allocate_below bootedSystem_holds
    Process.processSize (by decide) (b := 0)
      (fun e he => absurd he List.not_mem_nil)
    (bootedSystem_total ▸ by decide)
  have hnew := hgrows₁.blockAddress_ne_zero bootedSystem_holds
  set p : Ptr := ⟨bootedSystem.kernel.heap.blockAddress i₁,
    bootedSystem.kernel.nextId⟩ with hp
  set s₁ := (bootedSystem.withKernel k₁).setProcess p.id
    (some Process.initProcess) with hs₁
  have hheap₁ :=
    (bootedSystem_taskHeap (fun _ => 0) fun _ => ⟨0, 0, fun _ => 0⟩).grow s₁
    hgrows₁ rfl
  have htotal₁ : 25600 ≤ k₁.heap.total := by
    rw [hgrows₁.heap]
    exact bootedSystem_total.ge
  -- the program
  obtain ⟨i₂, k₂, halloc₂, hgrows₂, hb₂⟩ := HeapGrows.allocate_below (k := k₁)
    ⟨hheap₁.placed, hheap₁.inv⟩ 1 (by decide) hb₁
      (Nat.le_trans (by decide) htotal₁)
  set physMem : Ptr := ⟨k₁.heap.blockAddress i₂, k₁.nextId⟩ with hphysMem
  set s₂ := (s₁.withKernel k₂).setProcess p.id
    (some { Process.initProcess with physMem, size := 1 }) with hs₂
  have hlive₁ : (s₁.withKernel k₂).processStructs p.id
      = some Process.initProcess := by
    rw [System.processStructs_withKernel, System.processStructs_setProcess_self]
  have hset₂ : (s₁.withKernel k₂).setProcess p.id
      (some { Process.initProcess with physMem, size := 1 }) = s₂ := rfl
  have hload : oneByteLoader [] p s₁ = Except.ok (0, s₂) := by
    rw [oneByteLoader, bind_ok (onKernel_ok halloc₂)]
    refine (bind_ok (deref_ok (p := p) hnew hlive₁)).trans ?_
    rw [modify_bind]
    rfl
  have hheap₂ := hheap₁.grow s₂ hgrows₂ rfl
  have htotal₂ : 25600 ≤ k₂.heap.total := by
    rw [hgrows₂.heap]
    exact htotal₁
  -- the stack
  obtain ⟨i₃, k₃, halloc₃, hgrows₃, hb₃⟩ :=
    HeapGrows.allocateBuffer_below (k := k₂)
    ⟨hheap₂.placed, hheap₂.inv⟩ programUserProgramStackSize (by decide) hb₂
    (Nat.le_trans (by decide) htotal₂)
  have hstack := hgrows₃.blockAddress_ne_zero (k := k₂)
    ⟨hheap₂.placed, hheap₂.inv⟩
  set s₃ := (s₂.withKernel k₃).setProcess p.id (some { Process.initProcess with
    physMem, size := 1
    name := strncpy Process.initProcess.name [] fsMaxPathSize
    stack := k₂.heap.blockAddress i₃
    pid := BitVec.ofInt 16 0 }) with hs₃
  have hheap₃ := hheap₂.grow s₃ hgrows₃ rfl
  have htotal₃ : 25600 ≤ k₃.heap.total := by
    rw [hgrows₃.heap]
    exact htotal₂
  -- the task
  have hroom : ¬ Task.NoRoomForTask s₃.kernel :=
    Task.not_noRoomForTask ⟨_, ⟨hheap₃.placed, hheap₃.inv⟩, hb₃⟩
      (Nat.le_trans (by decide) htotal₃)
  have hnewTask : ∃ s₄, Task.newTask p s₃ = Except.ok (Ptr.null, s₄) := by
    rcases Task.newTask_spec hheap₃ (LinkedList.nil _ _ _) p with
      ⟨hno, -⟩ | ⟨hl, -⟩ | hok
    · exact absurd hno hroom
    · exact absurd rfl hl
    · obtain ⟨q, k, r, s₄, i, L, mem, chunk, -, hrun, hadded, -, -⟩ := hok
      have hresult := hadded.result
      rw [if_pos rfl] at hresult
      exact ⟨s₄, hresult.1 ▸ hrun⟩
  obtain ⟨s₄, hnewTask⟩ := hnewTask
  have hlive₂ : (s₂.withKernel k₃).processStructs p.id
      = some { Process.initProcess with physMem, size := 1 } := by
    rw [System.processStructs_withKernel, System.processStructs_setProcess_self]
  have hprepare : Process.prepareProcess oneByteLoader [] 0 p s₁
      = Except.ok (some 0, s₄) := by
    rw [Process.prepareProcess, bind_ok hload, if_neg (by decide),
      bind_ok (onKernel_ok halloc₃)]
    refine (congrFun (if_neg hstack) _).trans
      ((bind_ok (deref_ok (p := p) hnew hlive₂)).trans ?_)
    rw [modify_bind]
    exact (bind_ok hnewTask).trans (if_pos rfl ▸ rfl)
  have hstart : Process.startProcess oneByteLoader (fun _ => pure 0)
    [] Ptr.null 0 p s₁
      = Except.ok ((0, Ptr.null), s₄) := bind_ok hprepare
  exact ⟨s₄, Process.loadProcessWith_ok not_pidRejected_booted
    halloc₁ hnew hstart
    (if_neg (by decide))⟩

/-- **`load_process` is not all or nothing.** The first process of all is the
failing input: the list of tasks is empty, and `new_task` returns null although
it has put a task there. -/
theorem first_process_not_loaded :
    ¬ ∀ (s s' : System) (l : List Ptr) (loadData : List Byte → Ptr → SystemM ℤ)
      (mmapProcess : Ptr → SystemM ℤ) (filename : List Byte) (proc proc' : Ptr)
        (pid r : ℤ),
      TaskList s l → Loader loadData → Mapper mmapProcess →
      Process.loadProcessWith loadData mmapProcess filename proc pid s
        = Except.ok ((r, proc'), s') →
        AllOrNothing s s' l filename pid proc proc' r := by
  intro h
  obtain ⟨s', hrun⟩ := load_first_process
  obtain ⟨newProc, k, pr, tasks, halloc, hproc, -⟩ := (h _ _ _ _ _ _ _ _ _ _
    bootedSystem_taskList oneByteLoader_loader nothingMapped_mapper hrun).1 rfl
  have hnull := allocate_ne_null ⟨bootedSystem_holds.1, _,
    bootedSystem_holds.2⟩ halloc
  rw [← hproc] at hnull
  exact hnull rfl

end N00bOS
