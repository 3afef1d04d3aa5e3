import N00bOS.DiskStreamer

/-!
# Tasks and processes in the state

What `task.h` and `process.h` declare, over the state of the kernel: the
globals of the two source files, and what the allocations of tasks, processes
and programs hold, by the numbers of their allocations as in `N00bOS.Kernel`.
The page tables of a task are in the memory itself, because the processor reads
them there.

A program of the kernel runs on the kernel's part of the state (`onKernel`),
and what it leaves of the rest is the rest. So the results about the heap, the
files and the page tables are used here as they stand.
-/

namespace N00bOS

/-- `registers`: those that are set. -/
structure Registers where
  /-- `ip`. -/
  ip : Word
  /-- `esp`. -/
  esp : Word
  /-- `ss`. -/
  ss : Word
  deriving DecidableEq

/-- `task_t`. -/
structure Task where
  /-- The `paging_chunk` of the task. -/
  pageDirectory : Word
  /-- Its registers when it is not running. -/
  reg : Registers
  /-- The task after it. -/
  next : Ptr
  /-- The task before it. -/
  prev : Ptr
  deriving DecidableEq

/-- `process`. -/
structure Process where
  /-- Its number. -/
  pid : BitVec 16
  /-- `name`: its characters, terminator and all. -/
  name : List Byte
  /-- Its task. -/
  task : Ptr
  /-- The allocations it made. -/
  allocations : List Word
  /-- The memory of the program. -/
  physMem : Ptr
  /-- How many bytes that is. -/
  size : Word
  /-- Its stack. -/
  stack : Word
  deriving DecidableEq

/-- **The state of the system**: the kernel's, the list of tasks with its three
pointers, the table of processes, and what the live tasks, processes and
programs hold. -/
structure System where
  /-- Heap, disk and files. -/
  kernel : Kernel
  /-- The task that runs. -/
  current : Ptr
  /-- The last task. -/
  tail : Ptr
  /-- The first task. -/
  head : Ptr
  /-- The live `task_t`s. -/
  tasks : ℕ → Option Task
  /-- `processes`. -/
  processes : ℕ → Ptr
  /-- The live `process`es. -/
  processStructs : ℕ → Option Process
  /-- The live buffers that programs are read into. -/
  programs : ℕ → Option (Output Byte)

/-- **A program of the system**: of the kernel, with its tasks and processes.
-/
abbrev SystemM := Machine Fault System

namespace System

/-- The kernel replaced. -/
def withKernel (k : Kernel) (s : System) : System := { s with kernel := k }

variable (s : System) (id : ℕ)

/-- Put a `task_t` in an allocation, or take it out. -/
def setTask (v : Option Task) : System :=
  { s with tasks := Function.update s.tasks id v }

/-- Put a `process` in an allocation, or take it out. -/
def setProcess (v : Option Process) : System :=
  { s with processStructs := Function.update s.processStructs id v }

/-- Put the bytes of a program in an allocation, or take them out. -/
def setProgram (v : Option (Output Byte)) : System :=
  { s with programs := Function.update s.programs id v }

end System

namespace SystemM

/-- A program of the kernel. -/
def onKernel {α : Type} (x : KernelM α) : SystemM α :=
  Machine.zoom System.kernel System.withKernel x

section OnKernel

variable {α : Type} {x : KernelM α} {s s' : System} {k : Kernel} {a : α}
  {e : Fault}

theorem onKernel_ok (h : x s.kernel = Except.ok (a, k)) :
    onKernel x s = Except.ok (a, s.withKernel k) := Machine.zoom_ok h

theorem onKernel_error (h : x s.kernel = Except.error e) :
    onKernel x s = Except.error e :=
  Machine.zoom_error h

theorem onKernel_eq_ok : onKernel x s = Except.ok (a, s')
    ↔ ∃ k, x s.kernel = Except.ok (a, k) ∧ s' = s.withKernel k :=
      Machine.zoom_eq_ok

end OnKernel

/-- Read a structure through a pointer. -/
def deref {T : Type} (store : System → ℕ → Option T) (p : Ptr) : SystemM T :=
  fun s =>
  if p.addr = 0 then Except.error Fault.nullDereference
  else
    match store s p.id with
    | some v => Except.ok (v, s)
    | none => Except.error Fault.danglingDereference

section Deref

variable {T : Type} {store : System → ℕ → Option T} {p : Ptr} {s s' : System}
  {v : T}

/-- A live pointer can be read through. -/
theorem deref_ok (hp : p.addr ≠ 0) (h : store s p.id = some v) :
    deref store p s = Except.ok (v, s) := by
  rw [deref, if_neg hp, h]

/-- What was read was there. -/
theorem deref_eq_ok (h : deref store p s = Except.ok (v, s')) :
    p.addr ≠ 0 ∧ store s p.id = some v ∧ s' = s := by
  rw [deref] at h
  by_cases hp : p.addr = 0
  · rw [if_pos hp] at h
    cases h
  · rw [if_neg hp] at h
    cases hs : store s p.id with
    | some w =>
      rw [hs] at h
      obtain ⟨rfl, rfl⟩ := Prod.mk.inj (Except.ok.inj h)
      exact ⟨hp, rfl, rfl⟩
    | none =>
      rw [hs] at h
      cases h

end Deref

end SystemM

end N00bOS
