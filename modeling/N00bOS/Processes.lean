import N00bOS.File
import N00bOS.Tasks

/-!
# Processes

`arch/i386/task/process.cpp`: loading a program from a file, mapping it into
the address space of its task, and the table of processes.

A `goto out` leaves a function here: what comes before the label is a function
of its own, and what comes after runs on its result. So `load_binary` is
`readBinary` and a label that closes the file, and `load_process` is
`prepareProcess`, `startProcess` and a label that frees the process.
`load_process` is given `load_data` and `mmap_process`, because what it does
with their results does not depend on what they are, and `loadProcess` applies
it to those of the file. Where `*proc` is set it returns the new value beside
the status.

The bytes of a program are kept by the number of its allocation, as the
structures are; its address is what is mapped.
-/

namespace N00bOS

open SystemM Fat16

/-- `strncpy`: the destination afterwards. The loop that pads writes one
character, again and again. -/
def strncpy (dst src : List Byte) (n : ℕ) : List Byte :=
  let copied := src.take n
  if copied.length < n then copied ++ 0x00#8 :: dst.drop (copied.length + 1)
  else copied ++ dst.drop n

namespace Process

/-- `sizeof(process)`. -/
def processSize : Word := 4372#32

/-- `init_process`: a `process` of zeros. -/
def initProcess : Process where
  pid := 0
  name := List.replicate fsMaxPathSize 0x00#8
  task := Ptr.null
  allocations := List.replicate programMaxAllocations 0
  physMem := Ptr.null
  size := 0
  stack := 0

/-- What `load_binary` does with its open file, up to the label. The `stat` is
read only after it is written. -/
def readBinary (fd : ℤ) (proc : Ptr) : SystemM ℤ := do
  -- Obtain the size
  let (result, stat) ← onKernel (File.fstat fd ⟨0, 0⟩)
  if result ≠ 0 then
    return result
  -- Allocate and read in physical memory
  let programDataPtr ← onKernel (KernelM.allocate stat.filesize)
  modify fun s => s.setProgram programDataPtr.id (some zeroOutput)
  if programDataPtr.addr = 0 then
    return -enomem
  let s ← get
  let (numRead, data) ← onKernel
    (File.fread s.kernel.sectors zeroOutput 1 stat.filesize fd)
  modify fun s => s.setProgram programDataPtr.id (some data)
  if numRead ≠ 1 then
    return -eio
  let p ← deref System.processStructs proc
  modify fun s => s.setProcess proc.id
    (some { p with physMem := programDataPtr, size := stat.filesize })
  return result

/-- `load_binary`. -/
def loadBinary (filename : List Byte) (proc : Ptr) : SystemM ℤ := do
  -- Read file
  let fd ← onKernel (File.fopen filename [0x72#8])
  let result ← (if fd < 0 then pure (-eio) else readBinary fd proc : SystemM ℤ)
  let closeResult ← onKernel (File.fclose fd)
  if closeResult ≠ 0 then
    return closeResult
  return result

/-- `load_data`. -/
def loadData (filename : List Byte) (proc : Ptr) : SystemM ℤ :=
  loadBinary filename proc

/-- The flags of the pages of a program. -/
def programFlags : Word :=
  (pagingIsPresent ||| pagingAccessFromAll ||| pagingIsWritable).setWidth 32

/-- `mmap_binary`. -/
def mmapBinary (proc : Ptr) : SystemM ℤ := do
  let p ← deref System.processStructs proc
  let t ← deref System.tasks p.task
  let s ← get
  let pageDirectory := pagingDirectory s.kernel.mem t.pageDirectory
  let physEnd := pagingAlign (p.physMem.addr + p.size)
  let (result, m) := pagingMap s.kernel.mem pageDirectory programVirtualAddress
    p.physMem.addr
    physEnd programFlags
  modify fun s => s.withKernel { s.kernel with mem := m }
  return result

/-- `mmap_process`. -/
def mmapProcess (proc : Ptr) : SystemM ℤ := mmapBinary proc

/-- `get_process`. -/
def getProcess (pid : ℤ) : SystemM Ptr := do
  if pid < 0 ∨ pid ≥ maxProcesses then
    return Ptr.error (-einval)
  let s ← get
  return s.processes pid.toNat

/-- The loop of `free_process` over the allocations, up to the first that is
null. -/
def freeAllocations : List Word → SystemM Unit
  | [] => return
  | allocation :: rest =>
    if allocation ≠ 0 then do
      onKernel (KernelM.kfree allocation)
      freeAllocations rest
    else return

/-- `free_process`. -/
def freeProcess (proc : Ptr) : SystemM Unit := do
  let p ← deref System.processStructs proc
  if p.task.addr ≠ 0 then
    Task.freeTask p.task
  let p ← deref System.processStructs proc
  freeAllocations p.allocations
  if p.physMem.addr ≠ 0 then
    onKernel (KernelM.kfree p.physMem.addr)
    modify fun s => s.setProgram p.physMem.id none
  if p.stack ≠ 0 then
    onKernel (KernelM.kfree p.stack)
  onKernel (KernelM.kfree proc.addr)
  modify fun s => s.setProcess proc.id none

/-- What `load_process` does with its new process before it is mapped: the
status that goes to the label, where there is one. -/
def prepareProcess (loadData : List Byte → Ptr → SystemM ℤ)
    (filename : List Byte) (pid : ℤ) (tmpProc : Ptr) : SystemM (Option ℤ) := do
  -- Load program data from file
  let result ← loadData filename tmpProc
  if result < 0 then
    return some result
  -- Allocate stack
  let programStackPtr ← onKernel
    (KernelM.allocateBuffer programUserProgramStackSize)
  if programStackPtr = 0 then
    return some (-enomem)
  -- Assign filename
  let p ← deref System.processStructs tmpProc
  modify fun s => s.setProcess tmpProc.id (some { p with
    name := strncpy p.name filename fsMaxPathSize
    stack := programStackPtr
    pid := BitVec.ofInt 16 pid })
  -- New task for process
  let task ← Task.newTask tmpProc
  if task.errorI = 0 then
    return some task.errorI
  let p ← deref System.processStructs tmpProc
  modify fun s => s.setProcess tmpProc.id (some { p with task })
  return none

/-- What `load_process` does with its new process, up to the label: the status
and `*proc`. The new process is registered before the status of
`mmap_process` is looked at. -/
def startProcess (loadData : List Byte → Ptr → SystemM ℤ)
    (mmapProcess : Ptr → SystemM ℤ) (filename : List Byte) (proc : Ptr)
    (pid : ℤ) (tmpProc : Ptr) : SystemM (ℤ × Ptr) := do
  match ← prepareProcess loadData filename pid tmpProc with
  | some result => return (result, proc)
  | none =>
    -- map virtual to physical address space of process
    let result ← mmapProcess tmpProc
    modify fun s =>
      { s with processes := Function.update s.processes pid.toNat tmpProc }
    return (result, tmpProc)

/-- `load_process`, with the loader and the mapping given: the status and
`*proc`. -/
def loadProcessWith (loadData : List Byte → Ptr → SystemM ℤ)
    (mmapProcess : Ptr → SystemM ℤ) (filename : List Byte) (proc : Ptr)
    (pid : ℤ) : SystemM (ℤ × Ptr) := do
  -- Check no process with pid already exists
  let existing ← getProcess pid
  if existing.addr ≠ 0 then
    return (-einval, proc)
  -- init process struct
  let tmpProc ← onKernel (KernelM.allocate processSize)
  if tmpProc.addr = 0 then
    return (-enomem, proc)
  modify fun s => s.setProcess tmpProc.id (some initProcess)
  let (result, proc) ← startProcess loadData mmapProcess filename
    proc pid tmpProc
  if result < 0 then
    freeProcess tmpProc
  return (result, proc)

/-- `load_process`. -/
def loadProcess (filename : List Byte) (proc : Ptr) (pid : ℤ) :
    SystemM (ℤ × Ptr) :=
  loadProcessWith loadData mmapProcess filename proc pid

end Process

end N00bOS
