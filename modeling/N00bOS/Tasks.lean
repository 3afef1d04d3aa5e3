import N00bOS.Paging
import N00bOS.System

/-!
# Tasks

`arch/i386/task/task.cpp`: the list of tasks, its three pointers, and the
address space that each task owns. A task is linked by the `next` and `prev` of
its structure; the head, the tail and the current task are globals. Freeing a
task takes it from the list, gives its page tables back and then its structure.

`new_task` returns null for the first task of a list, although the task is made
and is on the list: the function returns before its last lines. What that does
to the caller is in `N00bOS.LoadProcess`.
-/

namespace N00bOS

open SystemM

namespace Task

/-- `sizeof(task_t)`. -/
def taskSize : Word := 60#32

/-- A `task_t` of zeros. -/
def zero : Task := ⟨0, ⟨0, 0, 0⟩, Ptr.null, Ptr.null⟩

/-- `paging_new`, on the heap of the kernel. -/
def pagingNew (flags : Byte) : KernelM Word := fun k =>
  match N00bOS.pagingNew k.heap.kzallocFit flags k.mem with
  | some (chunk, m) => Except.ok (chunk, { k with mem := m })
  | none => Except.error Fault.outOfMemory

/-- `paging_free`, on the heap of the kernel. -/
def pagingFree (chunk : Word) : KernelM Unit :=
  modify fun k => { k with mem := N00bOS.pagingFree k.heap.kfree chunk k.mem }

/-- `get_next_task`. It wraps around at the end of the list. -/
def getNextTask : SystemM Ptr := do
  let s ← get
  let task ← deref System.tasks s.current
  if task.next.addr = 0 then
    return s.head
  return task.next

/-- `task->next = next`. -/
def setNext (task next : Ptr) : SystemM Unit := do
  let t ← deref System.tasks task
  modify fun s => s.setTask task.id (some { t with next })

/-- `task->prev = prev`. -/
def setPrev (task prev : Ptr) : SystemM Unit := do
  let t ← deref System.tasks task
  modify fun s => s.setTask task.id (some { t with prev })

/-- `remove_task`. -/
def removeTask (task : Ptr) : SystemM Unit := do
  let t ← deref System.tasks task
  let prev := t.prev
  let next := t.next
  if prev.addr ≠ 0 then
    setNext prev next
  if next.addr ≠ 0 then
    setPrev next prev
  modify fun s => if task.addr = s.head.addr then { s with head := next } else s
  modify fun s => if task.addr = s.tail.addr then { s with tail := prev } else s
  let s ← get
  if task.addr = s.current.addr then
    let current ← getNextTask
    modify fun s => { s with current }
  setPrev task Ptr.null
  setNext task Ptr.null

/-- `init_task`. -/
def initTask (task : Ptr) : SystemM ℤ := do
  modify fun s => s.setTask task.id (some zero)
  let pageDirectory ← onKernel
    (pagingNew (pagingIsPresent ||| pagingAccessFromAll))
  modify fun s => s.setTask task.id (some { zero with pageDirectory })
  if pageDirectory = 0 then
    return -eio
  let reg : Registers :=
    { ip := programVirtualAddress, ss := userDataSegment, esp :=
      programVirtualStackAddressStart }
  modify fun s => s.setTask task.id (some { zero with pageDirectory, reg })
  return 0

/-- `free_task`. -/
def freeTask (task : Ptr) : SystemM Unit := do
  let t ← deref System.tasks task
  onKernel (pagingFree t.pageDirectory)
  removeTask task
  onKernel (KernelM.kfree task.addr)
  modify fun s => s.setTask task.id none

/-- `new_task`. The first task of the list is not what is returned, and its
process does not get it. -/
def newTask (proc : Ptr) : SystemM Ptr := do
  let task ← onKernel (KernelM.allocate taskSize)
  if task.addr = 0 then
    return Ptr.error (-enomem)
  let result ← initTask task
  if result ≠ 0 then
    freeTask task
    return Ptr.error result
  let s ← get
  if s.head.addr = 0 then
    modify fun s => { s with head := task, tail := task }
    return Ptr.null
  setNext s.tail task
  setPrev task s.tail
  modify fun s => { s with tail := task }
  let p ← deref System.processStructs proc
  modify fun s => s.setProcess proc.id (some { p with task })
  return task

end Task

end N00bOS
