import N00bOS.PathSyntax
import N00bOS.TaskList

/-!
# Runs of `new_task` and `free_task`

A state with a list of tasks is well formed (`TaskList`) when each task is an
allocation of its own, with an address space that is allocations of its own
(`TaskHeap`), when the links make a doubly linked list of them, and when
`current` is null or one of them. The two calls keep that: `new_task` puts one
more task at the end of the list, and `free_task` takes one out, with its
allocations.

`new_task` does not return the first task of a list. The task is on the list
all the same.

Each call has a specification over a state with a list (`newTask_spec`,
`freeTask_spec`), which is put together from what it does to the links – the
list lemmas of `N00bOS.LinkedList`, by way of `N00bOS.TaskList` – and what it
does to the heap, where the page tables of one task are allocated or given back
while those of the others keep their contents. From these `TaskList.newTask`
and `TaskList.freeTask` are the step lemmas of the invariant, and
`TasksReachable.taskList` is the induction over a run.
-/

namespace N00bOS

open SystemM Machine Linked

/-! ## Tasks on the heap

Each task is a block of its own and has an address space, which is 1026
allocations more. That all of these are apart is what keeps the links of one
task from being written over by another. -/

/-- The allocations of a task: its own, and its address space. -/
def ownedBy (spot : Ptr → ℕ) (layout : Ptr → SpaceLayout) (p : Ptr) :
    List Extent :=
  ⟨spot p, 1⟩ :: (layout p).extents

/-- **Tasks on the heap**: where each one and its address space are, with
`rest` for the other allocations. A task that is freed gives back its own and
no other. -/
structure TaskHeap (s : System) (l : List Ptr) (spot : Ptr → ℕ)
    (layout : Ptr → SpaceLayout) (rest : List Extent) : Prop where
  /-- The heap is where the kernel has it. -/
  placed : s.kernel.heap.Placed
  /-- The allocations are what the table says. -/
  inv : s.kernel.heap.HeapInv s.kernel.mem
    (l.flatMap (ownedBy spot layout) ++ rest)
  /-- A task is where its allocation is. -/
  addr_eq : ∀ p ∈ l, p.addr = s.kernel.heap.blockAddress (spot p)
  /-- A task is live, and its address space is in memory. -/
  space : ∀ p ∈ l, ∃ chunk reg page, s.body p = some (chunk, reg)
    ∧ SpaceAt s.kernel.heap s.kernel.mem chunk (layout p) page
  /-- Different tasks have different numbers, and no later allocation gets one
  of them. -/
  id_inj : ∀ p ∈ l, ∀ q ∈ l, p.id = q.id → p = q
  id_lt : ∀ p ∈ l, p.id < s.kernel.nextId

namespace TaskHeap

variable {s : System} {l l₁ l₂ : List Ptr} {p : Ptr} {spot : Ptr → ℕ}
  {layout : Ptr → SpaceLayout} {rest : List Extent}

theorem wf (h : TaskHeap s l spot layout rest) : s.kernel.heap.Wf :=
  h.placed.toWf

theorem mem_owned (hp : p ∈ l) {e : Extent} (he : e ∈ ownedBy spot layout p) :
    e ∈ l.flatMap (ownedBy spot layout) ++ rest :=
  List.mem_append_left rest (List.mem_flatMap.mpr ⟨p, hp, he⟩)

theorem spot_lt (h : TaskHeap s l spot layout rest) (hp : p ∈ l) :
    spot p < s.kernel.heap.total := by
  have hmem : (⟨spot p, 1⟩ : Extent)
      ∈ l.flatMap (ownedBy spot layout) ++ rest :=
    mem_owned hp List.mem_cons_self
  exact h.inv.packed.stop_le _ hmem

/-- **The pointers to the tasks are distinct.** Their blocks are different, and
so are their numbers, since each was new when its task was made. -/
theorem distinct (h : TaskHeap s l spot layout rest) : Distinct l := by
  refine ⟨fun p hp => ?_, fun p hp q hq heq => ?_, h.id_inj⟩
  · rw [h.addr_eq p hp]
    exact blockAddress_ne_zero h.wf h.placed.start_ne_zero (h.spot_lt hp)
  · rw [h.addr_eq p hp, h.addr_eq q hq] at heq
    have hspot := Heap.blockAddress_inj h.wf (h.spot_lt hp) (h.spot_lt hq) heq
    by_contra hne
    -- two tasks would own one block
    have hpair :=
      (List.nodup_flatMap.mp (List.nodup_append.mp h.inv.packed.nodup).1).2
    have : Std.Symm (Function.onFun List.Disjoint (ownedBy spot layout)) :=
      ⟨fun _ _ hab _ hb ha => hab ha hb⟩
    have hdis := hpair.forall hp hq hne
    have hq' : (⟨spot p, 1⟩ : Extent) ∈ ownedBy spot layout q := by
      rw [ownedBy, hspot]
      exact List.mem_cons_self
    exact hdis (List.mem_cons_self (a := (⟨spot p, 1⟩ : Extent))) hq'

theorem live (h : TaskHeap s l spot layout rest) :
    ∀ p ∈ l, (s.body p).isSome := fun p hp => by
  obtain ⟨chunk, reg, -, hbody, -⟩ := h.space p hp
  rw [hbody]
  rfl

/-- The allocations of one task first. -/
theorem owned_perm (p : Ptr) (l₁ l₂ : List Ptr) (spot : Ptr → ℕ)
    (layout : Ptr → SpaceLayout) (rest : List Extent) :
    ((l₁ ++ p :: l₂).flatMap (ownedBy spot layout) ++ rest).Perm
      ((layout p).extents
        ++ ⟨spot p, 1⟩ :: ((l₁ ++ l₂).flatMap (ownedBy spot layout)
          ++ rest)) := by
  have hmiddle : (l₁ ++ p :: l₂).Perm (p :: (l₁ ++ l₂)) := List.perm_middle
  have hfirst := hmiddle.flatMap_right (ownedBy spot layout)
  rw [List.flatMap_cons, ownedBy] at hfirst
  refine (hfirst.append_right rest).trans ?_
  rw [List.cons_append, List.cons_append, List.append_assoc]
  exact List.perm_middle.symm

/-- **A task and its allocations are taken out**, and the data of the others
stays as it was. -/
theorem removed (h : TaskHeap s (l₁ ++ p :: l₂) spot layout rest) {s' : System}
    {m : Memory} (hk : s'.kernel = { s.kernel with mem := m })
    (hinv : s.kernel.heap.HeapInv m
      ((l₁ ++ l₂).flatMap (ownedBy spot layout) ++ rest))
    (hdata : ∀ e : Extent, e.stop ≤ s.kernel.heap.total →
      Set.EqOn m s.kernel.mem (s.kernel.heap.dataRegion e))
    (hmem : ∀ q ∈ l₁ ++ l₂, q ∈ l₁ ++ p :: l₂)
    (hbody : ∀ q ∈ l₁ ++ l₂, s'.body q = s.body q) :
    TaskHeap s' (l₁ ++ l₂) spot layout rest := by
  refine ⟨?_, ?_, fun q hq => ?_, fun q hq => ?_,
    fun q hq r hr => h.id_inj q (hmem q hq) r (hmem r hr), fun q hq => ?_⟩
  · rw [hk]
    exact h.placed
  · rw [hk]
    exact hinv
  · rw [hk]
    exact h.addr_eq q (hmem q hq)
  · obtain ⟨chunk, reg, page, hq', hspace⟩ := h.space q (hmem q hq)
    refine ⟨chunk, reg, page, (hbody q hq).trans hq', ?_⟩
    rw [hk]
    refine hspace.congr fun e he => hdata e (hinv.packed.stop_le e ?_)
    exact mem_owned hq (List.mem_cons_of_mem (⟨spot q, 1⟩ : Extent) he)
  · rw [hk]
    exact h.id_lt q (hmem q hq)

end TaskHeap

namespace Task

variable {s : System} {l l₁ l₂ : List Ptr} {p : Ptr} {spot : Ptr → ℕ}
  {layout : Ptr → SpaceLayout} {rest : List Extent}

/-- **`free_task`** takes the task out of the list and gives its allocations
back, and `current` moves on if that was it. -/
theorem freeTask_spec (h : TaskHeap s (l₁ ++ p :: l₂) spot layout rest)
    (hlist : LinkedList Ptr.null s.next s.prev s.head s.tail (l₁ ++ p :: l₂))
    (hcur : s.current = Ptr.null ∨ s.current ∈ l₁ ++ p :: l₂) :
    ∃ s', freeTask p s = Except.ok ((), s')
      ∧ (∃ mem tasks head tail current, s' = { s with
          kernel := { s.kernel with mem }, tasks, head, tail, current })
      ∧ s'.tasks p.id = none
      ∧ (∀ q, q.id ≠ p.id → s'.body q = s.body q)
      ∧ TaskHeap s' (l₁ ++ l₂) spot layout rest
      ∧ LinkedList Ptr.null s'.next s'.prev s'.head s'.tail (l₁ ++ l₂)
      ∧ s'.current = if p = s.current then (l₂ ++ l₁).headD Ptr.null
        else s.current := by
  have hp : p ∈ l₁ ++ p :: l₂ := List.mem_append_right _ List.mem_cons_self
  have hd := h.distinct
  obtain ⟨chunk, reg, page, hbody, hspace⟩ := h.space p hp
  obtain ⟨t, hderef, -, -, -, ht⟩ := deref_task (hd.ne_null p hp) (h.live p hp)
  obtain rfl : t.pageDirectory = chunk :=
    congrArg Prod.fst (Option.some.inj (ht.symm.trans hbody))
  -- the address space
  have hinv := h.inv.perm (TaskHeap.owned_perm p l₁ l₂ spot layout rest)
  obtain ⟨hfreed, hdata⟩ := pagingFree_spec h.wf hinv hspace
  set m₁ := N00bOS.pagingFree s.kernel.heap.kfree t.pageDirectory
    s.kernel.mem with hm₁
  -- the list
  obtain ⟨s₂, hremove, ⟨tasks, head, tail, current, hs₂⟩, hbody₂,
      hlist₂, hcur₂⟩ :=
    removeTask_spec (s := s.withKernel { s.kernel with mem := m₁ }) hd
      hlist h.live hcur
  -- the task itself
  obtain ⟨hinv₂, hdata₂⟩ := hfreed.kfree_head h.wf
  rw [← h.addr_eq p hp] at hinv₂ hdata₂
  set s₃ := s₂.withKernel { s₂.kernel with
    mem := s₂.kernel.heap.kfree s₂.kernel.mem p.addr }
    with hs₃
  have hkernel : s₃.kernel = { s.kernel with
      mem := s.kernel.heap.kfree m₁ p.addr } := by
    rw [hs₃, hs₂]
    rfl
  have hrun : freeTask p s = Except.ok ((), s₃.setTask p.id none) := by
    rw [freeTask, bind_ok hderef]
    refine (bind_ok (onKernel_ok (modify_apply _ _))).trans
      ((bind_ok hremove).trans ?_)
    refine (bind_ok (onKernel_ok (modify_apply _ _))).trans ?_
    rfl
  have hmem : ∀ q ∈ l₁ ++ l₂, q ∈ l₁ ++ p :: l₂ := fun q hq =>
    (List.mem_append.mp hq).elim (List.mem_append_left _)
      (fun hq => List.mem_append_right _ (List.mem_cons_of_mem p hq))
  have hne : ∀ q ∈ l₁ ++ l₂, q.id ≠ p.id := fun q hq heq => by
    rw [hd.id_inj q (hmem q hq) p hp heq] at hq
    exact (List.nodup_cons.mp (List.perm_middle.nodup_iff.mp hlist.nodup)).1 hq
  have htasks : ∀ q : Ptr, q.id ≠ p.id →
      (s₃.setTask p.id none).tasks q.id = s₂.tasks q.id :=
    fun q hq => s₃.tasks_setTask_of_ne none hq
  have hbody' : ∀ q : Ptr, q.id ≠ p.id →
      (s₃.setTask p.id none).body q = s.body q := fun q hq => by
        rw [System.body, htasks q hq]
        exact hbody₂ q
  refine ⟨_, hrun, ?_, s₃.tasks_setTask_self none p.id, hbody', ?_, ?_, hcur₂⟩
  · rw [hs₃, hs₂]
    exact ⟨_, _, _, _, _, rfl⟩
  · exact h.removed hkernel hinv₂
      (fun e he => (hdata₂ e he).trans (hdata e he)) hmem fun q hq =>
        hbody' q (hne q hq)
  · refine hlist₂.congr (fun q hq => ?_) (fun q hq => ?_)
    · rw [System.next, htasks q (hne q hq)]
      rfl
    · rw [System.prev, htasks q (hne q hq)]
      rfl

/-! ## `new_task`

The allocation of the task, the address space that `init_task` gives it, and
the links. A list that is empty is a case of its own, because the code returns
before its last lines there. -/

/-- What an allocation does to the memory: its block is new, and the data of
the others is kept. -/
theorem allocate_data {k k' : Kernel} {size : Word} {p : Ptr} {es : List Extent}
    (hk : k.Holds es) (h : KernelM.allocate size k = Except.ok (p, k')) :
    ∃ i m, p = ⟨k.heap.blockAddress i, k.nextId⟩
      ∧ k' = { k with mem := m, nextId := k.nextId + 1 }
      ∧ k.heap.HeapInv m (⟨i, Heap.blocksFor size⟩ :: es)
      ∧ ∀ e ∈ es, Set.EqOn m k.mem (k.heap.dataRegion e) := by
  obtain ⟨addr, id⟩ := p
  obtain ⟨m, hfit, rfl, rfl⟩ := KernelM.allocate_run h
  obtain ⟨i, haddr, -, hinv, hdata, -⟩ :=
    Heap.kzallocFit_spec hk.wf hk.2 (Heap.size_lt_of_kzallocFit hfit) hfit
  exact ⟨i, m, by rw [← haddr], rfl, hinv, hdata⟩

/-- `kzalloc` fails in one way. -/
theorem allocate_error {k : Kernel} {size : Word} {e : Fault}
    (h : KernelM.allocate size k = Except.error e) : e = Fault.outOfMemory := by
  rw [KernelM.allocate] at h
  cases hfit : k.heap.kzallocFit k.mem size with
  | none =>
    rw [hfit] at h
    exact (Except.error.inj h).symm
  | some r =>
    rw [hfit] at h
    cases h

/-- The registers a task starts with. -/
def startRegisters : Registers :=
  ⟨programVirtualAddress, programVirtualStackAddressStart, userDataSegment⟩

/-- **`init_task`** gives the task an address space of its own. If the heap has
no room for that, it runs out of memory; otherwise the task has its registers,
and links that are null. -/
theorem initTask_spec {es : List Extent} (hp : s.kernel.heap.Placed)
    (hinv : s.kernel.heap.HeapInv s.kernel.mem es) :
    (pagingNew (pagingIsPresent ||| pagingAccessFromAll) s.kernel
      = Except.error Fault.outOfMemory
        ∧ initTask p s = Except.error Fault.outOfMemory)
      ∨ ∃ chunk L m page, initTask p s = Except.ok (0, { s with
            kernel := { s.kernel with mem := m }
            tasks := Function.update s.tasks p.id
              (some ⟨chunk, startRegisters, Ptr.null, Ptr.null⟩) })
          ∧ pagingNew (pagingIsPresent ||| pagingAccessFromAll) s.kernel
            = Except.ok (chunk, { s.kernel with mem := m })
          ∧ s.kernel.heap.HeapInv m (L.extents ++ es)
            ∧ SpaceAt s.kernel.heap m chunk L page
          ∧ ∀ e ∈ es, Set.EqOn m s.kernel.mem (s.kernel.heap.dataRegion e) := by
  cases hnew : N00bOS.pagingNew s.kernel.heap.kzallocFit
    (pagingIsPresent ||| pagingAccessFromAll)
      s.kernel.mem with
  | none =>
    have hfail : pagingNew (pagingIsPresent ||| pagingAccessFromAll) s.kernel
        = Except.error Fault.outOfMemory := by
      rw [pagingNew, hnew]
    refine Or.inl ⟨hfail, ?_⟩
    rw [initTask, modify_bind]
    exact bind_error (onKernel_error hfail)
  | some r =>
    obtain ⟨chunk, m⟩ := r
    obtain ⟨L, hinv', hspace, hdata⟩ := pagingNew_spec hp.toWf _ hinv hnew
    refine Or.inr ⟨chunk, L, m, _, ?_, by rw [pagingNew, hnew], hinv',
      hspace, hdata⟩
    have hstop := hinv'.packed.stop_le _
      (List.mem_append_left es L.chunkExtent_mem)
    have hchunk : chunk ≠ 0 := by
      rw [hspace.chunk_eq]
      exact blockAddress_ne_zero hp.toWf hp.start_ne_zero
        (show L.chunk < _ from hstop)
    have hpaging : onKernel
      (pagingNew (pagingIsPresent ||| pagingAccessFromAll))
        (s.setTask p.id (some zero)) = Except.ok (chunk,
          (s.setTask p.id (some zero)).withKernel
            { s.kernel with mem := m }) := by
      refine onKernel_ok ?_
      show pagingNew _ s.kernel = _
      rw [pagingNew, hnew]
    rw [initTask, modify_bind, bind_ok hpaging, modify_bind, if_neg hchunk,
      modify_bind]
    refine congrArg Except.ok (Prod.ext rfl ?_)
    show System.setTask (System.setTask
      (System.withKernel _ (System.setTask s _ _)) _ _) _ _ = _
    unfold System.setTask System.withKernel
    rw [Function.update_idem, Function.update_idem]
    rfl

end Task

namespace TaskHeap

variable {s s' : System} {l : List Ptr} {p : Ptr} {spot : Ptr → ℕ}
  {layout : Ptr → SpaceLayout} {rest : List Extent}

/-- A task that has just been allocated is not one of the others. -/
theorem id_ne (h : TaskHeap s l spot layout rest) (hid : p.id = s.kernel.nextId)
    {q : Ptr} (hq : q ∈ l) : q.id ≠ p.id := fun heq =>
  absurd (heq.trans hid) (Nat.ne_of_lt (h.id_lt q hq))

/-- The allocations of the others are where they were. -/
theorem flatMap_update (hp : p ∉ l) (i : ℕ) (L : SpaceLayout) :
    l.flatMap (ownedBy (Function.update spot p i) (Function.update layout p L))
      = l.flatMap (ownedBy spot layout) := by
  rw [List.flatMap_def, List.flatMap_def]
  refine congrArg List.flatten (List.map_congr_left fun q hq => ?_)
  have hne : q ≠ p := fun heq => hp (heq ▸ hq)
  rw [ownedBy, ownedBy, Function.update_of_ne hne, Function.update_of_ne hne]

/-- **One more task on the heap.** Its block and its address space are beside
those of the other tasks, whose bytes have not changed. -/
theorem append (h : TaskHeap s l spot layout rest) {i : ℕ} {L : SpaceLayout}
    {m : Memory} {chunk : Word} {reg : Registers} {page : Word → Word}
    (hp : p = ⟨s.kernel.heap.blockAddress i, s.kernel.nextId⟩)
    (hk : s'.kernel = { s.kernel with mem := m, nextId := s.kernel.nextId + 1 })
    (hinv : s.kernel.heap.HeapInv m
      (L.extents ++ ⟨i, 1⟩ :: (l.flatMap (ownedBy spot layout) ++ rest)))
    (hspace : SpaceAt s.kernel.heap m chunk L page)
    (hdata : ∀ e ∈ l.flatMap (ownedBy spot layout) ++ rest,
      Set.EqOn m s.kernel.mem (s.kernel.heap.dataRegion e))
    (hbody : ∀ q : Ptr, q.id ≠ p.id → s'.body q = s.body q)
    (hbodyp : s'.body p = some (chunk, reg)) :
    TaskHeap s' (l ++ [p]) (Function.update spot p i)
      (Function.update layout p L) rest := by
  have hid : p.id = s.kernel.nextId := by rw [hp]
  have hpl : p ∉ l := fun hmem => h.id_ne hid hmem rfl
  have hne : ∀ q ∈ l, q ≠ p := fun q hq heq => hpl (heq ▸ hq)
  have hmem : ∀ q ∈ l ++ [p], q ∈ l ∨ q = p := fun q hq =>
    (List.mem_append.mp hq).imp_right List.mem_singleton.mp
  refine ⟨?_, ?_, fun q hq => ?_, fun q hq => ?_, fun q hq r hr heq => ?_,
    fun q hq => ?_⟩
  · rw [hk]
    exact h.placed
  · rw [hk]
    refine hinv.perm (.trans (.symm ?_) (.symm (owned_perm p l [] _ _ rest)))
    rw [Function.update_self, Function.update_self, List.append_nil,
      flatMap_update hpl]
  · rw [hk]
    rcases hmem q hq with hq | rfl
    · rw [Function.update_of_ne (hne q hq)]
      exact h.addr_eq q hq
    · rw [Function.update_self, hp]
  · rw [hk]
    rcases hmem q hq with hq | rfl
    · obtain ⟨chunk', reg', page', hq', hspace'⟩ := h.space q hq
      refine ⟨chunk', reg', page', (hbody q (h.id_ne hid hq)).trans hq', ?_⟩
      rw [Function.update_of_ne (hne q hq)]
      exact hspace'.congr fun e he =>
        hdata e (mem_owned hq (List.mem_cons_of_mem _ he))
    · rw [Function.update_self]
      exact ⟨chunk, reg, page, hbodyp, hspace⟩
  · rcases hmem q hq with hql | hqp
    · rcases hmem r hr with hrl | hrp
      · exact h.id_inj q hql r hrl heq
      · exact absurd (heq.trans (congrArg Ptr.id hrp)) (h.id_ne hid hql)
    · rcases hmem r hr with hrl | hrp
      · exact absurd (heq.symm.trans (congrArg Ptr.id hqp)) (h.id_ne hid hrl)
      · exact hqp.trans hrp.symm
  · rw [hk]
    rcases hmem q hq with hq | rfl
    · exact Nat.lt_succ_of_lt (h.id_lt q hq)
    · exact hid ▸ Nat.lt_succ_self _

end TaskHeap

/-- The state when a new task is initialised, and not yet on the list. -/
def System.started (s : System) (p : Ptr) (k : Kernel)
    (chunk : Word) : System :=
  { s with
    kernel := k
    tasks := Function.update s.tasks p.id
      (some ⟨chunk, Task.startRegisters, Ptr.null, Ptr.null⟩) }

namespace System

variable (s : System) (p : Ptr) (k : Kernel) (chunk : Word) {q : Ptr}

theorem tasks_started_of_ne (hq : q.id ≠ p.id) :
    (s.started p k chunk).tasks q.id = s.tasks q.id := by
  unfold started
  exact Function.update_of_ne hq _ s.tasks

theorem tasks_started_self : (s.started p k chunk).tasks p.id
    = some ⟨chunk, Task.startRegisters, Ptr.null, Ptr.null⟩ := by
  unfold started
  exact Function.update_self p.id _ s.tasks

theorem body_started_of_ne (hq : q.id ≠ p.id) :
    (s.started p k chunk).body q = s.body q := by
  rw [body, tasks_started_of_ne s p k chunk hq, body]

theorem body_started_self :
    (s.started p k chunk).body p = some (chunk, Task.startRegisters) := by
  rw [body, tasks_started_self]
  rfl

theorem next_started_of_ne (hq : q.id ≠ p.id) :
    (s.started p k chunk).next q = s.next q := by
  rw [next, tasks_started_of_ne s p k chunk hq, next]

theorem next_started_self : (s.started p k chunk).next p = Ptr.null := by
  rw [next, tasks_started_self]
  rfl

theorem prev_started_of_ne (hq : q.id ≠ p.id) :
    (s.started p k chunk).prev q = s.prev q := by
  rw [prev, tasks_started_of_ne s p k chunk hq, prev]

theorem prev_started_self : (s.started p k chunk).prev p = Ptr.null := by
  rw [prev, tasks_started_self]
  rfl

end System

/-- **What `new_task` does**: the task `p` is allocated, initialised and at the
end of the list, and `r` is returned. -/
structure TaskAdded (s s' : System) (l : List Ptr) (proc p : Ptr) (mem : Memory)
    (chunk : Word) (r : Ptr) : Prop where
  /-- The task is a new allocation. -/
  id_eq : p.id = s.kernel.nextId
  /-- The rest of the state is the same. -/
  state : ∃ tasks processStructs, s' = { s with
    kernel := { s.kernel with mem, nextId := s.kernel.nextId + 1 }
    tasks, head := l.headD p, tail := p, processStructs }
  /-- The other tasks keep what is not links. -/
  body : ∀ q : Ptr, q.id ≠ p.id → s'.body q = s.body q
  /-- Its own address space is the one at `chunk`. -/
  start : s'.body p = some (chunk, Task.startRegisters)
  /-- The new list. -/
  links : LinkedList Ptr.null s'.next s'.prev s'.head s'.tail (l ++ [p])
  /-- The first task is not what is returned, and its process does not get
  it. -/
  result : if l = [] then r = Ptr.null ∧ s'.processStructs = s.processStructs
    else r = p ∧ ∃ pr, s.processStructs proc.id = some pr
      ∧ s'.processStructs = Function.update s.processStructs proc.id
        (some { pr with task := p })

/-- **The heap is free from a block on**: what it holds ends before that. It is
enough to know this to find room, wherever the holes are. -/
def Kernel.EndsBy (k : Kernel) (b : ℕ) : Prop :=
  ∃ es, k.Holds es ∧ ∀ e ∈ es, e.stop ≤ b

namespace Task

variable {s : System} {l : List Ptr} {p proc : Ptr} {spot : Ptr → ℕ}
  {layout : Ptr → SpaceLayout} {rest : List Extent}

/-- The first task goes on the list. -/
theorem added_first {k : Kernel} {mem : Memory} {chunk : Word}
    (hk : k = { s.kernel with mem, nextId := s.kernel.nextId + 1 })
    (hid : p.id = s.kernel.nextId) (hnull : p ≠ Ptr.null)
    (hlist : LinkedList Ptr.null s.next s.prev s.head s.tail []) :
    TaskAdded s { s.started p k chunk with head := p, tail := p } [] proc p mem
      chunk Ptr.null := by
  refine ⟨hid, ⟨_, _, by rw [hk]; rfl⟩, fun q hq =>
    s.body_started_of_ne p k chunk hq, s.body_started_self p k chunk, ?_, ?_⟩
  · refine hlist.append List.not_mem_nil hnull
      (s.next_started_self p k chunk) ?_
      (fun h => absurd rfl h) (fun q hq => nomatch hq) (fun q hq => nomatch hq)
    exact (s.prev_started_self p k chunk).trans hlist.tail_eq.symm
  · rw [if_pos rfl]
    exact ⟨rfl, rfl⟩

/-- A later task goes on the list. -/
theorem added_next {k : Kernel} {mem : Memory} {chunk : Word} {pr : Process}
    (hk : k = { s.kernel with mem, nextId := s.kernel.nextId + 1 })
    (hid : p.id = s.kernel.nextId) (hnull : p ≠ Ptr.null) (hl : l ≠ [])
    (h : TaskHeap s l spot layout rest)
    (hlist : LinkedList Ptr.null s.next s.prev s.head s.tail l)
    (hpr : s.processStructs proc.id = some pr) :
    TaskAdded s
      (({ ((s.started p k chunk).linkNext s.tail p).linkPrev p s.tail with
        tail := p } :
        System).setProcess proc.id (some { pr with task := p })) l proc p mem
            chunk p := by
  have hne : ∀ q ∈ l, q.id ≠ p.id := fun q hq => h.id_ne hid hq
  have htail := hlist.tail_mem hl
  have hlive : ((s.started p k chunk).body s.tail).isSome := by
    rw [s.body_started_of_ne p k chunk (hne _ htail)]
    exact h.live _ htail
  have hlivep : (((s.started p k chunk).linkNext s.tail p).body p).isSome := by
    rw [System.body_linkNext, System.body_started_self]
    rfl
  have hnext : ∀ q : Ptr,
    (((s.started p k chunk).linkNext s.tail p).linkPrev p s.tail).next q
      = if q.id = s.tail.id then p
        else (s.started p k chunk).next q := fun q => by
    rw [System.next_linkPrev, System.next_linkNext _ _ _ _ hlive]
  have hprev : ∀ q : Ptr,
    (((s.started p k chunk).linkNext s.tail p).linkPrev p s.tail).prev q
      = if q.id = p.id then s.tail
        else (s.started p k chunk).prev q := fun q => by
    rw [System.prev_linkPrev _ _ _ _ hlivep, System.prev_linkNext]
  have hhead : s.head = l.headD p := by
    rw [hlist.head_eq]
    cases l with
    | nil => exact absurd rfl hl
    | cons q l => rfl
  refine ⟨hid, ?_, fun q hq => ?_, ?_, ?_, ?_⟩
  · refine ⟨(((s.started p k chunk).linkNext s.tail p).linkPrev p s.tail).tasks,
      Function.update s.processStructs proc.id (some { pr with task := p }), ?_⟩
    rw [← hhead, hk]
    rfl
  · refine Eq.trans ?_ (s.body_started_of_ne p k chunk hq)
    show (((s.started p k chunk).linkNext s.tail p).linkPrev p s.tail).body q
      = _
    rw [System.body_linkPrev, System.body_linkNext]
  · refine Eq.trans ?_ (s.body_started_self p k chunk)
    show (((s.started p k chunk).linkNext s.tail p).linkPrev p s.tail).body p
      = _
    rw [System.body_linkPrev, System.body_linkNext]
  · show LinkedList _ _ _ s.head p _
    rw [hhead]
    refine hlist.append (fun hq => hne p hq rfl) hnull ?_ ?_ (fun _ => ?_)
      (fun q hq hqt => ?_)
      (fun q hq => ?_)
    · exact (hnext p).trans ((if_neg (hne _ htail).symm).trans
        (s.next_started_self p k chunk))
    · exact (hprev p).trans (if_pos rfl)
    · exact (hnext s.tail).trans (if_pos rfl)
    · refine (hnext q).trans
        ((if_neg fun heq => hqt (h.id_inj q hq _ htail heq)).trans ?_)
      exact s.next_started_of_ne p k chunk (hne q hq)
    · exact (hprev q).trans ((if_neg (hne q hq)).trans
        (s.prev_started_of_ne p k chunk (hne q hq)))
  · rw [if_neg hl]
    exact ⟨rfl, pr, hpr, rfl⟩

/-- The end of `new_task`, once the task is initialised. -/
def linkTask (proc p : Ptr) : SystemM Ptr := do
  let s ← get
  if s.head.addr = 0 then
    modify fun s => { s with head := p, tail := p }
    return Ptr.null
  setNext s.tail p
  setPrev p s.tail
  modify fun s => { s with tail := p }
  let pr ← deref System.processStructs proc
  modify fun s => s.setProcess proc.id (some { pr with task := p })
  return p

/-- What `new_task` does once its task is initialised: it is put on the list,
or its process is not there to get it. -/
theorem newTask_link {k : Kernel} {mem : Memory} {chunk : Word} (proc : Ptr)
    (hk : k = { s.kernel with mem, nextId := s.kernel.nextId + 1 })
    (hid : p.id = s.kernel.nextId) (hp : p.addr ≠ 0)
    (h : TaskHeap s l spot layout rest)
    (hlist : LinkedList Ptr.null s.next s.prev s.head s.tail l)
    (hrun : newTask proc s = linkTask proc p (s.started p k chunk)) :
    (l ≠ [] ∧ ¬ (proc.addr ≠ 0 ∧ (s.processStructs proc.id).isSome)
        ∧ ∃ e, newTask proc s = Except.error e)
      ∨ ∃ r s', newTask proc s = Except.ok (r, s')
        ∧ TaskAdded s s' l proc p mem chunk r := by
  have hnull : p ≠ Ptr.null := fun heq => hp (congrArg Ptr.addr heq)
  rw [linkTask, get_bind] at hrun
  by_cases hl : l = []
  · subst hl
    have hhead : (s.started p k chunk).head.addr = 0 :=
      congrArg Ptr.addr hlist.head_eq
    rw [if_pos hhead] at hrun
    exact Or.inr ⟨_, _, hrun, added_first hk hid hnull hlist⟩
  · have htail := hlist.tail_mem hl
    have hhead : ¬ (s.started p k chunk).head.addr = 0 :=
      h.distinct.ne_null _ (hlist.head_mem hl)
    have hlive : ((s.started p k chunk).body s.tail).isSome := by
      rw [s.body_started_of_ne p k chunk (h.id_ne hid htail)]
      exact h.live _ htail
    have hlivep : (((s.started p k chunk).linkNext s.tail p).body
        p).isSome := by
      rw [System.body_linkNext, System.body_started_self]
      rfl
    rw [if_neg hhead] at hrun
    replace hrun :=
      hrun.trans
        ((bind_ok (setNext_ok (h.distinct.ne_null _ htail) hlive p)).trans
      (bind_ok (setPrev_ok hp hlivep _)))
    rw [modify_bind] at hrun
    set s₄ : System :=
      { ((s.started p k chunk).linkNext s.tail p).linkPrev p s.tail with
      tail := p } with hs₄
    by_cases hproc : proc.addr = 0
    · refine Or.inl ⟨hl, fun hcon => hcon.1 hproc, Fault.nullDereference,
        hrun.trans ?_⟩
      exact bind_error (if_pos hproc)
    · cases hpr : s.processStructs proc.id with
      | none =>
        have hderef : deref System.processStructs proc s₄
            = Except.error Fault.danglingDereference := by
          have hnone : s₄.processStructs proc.id = none := hpr
          rw [deref, if_neg hproc, hnone]
        exact Or.inl ⟨hl, fun hcon => Bool.false_ne_true hcon.2,
          Fault.danglingDereference, hrun.trans (bind_error hderef)⟩
      | some pr =>
        refine Or.inr ⟨_, _,
          hrun.trans ((bind_ok (deref_ok (s := s₄) hproc hpr)).trans rfl), ?_⟩
        exact added_next hk hid hnull hl h hlist hpr

/-! ### Room for a task

A `new_task` returns if the heap has room at its end for a task and an address
space, and the tasks that were there do not matter. -/

/-- **The heap has no room for a task**: for the task itself, or then for its
address space. -/
def NoRoomForTask (k : Kernel) : Prop :=
  KernelM.allocate taskSize k = Except.error Fault.outOfMemory
    ∨ ∃ p k', KernelM.allocate taskSize k = Except.ok (p, k')
        ∧ pagingNew (pagingIsPresent ||| pagingAccessFromAll) k'
          = Except.error Fault.outOfMemory

/-- **`new_task`** runs out of memory, or is given a process that is not there
to get the task, or puts one more task at the end of the list. -/
theorem newTask_spec (h : TaskHeap s l spot layout rest)
    (hlist : LinkedList Ptr.null s.next s.prev s.head s.tail l) (proc : Ptr) :
    (NoRoomForTask s.kernel ∧ newTask proc s = Except.error Fault.outOfMemory)
      ∨ (l ≠ [] ∧ ¬ (proc.addr ≠ 0 ∧ (s.processStructs proc.id).isSome)
        ∧ ∃ e, newTask proc s = Except.error e)
      ∨ ∃ p k r s' i L mem chunk,
        KernelM.allocate taskSize s.kernel = Except.ok (p, k)
          ∧ newTask proc s = Except.ok (r, s')
          ∧ TaskAdded s s' l proc p mem chunk r
          ∧ pagingNew (pagingIsPresent ||| pagingAccessFromAll) k
            = Except.ok (chunk, { k with mem })
          ∧ TaskHeap s' (l ++ [p]) (Function.update spot p i)
            (Function.update layout p L) rest := by
  cases halloc : KernelM.allocate taskSize s.kernel with
  | error e =>
    rw [allocate_error halloc] at halloc
    exact Or.inl ⟨Or.inl halloc, bind_error (onKernel_error halloc)⟩
  | ok r =>
    obtain ⟨p, k⟩ := r
    have hp := allocate_ne_null ⟨h.placed, _, h.inv⟩ halloc
    obtain ⟨i, m, hpeq, rfl, hinv, hdata⟩ :=
      allocate_data ⟨h.placed, h.inv⟩ halloc
    have hid : p.id = s.kernel.nextId := by rw [hpeq]
    rw [show Heap.blocksFor taskSize = 1 by decide] at hinv
    set k := { s.kernel with mem := m, nextId := s.kernel.nextId + 1 } with hk
    have hstart : newTask proc s = (initTask p >>= fun result => do
        if result ≠ 0 then
          freeTask p
          return Ptr.error result
        linkTask proc p : SystemM Ptr) (s.withKernel k) := by
      rw [newTask, bind_ok (onKernel_ok halloc), if_neg hp]
      rfl
    rcases initTask_spec (s := s.withKernel k) (p := p) h.placed hinv with
      hfail | hinit
    · exact Or.inl ⟨Or.inr ⟨p, k, halloc, hfail.1⟩,
        hstart.trans (bind_error hfail.2)⟩
    · obtain ⟨chunk, L, m', page, hinit, hpaging, hinv', hspace, hdata'⟩ :=
        hinit
      have hrun := hstart.trans (bind_ok hinit)
      rw [if_neg (not_not.mpr rfl)] at hrun
      right
      rcases newTask_link proc (k :=
        { k with mem := m' }) rfl hid hp h hlist hrun with hfail | hok
      · exact Or.inl hfail
      · obtain ⟨r, s', hr, hadded⟩ := hok
        obtain ⟨tasks, procs, hs'⟩ := hadded.state
        refine Or.inr ⟨p, k, r, s', i, L, m', chunk, rfl, hr, hadded,
          hpaging, ?_⟩
        refine h.append hpeq ?_ hinv' hspace (fun e he => ?_) hadded.body
          hadded.start
        · rw [hs']
        · exact (hdata' e (List.mem_cons_of_mem _ he)).trans (hdata e he)

/-- **Room for a task**: where 2052 blocks are free at the end of the heap,
the two allocations go through, and they take no others behind them. -/
theorem exists_room {k : Kernel} {b : ℕ} (hk : k.EndsBy b)
    (hroom : b + 2052 ≤ k.heap.total) :
    ∃ p k₁ chunk m, KernelM.allocate taskSize k = Except.ok (p, k₁)
      ∧ pagingNew (pagingIsPresent ||| pagingAccessFromAll) k₁
        = Except.ok (chunk, { k₁ with mem := m })
      ∧ Kernel.EndsBy { k₁ with mem := m } (b + 2052) := by
  have hone : Heap.blocksFor taskSize = 1 := by decide
  obtain ⟨es, hes, hb⟩ := hk
  obtain ⟨i, m₁, hfit, hinv₁, -, hb₁⟩ := Heap.kzallocFit_below hes.wf hes.2
    (show taskSize.toNat + 4096 < 2 ^ 32 by decide) hb (by rw [hone]; omega)
  rw [hone] at hinv₁ hb₁
  obtain ⟨chunk, m₂, es₂, hnew, hinv₂, hb₂⟩ :=
    pagingNew_below hes.wf (b := b + 1)
    (pagingIsPresent ||| pagingAccessFromAll) hinv₁ hb₁ (by omega)
  refine ⟨_, _, chunk, m₂, allocate_of_kzallocFit hfit, ?_, es₂,
    ⟨hes.1, hinv₂⟩, hb₂⟩
  rw [pagingNew]
  simp only [hnew]

/-- So there is room for it. -/
theorem not_noRoomForTask {k : Kernel} {b : ℕ} (hk : k.EndsBy b)
    (hroom : b + 2052 ≤ k.heap.total) : ¬ NoRoomForTask k := by
  obtain ⟨p, k₁, chunk, m, halloc, hpaging, -⟩ := exists_room hk hroom
  rintro (hfail | ⟨p', k₁', hok, hfail⟩)
  · cases halloc.symm.trans hfail
  · obtain ⟨-, rfl⟩ := Prod.mk.inj (Except.ok.inj (halloc.symm.trans hok))
    cases hpaging.symm.trans hfail

/-- And with a task more, the rest of the heap is as it was. -/
theorem newTask_endsBy (h : TaskHeap s l spot layout rest)
    (hlist : LinkedList Ptr.null s.next s.prev s.head s.tail l) {b : ℕ}
    (hb : s.kernel.EndsBy b) (hroom : b + 2052 ≤ s.kernel.heap.total) {r : Ptr}
    {s' : System} (hrun : newTask proc s = Except.ok (r, s')) :
    s'.kernel.heap = s.kernel.heap ∧ s'.kernel.EndsBy (b + 2052) := by
  rcases newTask_spec h hlist proc with ⟨-, hfail⟩ | ⟨-, -, e, hfail⟩ | hok
  · cases hrun.symm.trans hfail
  · cases hrun.symm.trans hfail
  · obtain ⟨p, k, r', s'', i, L, mem, chunk, halloc, hrun', hadded,
      hpaging, -⟩ := hok
    obtain ⟨-, rfl⟩ := Prod.mk.inj (Except.ok.inj (hrun.symm.trans hrun'))
    obtain ⟨p', k₁, chunk', m, halloc', hpaging', hends⟩ := exists_room hb hroom
    obtain ⟨-, rfl⟩ := Prod.mk.inj (Except.ok.inj (halloc.symm.trans halloc'))
    obtain ⟨tasks, procs, hs'⟩ := hadded.state
    obtain ⟨-, hkernel⟩ :=
      Prod.mk.inj (Except.ok.inj (hpaging.symm.trans hpaging'))
    obtain rfl : mem = m := congrArg Kernel.mem hkernel
    obtain ⟨m₁, -, -, rfl⟩ := KernelM.allocate_run halloc
    rw [hs']
    exact ⟨rfl, hends⟩

end Task

/-! ## Runs

The invariant, the runs, and what the invariant says of head, tail, links and
current task in every state of a run. -/

/-- **A well-formed state** with the tasks `l`, in order: the links are those
of a list between `head` and `tail`, and `current` is one of them, or null. -/
structure TaskList (s : System) (l : List Ptr) : Prop where
  /-- Each task has allocations of its own. -/
  heap : ∃ spot layout rest, TaskHeap s l spot layout rest
  /-- The links make a list of them. -/
  links : LinkedList Ptr.null s.next s.prev s.head s.tail l
  /-- The current task is one of them, if there is one. -/
  current : s.current = Ptr.null ∨ s.current ∈ l

/-- **The states of a run** of `new_task` and `free_task` from `s₀` with the
tasks `l₀`, each with the tasks created and not freed, in the order they were
created in: a `new_task` adds the task it allocates, and a `free_task` of a
live task removes it. -/
inductive TasksReachable (s₀ : System) (l₀ : List Ptr) :
    System → List Ptr → Prop where
  | start : TasksReachable s₀ l₀ s₀ l₀
  | newTask {s s' : System} {l : List Ptr} {proc p r : Ptr} {k : Kernel} :
      TasksReachable s₀ l₀ s l →
      KernelM.allocate Task.taskSize s.kernel = Except.ok (p, k) →
      Task.newTask proc s = Except.ok (r, s') →
      TasksReachable s₀ l₀ s' (l ++ [p])
  | freeTask {s s' : System} {l : List Ptr} {p : Ptr} :
      TasksReachable s₀ l₀ s l → p ∈ l →
      Task.freeTask p s = Except.ok ((), s') →
      TasksReachable s₀ l₀ s' (l.erase p)

namespace TaskList

variable {s s' : System} {l : List Ptr} {p proc r : Ptr} {k : Kernel}

/-- **`new_task` keeps the list**, with one more task, at the end. This is for
any process that the task is for, and whatever the call returns. -/
theorem newTask (h : TaskList s l)
    (halloc : KernelM.allocate Task.taskSize s.kernel = Except.ok (p, k))
    (hrun : Task.newTask proc s = Except.ok (r, s')) :
    TaskList s' (l ++ [p]) := by
  obtain ⟨spot, layout, rest, hheap⟩ := h.heap
  rcases Task.newTask_spec hheap h.links proc with
    ⟨-, hfail⟩ | ⟨-, -, e, hfail⟩ | hok
  · cases hrun.symm.trans hfail
  · cases hrun.symm.trans hfail
  · obtain ⟨p', k', r', s'', i, L, mem, chunk, halloc', hrun', hadded, -,
      hheap'⟩ := hok
    obtain ⟨rfl, -⟩ := Prod.mk.inj (Except.ok.inj (halloc.symm.trans halloc'))
    obtain ⟨-, rfl⟩ := Prod.mk.inj (Except.ok.inj (hrun.symm.trans hrun'))
    refine ⟨⟨_, _, _, hheap'⟩, hadded.links, ?_⟩
    obtain ⟨tasks, procs, hs'⟩ := hadded.state
    rw [show s'.current = s.current by rw [hs']]
    exact h.current.imp_right (List.mem_append_left _)

/-- **`free_task` keeps the list**, with one task less. The task may be the
first, the last, or any other, and may be the current one, which then moves on.
-/
theorem freeTask (h : TaskList s l) (hp : p ∈ l) :
    ∃ s', Task.freeTask p s = Except.ok ((), s') ∧ TaskList s' (l.erase p)
      ∧ (p ≠ s.current → s'.current = s.current)
      ∧ ∀ l₁ l₂, l = l₁ ++ p :: l₂ → p = s.current →
        s'.current = (l₂ ++ l₁).headD Ptr.null := by
  obtain ⟨spot, layout, rest, hheap⟩ := h.heap
  obtain ⟨l₁, l₂, rfl⟩ := List.append_of_mem hp
  have hnd :=
    (List.nodup_cons.mp (List.perm_middle.nodup_iff.mp h.links.nodup)).1
  have hp₁ : p ∉ l₁ := fun hmem => hnd (List.mem_append_left _ hmem)
  obtain ⟨s', hrun, -, -, -, hheap', hlinks', hcur'⟩ :=
    Task.freeTask_spec hheap h.links h.current
  have herase : (l₁ ++ p :: l₂).erase p = l₁ ++ l₂ := by
    rw [List.erase_append_right _ hp₁, List.erase_cons_head]
  refine ⟨s', hrun, herase ▸ ⟨⟨_, _, _, hheap'⟩, hlinks', ?_⟩, fun hne => ?_,
    fun l₃ l₄ heq hpc => ?_⟩
  · rw [hcur']
    by_cases hpc : p = s.current
    · rw [if_pos hpc]
      cases l₂ with
      | nil =>
        cases l₁ with
        | nil => exact Or.inl rfl
        | cons q l₁ => exact Or.inr List.mem_cons_self
      | cons q l₂ => exact Or.inr (List.mem_append_right _ List.mem_cons_self)
    · rw [if_neg hpc]
      refine h.current.imp_right fun hmem => ?_
      rcases List.mem_append.mp hmem with hmem | hmem
      · exact List.mem_append_left _ hmem
      · exact List.mem_append_right _
          ((List.mem_cons.mp hmem).resolve_left fun heq => hpc heq.symm)
  · rw [hcur', if_neg hne]
  · obtain ⟨rfl, -, rfl⟩ := (List.append_cons_inj_of_notMem hp₁ (fun hmem =>
      hnd (List.mem_append_right _ hmem))).mp heq
    rw [hcur', if_pos hpc]

end TaskList

/-- **Every state of a run is well formed.** The induction is on the run of
`new_task` and `free_task`, with a step lemma for each of them. -/
theorem TasksReachable.taskList {s₀ : System} {l₀ : List Ptr}
    (h₀ : TaskList s₀ l₀) {s : System} {l : List Ptr}
    (h : TasksReachable s₀ l₀ s l) : TaskList s l := by
  induction h with
  | start => exact h₀
  | newTask _ halloc hrun ih => exact ih.newTask halloc hrun
  | freeTask _ hp hrun ih =>
    obtain ⟨s', hrun', hlist, -⟩ := ih.freeTask hp
    obtain ⟨-, rfl⟩ := Prod.mk.inj (Except.ok.inj (hrun.symm.trans hrun'))
    exact hlist

/-- **The task list is a list of the live tasks.** From every well-formed
state, in every state of every run of `new_task` and `free_task`:

* `head`, `tail`, `next` and `prev` are a doubly linked list of exactly the
  tasks created and not freed, in the order of their creation, without a
  task twice; nothing is in front of the first or behind the last, and `head`
  is null when `tail` is;
* `current` is null or on the list;
* a `free_task` of a live task returns, and when that was the current one,
  `current` is its successor, or the first task where there is none behind it,
  or null where the list is now empty; otherwise `current` stays;
* a `new_task` for a live process returns, where the heap has room. -/
theorem task_list_invariant {s₀ : System} {l₀ : List Ptr} (h₀ : TaskList s₀ l₀)
    {s : System} {l : List Ptr} (hs : TasksReachable s₀ l₀ s l) :
    LinkedList Ptr.null s.next s.prev s.head s.tail l
    ∧ (l ≠ [] → s.prev s.head = Ptr.null ∧ s.next s.tail = Ptr.null)
    ∧ (s.head = Ptr.null ↔ s.tail = Ptr.null)
    ∧ (s.current = Ptr.null ∨ s.current ∈ l)
    ∧ (∀ p ∈ l, ∃ s', Task.freeTask p s = Except.ok ((), s')
        ∧ (p ≠ s.current → s'.current = s.current)
        ∧ ∀ l₁ l₂, l = l₁ ++ p :: l₂ → p = s.current →
            s'.current = (l₂ ++ l₁).headD Ptr.null)
    ∧ ∀ proc : Ptr,
      (s.head = Ptr.null ∨ proc.addr ≠ 0 ∧ (s.processStructs proc.id).isSome) →
        ¬ Task.NoRoomForTask s.kernel → ∃ r s',
        Task.newTask proc s = Except.ok (r, s') := by
  have h := hs.taskList h₀
  refine ⟨h.links, h.links.ends, ?_,
    h.current, fun p hp => ?_, fun proc hproc hroom => ?_⟩
  · rw [h.links.head_eq_null_iff, h.links.tail_eq_null_iff]
  · obtain ⟨s', hrun, -, hstay, hmove⟩ := h.freeTask hp
    exact ⟨s', hrun, hstay, hmove⟩
  · obtain ⟨spot, layout, rest, hheap⟩ := h.heap
    rcases Task.newTask_spec hheap h.links proc with
      ⟨hno, -⟩ | ⟨hl, hdead, -⟩ | hok
    · exact absurd hno hroom
    · rw [h.links.head_eq_null_iff] at hproc
      exact absurd (hproc.resolve_left hl) hdead
    · obtain ⟨p, k, r, s', -, -, -, -, -, hrun, -⟩ := hok
      exact ⟨r, s', hrun⟩

/-! ## Two tasks

After boot there is room for a task, and after that for another, so that there
is a run with two. -/

/-- The system after boot: no tasks and no processes. -/
def bootedSystem : System where
  kernel := PathParser.bootedKernel
  current := Ptr.null
  tail := Ptr.null
  head := Ptr.null
  tasks := fun _ => none
  processes := fun _ => Ptr.null
  processStructs := fun _ => none
  programs := fun _ => none

theorem bootedSystem_holds : bootedSystem.kernel.Holds [] :=
  ⟨PathParser.bootedKernel_heapOk.1, (kheapInit_spec _ _).2.1⟩

theorem bootedSystem_taskHeap (spot : Ptr → ℕ) (layout : Ptr → SpaceLayout) :
    TaskHeap bootedSystem [] spot layout [] := by
  refine ⟨bootedSystem_holds.1, bootedSystem_holds.2, ?_, ?_, ?_, ?_⟩
  · exact fun p hp => absurd hp List.not_mem_nil
  · exact fun p hp => absurd hp List.not_mem_nil
  · exact fun p hp => absurd hp List.not_mem_nil
  · exact fun p hp => absurd hp List.not_mem_nil

theorem bootedSystem_taskList : TaskList bootedSystem [] :=
  ⟨⟨fun _ => 0, fun _ => ⟨0, 0, fun _ => 0⟩, [], bootedSystem_taskHeap _ _⟩,
    LinkedList.nil _ _ _, Or.inl rfl⟩

/-- The heap after boot is free from its first block on. -/
theorem bootedSystem_endsBy : bootedSystem.kernel.EndsBy 0 :=
  ⟨[], bootedSystem_holds, fun _ he => absurd he List.not_mem_nil⟩

theorem bootedSystem_total : bootedSystem.kernel.heap.total = 25600 :=
  kernelHeapConfig.total_heap

/-- A process that is there. -/
def sampleProcess : Process := ⟨0, [], Ptr.null, [], Ptr.null, 0, 0⟩

/-- The system after boot, with a process at every address. -/
def populatedSystem : System :=
  { bootedSystem with processStructs := fun _ => some sampleProcess }

/-- A run of two `new_task`s after boot. -/
theorem exists_two_tasks : ∃ s p q, TasksReachable populatedSystem [] s [p, q]
    ∧ TaskList s [p, q] := by
  have hboot : TaskList populatedSystem [] := by
    obtain ⟨⟨spot, layout, rest, hheap⟩, hlinks, hcurrent⟩ :=
      bootedSystem_taskList
    exact ⟨⟨spot, layout, rest,
      ⟨hheap.placed, hheap.inv, hheap.addr_eq, hheap.space, hheap.id_inj,
        hheap.id_lt⟩⟩, hlinks, hcurrent⟩
  -- each `new_task` finds room, and gives the next one a list with one task
  -- more
  have hstep : ∀ {s : System} {l : List Ptr} {b : ℕ},
    TasksReachable populatedSystem [] s l →
      (∀ id, (s.processStructs id).isSome) → s.kernel.heap.total = 25600 →
      s.kernel.EndsBy b →
      b + 2052 ≤ 25600 → ∃ s' p, TasksReachable populatedSystem [] s' (l ++ [p])
        ∧ (∀ id, (s'.processStructs id).isSome) ∧ s'.kernel.heap.total = 25600
        ∧ s'.kernel.EndsBy (b + 2052) := by
    intro s l b hs hprocs htotal hends hroom
    obtain ⟨⟨spot, layout, rest, hheap⟩, hlinks, -⟩ := hs.taskList hboot
    rw [← htotal] at hroom
    rcases Task.newTask_spec hheap hlinks ⟨1, 0⟩ with
      ⟨hno, -⟩ | ⟨-, hdead, -⟩ | hok
    · exact absurd hno (Task.not_noRoomForTask hends hroom)
    · exact absurd ⟨by decide, hprocs _⟩ hdead
    · obtain ⟨p, k, r, s', i, L, mem, chunk, halloc, hrun, hadded, -, -⟩ := hok
      obtain ⟨hheap', hends'⟩ :=
        Task.newTask_endsBy hheap hlinks hends hroom hrun
      refine ⟨s', p,
        hs.newTask halloc hrun, fun id => ?_, by rw [hheap', htotal], hends'⟩
      have hresult := hadded.result
      split at hresult
      · rw [hresult.2]
        exact hprocs id
      · obtain ⟨-, pr, -, hprocs'⟩ := hresult
        rw [hprocs']
        by_cases hid : id = 0
        · rw [hid, Function.update_self]
          rfl
        · rw [Function.update_of_ne hid]
          exact hprocs id
  obtain ⟨s₁, p, hs₁, hprocs₁, htotal₁, hends₁⟩ :=
    hstep TasksReachable.start (fun _ => rfl)
    bootedSystem_total (show populatedSystem.kernel.EndsBy 0 from
      bootedSystem_endsBy) (by omega)
  obtain ⟨s₂, q, hs₂, -⟩ := hstep hs₁ hprocs₁ htotal₁ hends₁ (by omega)
  exact ⟨s₂, p, q, hs₂, hs₂.taskList hboot⟩

/-- The theorem on a state with two tasks, the first of them the current one:
it is freed, and the other one is current then. -/
theorem task_list_invariant_two_tasks : ∃ s₀ p q s', TaskList s₀ [p, q] ∧ p ≠ q
    ∧ p ≠ Ptr.null ∧ s₀.current = p ∧ Task.freeTask p s₀ = Except.ok ((), s')
    ∧ TasksReachable s₀ [p, q] s' [q] ∧ s'.current = q ∧ s'.head = q := by
  obtain ⟨s, p, q, -, ⟨spot, layout, rest, hheap⟩, hlinks, -⟩ :=
    exists_two_tasks
  have hp : p ∈ [p, q] := List.mem_cons_self
  obtain ⟨s₀, hs₀⟩ : ∃ s₀ : System, s₀ = { s with current := p } := ⟨_, rfl⟩
  have h₀ : TaskList s₀ [p, q] := by
    rw [hs₀]
    exact ⟨⟨spot, layout, rest,
      ⟨hheap.placed, hheap.inv, hheap.addr_eq, hheap.space, hheap.id_inj,
        hheap.id_lt⟩⟩, hlinks, Or.inr hp⟩
  have hcurrent : s₀.current = p := by rw [hs₀]
  obtain ⟨-, -, -, -, hfree, -⟩ := task_list_invariant h₀ TasksReachable.start
  obtain ⟨s', hrun, -, hmove⟩ := hfree p hp
  have hs' := TasksReachable.start.freeTask hp hrun
  rw [List.erase_cons_head] at hs'
  have hne : p ≠ q := fun heq => by
    have hnodup := hlinks.nodup
    rw [heq] at hnodup
    exact (List.nodup_cons.mp hnodup).1 List.mem_cons_self
  refine ⟨s₀, p, q, s', h₀, hne, fun hnull => ?_, hcurrent, hrun, hs', ?_, ?_⟩
  · exact hheap.distinct.ne_null p hp (congrArg Ptr.addr hnull)
  · exact hmove [] [q] rfl hcurrent.symm
  · exact (task_list_invariant h₀ hs').1.head_eq

end N00bOS
