import N00bOS.AddressSpaces
import N00bOS.LinkedList
import N00bOS.KernelSpec
import N00bOS.Tasks

/-!
# The list of tasks

What of a task the list is made of: its two links (`System.next`,
`System.prev`), and the rest (`System.body`), which unlinking it leaves alone.
`remove_task` asks `get_next_task` for a successor when the current task is
unlinked, at a moment when its neighbours, `head` and `tail` have moved on and
its own links have not; the answer is the task behind it, or the new first one
(`removeTask_spec`).

The links are functions from tasks to tasks, and an assignment to a link
changes one of them at one place. With pointers to different tasks (`Distinct`)
it is known which place that is, for each of the assignments that join the
neighbours (`unlink_eq`), and what is left can be compared with the list
without the task. The lists themselves, and that they stay well formed in every
run, are in `N00bOS.TaskRuns`.
-/

namespace N00bOS

open SystemM Machine Linked

namespace System

variable (s : System) (p q n : Ptr)

/-- `p->next`. -/
def next : Ptr := ((s.tasks p.id).map Task.next).getD Ptr.null

/-- `p->prev`. -/
def prev : Ptr := ((s.tasks p.id).map Task.prev).getD Ptr.null

/-- What of a live task is not links: its address space and its registers. -/
def body :
    Option (Word × Registers) :=
      (s.tasks p.id).map fun t => (t.pageDirectory, t.reg)

/-- The state after `p->next = n`. -/
def linkNext : System :=
  s.setTask p.id ((s.tasks p.id).map fun t => { t with next := n })

/-- The state after `p->prev = n`. -/
def linkPrev : System :=
  s.setTask p.id ((s.tasks p.id).map fun t => { t with prev := n })

theorem tasks_setTask_of_ne (v : Option Task) {id id' : ℕ} (h : id' ≠ id) :
    (s.setTask id v).tasks id' = s.tasks id' := by
  unfold setTask
  exact Function.update_of_ne h v s.tasks

@[simp] theorem tasks_setTask_self (v : Option Task) (id : ℕ) :
    (s.setTask id v).tasks id = v := by
  unfold setTask
  exact Function.update_self id v s.tasks

/-- A field that a change of a task leaves alone is the same in every task. -/
theorem map_setTask {β : Type} {f : Task → β} {g : Task → Task}
    (h : ∀ t, f (g t) = f t) :
    ((s.setTask p.id ((s.tasks p.id).map g)).tasks q.id).map f
      = (s.tasks q.id).map f := by
  by_cases hq : q.id = p.id
  · rw [hq, tasks_setTask_self, Option.map_map]
    exact Option.map_congr fun t _ => h t
  · rw [tasks_setTask_of_ne s _ hq]

/-- A field that is assigned in a live task, and the same field of the
others. -/
theorem map_setTask_of_isSome {f : Task → Ptr} {g : Task → Task}
    (h : ∀ t, f (g t) = n) (hp : (s.body p).isSome) :
    (((s.setTask p.id ((s.tasks p.id).map g)).tasks q.id).map f).getD Ptr.null
      = if q.id = p.id then n else ((s.tasks q.id).map f).getD Ptr.null := by
  by_cases hq : q.id = p.id
  · obtain ⟨t, ht, -⟩ := Option.map_eq_some_iff.mp (Option.some_get hp).symm
    rw [if_pos hq, hq, tasks_setTask_self, ht]
    exact h t
  · rw [if_neg hq, tasks_setTask_of_ne s _ hq]

/-- `p->next = n` moves one link. -/
theorem next_linkNext (hp : (s.body p).isSome) :
    (s.linkNext p n).next q = if q.id = p.id then n else s.next q :=
  s.map_setTask_of_isSome p q n (fun _ => rfl) hp

@[simp] theorem prev_linkNext : (s.linkNext p n).prev q = s.prev q := by
  have hsame : ∀ t : Task, ({ t with next := n } : Task).prev = t.prev :=
    fun _ => rfl
  rw [prev, linkNext, map_setTask s p q hsame, prev]

@[simp] theorem body_linkNext : (s.linkNext p n).body q = s.body q :=
  s.map_setTask p q fun _ => rfl

/-- `p->prev = n` moves one link. -/
theorem prev_linkPrev (hp : (s.body p).isSome) :
    (s.linkPrev p n).prev q = if q.id = p.id then n else s.prev q :=
  s.map_setTask_of_isSome p q n (fun _ => rfl) hp

@[simp] theorem next_linkPrev : (s.linkPrev p n).next q = s.next q := by
  have hsame : ∀ t : Task, ({ t with prev := n } : Task).next = t.next :=
    fun _ => rfl
  rw [next, linkPrev, map_setTask s p q hsame, next]

@[simp] theorem body_linkPrev : (s.linkPrev p n).body q = s.body q :=
  s.map_setTask p q fun _ => rfl

end System

namespace Task

/-- What a live task holds. -/
theorem deref_task {s : System} {p : Ptr} (hp : p.addr ≠ 0)
    (hlive : (s.body p).isSome) :
    ∃ t, deref System.tasks p s = Except.ok (t, s) ∧ s.tasks p.id = some t
      ∧ t.next = s.next p
      ∧ t.prev = s.prev p ∧ s.body p = some (t.pageDirectory, t.reg) := by
  obtain ⟨t, ht, -⟩ := Option.map_eq_some_iff.mp (Option.some_get hlive).symm
  refine ⟨t, deref_ok hp ht, ht, ?_, ?_, ?_⟩
  · rw [System.next, ht, Option.map_some, Option.getD_some]
  · rw [System.prev, ht, Option.map_some, Option.getD_some]
  · rw [System.body, ht, Option.map_some]

theorem setNext_ok {s : System} {p : Ptr} (hp : p.addr ≠ 0)
    (hlive : (s.body p).isSome) (n : Ptr) :
    setNext p n s = Except.ok ((), s.linkNext p n) := by
  obtain ⟨t, hderef, ht, -⟩ := deref_task hp hlive
  rw [setNext, bind_ok hderef, System.linkNext, ht]
  rfl

theorem setPrev_ok {s : System} {p : Ptr} (hp : p.addr ≠ 0)
    (hlive : (s.body p).isSome) (n : Ptr) :
    setPrev p n s = Except.ok ((), s.linkPrev p n) := by
  obtain ⟨t, hderef, ht, -⟩ := deref_task hp hlive
  rw [setPrev, bind_ok hderef, System.linkPrev, ht]
  rfl

end Task

/-- **Pointers to different tasks** have different addresses and different
numbers, and none is null. The code compares addresses, and the model looks
things up by number; with this it makes no difference. -/
structure Distinct (l : List Ptr) : Prop where
  ne_null : ∀ p ∈ l, p.addr ≠ 0
  addr_inj : ∀ p ∈ l, ∀ q ∈ l, p.addr = q.addr → p = q
  id_inj : ∀ p ∈ l, ∀ q ∈ l, p.id = q.id → p = q

namespace Distinct

variable {l : List Ptr} {p q : Ptr}

theorem addr_eq_iff (h : Distinct l) (hp : p ∈ l) (hq : q ∈ l) :
    p.addr = q.addr ↔ p = q :=
  ⟨h.addr_inj p hp q hq, fun heq => congrArg Ptr.addr heq⟩

theorem id_eq_iff (h : Distinct l) (hp : p ∈ l) (hq : q ∈ l) :
    p.id = q.id ↔ p = q :=
  ⟨h.id_inj p hp q hq, fun heq => congrArg Ptr.id heq⟩

/-- The null test, on a link. -/
theorem addr_eq_zero_iff (h : Distinct l) (hp : p = Ptr.null ∨ p ∈ l) :
    p.addr = 0 ↔ p = Ptr.null := by
  refine ⟨fun h0 => hp.resolve_right fun hmem =>
    h.ne_null p hmem h0, fun h0 => ?_⟩
  rw [h0]
  rfl

/-- The comparison of a task with a pointer that may be null. -/
theorem addr_eq_iff' (h : Distinct l) (hp : p ∈ l) (hq : q = Ptr.null ∨ q ∈ l) :
    p.addr = q.addr ↔ p = q := by
  rcases hq with rfl | hq
  · exact iff_of_false (h.ne_null p hp) fun heq =>
      h.ne_null p hp (congrArg Ptr.addr heq)
  · exact h.addr_eq_iff hp hq

end Distinct

/-! ## `remove_task`

The state after the neighbours are joined, and then what becomes of `head`,
`tail` and `current`. -/

/-- The state after the neighbours of `p` are joined. -/
def System.unlink (s : System) (p : Ptr) : System :=
  let s₁ := if s.prev p = Ptr.null then s else s.linkNext (s.prev p) (s.next p)
  if s.next p = Ptr.null then s₁ else s₁.linkPrev (s.next p) (s.prev p)

namespace System

/-- Joining the neighbours changes links only. What else a task holds, and
everything outside the list, is as it was. -/
theorem unlink_eq (s : System) (p : Ptr) :
    ∃ tasks, s.unlink p = { s with tasks } := by
  unfold unlink
  by_cases hprev : s.prev p = Ptr.null
  · by_cases hnext : s.next p = Ptr.null
    · rw [if_pos hprev, if_pos hnext]
      exact ⟨_, rfl⟩
    · rw [if_pos hprev, if_neg hnext]
      exact ⟨_, rfl⟩
  · by_cases hnext : s.next p = Ptr.null
    · rw [if_neg hprev, if_pos hnext]
      exact ⟨_, rfl⟩
    · rw [if_neg hprev, if_neg hnext]
      exact ⟨_, rfl⟩

@[simp] theorem body_unlink (s : System) (p q : Ptr) :
    (s.unlink p).body q = s.body q := by
  unfold unlink
  by_cases hprev : s.prev p = Ptr.null
  · by_cases hnext : s.next p = Ptr.null
    · rw [if_pos hprev, if_pos hnext]
    · rw [if_pos hprev, if_neg hnext, body_linkPrev]
  · by_cases hnext : s.next p = Ptr.null
    · rw [if_neg hprev, if_pos hnext, body_linkNext]
    · rw [if_neg hprev, if_neg hnext, body_linkPrev, body_linkNext]

end System

namespace Task

section Remove

variable {s : System} {l l₁ l₂ : List Ptr} {p q : Ptr}

/-- Where a `next` goes when the neighbours are joined. -/
theorem next_unlink (hd : Distinct l) (hlive : ∀ q ∈ l, (s.body q).isSome)
    (hprev : s.prev p = Ptr.null ∨ s.prev p ∈ l) (hq : q ∈ l) :
    (s.unlink p).next q = if q = s.prev p then s.next p else s.next q := by
  have hne : q ≠ Ptr.null := fun h => hd.ne_null q hq (congrArg Ptr.addr h)
  have hsame : (s.unlink p).next q
      = (if s.prev p = Ptr.null then s
        else s.linkNext (s.prev p) (s.next p)).next q := by
    unfold System.unlink
    by_cases h : s.next p = Ptr.null
    · rw [if_pos h]
    · rw [if_neg h, System.next_linkPrev]
  rw [hsame]
  by_cases h : s.prev p = Ptr.null
  · rw [if_pos h, h, if_neg hne]
  · have hmem := hprev.resolve_left h
    rw [if_neg h, s.next_linkNext _ _ _ (hlive _ hmem)]
    exact if_congr (hd.id_eq_iff hq hmem) rfl rfl

/-- Where a `prev` goes when the neighbours are joined. -/
theorem prev_unlink (hd : Distinct l) (hlive : ∀ q ∈ l, (s.body q).isSome)
    (hnext : s.next p = Ptr.null ∨ s.next p ∈ l) (hq : q ∈ l) :
    (s.unlink p).prev q = if q = s.next p then s.prev p else s.prev q := by
  have hne : q ≠ Ptr.null := fun h => hd.ne_null q hq (congrArg Ptr.addr h)
  unfold System.unlink
  set s₁ := if s.prev p = Ptr.null then s
    else s.linkNext (s.prev p) (s.next p) with hs₁
  have hsame : ∀ q, s₁.prev q = s.prev q ∧ s₁.body q = s.body q := fun q => by
    by_cases h : s.prev p = Ptr.null
    · rw [hs₁, if_pos h]
      exact ⟨rfl, rfl⟩
    · rw [hs₁, if_neg h, System.prev_linkNext, System.body_linkNext]
      exact ⟨rfl, rfl⟩
  by_cases h : s.next p = Ptr.null
  · rw [if_pos h, h, if_neg hne, (hsame q).1]
  · have hmem := hnext.resolve_left h
    have hlive₁ : (s₁.body (s.next p)).isSome := (hsame _).2.symm ▸ hlive _ hmem
    rw [if_neg h, s₁.prev_linkPrev _ _ _ hlive₁, (hsame q).1]
    exact if_congr (hd.id_eq_iff hq hmem) rfl rfl

/-- `remove_task` joins the neighbours first. -/
theorem unlink_run {α : Type} (hd : Distinct l)
    (hlive : ∀ q ∈ l, (s.body q).isSome)
    (hprev : s.prev p = Ptr.null ∨ s.prev p ∈ l)
    (hnext : s.next p = Ptr.null ∨ s.next p ∈ l) (f : PUnit → SystemM α) :
    (if (s.prev p).addr ≠ 0 then
        setNext (s.prev p) (s.next p) >>= fun _ =>
          if (s.next p).addr ≠ 0 then setPrev (s.next p) (s.prev p) >>= f
            else f PUnit.unit
      else if (s.next p).addr ≠ 0 then setPrev (s.next p) (s.prev p) >>= f
        else f PUnit.unit) s
      = f PUnit.unit (s.unlink p) := by
  set s₁ := if s.prev p = Ptr.null then s
    else s.linkNext (s.prev p) (s.next p) with hs₁
  have hbody : ∀ q, s₁.body q = s.body q := fun q => by
    by_cases h : s.prev p = Ptr.null
    · rw [hs₁, if_pos h]
    · rw [hs₁, if_neg h, System.body_linkNext]
  have hunlink : s.unlink p
      = if s.next p = Ptr.null then s₁ else s₁.linkPrev (s.next p) (s.prev p) :=
        rfl
  have hfirst : (s.prev p).addr ≠ 0 →
      setNext (s.prev p) (s.next p) s = Except.ok ((), s₁) := by
    intro h
    have hne : s.prev p ≠ Ptr.null := fun h' => h (congrArg Ptr.addr h')
    rw [hs₁, if_neg hne]
    exact setNext_ok h (hlive _ (hprev.resolve_left hne)) _
  have hnone : ¬ (s.prev p).addr ≠ 0 → s₁ = s := fun h =>
    if_pos ((hd.addr_eq_zero_iff hprev).mp (not_not.mp h))
  refine (when_bind hfirst hnone).trans (when_bind (fun h => ?_) (fun h => ?_))
  · have hne : s.next p ≠ Ptr.null := fun h' => h (congrArg Ptr.addr h')
    rw [hunlink, if_neg hne]
    exact setPrev_ok h ((hbody _).symm ▸ hlive _ (hnext.resolve_left hne)) _
  · rw [hunlink, if_pos ((hd.addr_eq_zero_iff hnext).mp (not_not.mp h))]

/-- `get_next_task`, when the current task is live. -/
theorem getNextTask_ok (hp : p.addr ≠ 0) (hlive : (s.body p).isSome)
    (hcur : s.current = p) :
    getNextTask s = Except.ok (if (s.next p).addr = 0 then s.head
      else s.next p, s) := by
  obtain ⟨t, hderef, -, htnext, -⟩ := deref_task hp hlive
  rw [getNextTask, get_bind, hcur, bind_ok hderef, htnext]
  by_cases h : (s.next p).addr = 0
  · rw [if_pos h, if_pos h]
    rfl
  · rw [if_neg h, if_neg h]
    rfl

end Remove

end Task

/-- The state when `p` is out of the list, and its own links still there. -/
def System.withoutTask (s : System) (p : Ptr) : System :=
  let head := if p = s.head then s.next p else s.head
  { s.unlink p with
    head
    tail := if p = s.tail then s.prev p else s.tail
    current := if p = s.current then if s.next p = Ptr.null then head
      else s.next p
      else s.current }

namespace Task

section Remove

variable {s : System} {l₁ l₂ : List Ptr} {p : Ptr}

/-- The run of `remove_task`. -/
theorem removeTask_run (hd : Distinct (l₁ ++ p :: l₂))
    (hlist : LinkedList Ptr.null s.next s.prev s.head s.tail (l₁ ++ p :: l₂))
    (hlive : ∀ q ∈ l₁ ++ p :: l₂, (s.body q).isSome)
    (hcur : s.current = Ptr.null ∨ s.current ∈ l₁ ++ p :: l₂) :
    removeTask p s
      = Except.ok ((),
        ((s.withoutTask p).linkPrev p Ptr.null).linkNext p Ptr.null) := by
  have hp : p ∈ l₁ ++ p :: l₂ := List.mem_append_right _ List.mem_cons_self
  have hl : l₁ ++ p :: l₂ ≠ [] := List.ne_nil_of_mem hp
  have hp0 := hd.ne_null p hp
  have hprev := hlist.prev_eq_or_mem.imp_right (List.mem_append_left (p :: l₂))
  have hnext := hlist.next_eq_or_mem.imp_right
    fun h => List.mem_append_right l₁ (List.mem_cons_of_mem p h)
  obtain ⟨t, hderef, -, htnext, htprev, -⟩ := deref_task hp0 (hlive p hp)
  obtain ⟨tasks, hu⟩ := s.unlink_eq p
  have hbody : (s.withoutTask p).body p = s.body p := s.body_unlink p p
  rw [removeTask, bind_ok hderef, htnext, htprev]
  refine (unlink_run hd hlive hprev hnext _).trans ?_
  -- `head` and `tail`
  have hhead : (if p.addr = (s.unlink p).head.addr then
    { s.unlink p with head := s.next p }
        else s.unlink p)
      = { s.unlink p with
        head := if p = s.head then s.next p else s.head } := by
    have heq : (s.unlink p).head = s.head := by rw [hu]
    rw [heq, if_congr (hd.addr_eq_iff hp (hlist.head_mem hl)) rfl rfl]
    by_cases h : p = s.head
    · rw [if_pos h, if_pos h]
    · rw [if_neg h, if_neg h, ← heq]
  set s₁ : System :=
    { s.unlink p with head := if p = s.head then s.next p else s.head } with hs₁
  have htail : (if p.addr = s₁.tail.addr then { s₁ with tail := s.prev p }
    else s₁)
      = { s₁ with tail := if p = s.tail then s.prev p else s.tail } := by
    have heq : s₁.tail = s.tail := by rw [hs₁, hu]
    rw [heq, if_congr (hd.addr_eq_iff hp (hlist.tail_mem hl)) rfl rfl]
    by_cases h : p = s.tail
    · rw [if_pos h, if_pos h]
    · rw [if_neg h, if_neg h, ← heq]
  set s₂ : System :=
    { s₁ with tail := if p = s.tail then s.prev p else s.tail } with hs₂
  have hs₂current : s₂.current = s.current := by rw [hs₂, hs₁, hu]
  have hwithout : s.withoutTask p = { s₂ with
      current := if p = s.current then if s.next p = Ptr.null then s₂.head
        else s.next p
        else s.current } := rfl
  -- `current`: the links of `p` are what they were
  have hnextp : s₂.next p = s.next p := by
    refine (next_unlink hd hlive hprev hp).trans (if_neg fun heq => ?_)
    rcases hlist.prev_eq_or_mem with h | h
    · exact hp0 (congrArg Ptr.addr (heq.trans h))
    · exact (List.nodup_append.mp hlist.nodup).2.2 _ h p
        List.mem_cons_self heq.symm
  have hlivep : ((s.withoutTask p).body p).isSome := hbody.symm ▸ hlive p hp
  have hself : (setPrev p Ptr.null >>= fun _ => setNext p Ptr.null)
    (s.withoutTask p)
      = Except.ok ((),
        ((s.withoutTask p).linkPrev p Ptr.null).linkNext p Ptr.null) := by
    rw [bind_ok (setPrev_ok hp0 hlivep Ptr.null)]
    refine setNext_ok hp0 ?_ Ptr.null
    rw [System.body_linkPrev]
    exact hlivep
  refine (modify_bind _ _ _).trans
    ((modify_bind _ _ _).trans ((get_bind _ _).trans ?_))
  beta_reduce
  rw [hhead, htail]
  by_cases h : p.addr = s₂.current.addr
  · have hcurp : p = s.current := (hd.addr_eq_iff' hp hcur).mp (hs₂current ▸ h)
    have hrun := getNextTask_ok hp0 (hbody ▸ hlive p hp)
      (hs₂current.trans hcurp.symm)
    rw [hnextp, if_congr (hd.addr_eq_zero_iff hnext) rfl rfl] at hrun
    rw [if_pos h, bind_ok hrun, modify_bind]
    rw [hwithout, if_pos hcurp] at hself
    rw [hwithout, if_pos hcurp]
    exact hself
  · have hcurp : p ≠ s.current := fun heq => h (by rw [hs₂current, ← heq])
    rw [hwithout, if_neg hcurp, ← hs₂current] at hself
    rw [if_neg h, hwithout, if_neg hcurp, ← hs₂current]
    exact hself

/-- **`remove_task`** takes the task out of the list, and moves `current` on
if that was it: to the task behind, to the first one, or to null. -/
theorem removeTask_spec (hd : Distinct (l₁ ++ p :: l₂))
    (hlist : LinkedList Ptr.null s.next s.prev s.head s.tail (l₁ ++ p :: l₂))
    (hlive : ∀ q ∈ l₁ ++ p :: l₂, (s.body q).isSome)
    (hcur : s.current = Ptr.null ∨ s.current ∈ l₁ ++ p :: l₂) :
    ∃ s', removeTask p s = Except.ok ((), s')
      ∧ (∃ tasks head tail current, s' = { s with tasks, head, tail, current })
      ∧ (∀ q, s'.body q = s.body q)
      ∧ LinkedList Ptr.null s'.next s'.prev s'.head s'.tail (l₁ ++ l₂)
      ∧ s'.current = if p = s.current then (l₂ ++ l₁).headD Ptr.null
        else s.current := by
  have hp : p ∈ l₁ ++ p :: l₂ := List.mem_append_right _ List.mem_cons_self
  have hprev := hlist.prev_eq_or_mem.imp_right (List.mem_append_left (p :: l₂))
  have hnext := hlist.next_eq_or_mem.imp_right
    fun h => List.mem_append_right l₁ (List.mem_cons_of_mem p h)
  have hmem : ∀ q ∈ l₁ ++ l₂, q ∈ l₁ ++ p :: l₂ := fun q hq =>
    (List.mem_append.mp hq).elim (List.mem_append_left _)
      (fun hq => List.mem_append_right _ (List.mem_cons_of_mem p hq))
  have hne : ∀ q ∈ l₁ ++ l₂, q.id ≠ p.id := by
    intro q hq heq
    have hqp := (hd.id_eq_iff (hmem q hq) hp).mp heq
    rw [hqp] at hq
    exact (List.nodup_cons.mp (List.perm_middle.nodup_iff.mp hlist.nodup)).1 hq
  have hremoved :=
    hlist.remove (fun q hq => next_unlink hd hlive hprev (hmem q hq))
    (fun q hq => prev_unlink hd hlive hnext (hmem q hq))
  have hsucc := hlist.successor
  rw [← hremoved.head_eq] at hsucc
  refine ⟨_, removeTask_run hd hlist hlive hcur, ?_, fun q => ?_, ?_, ?_⟩
  · obtain ⟨tasks, hu⟩ := s.unlink_eq p
    unfold System.withoutTask
    rw [hu]
    exact ⟨_, _, _, _, rfl⟩
  · rw [System.body_linkNext, System.body_linkPrev]
    exact s.body_unlink p q
  · have hlivep : ((s.withoutTask p).body p).isSome :=
      (s.body_unlink p p).symm ▸ hlive p hp
    have hlivep' : (((s.withoutTask p).linkPrev p Ptr.null).body p).isSome := by
      rw [System.body_linkPrev]
      exact hlivep
    refine hremoved.congr (fun q hq => ?_) (fun q hq => ?_)
    · rw [System.next_linkNext _ _ _ _ hlivep', if_neg (hne q hq),
        System.next_linkPrev]
      rfl
    · rw [System.prev_linkNext, System.prev_linkPrev _ _ _ _ hlivep,
        if_neg (hne q hq)]
      rfl
  · show (if p = s.current then _ else s.current) = _
    rw [hsucc]

end Remove

end Task

end N00bOS
