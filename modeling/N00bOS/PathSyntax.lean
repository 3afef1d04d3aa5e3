import N00bOS.Blocks
import N00bOS.OpenClose
import N00bOS.Separated

/-!
# What a path is parsed to

After its drive prefix a path is a list of names with slashes between them
(`Separated.Names`). Each round of the loop of `parse` takes one name, or, at a
slash that comes first or directly after another, nothing at all: the path is
what it was, and the loop goes on for ever. So `parse` ends on the paths
without a doubled slash (`parse_terminates_iff`), where it gives back the names
that were rendered (`parse_rendered`); its parts are usable but for the bare
drive, which has one part without a name (`accepted_parts_usable_iff`).

All it allocates are single blocks, so what a run costs is a number
(`Machine.Spends`): one for the root, and two for each name. A theorem about
`parse` therefore has two outcomes, that the blocks do not suffice and what
happens when they do, and a loop that goes on for ever is one for which no
number is enough. The results are about the second outcome, in every state of
the heap.
-/

namespace N00bOS

open KernelM Machine Separated

namespace PathParser

/-! ## States while parsing

Parsing adds blocks to the heap and strings to their store. What was there
stays. -/

/-- **What parsing changes**: the heap, and new strings. Nothing is freed, and
no string that was there is written to. -/
structure Parsing (k k' : Kernel) : Prop where
  heapOk : k'.HeapOk
  eq : k' = { k with mem := k'.mem, nextId := k'.nextId, strings := k'.strings }
  nextId : k.nextId ≤ k'.nextId
  strings : ∀ id, id < k.nextId → k'.strings id = k.strings id

namespace Parsing

variable {k k' k'' : Kernel}

theorem refl (hk : k.HeapOk) : Parsing k k := ⟨hk, rfl, le_rfl, fun _ _ => rfl⟩

theorem heap (h : Parsing k k') : k'.heap = k.heap := by rw [h.eq]

theorem trans (h₁ : Parsing k k') (h₂ : Parsing k' k'') : Parsing k k'' := by
  refine ⟨h₂.heapOk, by rw [h₂.eq, h₁.eq],
    h₁.nextId.trans h₂.nextId, fun id hid => ?_⟩
  rw [h₂.strings id (Nat.lt_of_lt_of_le hid h₁.nextId), h₁.strings id hid]

end Parsing

/-- **A part has a name**: its string is there, at a pointer that is not null,
and it has been allocated. -/
structure NamedPart (k : Kernel) (name : List Byte)
    (part : PathPart) : Prop where
  ne_null : part.partName.addr ≠ 0
  allocated : part.partName.id < k.nextId
  string : k.strings part.partName.id = some name

theorem NamedPart.parsing {k k' : Kernel} (h : Parsing k k') {name : List Byte}
    {part : PathPart} (hpart : NamedPart k name part) :
    NamedPart k' name part :=
  ⟨hpart.ne_null, Nat.lt_of_lt_of_le hpart.allocated h.nextId,
    (h.strings _ hpart.allocated).trans hpart.string⟩

theorem NamedPart.setPathRoot {k : Kernel} {name : List Byte} {part : PathPart}
    (hpart : NamedPart k name part) (id : ℕ) (v : Option PathRoot) :
    NamedPart (k.setPathRoot id v) name part :=
  ⟨hpart.ne_null, hpart.allocated, hpart.string⟩

/-! ## One part

A name is copied to a string of its own, and a part is made for it. At a slash
the name is null. -/

section Part

variable {k : Kernel} {path : List Byte}

/-- **A part with a name** costs two blocks: the name and its part. What is
left of the path is what follows the name, without the slash in between. -/
theorem parsePathPart_named (hk : k.HeapOk) (hlen : path.length < 4095)
    (hname : firstName slash path ≠ []) :
    Spends Kernel.freeBlocks Fault.outOfMemory 2 (parsePathPart path)
      k fun r k' =>
        Parsing k k' ∧ r.2 = afterName slash path
            ∧ NamedPart k' (firstName slash path) r.1 := by
  have hle : (firstName slash path).length ≤ path.length :=
    (List.takeWhile_sublist _).length_le
  have hsize : (BitVec.ofNat 32 ((firstName slash path).length + 1)).toNat
      < 4096 := by
    rw [BitVec.toNat_ofNat]
    omega
  rw [parsePathPart, getPathPartStr]
  simp only
  rw [show path.takeWhile (fun x => decide (x ≠ slash))
    = firstName slash path from rfl,
    if_neg (show ¬ (firstName slash path).length = 0 from
      fun h => hname (List.length_eq_zero_iff.mp h)), bind_assoc]
  refine Spends.bind (n := 1) (m := 1) (allocate_one hk hsize) ?_
  rintro str k₁ ⟨hid, hne, hk₁, m, hm⟩
  have hset : (k₁.setString str.id (some (firstName slash path))).HeapOk := hk₁
  rw [bind_assoc]
  refine Spends.modify_bind rfl ?_
  rw [pure_bind]
  refine Spends.bind (n := 1) (m := 0) (allocate_one hset (by decide)) ?_
  rintro part k₂ ⟨-, -, hk₂, m', hm'⟩
  subst hm' hm
  have hnext : str.id < k.nextId + 2 := by omega
  refine Spends.pure ⟨⟨hk₂, rfl, Nat.le_add_right _ 2, fun id hlt => ?_⟩,
    rfl, hne, hnext, Function.update_self _ _ _⟩
  exact Function.update_of_ne (by omega) _ _

/-- **A part without a name** costs one, and takes nothing of the path. This is
where a loop over the path does not come to an end. -/
theorem parsePathPart_unnamed (hk : k.HeapOk)
    (hname : firstName slash path = []) :
    Spends Kernel.freeBlocks Fault.outOfMemory 1 (parsePathPart path)
      k fun r k' =>
        Parsing k k' ∧ r.2 = path ∧ r.1.partName = Ptr.null := by
  rw [parsePathPart, getPathPartStr]
  simp only
  rw [show path.takeWhile (fun x => decide (x ≠ slash))
    = firstName slash path from rfl, hname, if_pos List.length_nil, pure_bind]
  refine Spends.bind (n := 1) (m := 0) (allocate_one hk (by decide)) ?_
  rintro part _ ⟨-, -, hk₁, m, rfl⟩
  exact Spends.pure ⟨⟨hk₁, rfl, Nat.le_succ _, fun _ _ => rfl⟩, rfl, rfl⟩

end Part

/-! ## The loop

One round for a name, by the reader of `N00bOS.Separated`; and the same round
again where there is none. -/

section Loop

variable {k : Kernel} {path : List Byte}

theorem length_afterName_le (path : List Byte) :
    (afterName slash path).length ≤ path.length := by
  rw [afterName, List.length_drop, List.length_drop]
  omega

/-- **The loop on a path that can be read**: a part for each name. The
induction is on the names, and the rounds are enough as each name takes one. -/
theorem parseLoop_spec {names : List (List Byte)} (h : Names slash path names)
    (hk : k.HeapOk) (hlen : path.length < 4095) {rounds : ℕ}
    (hrounds : names.length < rounds) (parts : List PathPart) :
    Spends Kernel.freeBlocks Fault.outOfMemory (2 * names.length)
      (parseLoop rounds parts path) k
      fun parts' k' => Parsing k k'
        ∧ ∃ new, parts' = parts ++ new
        ∧ List.Forall₂ (NamedPart k') names new := by
  induction rounds generalizing k path names parts with
  | zero => exact absurd hrounds (Nat.not_lt_zero _)
  | succ rounds ih =>
    rw [parseLoop]
    by_cases hpath : path = []
    · rw [if_pos hpath, h.eq_nil hpath]
      exact Spends.pure ⟨Parsing.refl hk, [], (List.append_nil _).symm,
        List.Forall₂.nil⟩
    · obtain ⟨hname, tail, rfl, htail⟩ := (names_iff_of_ne_nil hpath).mp h
      rw [if_neg hpath, List.length_cons, Nat.mul_succ, Nat.add_comm]
      refine Spends.bind (parsePathPart_named hk hlen hname) ?_
      rintro ⟨part, _⟩ k₁ ⟨hparse, rfl, hpart⟩
      refine (ih htail hparse.heapOk
        (Nat.lt_of_le_of_lt (length_afterName_le path) hlen)
        (Nat.lt_of_succ_lt_succ hrounds) (parts ++ [part])).conseq ?_
      rintro parts' k₂ ⟨hparse', new, rfl, hnew⟩
      refine ⟨hparse.trans hparse',
        part :: new, by rw [List.append_assoc]; rfl, ?_⟩
      exact List.Forall₂.cons (hpart.parsing hparse') hnew

/-- A path that cannot be read goes on to one that cannot be read. -/
theorem afterName_unreadable (h : ¬ ∃ names, Names slash path names) :
    path ≠ []
      ∧ (firstName slash path ≠ [] → ¬ ∃ names,
        Names slash (afterName slash path) names) := by
  have hpath : path ≠ [] := by
    rintro rfl
    exact h ⟨[], Names.nil⟩
  refine ⟨hpath, fun hname => ?_⟩
  rintro ⟨tail, htail⟩
  exact h ⟨_, (names_iff_of_ne_nil hpath).mpr ⟨hname, tail, rfl, htail⟩⟩

/-- **The loop on a path that cannot be read does not end**, however many
rounds there are: with two blocks for each, they all pass. -/
theorem parseLoop_diverges (h : ¬ ∃ names, Names slash path names)
    (hk : k.HeapOk) (hlen : path.length < 4095) {rounds : ℕ}
    (hroom : 2 * rounds ≤ k.freeBlocks) (parts : List PathPart) :
    parseLoop rounds parts path k = Except.error Fault.diverged := by
  induction rounds generalizing k path parts with
  | zero => rfl
  | succ rounds ih =>
    obtain ⟨hpath, hnext⟩ := afterName_unreadable h
    rw [parseLoop, if_neg hpath]
    by_cases hname : firstName slash path = []
    · -- nothing is taken
      obtain ⟨⟨part, _⟩, k₁, hrun, hblocks, hparse, rfl, -⟩ :=
        (parsePathPart_unnamed hk hname).returns (by omega)
      rw [bind_ok hrun]
      exact ih h hparse.heapOk hlen (by omega) _
    · obtain ⟨⟨part, _⟩, k₁, hrun, hblocks, hparse, rfl, -⟩ :=
        (parsePathPart_named hk hlen hname).returns (by omega)
      rw [bind_ok hrun]
      exact ih (hnext hname) hparse.heapOk
        (Nat.lt_of_le_of_lt (length_afterName_le path) hlen)
        (by omega) _

/-- It returns from no state. -/
theorem parseLoop_ne_ok (h : ¬ ∃ names, Names slash path names) (hk : k.HeapOk)
    (hlen : path.length < 4095) (rounds : ℕ) (parts : List PathPart)
    (r : List PathPart × Kernel) :
    parseLoop rounds parts path k ≠ Except.ok r := by
  induction rounds generalizing k path parts with
  | zero => exact fun hrun => nomatch hrun
  | succ rounds ih =>
    obtain ⟨hpath, hnext⟩ := afterName_unreadable h
    intro hrun
    rw [parseLoop, if_neg hpath] at hrun
    obtain ⟨⟨part, rest⟩, k₁, hpart, hrest⟩ := bind_eq_ok.mp hrun
    by_cases hname : firstName slash path = []
    · obtain ⟨-, hparse, rfl, -⟩ := (parsePathPart_unnamed hk hname).of_ok hpart
      exact ih h hparse.heapOk hlen _ hrest
    · obtain ⟨-, hparse, rfl, -⟩ :=
        (parsePathPart_named hk hlen hname).of_ok hpart
      exact ih (hnext hname) hparse.heapOk
        (Nat.lt_of_le_of_lt (length_afterName_le path) hlen) _
        hrest

end Loop

/-! ## `parse`

The drive, the root, and the first part, which is made before the loop. -/

section Parse

variable {k : Kernel} {path : List Byte}

/-- `get_drive` copies the digit to a buffer that it gives back at once. -/
theorem getDrive_spec (hk : k.HeapOk) (path : List Byte) :
    ∃ k', getDrive path k = Except.ok (atoi (path.take 1), k')
      ∧ Quiet k k' := by
  obtain ⟨m, halloc, -, hquiet⟩ :=
    kzalloc_kfree hk.1 (show (2 : Word).toNat < 4096 by decide)
  refine ⟨_, ?_, hquiet hk⟩
  rw [getDrive, bind_ok halloc, kfree_bind]
  rfl

/-- **An accepted path** costs a block for the root, and then what its parts
cost. -/
theorem parse_start (hpath : ¬ Rejected path) (hk : k.HeapOk) :
    (k.freeBlocks = 0 ∧ parse path k = Except.error Fault.outOfMemory)
      ∨ ∃ root k₁, k₁.HeapOk ∧ k₁.heap = k.heap
        ∧ k₁.freeBlocks + 1 = k.freeBlocks
        ∧ root.addr ≠ 0
        ∧ parse path k = (parsePathPart (path.drop 3) >>= fun r =>
            parseLoop (path.length + 1) [r.1] r.2 >>= fun parts =>
              modify (fun k => k.setPathRoot root.id
                (some ⟨atoi (path.take 1), parts⟩)) >>=
                fun _ => pure root) k₁ := by
  obtain ⟨hshort, hvalid⟩ := not_or.mp hpath
  have hvalid : validatePath path = true := by simpa using hvalid
  rw [parse, if_neg hshort, if_neg (by simp [hvalid])]
  obtain ⟨k₀, hdrive, hquiet⟩ := getDrive_spec hk path
  rw [bind_ok hdrive, if_neg (not_lt.mpr (atoi_nonneg_of_validatePath hvalid)),
    createRoot, bind_assoc]
  rcases allocate_one (hquiet.heapOk hk)
    (show (8 : Word).toNat < 4096 by decide) with
    ⟨hlt, herror⟩ | ⟨root, k₁, halloc, hblocks, -, hne, hk₁, m, hm⟩
  · rw [hquiet.freeBlocks] at hlt
    exact Or.inl ⟨by omega, bind_error herror⟩
  · rw [hquiet.freeBlocks] at hblocks
    refine Or.inr ⟨root, k₁.setPathRoot root.id (some ⟨atoi (path.take 1), []⟩),
      hk₁, (show k₁.heap = k₀.heap by rw [hm]).trans hquiet.heap,
      hblocks, hne, ?_⟩
    rw [bind_ok halloc, bind_assoc, modify_bind, pure_bind]

/-- The first part is one more round of the loop. -/
theorem first_part_eq (hrest : path ≠ []) (rounds : ℕ)
    {f : List PathPart → KernelM Ptr} :
    (parsePathPart path >>= fun r => parseLoop rounds [r.1] r.2 >>= f)
      = parseLoop (rounds + 1) [] path >>= f := by
  rw [parseLoop, if_neg hrest, bind_assoc]
  rfl

theorem length_drop_lt (hpath : ¬ Rejected path) :
    (path.drop 3).length < 4095 := by
  have hshort := Nat.not_lt.mp (not_or.mp hpath).1
  rw [List.length_drop]
  unfold maxPathLength at hshort
  omega

/-- **A path of names** is parsed to a part for each of them, for one block and
two for each name; where these are not there, it runs out of memory. -/
theorem parse_spec (hpath : ¬ Rejected path) (hrest : path.drop 3 ≠ [])
    {names : List (List Byte)} (h : Names slash (path.drop 3) names)
    (hk : k.HeapOk) :
    Spends Kernel.freeBlocks Fault.outOfMemory (1 + 2 * names.length)
      (parse path) k fun root k' =>
        root.addr ≠ 0 ∧ k'.heap = k.heap
          ∧ ∃ parts, k'.pathRoots root.id = some ⟨atoi (path.take 1), parts⟩
            ∧ List.Forall₂ (NamedPart k') names parts := by
  have hcount := h.length_le
  rw [List.length_drop] at hcount
  rcases parse_start hpath hk with
    ⟨hblocks, herror⟩ | ⟨root, k₁, hk₁, hheap, hblocks, hne, hrun⟩
  · exact Or.inl ⟨by omega, herror⟩
  rw [first_part_eq hrest] at hrun
  have hloop : Spends Kernel.freeBlocks Fault.outOfMemory (2 * names.length + 0)
      (parseLoop (path.length + 1 + 1) [] (path.drop 3) >>= fun parts =>
        modify (fun k => k.setPathRoot root.id
          (some ⟨atoi (path.take 1), parts⟩)) >>=
          fun _ => pure root) k₁ fun root' k' => root' = root
            ∧ k'.heap = k₁.heap
        ∧ ∃ parts, k'.pathRoots root.id = some ⟨atoi (path.take 1), parts⟩
          ∧ List.Forall₂ (NamedPart k') names parts := by
    refine Spends.bind (parseLoop_spec h hk₁ (length_drop_lt hpath)
      (by omega) []) ?_
    rintro _ k₂ ⟨hparse, new, rfl, hnew⟩
    refine Spends.modify_bind rfl
      (Spends.pure ⟨rfl, hparse.heap, _, Function.update_self _ _ _, ?_⟩)
    exact hnew.imp fun _ _ h => h.setPathRoot _ _
  rcases hloop with ⟨hlt, herror⟩ | ⟨_, k', hok, hblocks', rfl, hheap', hparts⟩
  · exact Or.inl ⟨by omega, hrun.trans herror⟩
  · exact Or.inr ⟨_, k', hrun.trans hok, by omega, hne,
      hheap'.trans hheap, hparts⟩

/-- The bare drive has a part without a name. -/
theorem parse_bare (hpath : ¬ Rejected path) (hrest : path.drop 3 = [])
    (hk : k.HeapOk) :
    Spends Kernel.freeBlocks Fault.outOfMemory 2 (parse path) k fun root k' =>
      root.addr ≠ 0
        ∧ ∃ part, k'.pathRoots root.id = some ⟨atoi (path.take 1), [part]⟩
          ∧ part.partName = Ptr.null := by
  rcases parse_start hpath hk with
    ⟨hblocks, herror⟩ | ⟨root, k₁, hk₁, hheap, hblocks, hne, hrun⟩
  · exact Or.inl ⟨by omega, herror⟩
  rw [hrest] at hrun
  have hloop : Spends Kernel.freeBlocks Fault.outOfMemory (1 + 0)
      (parsePathPart [] >>= fun r =>
        parseLoop (path.length + 1) [r.1] r.2 >>= fun parts =>
          modify (fun k => k.setPathRoot root.id
            (some ⟨atoi (path.take 1), parts⟩)) >>=
            fun _ => pure root) k₁ fun root' k' => root' = root
        ∧ ∃ part, k'.pathRoots root.id = some ⟨atoi (path.take 1), [part]⟩
          ∧ part.partName = Ptr.null := by
    refine Spends.bind (parsePathPart_unnamed hk₁ rfl) ?_
    rintro ⟨part, _⟩ k₂ ⟨-, rfl, hpart⟩
    rw [parseLoop, if_pos rfl, pure_bind]
    exact Spends.modify_bind rfl
      (Spends.pure ⟨rfl, _, Function.update_self _ _ _, hpart⟩)
  rcases hloop with ⟨hlt, herror⟩ | ⟨_, k', hok, hblocks', rfl, hparts⟩
  · exact Or.inl ⟨by omega, hrun.trans herror⟩
  · exact Or.inr ⟨_, k', hrun.trans hok, by omega, hne, hparts⟩

/-- A path of no names is not parsed: the loop does not end, if there is
memory for its rounds. -/
theorem parse_diverges (hpath : ¬ Rejected path)
    (h : ¬ ∃ names, Names slash (path.drop 3) names) (hk : k.HeapOk)
    (hroom : 2 * path.length + 5 ≤ k.freeBlocks) :
    parse path k = Except.error Fault.diverged := by
  rcases parse_start hpath hk with
    ⟨hblocks, -⟩ | ⟨root, k₁, hk₁, -, hblocks, -, hrun⟩
  · omega
  · rw [hrun, first_part_eq (afterName_unreadable h).1]
    exact bind_error (parseLoop_diverges h hk₁ (length_drop_lt hpath)
      (by omega) _)

theorem parse_ne_ok (hpath : ¬ Rejected path)
    (h : ¬ ∃ names, Names slash (path.drop 3) names) (hk : k.HeapOk)
    (r : Ptr × Kernel) : parse path k ≠ Except.ok r := by
  intro hparse
  rcases parse_start hpath hk with ⟨-, herror⟩ | ⟨root, k₁, hk₁, -, -, -, hrun⟩
  · cases hparse.symm.trans herror
  · rw [hrun, first_part_eq (afterName_unreadable h).1] at hparse
    obtain ⟨parts, k₂, hloop, -⟩ := bind_eq_ok.mp hparse
    exact parseLoop_ne_ok h hk₁ (length_drop_lt hpath) _ _ _ hloop

/-- An accepted path is its drive prefix and what follows. -/
theorem eq_of_not_rejected (hpath : ¬ Rejected path) :
    ∃ d, isdigit d = true ∧ path = d :: colon :: slash :: path.drop 3 := by
  have hvalid : validatePath path = true := by simpa using (not_or.mp hpath).2
  match path, hvalid with
  | d :: c :: s :: rest, hvalid =>
    rw [validatePath, Bool.and_eq_true, Bool.and_eq_true, decide_eq_true_iff,
      decide_eq_true_iff] at hvalid
    exact ⟨d, hvalid.1.1, by rw [hvalid.1.2, hvalid.2]; rfl⟩

/-- **The paths that can be read**: no slash directly follows another. The
first slash of all is that behind the drive, so it counts as well. -/
theorem exists_names_drop_iff (hpath : ¬ Rejected path) :
    (∃ names, Names slash (path.drop 3) names)
      ↔ path.IsChain fun a b => a = slash → b ≠ slash := by
  obtain ⟨d, hd, hsplit⟩ := eq_of_not_rejected hpath
  rw [exists_names_iff]
  conv_rhs => rw [hsplit, List.isChain_cons_cons, List.isChain_cons_cons]
  have hne : d ≠ slash := by
    rintro rfl
    exact absurd hd (by decide)
  exact ⟨fun h => ⟨fun heq => absurd heq hne, fun heq => absurd heq (by decide),
    h⟩, fun h => h.2.2⟩

end Parse

/-! ## Termination

That `parse` does not end is a statement about every number of rounds, from one
state with blocks for all of them. -/

/-- `parse` ends: it returns, with a list of no more parts than the path has
characters, unless the heap runs out. -/
def Ends (path : List Byte) (k : Kernel) : Prop :=
  parse path k = Except.error Fault.outOfMemory ∨ ∃ root k',
    parse path k = Except.ok (root, k')
    ∧ (root.addr ≠ 0 → ∃ r, k'.pathRoots root.id = some r
      ∧ r.path.length ≤ path.length)

/-- A kernel that has just set up its heap, with nothing else in it. -/
def bootedKernel : Kernel where
  heap := kernelHeapConfig.heap
  mem := (kheapInit kernelHeapConfig fun _ => 0).2
  nextId := 1
  sectors := fun _ _ => 0
  disk := ⟨FilesystemRef.null, Ptr.null⟩
  fileDescriptors := fun _ => Ptr.null
  diskStreams := fun _ => none
  fatPrivates := fun _ => none
  fatDirectories := fun _ => none
  itemArrays := fun _ => none
  fatItems := fun _ => none
  fatItemDescriptors := fun _ => none
  fileDescriptorStructs := fun _ => none
  pathRoots := fun _ => none
  strings := fun _ => none

theorem bootedKernel_heapOk : bootedKernel.HeapOk :=
  ⟨⟨kernelHeapConfig.heap_wf, by decide, by decide⟩, [],
    (kheapInit_spec _ _).2.1⟩

theorem bootedKernel_freeBlocks : bootedKernel.freeBlocks = 25600 := by
  rw [Kernel.freeBlocks_of_empty (kheapInit_spec _ _).2.1]
  rfl

/-- A path of no names does not end from the state after boot. -/
theorem not_ends_booted {path : List Byte} (hpath : ¬ Rejected path)
    (h : ¬ ∃ names, Names slash (path.drop 3) names) :
    ¬ Ends path bootedKernel := by
  have hlen := Nat.not_lt.mp (not_or.mp hpath).1
  unfold maxPathLength at hlen
  have hrun := parse_diverges hpath h bootedKernel_heapOk (by
    rw [bootedKernel_freeBlocks]
    omega)
  rintro (herror | ⟨root, k', hok, -⟩)
  · exact absurd (Except.error.inj (hrun.symm.trans herror)) (by decide)
  · cases hrun.symm.trans hok

/-- **`parse` ends exactly on the paths without a doubled slash**, and on those
it turns away. At a slash where a name should be `get_path_part_str` returns
null and does not move on, so the loop finds the same slash again; the state of
each of its rounds is that of the one before but for what was allocated. To end
is to come to a result, or to an allocation that finds no room, with every heap
in use. -/
theorem parse_terminates_iff (path : List Byte) :
    (∀ k : Kernel, k.HeapOk → Ends path k)
      ↔ Rejected path ∨ path.IsChain fun a b => a = slash → b ≠ slash := by
  by_cases hpath : Rejected path
  · refine iff_of_true (fun k _ =>
      Or.inr ⟨Ptr.null, k, parse_of_rejected hpath k, fun h => ?_⟩)
      (Or.inl hpath)
    exact absurd rfl h
  rw [or_iff_right hpath, ← exists_names_drop_iff hpath]
  constructor
  · intro hends
    by_contra h
    exact not_ends_booted hpath h (hends _ bootedKernel_heapOk)
  · rintro ⟨names, h⟩ k hk
    by_cases hrest : path.drop 3 = []
    · rcases parse_bare hpath hrest hk with
        ⟨-, herror⟩ | ⟨root, k', hok, -, -, part, hroot, -⟩
      · exact Or.inl herror
      · obtain ⟨d, -, hsplit⟩ := eq_of_not_rejected hpath
        refine Or.inr ⟨root, k', hok, fun _ => ⟨_, hroot, ?_⟩⟩
        rw [hsplit]
        exact Nat.succ_le_succ (Nat.zero_le _)
    · rcases parse_spec hpath hrest h hk with
        ⟨-, herror⟩ | ⟨root, k', hok, -, -, -, parts, hroot, hparts⟩
      · exact Or.inl herror
      · refine Or.inr ⟨root, k', hok, fun _ => ⟨_, hroot, ?_⟩⟩
        show parts.length ≤ path.length
        rw [← hparts.length_eq]
        exact h.length_le.trans (by
          rw [List.length_drop]
          exact Nat.sub_le _ _)

/-- `0://`: the second slash is a component without a name. -/
theorem doubled_slash_does_not_end :
    bootedKernel.HeapOk ∧ ¬ Ends [0x30#8, colon, slash, slash] bootedKernel :=
  ⟨bootedKernel_heapOk, not_ends_booted (by
    unfold Rejected
    decide) fun h => absurd (exists_names_iff.mp h) (by decide)⟩

/-! ## Rendering

The other direction: a path made of a drive and names is parsed to these. -/

/-- **A path is rendered**: the drive, a colon, and a slash before each
name. -/
def render (drive : ℕ) (names : List (List Byte)) : List Byte :=
  BitVec.ofNat 8 (0x30 + drive) :: colon :: slash :: [slash].intercalate names

/-- The digit of a drive is read back. -/
theorem atoi_digit : ∀ d, d < 10 → isdigit (BitVec.ofNat 8 (0x30 + d)) = true
    ∧ atoi [BitVec.ofNat 8 (0x30 + d)] = d := by decide

/-- The names of a list of parts, as they are stored. -/
def partNames (k : Kernel) (parts : List PathPart) :
    List (Option (List Byte)) :=
  parts.map fun part => k.strings part.partName.id

theorem partNames_of_forall₂ {k : Kernel} {names : List (List Byte)}
    {parts : List PathPart} (h : List.Forall₂ (NamedPart k) names parts) :
    partNames k parts = names.map some := by
  induction h with
  | nil => rfl
  | cons hpart _ ih => exact congrArg₂ List.cons hpart.string ih

theorem exists_name_of_mem {k : Kernel} {names : List (List Byte)}
    {parts : List PathPart} (h : List.Forall₂ (NamedPart k) names parts)
    {part : PathPart} (hmem : part ∈ parts) :
    ∃ name ∈ names, NamedPart k name part := by
  induction h with
  | nil => exact absurd hmem List.not_mem_nil
  | @cons name part' names parts hpart _ ih =>
    rcases List.mem_cons.mp hmem with rfl | hmem
    · exact ⟨name, List.mem_cons_self, hpart⟩
    · obtain ⟨name', hname', hpart'⟩ := ih hmem
      exact ⟨name', List.mem_cons_of_mem _ hname', hpart'⟩

/-- **`parse` undoes rendering.** For every drive and every list of names that
are not empty and have no slash in them, with or without a slash at the end:
from every state with a heap that has a block for the root and two for each
name, which is what the allocations need. -/
theorem parse_rendered {k : Kernel} (hk : k.HeapOk) {drive : ℕ}
    (hdrive : drive < 10) {names : List (List Byte)} (hne : names ≠ [])
    (hnames : ∀ name ∈ names, name ≠ [] ∧ slash ∉ name) {path : List Byte}
    (hpath : path = render drive names ∨ path = render drive names ++ [slash])
    (hlen : path.length ≤ maxPathLength)
    (hroom : 1 + 2 * names.length ≤ k.freeBlocks) :
    ∃ root k' parts, parse path k = Except.ok (root, k') ∧ root.addr ≠ 0
      ∧ k'.pathRoots root.id = some ⟨drive, parts⟩
      ∧ partNames k' parts = names.map some
      ∧ ∀ part ∈ parts, part.partName.addr ≠ 0 := by
  obtain ⟨hdigit, hatoi⟩ := atoi_digit drive hdrive
  obtain ⟨h₁, h₂⟩ := Names.of_intercalate hne hnames
  obtain ⟨rest, hsplit, hread⟩ : ∃ rest,
      path = BitVec.ofNat 8 (0x30 + drive) :: colon :: slash :: rest
        ∧ Names slash rest names := by
    rcases hpath with rfl | rfl
    · exact ⟨_, rfl, h₁⟩
    · exact ⟨_, rfl, h₂⟩
  have hvalid : ¬ Rejected path := by
    rw [Rejected, hsplit, validatePath, hdigit]
    rw [hsplit] at hlen
    simpa using hlen
  have hdrop : path.drop 3 = rest := by rw [hsplit]; rfl
  have hrest : path.drop 3 ≠ [] := fun hnil => hne (hread.eq_nil (hdrop ▸ hnil))
  obtain ⟨root, k', hok, -, hroot, -, parts, hparts, hall⟩ :=
    (parse_spec hvalid hrest (hdrop ▸ hread) hk).returns hroom
  rw [show path.take 1 = [BitVec.ofNat 8 (0x30 + drive)] by rw [hsplit]; rfl,
    hatoi] at hparts
  refine ⟨root, k', parts, hok, hroot, hparts,
    partNames_of_forall₂ hall, fun part hmem => ?_⟩
  obtain ⟨name, -, hpart⟩ := exists_name_of_mem hall hmem
  exact hpart.ne_null

/-- The theorem for `0:/a/bc/`, on the heap after boot. -/
theorem parse_rendered_two_names :
    ∃ root k' parts,
      parse (render 0 [[0x61#8], [0x62#8, 0x63#8]] ++ [slash]) bootedKernel
        = Except.ok (root, k')
        ∧ root.addr ≠ 0 ∧ k'.pathRoots root.id = some ⟨(0 : ℕ), parts⟩
        ∧ partNames k' parts = [[0x61#8], [0x62#8, 0x63#8]].map some
        ∧ ∀ part ∈ parts, part.partName.addr ≠ 0 :=
  parse_rendered bootedKernel_heapOk (by decide) (by decide) (by decide)
    (Or.inr rfl)
    (by decide) (by
      rw [bootedKernel_freeBlocks]
      decide)

/-! ## Usable parts

A part is usable when it has a name that is not empty. Whether all are is a
question about the path, for the paths on which `parse` returns. -/

/-- **A root has usable parts**: there are some, and each has a name, which
is a string that is not empty, without a slash or a terminator in it. -/
def UsableParts (k : Kernel) (root : Ptr) : Prop :=
  ∃ r, k.pathRoots root.id = some r ∧ r.path ≠ [] ∧ ∀ part ∈ r.path,
    part.partName.addr ≠ 0
    ∧ ∃ name, k.strings part.partName.id = some name ∧ name ≠ []
    ∧ slash ∉ name ∧ 0 ∉ name

/-- The bare drive has no usable parts. -/
theorem not_usableParts_bare {k k' : Kernel} (hk : k.HeapOk) {path : List Byte}
    (hpath : ¬ Rejected path) (hrest : path.drop 3 = []) {root : Ptr}
    (hrun : parse path k = Except.ok (root, k')) : ¬ UsableParts k' root := by
  obtain ⟨-, -, part, hroot, hnull⟩ := (parse_bare hpath hrest hk).of_ok hrun
  rintro ⟨r, hr, -, hparts⟩
  obtain rfl := Option.some.inj (hroot.symm.trans hr)
  exact (hparts part List.mem_cons_self).1 (by rw [hnull]; rfl)

/-- **The parts of an accepted path are usable unless it is a bare drive.** For
every string and every state from which `parse` returns a root: one whose
allocations, one for the root and two for each name, all find room. A path of
three characters is a drive without a name, for which `parse` returns a root
whose only part has no name; every other path has been read name by name. -/
theorem accepted_parts_usable_iff {k k' : Kernel} (hk : k.HeapOk)
    {path : List Byte} (hstr : 0 ∉ path) {root : Ptr}
    (hrun : parse path k = Except.ok (root, k')) (hroot : root.addr ≠ 0) :
    UsableParts k' root ↔ path.length ≠ 3 := by
  have hpath : ¬ Rejected path := fun hrejected => by
    rw [parse_of_rejected hrejected] at hrun
    obtain ⟨rfl, -⟩ := Prod.mk.inj (Except.ok.inj hrun)
    exact hroot rfl
  obtain ⟨d, -, hsplit⟩ := eq_of_not_rejected hpath
  have hlen : path.length ≠ 3 ↔ path.drop 3 ≠ [] := by
    have hlength := congrArg List.length hsplit
    rw [List.length_cons, List.length_cons, List.length_cons] at hlength
    rw [ne_eq, ne_eq, List.drop_eq_nil_iff]
    omega
  rw [hlen]
  constructor
  · exact fun husable hrest => not_usableParts_bare hk hpath hrest hrun husable
  · intro hrest
    have hread : ∃ names, Names slash (path.drop 3) names := by
      by_contra h
      exact parse_ne_ok hpath h hk _ hrun
    obtain ⟨names, h⟩ := hread
    obtain ⟨-, -, -, parts, hparts, hall⟩ :=
      (parse_spec hpath hrest h hk).of_ok hrun
    refine ⟨_, hparts, fun hnil => h.ne_nil hrest ?_, fun part hmem => ?_⟩
    · obtain rfl : parts = [] := hnil
      exact List.forall₂_nil_right_iff.mp hall
    · obtain ⟨name, hname, hpart⟩ := exists_name_of_mem hall hmem
      obtain ⟨hne, hslash⟩ := h.name name hname
      exact ⟨hpart.ne_null, name, hpart.string, hne, hslash, fun hnul =>
        hstr (List.mem_of_mem_drop (h.subset name hname hnul))⟩

/-- The theorem for `0:/a`, on the heap after boot. -/
theorem accepted_parts_usable_iff_one_name :
    ∃ root k', parse [0x30#8, colon, slash, 0x61#8] bootedKernel
      = Except.ok (root, k')
      ∧ root.addr ≠ 0 ∧ UsableParts k' root := by
  have hpath : ¬ Rejected [0x30#8, colon, slash, 0x61#8] := by
    unfold Rejected
    decide
  obtain ⟨root, k', hok, -, hroot, -⟩ := (parse_spec hpath (by decide)
    (show Names slash [0x61#8] [[0x61#8]] from
      Names.last (by decide) (by decide))
    bootedKernel_heapOk).returns (by
      rw [bootedKernel_freeBlocks]
      decide)
  exact ⟨root, k', hok, hroot,
    (accepted_parts_usable_iff bootedKernel_heapOk (by decide) hok
    hroot).mpr (by decide)⟩

/-- `0:/` is accepted, and its part has no name. -/
theorem bare_drive_part_unnamed :
    ∃ root k', parse [0x30#8, colon, slash] bootedKernel = Except.ok (root, k')
      ∧ root.addr ≠ 0 ∧ ¬ UsableParts k' root := by
  have hpath : ¬ Rejected [0x30#8, colon, slash] := by
    unfold Rejected
    decide
  obtain ⟨root, k', hok, -, hroot, -⟩ :=
    (parse_bare hpath rfl bootedKernel_heapOk).returns (by
      rw [bootedKernel_freeBlocks]
      decide)
  exact ⟨root, k', hok, hroot,
    not_usableParts_bare bootedKernel_heapOk hpath rfl hok⟩

end PathParser

end N00bOS
