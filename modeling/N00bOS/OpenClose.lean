import N00bOS.PathWalk
import N00bOS.UseAfterClose

/-!
# Opening and closing

What `fopen` and `fclose` leave on the heap. Everything that `fopen` calls
keeps the extents that were there and may add to them (`Grows`); a path that is
parsed adds the block of its root, and nothing gives it back, whatever `fopen`
returns (`parse_leaks`). A slot that is filled stays filled. So open and close
are balanced on the paths that `parse` turns away, and on no other
(`open_close_balanced_iff`).

The table of the heap is a function of the extents that it encodes, so two
tables are compared by comparing extents: a heap that holds one more has
another table (`not_sameTable_of_leak`). That is how a leak is told from a
table that only looks the same. For the slots the argument is on the pointers
alone.
-/

namespace N00bOS

open KernelM Fat16 Machine

/-! ## Growing heaps

A preorder on states, which every function under `fopen` keeps to but those
that free a temporary buffer, and these leave the table as it was. -/

/-- **The extents stay**, with new ones beside them. It is a preorder, so a
function adds to the extents what its steps do. -/
structure Kernel.Grows (k k' : Kernel) : Prop where
  heap : k'.heap = k.heap
  holds : ∀ es, k.Holds es → ∃ new, k'.Holds (new ++ es)

instance : IsPreorder Kernel Kernel.Grows where
  refl _ := ⟨rfl, fun _ hes => ⟨[], hes⟩⟩
  trans _ _ _ h₁ h₂ := ⟨h₂.heap.trans h₁.heap, fun es hes => by
    obtain ⟨new, h⟩ := h₁.holds es hes
    obtain ⟨new', h'⟩ := h₂.holds _ h
    exact ⟨new' ++ new, by rwa [List.append_assoc]⟩⟩

namespace Kernel.Grows

theorem of_readFrame {k k' : Kernel} (h : ReadFrame k k') : k.Grows k' :=
  ⟨h.heap, fun _ hes => ⟨[], hes.readFrame h⟩⟩

theorem of_reads {α : Type} {x : KernelM α} (h : Keeps ReadFrame x) :
    Keeps Kernel.Grows x :=
  h.mono fun _ _ => of_readFrame

/-- A change of the stores only. -/
theorem of_eq {k k' : Kernel} (hheap : k'.heap = k.heap)
    (hmem : k'.mem = k.mem) :
    k.Grows k' :=
  ⟨hheap, fun es hes => ⟨[], by
    refine ⟨hheap ▸ hes.1, ?_⟩
    rw [hheap, hmem]
    exact hes.2⟩⟩

theorem allocate (size : Word) :
    Keeps Kernel.Grows (KernelM.allocate size) := by
  intro k p k' h
  refine ⟨(OpenFrame.allocate _ _ _ _ h).heap, fun es hes => ?_⟩
  obtain ⟨-, -, hholds⟩ := allocate_spec h
  obtain ⟨i, -, hes'⟩ := hholds es hes
  exact ⟨[_], hes'⟩

theorem deref {T : Type} (store : Kernel → ℕ → Option T) (p : Ptr) :
    Keeps Kernel.Grows (KernelM.deref store p) :=
  of_reads (ReadFrame.deref _ _)

theorem getItem (d : DiskRef) (parts : List PathPart) :
    Keeps Kernel.Grows (Fat16.getItem d parts) := by
  intro k p k' h
  have hfound := getItem_spec h
  refine ⟨hfound.frame.heap, fun es hes => ?_⟩
  obtain ⟨own, lost, -, hholds⟩ := hfound.heap es hes
  exact ⟨own ++ lost, by rwa [List.append_assoc]⟩

theorem fat16Open (d : DiskRef) (path : List PathPart) (mode : FileMode) :
    Keeps Kernel.Grows (Fat16.fat16Open d path mode) := by
  have hset : ∀ id v, Keeps Kernel.Grows
      (modify fun k => k.setFatItemDescriptor id v : KernelM Unit) :=
        fun id v =>
    Keeps.modify fun _ => of_eq rfl rfl
  exact Keeps.ite Keeps.pure ((allocate _).bind fun descriptor =>
    (hset _ _).bind fun _ =>
      (getItem _ _).bind fun item => (hset _ _).bind fun _ =>
        Keeps.ite Keeps.pure Keeps.pure)

theorem newFileDescriptor : Keeps Kernel.Grows File.newFileDescriptor := by
  refine Keeps.get.bind fun k => ?_
  cases File.freeSlot k.fileDescriptors with
  | none => exact Keeps.pure
  | some idx =>
    exact (allocate _).bind fun descriptor =>
      Keeps.bind (Keeps.modify fun _ => of_eq rfl rfl) fun _ =>
        Keeps.bind (Keeps.modify fun _ => of_eq rfl rfl) fun _ => Keeps.pure

/-! ### Paths

What the parser has allocated, as a list of extents beside those from before.
One of them is the root, whatever the path is. -/

theorem getDrive (path : List Byte) :
    Keeps ReadFrame (PathParser.getDrive path) := by
  intro k drive k' h
  obtain ⟨p, k₁, hkzalloc, h₁⟩ := bind_eq_ok.mp h
  obtain ⟨m, hfit, rfl⟩ := kzalloc_run hkzalloc
  rw [kfree_bind] at h₁
  obtain ⟨-, rfl⟩ := Prod.mk.inj (Except.ok.inj h₁)
  exact ReadFrame.of_kzalloc_kfree (by decide) hfit

theorem parsePathPart (path : List Byte) :
    Keeps Kernel.Grows (PathParser.parsePathPart path) := by
  refine Keeps.bind (Keeps.ite Keeps.pure ((allocate _).bind fun _ =>
    Keeps.bind (Keeps.modify fun _ => of_eq rfl rfl) fun _ => Keeps.pure))
      fun _ => ?_
  exact (allocate _).bind fun _ => Keeps.pure

theorem parseLoop (rounds : ℕ) (parts : List PathPart) (path : List Byte) :
    Keeps Kernel.Grows (PathParser.parseLoop rounds parts path) := by
  induction rounds generalizing parts path with
  | zero => exact Keeps.fault
  | succ rounds ih =>
    exact Keeps.ite Keeps.pure ((parsePathPart _).bind fun _ => ih _ _)

end Kernel.Grows

namespace PathParser

/-- **The paths that `parse` turns away**: too long, or not a drive, a colon
and a slash. -/
def Rejected (path : List Byte) : Prop :=
  maxPathLength < path.length ∨ validatePath path = false

/-- A path that is turned away leaves nothing behind. -/
theorem parse_of_rejected {path : List Byte} (h : Rejected path) (k : Kernel) :
    parse path k = Except.ok (Ptr.null, k) := by
  rw [parse]
  by_cases hlong : path.length > maxPathLength
  · rw [if_pos hlong]
    rfl
  · rw [if_neg hlong, if_pos (by simpa using h.resolve_left hlong)]
    rfl

/-- A digit is a number from `0` on. -/
theorem atoi_nonneg_of_isdigit :
    ∀ c : Byte, isdigit c = true → 0 ≤ atoi [c] := by decide

/-- The drive of a valid path is a number from `0` on. -/
theorem atoi_nonneg_of_validatePath {path : List Byte}
    (h : validatePath path = true) :
    0 ≤ atoi (path.take 1) := by
  match path, h with
  | driveNum :: c :: s :: rest, h =>
    rw [validatePath, Bool.and_eq_true, Bool.and_eq_true] at h
    exact atoi_nonneg_of_isdigit driveNum h.1.1

/-- **A run of `parse`** on an accepted path: the drive, the root, the first
part and the others. -/
theorem parse_run {path : List Byte} (hpath : ¬ Rejected path) {k k' : Kernel}
    {p : Ptr} (h : parse path k = Except.ok (p, k')) :
    ∃ drive k₁ k₂ r k₃ parts k₄, ReadFrame k k₁
      ∧ allocate 8 k₁ = Except.ok (p, k₂)
      ∧ parsePathPart (path.drop 3) (k₂.setPathRoot p.id (some ⟨drive, []⟩))
        = Except.ok (r, k₃)
      ∧ parseLoop (path.length + 1) [r.1] r.2 k₃ = Except.ok (parts, k₄)
      ∧ k' = k₄.setPathRoot p.id (some ⟨drive, parts⟩) := by
  obtain ⟨hshort, hvalid⟩ := not_or.mp hpath
  have hvalid : validatePath path = true := by simpa using hvalid
  rw [parse, if_neg hshort, if_neg (by simp [hvalid])] at h
  obtain ⟨drive, k₁, hdrive, h₁⟩ := bind_eq_ok.mp h
  have hnonneg : ¬ drive < 0 := by
    obtain ⟨q, k₂, -, h₂⟩ := bind_eq_ok.mp hdrive
    rw [kfree_bind] at h₂
    obtain ⟨rfl, -⟩ := Prod.mk.inj (Except.ok.inj h₂)
    exact not_lt.mpr (atoi_nonneg_of_validatePath hvalid)
  rw [if_neg hnonneg] at h₁
  obtain ⟨root, k₂, hroot, h₂⟩ := bind_eq_ok.mp h₁
  obtain ⟨root', k₃, halloc, h₃⟩ := bind_eq_ok.mp hroot
  rw [modify_bind] at h₃
  obtain ⟨rfl, rfl⟩ := Prod.mk.inj (Except.ok.inj h₃)
  obtain ⟨r, k₄, hpart, h₄⟩ := bind_eq_ok.mp h₂
  obtain ⟨parts, k₅, hloop, h₅⟩ := bind_eq_ok.mp h₄
  rw [modify_bind] at h₅
  obtain ⟨rfl, rfl⟩ := Prod.mk.inj (Except.ok.inj h₅)
  exact ⟨drive, k₁, k₃, r, k₄, parts, k₅, Kernel.Grows.getDrive _ _ _ _ hdrive,
    halloc, hpart, hloop, rfl⟩

/-- **A path that is parsed leaves its root behind.** The root is an allocation
of its own, and `fopen` hands it to nobody who would free it. -/
theorem parse_leaks {path : List Byte} (hpath : ¬ Rejected path) {k k' : Kernel}
    {p : Ptr} (h : parse path k = Except.ok (p, k')) {es : List Extent}
    (hes : k.Holds es) :
    ∃ new, new ≠ [] ∧ k'.Holds (new ++ es) := by
  obtain ⟨drive, k₁, k₂, r, k₃, parts, k₄, hread, halloc, hpart, hloop, rfl⟩ :=
    parse_run hpath h
  obtain ⟨-, -, hholds⟩ := allocate_spec halloc
  obtain ⟨i, -, hes₂⟩ := hholds es (hes.readFrame hread)
  -- the root is there, and everything after it grows
  obtain ⟨new, hes₃⟩ := (Kernel.Grows.parsePathPart _ _ _ _ hpart).holds _ hes₂
  obtain ⟨new', hes₄⟩ := (Kernel.Grows.parseLoop _ _ _ _ _ _ hloop).holds _ hes₃
  refine ⟨new' ++ new ++ [⟨i, Heap.blocksFor 8⟩], by simp, ?_⟩
  rw [List.append_assoc, List.append_assoc]
  exact hes₄

/-- Parsing gives nothing back. -/
theorem parse_holds {path : List Byte} {k k' : Kernel} {p : Ptr}
    (h : parse path k = Except.ok (p, k')) {es : List Extent}
    (hes : k.Holds es) :
    ∃ new, k'.Holds (new ++ es) := by
  by_cases hpath : Rejected path
  · obtain ⟨-, rfl⟩ :=
      Prod.mk.inj (Except.ok.inj ((parse_of_rejected hpath k).symm.trans h))
    exact ⟨[], hes⟩
  · obtain ⟨new, -, hnew⟩ := parse_leaks hpath h hes
    exact ⟨new, hnew⟩

end PathParser

namespace File

open PathParser

/-- `fopen`, from the path that has been parsed on. -/
theorem fopen_grows {filename mode : List Byte} {k k' : Kernel} {r : ℤ}
    (h : fopen filename mode k = Except.ok (r, k')) :
    ∃ rootPath k₁, parse filename k = Except.ok (rootPath, k₁)
      ∧ k₁.Grows k' := by
  obtain ⟨rootPath, k₁, hparse, h₁⟩ := bind_eq_ok.mp h
  refine ⟨rootPath, k₁, hparse, ?_⟩
  revert h₁
  refine Keeps.ite Keeps.pure ((Kernel.Grows.deref _ _).bind fun root =>
    Keeps.ite Keeps.pure
    (Keeps.ite Keeps.pure ((Kernel.Grows.of_reads (ReadFrame.derefDisk _)).bind
      fun d =>
        Keeps.ite Keeps.pure (Keeps.ite Keeps.pure
          ((Kernel.Grows.fat16Open _ _ _).bind fun p =>
            Keeps.ite Keeps.pure (Kernel.Grows.newFileDescriptor.bind
              fun result => ?_)))))) k₁ r k'
  cases result with
  | error e => exact Keeps.pure
  | ok descriptor =>
    exact (Kernel.Grows.deref _ _).bind fun desc =>
      Keeps.bind (Keeps.modify fun _ => Kernel.Grows.of_eq rfl rfl)
        fun _ => Keeps.pure

/-- **The tables are as they were**: the heap's, and the descriptors'. Only the
addresses in the slots are compared, as that is what tells whether a slot is
empty. -/
structure SameTables (k k' : Kernel) : Prop where
  heap : SameTable k.heap k.mem k'.mem
  descriptors : ∀ idx, idx < fsMaxFileDescriptors →
    (k'.fileDescriptors idx).addr = (k.fileDescriptors idx).addr

theorem SameTables.refl (k : Kernel) :
    SameTables k k := ⟨SameTable.refl _ _, fun _ _ => rfl⟩

/-- A heap with an extent more has another table. -/
theorem not_sameTable_of_leak {k k' : Kernel} {es new : List Extent}
    (hheap : k'.heap = k.heap) (hes : k.Holds es) (hne : new ≠ [])
    (hnew : k'.Holds (new ++ es)) : ¬ SameTable k.heap k.mem k'.mem := by
  intro hsame
  obtain ⟨e, rest, rfl⟩ := List.exists_cons_of_ne_nil hne
  have hpos := hnew.2.packed.pos e List.mem_cons_self
  have hstop := hnew.2.packed.stop_le e List.mem_cons_self
  have hcov : e.Covers e.first := by
    unfold Extent.Covers Extent.stop
    omega
  have hlt : e.first < k'.heap.total := Nat.lt_of_lt_of_le hcov.2 hstop
  -- the block of the new extent is taken after, and was free before
  have htaken : ¬ k'.heap.Free k'.mem e.first := by
    rw [hnew.2.free_iff hlt, markAt_eq_free_iff]
    exact fun h => h e List.mem_cons_self hcov
  have hfree : k.heap.Free k.mem e.first := by
    rw [hes.2.free_iff (hheap ▸ hlt), markAt_eq_free_iff]
    intro f hf
    exact ((List.pairwise_cons.mp hnew.2.packed.apart).1 f
      (List.mem_append_right _ hf)).not_covers hcov
  exact htaken (hheap ▸ (hsame.free_iff (hheap ▸ hlt)).mpr hfree)

/-- **Open and close are balanced** on a path: `fopen` returns; when it fails,
the tables are as before, and when it does not, closing returns `0` and leaves
the tables as they were before it was opened. -/
def Balanced (k : Kernel) (path mode : List Byte) : Prop :=
  ∃ r k', fopen path mode k = Except.ok (r, k') ∧ (r < 0 → SameTables k k')
    ∧ (0 ≤ r → ∃ k'', fclose r k' = Except.ok (0, k'') ∧ SameTables k k'')

/-- A path that is turned away is not opened. -/
theorem fopen_of_rejected {path : List Byte} (h : Rejected path)
    (mode : List Byte) (k : Kernel) :
    fopen path mode k = Except.ok (-einval, k) := by
  rw [fopen, bind_ok (parse_of_rejected h k),
    if_pos (show Ptr.null.addr = 0 from rfl)]
  rfl

/-- **An `fopen` of a path that is parsed** leaks its blocks, whatever it
returns. -/
theorem fopen_leaks {k k' : Kernel} {path mode : List Byte}
    (hpath : ¬ Rejected path) {r : ℤ}
    (h : fopen path mode k = Except.ok (r, k')) {es : List Extent}
    (hes : k.Holds es) :
    k'.heap = k.heap ∧ ∃ new, new ≠ [] ∧ k'.Holds (new ++ es) := by
  obtain ⟨rootPath, k₁, hparse, hgrows⟩ := fopen_grows h
  obtain ⟨new, hne, hnew⟩ := parse_leaks hpath hparse hes
  obtain ⟨new', hnew'⟩ := hgrows.holds _ hnew
  rw [← List.append_assoc] at hnew'
  exact ⟨hgrows.heap.trans (OpenFrame.parse _ _ _ _ hparse).heap, new' ++ new,
    by simp [hne], hnew'⟩

/-- An `fopen` that fails on a path that was parsed has leaked. -/
theorem SameTables.not_of_fails {k k' : Kernel} (hk : k.HeapOk)
    {path mode : List Byte} (hpath : ¬ Rejected path) {r : ℤ}
    (h : fopen path mode k = Except.ok (r, k')) :
    ¬ SameTables k k' := by
  obtain ⟨hw, es, hinv⟩ := hk
  obtain ⟨hheap, new, hne, hnew⟩ := fopen_leaks hpath h ⟨hw, hinv⟩
  exact fun hsame => not_sameTable_of_leak hheap ⟨hw, hinv⟩ hne hnew hsame.heap

/-- A descriptor that is closed keeps its slot. -/
theorem SameTables.not_of_closes {k k' k'' : Kernel} {idx : ℕ}
    (hopened : Opened k k' idx) (hclose : fclose idx k' = Except.ok (0, k'')) :
    ¬ SameTables k k'' := by
  intro hsame
  rcases fclose_cases hclose with
    ⟨hinval, -⟩ | ⟨-, desc, k₁, hslot, hframe, rfl⟩
  · exact absurd hinval (by decide)
  · have hfree := (hsame.descriptors idx hopened.lt).trans hopened.free
    refine hslot.slot ?_
    rw [Int.toNat_natCast, ← hframe.fileDescriptors]
    exact hfree

/-- **Open and close are balanced exactly on the paths that are turned away.**
For every state of the heap, every path and every mode: the blocks of a path
that is parsed are never given back, and no slot is emptied. A path that is
rejected is turned away before anything is allocated, so there is nothing to
close. On every other path a run that returns has blocks or a slot more. -/
theorem open_close_balanced_iff {k : Kernel} (hk : k.HeapOk)
    (path mode : List Byte) :
    Balanced k path mode ↔ Rejected path := by
  constructor
  · rintro ⟨r, k', hopen, hfails, hcloses⟩
    by_contra hpath
    rcases fopen_cases hopen with ⟨hneg, -⟩ | ⟨idx, rfl, hopened⟩
    · exact SameTables.not_of_fails hk hpath hopen (hfails hneg)
    · obtain ⟨k'', hclose, hsame⟩ := hcloses (by omega)
      exact SameTables.not_of_closes hopened hclose hsame
  · intro hpath
    exact ⟨-einval, k, fopen_of_rejected hpath mode k, fun _ =>
      SameTables.refl k, fun h => absurd h (by decide)⟩

theorem mountedKernel_heapOk : mountedKernel.HeapOk :=
  ⟨⟨twoClusterHeap.heap_wf, by decide, by decide⟩,
    (List.range 4).map fun i => ⟨i, 1⟩,
    ⟨⟨by decide, by decide, by decide⟩, by decide⟩⟩

/-- The theorem on the empty path. -/
theorem open_close_balanced_iff_empty_path :
    Balanced mountedKernel [] readMode :=
  (open_close_balanced_iff mountedKernel_heapOk [] readMode).mpr (Or.inr rfl)

/-- The path `0:/b` of no file. -/
def missingPath : List Byte := [0x30#8, 0x3A#8, 0x2F#8, 0x62#8]

/-- Opening and closing the file `A` returns `0` and `0`, and opening what is
not there returns `-EIO`; neither is balanced. -/
theorem opened_and_closed_not_balanced :
    mountedKernel.HeapOk
      ∧ Machine.result (fopen samplePath readMode >>= fclose)
        mountedKernel = some 0
      ∧ ¬ Balanced mountedKernel samplePath readMode
      ∧ Machine.result (fopen missingPath readMode) mountedKernel = some (-eio)
      ∧ ¬ Balanced mountedKernel missingPath readMode := by
  have hopens : Machine.result (fopen samplePath readMode) mountedKernel
      = some 0 := by
    decide +kernel
  have hfails : Machine.result (fopen missingPath readMode) mountedKernel
      = some (-eio) := by
    decide +kernel
  refine ⟨mountedKernel_heapOk, by decide +kernel, ?_, hfails, ?_⟩
  · rintro ⟨r, k', hopen, -, hcloses⟩
    obtain rfl : r = 0 :=
      Option.some.inj
        ((Machine.result_eq_some.mpr ⟨k', hopen⟩).symm.trans hopens)
    rcases fopen_cases hopen with ⟨hneg, -⟩ | ⟨idx, hidx, hopened⟩
    · exact absurd hneg (by decide)
    · obtain ⟨k'', hclose, hsame⟩ := hcloses le_rfl
      obtain rfl : idx = 0 := by omega
      exact SameTables.not_of_closes hopened hclose hsame
  · rintro ⟨r, k', hopen, hsame, -⟩
    obtain rfl : r = -eio :=
      Option.some.inj
        ((Machine.result_eq_some.mpr ⟨k', hopen⟩).symm.trans hfails)
    exact SameTables.not_of_fails mountedKernel_heapOk (by
      rintro (hlong | hinvalid)
      · exact absurd hlong (by decide)
      · exact absurd hinvalid (by decide)) hopen (hsame (by decide))

end File

end N00bOS
