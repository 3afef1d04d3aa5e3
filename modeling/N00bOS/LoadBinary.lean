import N00bOS.Blocks
import N00bOS.OpenClose
import N00bOS.Processes

/-!
# Loading a binary

`load_binary` opens a file, takes a buffer of its size and reads the file into
it. It takes a result of `fread` other than `1` for an error, and `fread`
returns `0` or a negative number (`fread_nonpos`): no file is ever loaded. The
label after that closes the file and keeps the buffer, and the blocks of an
open file are not those of the buffer (`OpenFile`), so that closing it does not
free the buffer by chance. What is promised of `load_binary` it keeps exactly
on the paths that it does not get to read (`load_binary_keeps_promise_iff`).

The proof follows the run from both ends. Forwards, `Prepared` is the state in
which the file is open and the buffer allocated, and from there a read that
returns leads to `-EIO` with the buffer still taken (`Prepared.loadBinary`).
Backwards, `readBinary_run` and `loadBinary_run` say what a call that has
returned can have done: it has failed, it has left the processes alone, and the
heap has what it had, and more where the path was parsed.

A structure or a buffer that finds no room ends the run in this model, and the
theorem then says nothing of the call: it is about the calls whose allocations
go through.
-/

namespace N00bOS

open KernelM Fat16 Machine

/-! ## The status of a read

No branch of the reading functions returns a positive number. -/

/-- The status of the chunks is that of the last one, or an error. -/
theorem Fat16.readChunks_nonpos {α : Type} (source : ℤ → ℕ → α) (d : DiskRef)
    (stream : Ptr) (pd : FatPrivate) (startingCluster offset totalBytes : ℤ)
    (rounds : ℕ) (bytesRead : ℤ) {res : ℤ} (hres : res ≤ 0) (out : Output α) :
    Triple (fun _ => True) (readChunks source d stream pd startingCluster offset
      totalBytes rounds
      bytesRead res out) (fun r _ => r.1 ≤ 0) := by
  induction rounds generalizing bytesRead res out with
  | zero => exact Triple.fault
  | succ rounds ih =>
    refine Triple.ite (fun _ => ?_) fun _ => Triple.pure fun _ _ => hres
    refine Triple.bind (Q := fun _ _ => True) (fun _ _ _ _ _ => trivial)
      fun cluster => ?_
    refine Triple.ite (fun hneg => Triple.pure fun _ _ => Int.le_of_lt hneg)
      fun _ => ?_
    refine Triple.bind (Q := fun _ _ => True) (fun _ _ _ _ _ => trivial)
      fun seeked => ?_
    refine Triple.ite (fun hneg => Triple.pure fun _ _ => Int.le_of_lt hneg)
      fun _ => ?_
    -- a read that returns does so with `0`
    refine Triple.bind (Q := fun r _ => r.1 = 0)
      (fun _ _ _ _ hread => (Streamer.read_eq_ok hread).1) fun r => ?_
    refine Triple.ite (fun hneg => Triple.pure fun _ _ => Int.le_of_lt hneg)
      fun _ => ?_
    exact fun s r' s' hzero hrun => ih _ (le_of_eq hzero) _ s r' s' trivial hrun

/-- **`fread` never returns a positive number.** It is `0` or an error,
whatever is asked for: the number of elements that were read is returned
nowhere. -/
theorem File.fread_nonpos {α : Type} {source : ℤ → ℕ → α} {data : Output α}
    {blockSize numBlocks : Word} {fd : ℤ} {k k' : Kernel} {r : ℤ × Output α}
    (h : fread source data blockSize numBlocks fd k = Except.ok (r, k')) :
    r.1 ≤ 0 := by
  have hany : ∀ {β : Type} {x : KernelM β},
      Triple (fun _ => True) x (fun _ _ => True) :=
    fun _ _ _ _ _ => trivial
  have hinval : Triple (fun _ => True)
    (pure (-einval, data) : KernelM (ℤ × Output α))
      (fun r _ => r.1 ≤ 0) := Triple.pure fun _ _ => show -einval ≤ 0 by decide
  refine Triple.ite (fun _ => hinval) (fun _ => hany.bind fun fileDesc =>
    Triple.ite (fun _ => hinval) fun _ => hany.bind fun desc =>
      hany.bind fun _ => ?_)
    k r k' trivial h
  exact hany.bind fun fat16Desc => hany.bind fun item =>
    Triple.ite (fun _ => hinval) fun _ =>
      hany.bind fun directoryItem => hany.bind fun pd => hany.bind fun pd' =>
        readChunks_nonpos _ _ _ _ _ _ _ _ _ le_rfl _

/-! ## What an open file has

The private data of a descriptor, its item and what that owns: what `fclose`
gives back, and nothing else. -/

/-- **Private data that is opened** has an item, and the two have extents of
their own. -/
theorem Fat16.fat16Open_spec {d : DiskRef} {path : List PathPart}
    {mode : FileMode} {k k' : Kernel} {p : Ptr}
    (h : fat16Open d path mode k = Except.ok (p, k')) (hp : ¬ p.isErr = true) :
    ∃ item, k'.fatItemDescriptors p.id = some ⟨item, 0⟩
      ∧ (∃ lo hi, LiveItem lo hi k' item)
      ∧ ∀ es, k.Holds es → ∃ own e new, OwnsItem k' item own
        ∧ p.addr = k'.heap.blockAddress e.first
        ∧ k'.Holds (own ++ e :: (new ++ es)) := by
  obtain ⟨k₁, item, k₂, halloc, hitem, hne, rfl⟩ := File.fat16Open_eq_ok h hp
  obtain ⟨-, ⟨m, rfl⟩, hholds⟩ := allocate_spec halloc
  have hfound := getItem_spec hitem
  have hsame : SameItems (fun _ => True) k₂
      (k₂.setFatItemDescriptor p.id (some ⟨item, 0⟩)) :=
    ⟨fun _ _ => rfl, fun _ _ => rfl, fun _ _ => rfl⟩
  have hlive := hfound.live hne
  refine ⟨item, Function.update_self _ _ _,
    ⟨_, _, hlive.congr (hsame.mono fun _ _ => trivial)⟩, fun es hes => ?_⟩
  obtain ⟨i, haddr, hes₁⟩ := hholds es hes
  obtain ⟨own, lost, howns, hes₂⟩ := hfound.heap _ hes₁
  refine ⟨own, ⟨i, Heap.blocksFor 8⟩, lost,
    (howns hne).congr hlive (hsame.mono fun _ _ => trivial) rfl, ?_,
    hes₂.perm (List.perm_middle.append_left own)⟩
  rw [haddr]
  show _ = k₂.heap.blockAddress i
  rw [hfound.frame.heap]
  rfl

namespace File

/-- **A file that is open**: its slot, its private data and its item are live,
and the extents of the item are `own` and that of the private data `e`. -/
structure OpenFile (k : Kernel) (fd : ℤ) (desc : FileDescriptor)
    (data : FatItemDescriptor) (own : List Extent) (e : Extent) : Prop where
  slot : InSlot k fd desc
  fs_ne_null : desc.fs ≠ FilesystemRef.null
  privateData_ne_null : desc.privateData.addr ≠ 0
  descriptor : k.fatItemDescriptors desc.privateData.id = some data
  item_ne_null : data.item.addr ≠ 0
  file : ∃ entry, k.fatItems data.item.id = some ⟨entry, FatItemType.file⟩
  live : ∃ lo hi, LiveItem lo hi k data.item
  owns : OwnsItem k data.item own
  addr_eq : desc.privateData.addr = k.heap.blockAddress e.first

/-- A file stays open when neither descriptors nor items change. -/
theorem OpenFile.congr {k k' : Kernel} {fd : ℤ} {desc : FileDescriptor}
    {data : FatItemDescriptor} {own : List Extent} {e : Extent}
    (h : OpenFile k fd desc data own e) (hframe : OpenFrame k k')
    (hsame : SameItems (fun _ => True) k k') :
    OpenFile k' fd desc data own e := by
  obtain ⟨lo, hi, hlive⟩ := h.live
  have hrange : SameItems (fun id => lo ≤ id ∧ id < hi) k k' :=
    hsame.mono fun _ _ => trivial
  refine ⟨⟨h.slot.nonneg, h.slot.lt, ?_, ?_⟩, h.fs_ne_null,
    h.privateData_ne_null, ?_, h.item_ne_null, ?_, ⟨lo, hi, hlive.congr hrange⟩,
    h.owns.congr hlive hrange hframe.heap, ?_⟩
  · rw [hframe.fileDescriptors]
    exact h.slot.slot
  · rw [hframe.fileDescriptors, hframe.fileDescriptorStructs]
    exact h.slot.struct
  · rw [hframe.fatItemDescriptors]
    exact h.descriptor
  · rw [hsame.fatItems _ trivial]
    exact h.file
  · rw [hframe.heap]
    exact h.addr_eq

/-- `fstat` returns `0` on files only. -/
theorem fstat_eq_zero {fd : ℤ} {stat stat' : FileStat} {k k' : Kernel}
    (h : fstat fd stat k = Except.ok ((0, stat'), k')) :
    ∃ desc data entry, InSlot k fd desc ∧ desc.privateData.addr ≠ 0
      ∧ k.fatItemDescriptors desc.privateData.id = some data
      ∧ data.item.addr ≠ 0
      ∧ k.fatItems data.item.id = some ⟨entry, FatItemType.file⟩ := by
  rcases call_cases h with ⟨hinval, -⟩ | ⟨desc, hslot, hstat⟩
  · exact absurd (Prod.mk.inj hinval).1 (by decide)
  rw [fat16Stat] at hstat
  obtain ⟨data, k₁, hdata, h₁⟩ := bind_eq_ok.mp hstat
  obtain ⟨hprivate, hdata, rfl⟩ := deref_eq_ok hdata
  obtain ⟨item, k₂, hitem, h₂⟩ := bind_eq_ok.mp h₁
  obtain ⟨hne, hitem, rfl⟩ := deref_eq_ok hitem
  by_cases hfile : item.type = FatItemType.file
  · obtain ⟨entry, type⟩ := item
    obtain rfl : type = FatItemType.file := hfile
    exact ⟨desc, data, entry, hslot, hprivate, hdata, hne, hitem⟩
  · rw [if_pos hfile] at h₂
    obtain ⟨hr, -⟩ := Prod.mk.inj (Except.ok.inj h₂)
    exact absurd (Prod.mk.inj hr).1 (by decide)

/-- **What `fopen` has opened** is an open file, if `fstat` finds a file
there. -/
theorem fopen_openFile {filename mode : List Byte} {fd : ℤ}
    {stat stat' : FileStat} {k k' k'' : Kernel}
    (hopen : fopen filename mode k = Except.ok (fd, k')) (hfd : 0 ≤ fd)
    (hstat : fstat fd stat k' = Except.ok ((0, stat'), k'')) {es : List Extent}
    (hes : k.Holds es) :
    ∃ desc data own e new, OpenFile k' fd desc data own e
      ∧ k'.Holds (own ++ e :: (new ++ es)) := by
  obtain ⟨desc, data, entry, hslot, hprivate, hdata, hne, hitem⟩ :=
    fstat_eq_zero hstat
  rcases fopen_run hopen with ⟨hneg, -⟩ | ⟨idx, root, fs, p, descriptor, k₁, k₂,
    k₃, rfl, hrun⟩
  · exact absurd hneg (Int.not_lt.mpr hfd)
  obtain ⟨rootPath, hparse, -⟩ := hrun.parse
  obtain ⟨new, hes₁⟩ := PathParser.parse_holds hparse hes
  obtain ⟨item, hfat, ⟨lo, hi, hlive⟩, hheap⟩ :=
    fat16Open_spec hrun.lookup hrun.not_error
  obtain ⟨own, e, new', howns, haddr, hes₂⟩ := hheap _ hes₁
  obtain ⟨-, ⟨m, hk₃⟩, hholds⟩ := allocate_spec hrun.allocate
  obtain ⟨i, -, hes₃⟩ := hholds _ hes₂
  -- the slot has the private data that was opened
  have hresult := hrun.result
  have hstruct := hslot.struct
  rw [hresult, Int.toNat_natCast] at hstruct
  simp only [Function.update_self, Option.some.injEq] at hstruct
  subst hstruct
  have hsame : SameItems (fun _ => True) k₂ k' := by
    rw [hresult, hk₃]
    exact ⟨fun _ _ => rfl, fun _ _ => rfl, fun _ _ => rfl⟩
  have hheap' : k'.heap = k₂.heap := by
    rw [hresult, hk₃]
  have hfat' : k'.fatItemDescriptors = k₂.fatItemDescriptors := by
    rw [hresult, hk₃]
  obtain rfl : data = ⟨item, 0⟩ := by
    rw [hfat', hfat] at hdata
    exact (Option.some.inj hdata).symm
  have hrange : SameItems (fun id => lo ≤ id ∧ id < hi) k₂ k' :=
    hsame.mono fun _ _ => trivial
  refine ⟨_, _, own, e, ⟨i, Heap.blocksFor 16⟩ :: (new' ++ new),
    ⟨hslot, hrun.fs_ne_null, hprivate, hdata, hne, ⟨entry, hitem⟩,
      ⟨lo, hi, hlive.congr hrange⟩, howns.congr hlive hrange hheap',
    haddr.trans (by rw [hheap'])⟩, ?_⟩
  have hes₄ : k'.Holds
      (⟨i, Heap.blocksFor 16⟩ :: (own ++ e :: (new' ++ (new ++ es)))) := by
    rw [hresult]
    exact hes₃
  refine hes₄.perm ?_
  rw [List.cons_append, List.append_assoc]
  exact List.perm_middle.symm.trans ((List.Perm.swap _ _ _).append_left own)

/-- **Closing an open file** gives back what it has. That is the item and the
private data; the slot is not emptied, and the descriptor in it is not freed.
-/
theorem OpenFile.fclose {k : Kernel} {fd : ℤ} {desc : FileDescriptor}
    {data : FatItemDescriptor} {own rest : List Extent} {e : Extent}
    (h : OpenFile k fd desc data own e) (hholds : k.Holds (own ++ e :: rest)) :
    ∃ lost k', File.fclose fd k = Except.ok (0, k') ∧ k'.heap = k.heap
      ∧ k'.Holds (lost ++ rest) := by
  obtain ⟨lo, hi, hlive⟩ := h.live
  obtain ⟨entry, hitem⟩ := h.file
  obtain ⟨k₁, hfree, -⟩ := itemFree_ok hlive h.item_ne_null
  obtain ⟨lost, hholds₁⟩ := itemFree_heap h.owns hholds hfree
  have hheap : k₁.heap = k.heap := (OpenFrame.itemFree _ _ _ _ hfree).heap
  have hholds₂ : (k₁.freed desc.privateData.addr).Holds (lost ++ rest) :=
    (hholds₁.perm List.perm_middle).freed (by rw [hheap]; exact h.addr_eq)
  have hdescriptorFree : itemDescriptorFree desc.privateData k
      = Except.ok ((), (k₁.freed desc.privateData.addr).setFatItemDescriptor
        desc.privateData.id
        none) := by
    rw [itemDescriptorFree,
      bind_ok (deref_ok h.privateData_ne_null h.descriptor),
      bind_ok hfree, kfree_bind]
    rfl
  refine ⟨lost, (k₁.freed desc.privateData.addr).setFatItemDescriptor
    desc.privateData.id none, ?_, hheap, hholds₂⟩
  rw [File.fclose, if_neg (Int.not_lt.mpr h.slot.nonneg),
    bind_ok (getFileDescriptor_eq h.slot.nonneg h.slot.lt), if_neg h.slot.slot,
    bind_ok (deref_ok h.slot.slot h.slot.struct), filesystemOf,
    if_neg h.fs_ne_null, pure_bind, fat16Close,
    bind_ok (deref_ok h.privateData_ne_null h.descriptor),
    bind_ok (deref_ok h.item_ne_null hitem), if_neg (not_not.mpr rfl)]
  rw [bind_ok hdescriptorFree]
  rfl

/-- Opening frees nothing. -/
theorem grows_fopen (filename mode : List Byte) :
    Keeps Kernel.Grows (fopen filename mode) := by
  intro k r k' h
  obtain ⟨rootPath, k₁, hparse, hgrows⟩ := fopen_grows h
  have hgrows₁ : k.Grows k₁ :=
    ⟨(OpenFrame.parse _ _ _ _ hparse).heap, fun _ hes =>
      PathParser.parse_holds hparse hes⟩
  exact IsTrans.trans _ _ _ hgrows₁ hgrows

end File

/-! ## The promise

What a loader owes its caller, and when it is kept. -/

namespace Process

open SystemM File

variable {filename : List Byte} {k k' k'' : Kernel} {fd r : ℤ} {size : Word}
  {p proc : Ptr} {s s' : System}

/-- The block at an address is free, in the table of the heap. -/
def Freed (k : Kernel) (ptr : Word) : Prop :=
  k.heap.Free k.mem (k.heap.blockAddress2BlockIdx ptr).toNat

/-- **What comes before the read**: the file is open in the slot `fd`, has
`size` bytes, and the buffer `p` is allocated for them. Of a call that fails
before this it is only asked that the process is as it was. -/
structure Prepared (filename : List Byte) (k : Kernel) (fd : ℤ) (size : Word)
    (p : Ptr) (k' : Kernel) : Prop where
  nonneg : 0 ≤ fd
  runs : ∃ k₁ stat k₂, fopen filename [0x72#8] k = Except.ok (fd, k₁)
    ∧ fstat fd ⟨0, 0⟩ k₁ = Except.ok ((0, stat), k₂) ∧ stat.filesize = size
    ∧ KernelM.allocate size k₂ = Except.ok (p, k')

/-- **The promise of `load_binary`**: a file that is not empty and can be read
is loaded; and a call that fails leaves the process as it was and has freed the
buffer it allocated. -/
structure KeepsPromise (s : System) (filename : List Byte)
    (proc : Ptr) : Prop where
  loads : ∀ fd size p k data k' pr, Prepared filename s.kernel fd size p k →
    fread k.sectors zeroOutput 1 size fd k = Except.ok ((0, data), k') →
    1 ≤ size.toNat →
    proc.addr ≠ 0 → s.processStructs proc.id = some pr →
    ∃ s', loadBinary filename proc s = Except.ok (0, s')
      ∧ s'.processStructs proc.id = some { pr with physMem := p, size }
      ∧ s'.programs p.id = some data
  fails : ∀ r s', loadBinary filename proc s = Except.ok (r, s') → r < 0 →
    s'.processStructs = s.processStructs
      ∧ ∀ fd size p k, Prepared filename s.kernel fd size p k →
        Freed s'.kernel p.addr

/-- **`load_binary` gets to read the file**, and the read returns. Whether it
does is a matter of the path, of the disk, and of the blocks that are free. -/
def ReadsFile (k : Kernel) (filename : List Byte) : Prop :=
  ∃ fd size p k₁ r k₂, Prepared filename k fd size p k₁
    ∧ fread k₁.sectors zeroOutput 1 size fd k₁ = Except.ok (r, k₂)

/-- A block that is taken is not free. -/
theorem not_freed_of_holds {es : List Extent} {e : Extent} (h : k.Holds es)
    (he : e ∈ es) {ptr : Word} (hptr : ptr = k.heap.blockAddress e.first) :
    ¬ Freed k ptr := by
  have hstop := h.2.packed.stop_le e he
  have hpos := h.2.packed.pos e he
  unfold Extent.stop at hstop
  have hlt : e.first < k.heap.total := by omega
  rw [Freed, hptr, Heap.blockAddress2BlockIdx_blockAddress h.wf hlt,
    h.2.free_iff hlt, markAt_eq_free_iff]
  intro hfree
  exact hfree e he ⟨Nat.le_refl _, by unfold Extent.stop; omega⟩

/-- The buffer has blocks of its own, beside those of the open file. -/
theorem Prepared.openFile (h : Prepared filename k fd size p k')
    {es : List Extent} (hes : k.Holds es) :
    k'.heap = k.heap ∧ ∃ desc data own e i new, OpenFile k' fd desc data own e
      ∧ p.addr = k'.heap.blockAddress i
      ∧ k'.Holds (own ++ e :: ⟨i, Heap.blocksFor size⟩ :: (new ++ es)) := by
  obtain ⟨k₁, stat, k₂, hopen, hstat, rfl, halloc⟩ := h.runs
  obtain ⟨desc, data, own, e, new, hfile, hes₁⟩ :=
    fopen_openFile hopen h.nonneg hstat hes
  have hread := ReadFrame.fstat _ _ _ _ _ hstat
  have hframe := OpenFrame.allocate _ _ _ _ halloc
  obtain ⟨-, -, hholds⟩ := allocate_spec halloc
  obtain ⟨i, haddr, hes₂⟩ := hholds _ (hes₁.readFrame hread)
  refine ⟨hframe.heap.trans (hread.heap.trans
    (grows_fopen _ _ _ _ _ hopen).heap), desc, data, own, e, i, new,
    (hfile.congr (OpenFrame.of_readFrame hread)
      (SameItems.of_readFrame hread)).congr hframe
      (SameItems.allocate halloc), by rw [hframe.heap]; exact haddr,
      hes₂.perm ?_⟩
  exact List.perm_middle.symm.trans ((List.Perm.swap _ _ _).append_left own)

/-- The buffer is not null. -/
theorem Prepared.ne_null (h : Prepared filename k fd size p k')
    (hk : k.HeapOk) :
    p.addr ≠ 0 := by
  obtain ⟨hw, es, hinv⟩ := hk
  obtain ⟨k₁, stat, k₂, hopen, hstat, rfl, halloc⟩ := h.runs
  obtain ⟨desc, data, own, e, new, -, hes₁⟩ :=
    fopen_openFile hopen h.nonneg hstat ⟨hw, hinv⟩
  have hes₂ := hes₁.readFrame (ReadFrame.fstat _ _ _ _ _ hstat)
  exact allocate_ne_null ⟨hes₂.1, _, hes₂.2⟩ halloc

/-- **A file that is read is not loaded**: the call returns `-EIO`, and the
buffer stays. The comparison is with `1`, the number of elements, and `fread`
has returned `0`. -/
theorem Prepared.loadBinary (h : Prepared filename s.kernel fd size p k)
    (hp : p.addr ≠ 0) {read : ℤ × Output Byte}
    (hread : fread k.sectors zeroOutput 1 size fd k = Except.ok (read, k'))
    (hk : s.kernel.HeapOk) (proc : Ptr) :
    ∃ s', Process.loadBinary filename proc s = Except.ok (-eio, s')
      ∧ ¬ Freed s'.kernel p.addr := by
  obtain ⟨hw, es, hinv⟩ := hk
  obtain ⟨-, desc, data, own, e, i, rest, hfile, haddr, hes⟩ :=
    h.openFile ⟨hw, hinv⟩
  have hframe := ReadFrame.fread _ _ _ _ _ _ _ _ hread
  obtain ⟨lost, k'', hclose, hheap, hes'⟩ :=
    (hfile.congr (OpenFrame.of_readFrame hframe)
      (SameItems.of_readFrame hframe)).fclose
      (hes.readFrame hframe)
  obtain ⟨k₁, stat, k₂, hopen, hstat, rfl, halloc⟩ := h.runs
  obtain ⟨status, out⟩ := read
  have hstatus : status ≠ 1 := by
    have hnonpos : status ≤ 0 := fread_nonpos hread
    omega
  -- the state at the label, and after it
  set s₁ := (((s.withKernel k).setProgram p.id (some zeroOutput)).withKernel
    k').setProgram p.id
    (some out) with hs₁
  have hbinary : readBinary fd proc (s.withKernel k₁)
      = Except.ok (-eio, s₁) := by
    rw [readBinary, bind_ok (onKernel_ok hstat)]
    refine (congrFun (if_neg (not_not.mpr rfl)) _).trans ?_
    rw [bind_ok (onKernel_ok halloc), modify_bind, if_neg hp, get_bind]
    refine (bind_ok (onKernel_ok hread)).trans ?_
    exact congrFun (if_pos hstatus) s₁
  refine ⟨s₁.withKernel k'', ?_, not_freed_of_holds (k := k'') hes'
    (List.mem_append_right _ List.mem_cons_self)
      (by rw [haddr, hheap, hframe.heap])⟩
  rw [Process.loadBinary, bind_ok (onKernel_ok hopen),
    if_neg (Int.not_lt.mpr h.nonneg), bind_ok hbinary,
    bind_ok (onKernel_ok hclose)]
  rfl

/-- What is not a file is not closed either. -/
theorem fclose_of_fstat_ne_zero {stat stat' : FileStat}
    (hstat : fstat fd stat k = Except.ok ((r, stat'), k')) (hr : r ≠ 0) :
    r = -einval ∧ k' = k
      ∧ ∀ closed k'', fclose fd k = Except.ok (closed, k'') → closed = -einval
      ∧ k'' = k := by
  rcases call_cases hstat with ⟨hinval, rfl, hnone⟩ | ⟨desc, hslot, hfat⟩
  · refine ⟨(Prod.mk.inj hinval).1, rfl, fun closed k'' hclose => ?_⟩
    rcases fclose_cases hclose with hsame | ⟨-, desc, k₁, hslot, -⟩
    · exact hsame
    · exact absurd hslot (hnone desc)
  rw [fat16Stat] at hfat
  obtain ⟨data, k₁, hdata, h₁⟩ := bind_eq_ok.mp hfat
  obtain ⟨item, k₂, hitem, h₂⟩ := bind_eq_ok.mp h₁
  have hderef := hdata
  have hderef' := hitem
  obtain ⟨-, -, rfl⟩ := deref_eq_ok hdata
  obtain ⟨-, -, rfl⟩ := deref_eq_ok hitem
  split at h₂
  · rename_i htype
    obtain ⟨hvalues, rfl⟩ := Prod.mk.inj (Except.ok.inj h₂)
    refine ⟨(Prod.mk.inj hvalues).1.symm, rfl, fun closed k'' hclose => ?_⟩
    rcases call_cases hclose with ⟨-, -, hnone⟩ | ⟨desc', hslot', hfat'⟩
    · exact absurd hslot (hnone desc)
    obtain rfl := Option.some.inj (hslot.struct.symm.trans hslot'.struct)
    rw [fat16Close, bind_ok hderef, bind_ok hderef', if_pos htype] at hfat'
    obtain ⟨rfl, rfl⟩ := Prod.mk.inj (Except.ok.inj hfat')
    exact ⟨rfl, rfl⟩
  · -- the status of a file is `0`
    obtain ⟨entry, k₃, -, h₃⟩ := bind_eq_ok.mp h₂
    split at h₃
    · exact absurd (Prod.mk.inj (Prod.mk.inj (Except.ok.inj h₃)).1).1.symm hr
    · exact absurd (Prod.mk.inj (Prod.mk.inj (Except.ok.inj h₃)).1).1.symm hr

/-- **What comes before the label** fails: the descriptor is not that of a
file, or the buffer is allocated and whatever is read into it is taken for an
error. The processes are as they were. -/
theorem readBinary_run (h : readBinary fd proc s = Except.ok (r, s')) :
    (r < 0 ∧ s' = s ∧ ∃ result stat, result ≠ 0
        ∧ fstat fd ⟨0, 0⟩ s.kernel = Except.ok ((result, stat), s.kernel))
      ∨ ∃ stat k₁ p k₂ k' programs,
        fstat fd ⟨0, 0⟩ s.kernel = Except.ok ((0, stat), k₁)
        ∧ KernelM.allocate stat.filesize k₁ = Except.ok (p, k₂)
        ∧ r < 0 ∧ s' = { s with kernel := k', programs } ∧ ReadFrame k₂ k'
        ∧ (p.addr ≠ 0 → ∃ read,
          fread k₂.sectors zeroOutput 1 stat.filesize fd k₂
            = Except.ok (read, k')) := by
  obtain ⟨⟨result, stat⟩, s₁, hrun₁, h₁⟩ := bind_eq_ok.mp h
  obtain ⟨k₁, hstat, rfl⟩ := onKernel_eq_ok.mp hrun₁
  simp only at h₁
  by_cases hresult : result ≠ 0
  · -- not a file
    rw [if_pos hresult] at h₁
    obtain ⟨hneg, rfl, -⟩ := fclose_of_fstat_ne_zero hstat hresult
    obtain ⟨rfl, rfl⟩ := Prod.mk.inj (Except.ok.inj h₁)
    exact Or.inl ⟨hneg ▸ (by decide), rfl, result, stat, hresult, hstat⟩
  rw [if_neg hresult] at h₁
  obtain rfl : result = 0 := not_not.mp hresult
  obtain ⟨p, s₂, hrun₂, h₂⟩ := bind_eq_ok.mp h₁
  obtain ⟨k₂, halloc, rfl⟩ := onKernel_eq_ok.mp hrun₂
  rw [modify_bind] at h₂
  refine Or.inr ⟨stat, k₁, p, k₂, ?_⟩
  by_cases hp : p.addr = 0
  · rw [if_pos hp] at h₂
    obtain ⟨rfl, rfl⟩ := Prod.mk.inj (Except.ok.inj h₂)
    exact ⟨k₂, _, hstat, halloc, by decide, rfl, Std.Refl.refl _, fun hne =>
      absurd hp hne⟩
  rw [if_neg hp, get_bind] at h₂
  obtain ⟨⟨status, out⟩, s₃, hrun₃, h₃⟩ := bind_eq_ok.mp h₂
  obtain ⟨k₃, hread, rfl⟩ := onKernel_eq_ok.mp hrun₃
  have hstatus : status ≠ 1 := by
    have hnonpos : status ≤ 0 := fread_nonpos hread
    omega
  simp only at h₃
  rw [modify_bind, if_pos hstatus] at h₃
  obtain ⟨rfl, rfl⟩ := Prod.mk.inj (Except.ok.inj h₃)
  exact ⟨k₃, _, hstat, halloc, by decide, rfl,
    ReadFrame.fread _ _ _ _ _ _ _ _ hread, fun _ => ⟨_, hread⟩⟩

/-- A path that is turned away is not loaded, and nothing has happened. -/
theorem loadBinary_of_rejected (hpath : PathParser.Rejected filename)
    (proc : Ptr) (s : System) :
    Process.loadBinary filename proc s = Except.ok (-einval, s) := by
  rw [Process.loadBinary, bind_ok (onKernel_ok (fopen_of_rejected hpath _ _))]
  rfl

/-- **A call that returns** has failed. It leaves the processes as they are and
frees nothing that was allocated before it; what it has allocated for a path
that is parsed it keeps; and it has read into the buffer if there is one. -/
theorem loadBinary_run
    (h : Process.loadBinary filename proc s = Except.ok (r, s')) :
    r < 0 ∧ (∃ k' programs, s' = { s with kernel := k', programs }
      ∧ s.kernel.Grows k')
      ∧ (¬ PathParser.Rejected filename → ∀ es, s.kernel.Holds es →
        ∃ new, new ≠ [] ∧ s'.kernel.Holds (new ++ es))
      ∧ ∀ fd size p k, Prepared filename s.kernel fd size p k → p.addr ≠ 0 →
        ∃ read k', fread k.sectors zeroOutput 1 size fd k
          = Except.ok (read, k') := by
  obtain ⟨fd, s₁, hrun₁, h₁⟩ := bind_eq_ok.mp h
  obtain ⟨k₁, hopen, rfl⟩ := onKernel_eq_ok.mp hrun₁
  obtain ⟨result, s₂, hresult, h₂⟩ := bind_eq_ok.mp h₁
  obtain ⟨closeResult, s₃, hrun₃, h₃⟩ := bind_eq_ok.mp h₂
  obtain ⟨k₂, hclose, rfl⟩ := onKernel_eq_ok.mp hrun₃
  have hgrows₁ : s.kernel.Grows k₁ := grows_fopen _ _ _ _ _ hopen
  -- the status at the label is negative, and that of `fclose` is not positive
  have hlabel : result < 0 → r < 0 ∧ s' = s₂.withKernel k₂ := by
    intro hneg
    by_cases hclosed : closeResult ≠ 0
    · rw [if_pos hclosed] at h₃
      obtain ⟨rfl, rfl⟩ := Prod.mk.inj (Except.ok.inj h₃)
      rcases fclose_cases hclose with ⟨rfl, -⟩ | ⟨rfl, -⟩
      · exact ⟨by decide, rfl⟩
      · exact absurd rfl hclosed
    · rw [if_neg hclosed] at h₃
      obtain ⟨rfl, rfl⟩ := Prod.mk.inj (Except.ok.inj h₃)
      exact ⟨hneg, rfl⟩
  by_cases hfd : fd < 0
  · rw [if_pos hfd] at hresult
    obtain ⟨rfl, rfl⟩ := Prod.mk.inj (Except.ok.inj hresult)
    obtain ⟨hneg, rfl⟩ := hlabel (by decide)
    rw [File.fclose, if_pos hfd] at hclose
    obtain ⟨-, rfl⟩ := Prod.mk.inj (Except.ok.inj hclose)
    refine ⟨hneg, ⟨_, s.programs, rfl, hgrows₁⟩, fun hpath es hes =>
      (fopen_leaks hpath hopen hes).2, fun fd' size p k hprepared => ?_⟩
    obtain ⟨k₁', stat, k₂', hopen', -⟩ := hprepared.runs
    obtain ⟨rfl, -⟩ := Prod.mk.inj (Except.ok.inj (hopen.symm.trans hopen'))
    exact absurd hfd (Int.not_lt.mpr hprepared.nonneg)
  rw [if_neg hfd] at hresult
  rcases readBinary_run hresult with ⟨hneg, rfl, result', stat, hne, hstat⟩
    | ⟨stat, k₃, p, k₄, k₅, programs, hstat, halloc, hneg, rfl, hframe, hread⟩
  · -- not a file
    obtain ⟨hneg, rfl⟩ := hlabel hneg
    obtain ⟨-, -, hclosed⟩ := fclose_of_fstat_ne_zero hstat hne
    obtain ⟨-, rfl⟩ := hclosed _ _ hclose
    refine ⟨hneg, ⟨_, s.programs, rfl, hgrows₁⟩, fun hpath es hes =>
      (fopen_leaks hpath hopen hes).2, fun fd' size p k hprepared => ?_⟩
    obtain ⟨k₁', stat', k₂', hopen', hstat', -⟩ := hprepared.runs
    obtain ⟨rfl, rfl⟩ := Prod.mk.inj (Except.ok.inj (hopen.symm.trans hopen'))
    obtain ⟨hvalues, -⟩ := Prod.mk.inj (Except.ok.inj (hstat.symm.trans hstat'))
    exact absurd (Prod.mk.inj hvalues).1 hne
  · obtain ⟨hneg, rfl⟩ := hlabel hneg
    have hprepared : Prepared filename s.kernel fd stat.filesize p k₄ :=
      ⟨Int.not_lt.mp hfd, k₁, stat, k₃, hopen, hstat, rfl, halloc⟩
    have hheap : k₂.heap = s.kernel.heap := by
      have hclosed : k₂.heap = k₅.heap := by
        rcases fclose_cases hclose with
          ⟨-, rfl⟩ | ⟨-, desc, k₆, -, hframe', rfl⟩
        · rfl
        · exact hframe'.heap
      rw [hclosed, hframe.heap, (OpenFrame.allocate _ _ _ _ halloc).heap,
        (ReadFrame.fstat _ _ _ _ _ hstat).heap]
      exact hgrows₁.heap
    -- the buffer stays, and what was allocated for the path
    have hleak : ∀ es, s.kernel.Holds es → ∃ new, new ≠ []
        ∧ k₂.Holds (new ++ es) := by
      intro es hes
      obtain ⟨-, desc, data, own, e, i, new, hfile, -, hes₁⟩ :=
        hprepared.openFile hes
      obtain ⟨lost, k', hclose', -, hes₂⟩ :=
        (hfile.congr (OpenFrame.of_readFrame hframe)
          (SameItems.of_readFrame hframe)).fclose
          (hes₁.readFrame hframe)
      obtain ⟨-, rfl⟩ := Prod.mk.inj (Except.ok.inj (hclose.symm.trans hclose'))
      refine ⟨lost ++ ⟨i, Heap.blocksFor stat.filesize⟩ :: new, by simp, ?_⟩
      rw [List.append_assoc]
      exact hes₂
    refine ⟨hneg, ⟨_, programs, rfl, hheap, fun es hes => ?_⟩, fun _ => hleak,
      fun fd' size p' k hprepared' hp => ?_⟩
    · obtain ⟨new, -, hnew⟩ := hleak es hes
      exact ⟨new, hnew⟩
    · obtain ⟨k₁', stat', k₂', hopen', hstat', rfl, halloc'⟩ := hprepared'.runs
      obtain ⟨rfl, rfl⟩ := Prod.mk.inj (Except.ok.inj (hopen.symm.trans hopen'))
      obtain ⟨hvalues, rfl⟩ :=
        Prod.mk.inj (Except.ok.inj (hstat.symm.trans hstat'))
      obtain ⟨-, rfl⟩ := Prod.mk.inj hvalues
      obtain ⟨rfl, rfl⟩ :=
        Prod.mk.inj (Except.ok.inj (halloc.symm.trans halloc'))
      obtain ⟨read, hread⟩ := hread hp
      exact ⟨read, k₅, hread⟩

/-- **`load_binary` keeps its promise exactly when it does not get to read.**
For every state of the heap, every path and every process: what it reads, it
neither loads nor gives back. `fread` answers `0` when it has read the file,
and `load_binary` waits for `1`; it then returns an error and keeps the buffer.
A call in which a structure or the buffer finds no room has not got to read,
and nothing is promised of it. -/
theorem load_binary_keeps_promise_iff (hk : s.kernel.HeapOk)
    (filename : List Byte) (proc : Ptr) :
    KeepsPromise s filename proc ↔ ¬ ReadsFile s.kernel filename := by
  constructor
  · rintro hkeeps ⟨fd, size, p, k, read, k', hprepared, hread⟩
    obtain ⟨s', hrun, htaken⟩ :=
      hprepared.loadBinary (hprepared.ne_null hk) hread hk proc
    exact htaken ((hkeeps.fails _ s' hrun (by decide)).2 fd size p k hprepared)
  · intro hreads
    refine ⟨fun fd size p k data k' pr hprepared hread => ?_,
      fun r s' hrun _ => ?_⟩
    · exact absurd ⟨fd, size, p, k, _, k', hprepared, hread⟩ hreads
    · obtain ⟨-, ⟨k', programs, rfl, -⟩, -, hread⟩ := loadBinary_run hrun
      refine ⟨rfl, fun fd size p k hprepared => ?_⟩
      obtain ⟨read, k', hread⟩ :=
        hread fd size p k hprepared (hprepared.ne_null hk)
      exact absurd ⟨fd, size, p, k, read, k', hprepared, hread⟩ hreads

/-! ## A file that is not loaded

The file of two clusters, on the volume of `N00bOS.FileReads`, for a process
that has nothing yet. -/

/-- The volume of the file of two clusters, mounted, and a process that has
nothing yet. -/
def mountedSystem : System where
  kernel := mountedKernel
  current := Ptr.null
  tail := Ptr.null
  head := Ptr.null
  tasks := fun _ => none
  processes := fun _ => Ptr.null
  processStructs := Function.update (fun _ => none) 0 (some initProcess)
  programs := fun _ => none

/-- The process, outside the heap. -/
def sampleProcess : Ptr := ⟨0x00200000#32, 0⟩

/-- The theorem on a file that is not there. -/
theorem load_binary_keeps_promise_iff_missing_file :
    KeepsPromise mountedSystem missingPath sampleProcess := by
  have hfails : Machine.result (fopen missingPath readMode) mountedKernel
      = some (-eio) := by
    decide +kernel
  refine (load_binary_keeps_promise_iff (s :=
    mountedSystem) mountedKernel_heapOk
    missingPath sampleProcess).mpr ?_
  rintro ⟨fd, size, p, k, read, k', hprepared, -⟩
  obtain ⟨k₁, stat, k₂, hopen, -⟩ := hprepared.runs
  have hfd := hprepared.nonneg
  obtain rfl : fd = -eio :=
    Option.some.inj ((Machine.result_eq_some.mpr ⟨k₁, hopen⟩).symm.trans hfails)
  exact absurd hfd (by decide)

/-- The file `A` of 1024 bytes is opened and read, both without an error, and
`load_binary` returns `-EIO` and keeps the buffer. -/
theorem readable_file_not_loaded :
    ∃ fd p k data k', Prepared samplePath mountedSystem.kernel fd 1024 p k
      ∧ fread k.sectors zeroOutput 1 1024 fd k = Except.ok ((0, data), k')
      ∧ sampleProcess.addr ≠ 0
      ∧ mountedSystem.processStructs sampleProcess.id = some initProcess
      ∧ (∃ s', Process.loadBinary samplePath sampleProcess mountedSystem
        = Except.ok (-eio, s')
        ∧ ¬ Freed s'.kernel p.addr)
      ∧ ¬ KeepsPromise mountedSystem samplePath sampleProcess := by
  have hresult : Machine.result (do
      let fd ← fopen samplePath [0x72#8]
      let r ← fstat fd ⟨0, 0⟩
      let _ ← KernelM.allocate r.2.filesize
      let k ← get
      let read ← fread k.sectors zeroOutput 1 r.2.filesize fd
      return (fd, r.1, r.2.filesize, read.1)) mountedKernel
          = some (0, 0, 1024, 0) := by
    decide +kernel
  obtain ⟨k₁, hrun⟩ := Machine.result_eq_some.mp hresult
  obtain ⟨fd, k₂, hopen, h₂⟩ := bind_eq_ok.mp hrun
  obtain ⟨⟨status, stat⟩, k₃, hstat, h₃⟩ := bind_eq_ok.mp h₂
  obtain ⟨p, k, halloc, h₄⟩ := bind_eq_ok.mp h₃
  rw [get_bind] at h₄
  obtain ⟨⟨status', data⟩, k', hread, h₅⟩ := bind_eq_ok.mp h₄
  obtain ⟨hvalues, -⟩ := Prod.mk.inj (Except.ok.inj h₅)
  simp only [Prod.mk.injEq] at hvalues
  obtain ⟨rfl, rfl, hsize, rfl⟩ := hvalues
  simp only [hsize] at halloc hread
  have hprepared : Prepared samplePath mountedSystem.kernel 0 1024 p k :=
    ⟨le_rfl, k₂, stat, k₃, hopen, hstat, hsize, halloc⟩
  obtain ⟨s', hload, htaken⟩ := hprepared.loadBinary
    (hprepared.ne_null mountedKernel_heapOk) hread mountedKernel_heapOk
      sampleProcess
  refine ⟨0, p, k, data, k', hprepared, hread, by decide, rfl,
    ⟨s', hload, htaken⟩, fun hkeeps => ?_⟩
  exact htaken ((hkeeps.fails _ s' hload (by decide)).2 0 1024 p k hprepared)

end Process

end N00bOS
