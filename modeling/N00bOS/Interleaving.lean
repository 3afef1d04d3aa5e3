import N00bOS.Clients
import N00bOS.FileTable
import N00bOS.FileReads

/-!
# Interleaved accesses

Descriptors that are open share the streams of the volume, the heap and the
memory. What an access returns should depend on none of them: it should be a
function of the volume and of the descriptor's own position (`accessStep`).

For `fseek` and `fstat` it is, and for a read that starts at a position that is
not negative. At a negative position the copying loop of `disk_streamer::read`
indexes its sector buffer from before its start, and what is delivered is
whatever the memory holds there – in the block before the sector buffer, which
may be the buffer that another descriptor has just been read into
(`open_files_interfere`). For this the output buffers have a place in memory
here (`freadInto`).

The result for the other reads is one about a client of a shared server
(`N00bOS.Clients`), whose view is its position: `Volume.access` is the step for
a request of the client, `Volume.any_access` the one for a request of anybody
else, and `open_files_do_not_interfere` puts them together. The condition is on
the client's own reads only. The others may read from negative positions as
they like: they return, what they get is not the client's concern, and what they
change is their buffers, their positions and the streams.

That two open descriptors have private data of their own is not assumed. It is
an invariant of the descriptor table, and the theorem is about the states that
runs of calls reach.
-/

namespace N00bOS

open KernelM Fat16

/-! ## Reading into memory

The output of a read has an address, and the bytes that come from outside the
sector buffer get the values that the memory has when they are copied. Where
such a byte is one of the output buffer's own, its value depends on how far the
buffer has been written by then. That is left open: a read is given what such
bytes turn out to be, and the results hold whatever it is. -/

/-- A byte that was fetched from a part of the memory. -/
def Fetched.IsIn (buffer : Word) (n : ℕ) : Fetched Byte → Prop
  | Fetched.sector _ => False
  | Fetched.stray addr => (addr - buffer).toNat < n

instance (buffer : Word) (n : ℕ) : DecidablePred (Fetched.IsIn buffer n)
  | Fetched.sector _ => inferInstanceAs (Decidable False)
  | Fetched.stray addr =>
    inferInstanceAs (Decidable ((addr - buffer).toNat < n))

/-- The memory with some bytes stored in it. -/
def Kernel.putBytes (k : Kernel) (buffer : Word) (bytes : ℕ → Byte) (n : ℕ) :
    Kernel :=
  { k with mem := k.mem.put buffer bytes n }

theorem Kernel.putBytes_mem {k : Kernel} {buffer x : Word} {bytes : ℕ → Byte}
    {n : ℕ} (h : x ∈ Memory.region buffer n) :
    (k.putBytes buffer bytes n).mem x = bytes (x - buffer).toNat :=
  Memory.put_of_mem h

namespace File

/-- What `fread` leaves in its output buffer, in the memory `m` that it was
called in: `echo i` is what byte `i` turns out to be where it is fetched from
the buffer itself. -/
def bufferBytes (m : Memory) (buffer : Word) (n : ℕ) (out : Output Byte)
    (echo : ℕ → Byte) (i : ℕ) : Byte :=
  if (out i).IsIn buffer n then echo i else (out i).value m

/-- `fread`, into the output buffer at an address, which holds `data`. -/
def freadInto (buffer : Word) (data echo : ℕ → Byte)
    (blockSize numBlocks : Word) (fd : ℤ) : KernelM Reply := do
  let n := (blockSize * numBlocks).toNat
  let k ← get
  let (res, out) ← fread k.sectors (fun i => Fetched.sector (data i)) blockSize
    numBlocks fd
  let k ← get
  let bytes := bufferBytes k.mem buffer n out echo
  modify fun k => k.putBytes buffer bytes n
  return Reply.data res fun i => Fetched.sector (bytes i)

/-- A call on an open descriptor that leaves it open. -/
inductive Access where
  | fread (buffer : Word) (data echo : ℕ → Byte) (blockSize numBlocks : Word)
  | fseek (offset : ℤ) (whence : FileSeekMode)
  | fstat (stat : FileStat)

/-- The call, on a descriptor. -/
def Access.run (fd : ℤ) : Access → KernelM Reply
  | fread buffer data echo blockSize numBlocks =>
    freadInto buffer data echo blockSize numBlocks fd
  | fseek offset whence => (Call.fseek fd offset whence).run
  | fstat stat => (Call.fstat fd stat).run

/-- A sequence of accesses, each with its descriptor, and the replies. -/
def runAccesses : List (ℤ × Access) → KernelM (List (ℤ × Reply)) :=
  Clients.serve Access.run

/-- **The descriptor does not notice the others**: all accesses return, and the
replies to those on the descriptor – results and buffers – are what they are
without the accesses on others. -/
def DoesNotNotice (k : Kernel) (fd : ℤ) (steps : List (ℤ × Access)) : Prop :=
  ∃ replies k₁ k₂, runAccesses steps k = Except.ok (replies, k₁)
    ∧ runAccesses (steps.filter fun s => s.1 = fd) k
      = Except.ok (replies.filter (fun r => r.1 = fd), k₂)

/-! ## Accesses as functions

What an access returns and where it leaves the position, as a function; and
which accesses it is the function of. -/

/-- **A buffer of a caller's own**: no byte of it is in the heap table, or in
the page that the sector buffer goes to. The structures of the kernel are not
in this memory, so a buffer is apart from them in any case. -/
structure OwnBuffer (k : Kernel) (buffer : Word) (n : ℕ) : Prop where
  table : ∀ i, i < k.heap.total →
    k.heap.entryAddress i ∉ Memory.region buffer n
  page : Disjoint (Memory.region buffer n) (Memory.region k.freshBlock 4096)

/-- An access with such a buffer, if it has one. -/
def Access.OwnBuffer (k : Kernel) : Access → Prop
  | fread buffer _ _ blockSize numBlocks =>
    File.OwnBuffer k buffer (blockSize * numBlocks).toNat
  | fseek _ _ => True
  | fstat _ => True

/-- A buffer between the heap table and the sector buffer. -/
theorem OwnBuffer.of_between {k : Kernel} (hp : k.heap.Placed) {buffer : Word}
    {n : ℕ} (hge : k.heap.table.entries.toNat + k.heap.total ≤ buffer.toNat)
    (hle : buffer.toNat + n ≤ k.freshBlock.toNat)
    (hpage : k.freshBlock.toNat + 4096 ≤ 2 ^ 32) : OwnBuffer k buffer n := by
  refine ⟨fun i hi hin => ?_, Set.disjoint_left.mpr fun x hx hin => ?_⟩
  · have hentry := Heap.entryAddress_toNat hp.toWf hi
    rw [Memory.mem_region_of_le (by omega)] at hin
    omega
  · rw [Memory.mem_region_of_le (by omega)] at hx
    rw [Memory.mem_region_of_le hpage] at hin
    omega

/-- **An access as a function** of the volume and of a position: the reply, and
the position after it. That an access is one is what makes it independent of
the other descriptors: none of them is an argument. -/
def accessStep (k₀ : Kernel) (pd : FatPrivate) (o : OpenInfo) (access : Access)
    (pos : Word) : Reply × Word :=
  match access with
  | Access.fread _ data _ blockSize numBlocks =>
    let r := freadResult k₀.sectors k₀ pd o pos blockSize numBlocks
      fun i => Fetched.sector (data i)
    (Reply.data r.1 fun i => Fetched.sector ((r.2 i).value k₀.mem), pos)
  | Access.fseek offset whence =>
    (Reply.result (seekStatus o.fatItem.type whence),
      seekPos o.fatItem.type whence offset pos)
  | Access.fstat stat =>
    (Reply.stat (statResult o stat).1 (statResult o stat).2, pos)

/-- **A read stays in the sector buffer**: if it reads at all, it does not
start at a negative position inside a sector. -/
def Access.Ahead (k : Kernel) (pd : FatPrivate) (o : OpenInfo) :
    Access → Word → Prop
  | fread _ _ _ blockSize numBlocks, pos =>
    o.fatItem.type = FatItemType.file → 0 < (blockSize * numBlocks).toInt →
      0 ≤ readCluster k pd o pos → 0 ≤ (readPos k pd o pos).tmod sectorSize
  | fseek _ _, _ => True
  | fstat _, _ => True

/-- Every read of a descriptor stays in the sector buffer, from a position on
that its seeks move. -/
def ReadsAhead (k : Kernel) (pd : FatPrivate) (o : OpenInfo) :
    List Access → Word → Prop :=
  Clients.Allowed (accessStep k pd o) (Access.Ahead k pd o)

/-- What such a read delivers comes from the disk. -/
theorem Access.Ahead.delivered {k : Kernel} {pd : FatPrivate} {o : OpenInfo}
    {pos : Word} {buffer : Word} {data echo : ℕ → Byte}
    {blockSize numBlocks : Word}
    (h : (Access.fread buffer data echo blockSize numBlocks).Ahead k pd o pos)
    (i : ℕ) : ∃ b, (freadResult k.sectors k pd o pos blockSize numBlocks
      fun i => Fetched.sector (data i)).2 i = Fetched.sector b := by
  rw [freadResult]
  split
  · exact ⟨_, rfl⟩
  · next hgo =>
    rw [readResult]
    split
    · exact ⟨_, rfl⟩
    · next hn =>
      split
      · exact ⟨_, rfl⟩
      · next hfound =>
        have hahead := h (by tauto) (Int.not_le.mp hn) (Int.not_lt.mp hfound)
        simp only [readOutput, overwrite]
        split
        · rw [fetched, if_neg (by omega)]
          exact ⟨_, rfl⟩
        · exact ⟨_, rfl⟩

/-! ## A volume with open descriptors

The invariant of a run: the volume is as it was, and each descriptor is open at
a position. It is kept by quiet changes, by positions that are set, and by
bytes that are written to buffers which are the callers' own. -/

/-- **A volume with open descriptors**: what of the state `k₀` accesses rely
on is as it was, and the descriptors of `S` are open, at some positions. -/
structure Volume (k₀ : Kernel) (pd : FatPrivate) (S : Set ℤ) (o : ℤ → OpenInfo)
    (pos : ℤ → Word) (k : Kernel) : Prop where
  mounted : Mounted k pd
  heap : k.heap = k₀.heap
  sectors : k.sectors = k₀.sectors
  freshBlock : k.freshBlock = k₀.freshBlock
  openFd : ∀ fd ∈ S, OpenFd k fd (o fd) (pos fd)
  apart : ∀ fd ∈ S, ∀ fd' ∈ S, fd ≠ fd' →
    (o fd).privateData.id ≠ (o fd').privateData.id

namespace Volume

variable {k₀ k k' : Kernel} {pd : FatPrivate} {S : Set ℤ} {o : ℤ → OpenInfo}
  {pos : ℤ → Word}

/-- A quiet change is none here. -/
theorem quiet (h : Volume k₀ pd S o pos k) (hq : Quiet k k') :
    Volume k₀ pd S o pos k' where
  mounted := h.mounted.quiet hq
  heap := hq.heap.trans h.heap
  sectors := hq.sectors.trans h.sectors
  freshBlock := hq.freshBlock.trans h.freshBlock
  openFd fd hfd := (h.openFd fd hfd).quiet hq
  apart := h.apart

/-- A position that is set is set for its descriptor only. -/
theorem setPos (h : Volume k₀ pd S o pos k) {fd : ℤ} (hfd : fd ∈ S)
    (pos' : Word) :
    Volume k₀ pd S o (Function.update pos fd pos')
      (k.setFatItemDescriptor (o fd).privateData.id
        (some ⟨(o fd).item, pos'⟩)) where
  mounted := h.mounted.setFatItemDescriptor _ _
  heap := h.heap
  sectors := h.sectors
  freshBlock := h.freshBlock
  openFd fd' hfd' := by
    by_cases heq : fd' = fd
    · subst heq
      rw [Function.update_self]
      exact (h.openFd fd' hfd').setPos pos'
    · rw [Function.update_of_ne heq]
      exact (h.openFd fd' hfd').setPos_of_ne (h.apart fd' hfd' fd hfd heq) _
  apart := h.apart

/-- A buffer of a caller's own may be written to. -/
theorem put (h : Volume k₀ pd S o pos k) {buffer : Word} {n : ℕ}
    (hbuffer : OwnBuffer k₀ buffer n) (f : ℕ → Byte) :
    Volume k₀ pd S o pos (k.putBytes buffer f n) := by
  have htable : SameTable k.heap k.mem (k.mem.put buffer f n) := fun i hi => by
    refine Memory.put_of_notMem ?_
    rw [h.heap] at hi ⊢
    exact hbuffer.table i hi
  obtain ⟨hp, es, hinv⟩ := h.mounted.heap
  have hm := h.mounted
  refine ⟨⟨⟨hp, es, hinv.congr htable⟩, hm.fs, hm.ne_null, hm.privateData,
    hm.cluster, hm.fat, hm.directory⟩, h.heap, h.sectors, ?_,
    fun fd hfd => ?_, h.apart⟩
  · rw [← h.freshBlock]
    exact congrArg (fun idx => k.heap.blockIdx2BlockAddress
      (BitVec.ofInt 32 idx))
      (htable.findFirstFitStartBlock _)
  · have hopen := h.openFd fd hfd
    exact ⟨hopen.nonneg, hopen.lt, hopen.slot, hopen.struct,
      hopen.privateData_ne_null, hopen.descriptor, hopen.item_ne_null,
      hopen.item, hopen.entry⟩

/-- What a read returns, from the volume as it was. -/
theorem freadResult_eq (h : Volume k₀ pd S o pos k) (o' : OpenInfo)
    (p blockSize numBlocks : Word) (data : Output Byte) :
    freadResult k.sectors k pd o' p blockSize numBlocks data
      = freadResult k₀.sectors k₀ pd o' p blockSize numBlocks data := by
  unfold freadResult readResult readPos readCluster
  rw [h.sectors, h.freshBlock]

variable (hspc : clusterSizeBytes pd ≠ 0)

include hspc

/-- **A read into a buffer of the caller's own** returns, and delivers what the
memory has where it does not deliver the disk's bytes, unless that is the
buffer itself. -/
theorem freadInto (h : Volume k₀ pd S o pos k) {fd : ℤ} (hfd : fd ∈ S)
    {buffer : Word} {data : ℕ → Byte} (echo : ℕ → Byte)
    {blockSize numBlocks : Word} {n : ℕ}
    (hn : (blockSize * numBlocks).toNat = n)
    (hbuffer : OwnBuffer k₀ buffer n) {r : ℤ × Output Byte}
    (hr : freadResult k₀.sectors k₀ pd (o fd) (pos fd) blockSize numBlocks
      (fun i => Fetched.sector (data i)) = r) :
    ∃ k₁, Quiet k k₁
      ∧ Volume k₀ pd S o pos
          (k₁.putBytes buffer (bufferBytes k₁.mem buffer n r.2 echo) n)
      ∧ File.freadInto buffer data echo blockSize numBlocks fd k
        = Except.ok
          (Reply.data r.1 fun i =>
            Fetched.sector (bufferBytes k₁.mem buffer n r.2 echo i),
          k₁.putBytes buffer (bufferBytes k₁.mem buffer n r.2 echo) n) := by
  obtain ⟨k₁, hq, hread⟩ := fread_spec k.sectors h.mounted hspc
    (h.openFd fd hfd) blockSize numBlocks fun i => Fetched.sector (data i)
  rw [h.freadResult_eq, hr] at hread
  refine ⟨k₁, hq, (h.quiet hq).put hbuffer _, ?_⟩
  rw [File.freadInto, Machine.get_bind, Machine.bind_ok hread, ← hn]
  rfl

/-- **An access that stays in the sector buffer** is answered from the
descriptor's own position, and moves that position only. All that it leaves
behind elsewhere are the position of a stream, which the next access sets
first, and the bytes of a temporary buffer. -/
theorem access (h : Volume k₀ pd S o pos k) {fd : ℤ} (hfd : fd ∈ S) (a : Access)
    (hbuffer : a.OwnBuffer k₀) (hahead : a.Ahead k₀ pd (o fd) (pos fd)) :
    ∃ k', a.run fd k
        = Except.ok ((accessStep k₀ pd (o fd) a (pos fd)).1, k')
      ∧ Volume k₀ pd S o
          (Function.update pos fd (accessStep k₀ pd (o fd) a (pos fd)).2)
            k' := by
  have hopen := h.openFd fd hfd
  cases a with
  | fread buffer data echo blockSize numBlocks =>
    have hdelivered := hahead.delivered
    generalize hr : freadResult k₀.sectors k₀ pd (o fd) (pos fd) blockSize
      numBlocks (fun i => Fetched.sector (data i)) = r at hdelivered
    obtain ⟨k₁, -, hvolume, hrun⟩ := h.freadInto hspc hfd echo rfl hbuffer hr
    -- the bytes are the same in every memory
    have hbytes : ∀ m n i, bufferBytes m buffer n r.2 echo i
        = (r.2 i).value k₀.mem := fun m n i => by
      obtain ⟨b, hb⟩ := hdelivered i
      rw [bufferBytes, hb, if_neg (show ¬ (Fetched.sector b).IsIn _ _ from id)]
      rfl
    refine ⟨k₁.putBytes buffer (bufferBytes k₁.mem buffer
      (blockSize * numBlocks).toNat r.2 echo) (blockSize * numBlocks).toNat,
      hrun.trans ?_, ?_⟩
    · simp only [accessStep, hr, hbytes k₁.mem]
    · rw [accessStep, Function.update_eq_self]
      exact hvolume
  | fseek offset whence =>
    refine ⟨_, ?_, h.setPos hfd _⟩
    rw [Access.run, Call.run, Machine.bind_ok (fseek_spec hopen offset whence)]
    rfl
  | fstat stat =>
    refine ⟨k, ?_, ?_⟩
    · rw [Access.run, Call.run, Machine.bind_ok (fstat_spec hopen stat)]
      rfl
    · rw [accessStep, Function.update_eq_self]
      exact h

/-- **Any access** returns, and moves the descriptor's own position only. This
is for accesses of the other descriptors, whose replies do not matter, and
whose reads may go outside the sector buffer. -/
theorem any_access (h : Volume k₀ pd S o pos k) {fd : ℤ} (hfd : fd ∈ S)
    (a : Access) (hbuffer : a.OwnBuffer k₀) :
    ∃ reply k', a.run fd k = Except.ok (reply, k')
      ∧ ∃ pos', (∀ fd', fd' ≠ fd → pos' fd' = pos fd')
        ∧ Volume k₀ pd S o pos' k' := by
  cases a with
  | fread buffer data echo blockSize numBlocks =>
    obtain ⟨k₁, -, hvolume, hrun⟩ := h.freadInto hspc hfd echo rfl hbuffer rfl
    exact ⟨_, _, hrun, pos, fun _ _ => rfl, hvolume⟩
  | fseek offset whence =>
    obtain ⟨k₁, hrun, hvolume⟩ :=
      h.access hspc hfd (Access.fseek offset whence) trivial trivial
    exact ⟨_, k₁, hrun, _, fun fd' hne => Function.update_of_ne hne _ _,
      hvolume⟩
  | fstat stat =>
    obtain ⟨k₁, hrun, hvolume⟩ :=
      h.access hspc hfd (Access.fstat stat) trivial trivial
    exact ⟨_, k₁, hrun, _, fun fd' hne => Function.update_of_ne hne _ _,
      hvolume⟩

/-- **A descriptor is a client with its position for a view.** This puts the
accesses of a volume in the place of the requests of `N00bOS.Clients`, with the
two lemmas on an access as what is asked of them. -/
theorem served (k₀ : Kernel) (o : ℤ → OpenInfo) {fd : ℤ} (hfd : fd ∈ S) :
    Clients.Served Access.run fd
      (fun v k => ∃ pos, pos fd = v ∧ Volume k₀ pd S o pos k)
      (accessStep k₀ pd (o fd)) (Access.Ahead k₀ pd (o fd))
      (fun i a => i ∈ S ∧ a.OwnBuffer k₀) where
  own := by
    rintro v k a ⟨pos, rfl, h⟩ hahead ⟨-, hbuffer⟩
    obtain ⟨k', hrun, h'⟩ := h.access hspc hfd a hbuffer hahead
    exact ⟨k', hrun, _, Function.update_self _ _ _, h'⟩
  other := by
    rintro v k fd' a reply k' hne ⟨pos, rfl, h⟩ ⟨hfd', hbuffer⟩ hrun
    obtain ⟨reply', k₁, hrun', pos', hpos', h'⟩ :=
      h.any_access hspc hfd' a hbuffer
    obtain ⟨-, rfl⟩ := Prod.mk.inj (Except.ok.inj (hrun.symm.trans hrun'))
    exact ⟨pos', hpos' fd hne.symm, h'⟩

/-- **Every run of accesses returns**, wherever its reads are. -/
theorem runAccesses_returns (steps : List (ℤ × Access))
    (hsteps : ∀ s ∈ steps, s.1 ∈ S ∧ s.2.OwnBuffer k₀)
    (h : Volume k₀ pd S o pos k) :
    ∃ replies k', runAccesses steps k = Except.ok (replies, k') := by
  induction steps generalizing k pos with
  | nil => exact ⟨[], k, rfl⟩
  | cons step rest ih =>
    obtain ⟨fd, a⟩ := step
    obtain ⟨hfd, hbuffer⟩ := hsteps _ List.mem_cons_self
    obtain ⟨reply, k₁, hrun, pos', -, h₁⟩ := h.any_access hspc hfd a hbuffer
    obtain ⟨replies, k₂, hrest⟩ :=
      ih (fun s hs => hsteps s (List.mem_cons_of_mem _ hs)) h₁
    exact ⟨_, _, Clients.serve_cons_ok hrun hrest⟩

end Volume

/-- Open descriptors of a table in order have private data of their own. -/
theorem OpenFd.privateData_ne {k : Kernel} (h : TableInv k) {A B : ℤ}
    {oA oB : OpenInfo} {posA posB : Word} (hA : OpenFd k A oA posA)
    (hB : OpenFd k B oB posB) (hne : A ≠ B) :
    oA.privateData.id ≠ oB.privateData.id := by
  obtain ⟨idxA, hstructA⟩ := hA.struct
  obtain ⟨idxB, hstructB⟩ := hB.struct
  have hA₀ := hA.nonneg
  have hA₁ := hA.lt
  have hB₀ := hB.nonneg
  have hB₁ := hB.lt
  exact h.apart A.toNat B.toNat _ _ (by unfold fsMaxFileDescriptors; omega)
    (by unfold fsMaxFileDescriptors; omega) (by omega) hA.slot hB.slot hstructA
    hstructB

/-- **Open files do not interfere where reads stay in the sector buffer.** In
every state that a run of calls reaches, on a mounted volume, for every two
descriptors that are open and every interleaving of `fread`, `fseek` and
`fstat` on them, with buffers of the callers' own: if every read on the one
stays in the sector buffer, wherever the reads on the other are, the calls
return, and the replies to those on the one – results and buffers – are what
they are in the run without the calls on the other. -/
theorem open_files_do_not_interfere {k₀ k : Kernel}
    {history : List (Call × Reply)} (h₀ : TableInv k₀)
    (hrun : Run k₀ history k) {pd : FatPrivate} (hm : Mounted k pd)
    (hspc : 1 ≤ pd.header.sectorsPerCluster.toNat) {A B : ℤ}
    {oA oB : OpenInfo} {posA posB : Word} (hA : OpenFd k A oA posA)
    (hB : OpenFd k B oB posB) (hne : A ≠ B) (steps : List (ℤ × Access))
    (hsteps : ∀ s ∈ steps, (s.1 = A ∨ s.1 = B) ∧ s.2.OwnBuffer k)
    (hahead : ReadsAhead k pd oA (Clients.requestsOf A steps) posA) :
    DoesNotNotice k A steps := by
  have hid := OpenFd.privateData_ne (hrun.tableInv h₀) hA hB hne
  have hsize : clusterSizeBytes pd ≠ 0 := by
    unfold clusterSizeBytes sectorSize
    omega
  have hvolume : Volume k pd {A, B} (fun fd => if fd = A then oA else oB)
      (fun fd => if fd = A then posA else posB) k := by
    refine ⟨hm, rfl, rfl, rfl, ?_, ?_⟩
    · rintro fd (rfl | rfl)
      · rw [if_pos rfl, if_pos rfl]
        exact hA
      · rw [if_neg (Ne.symm hne), if_neg (Ne.symm hne)]
        exact hB
    · rintro fd (rfl | rfl) fd' (rfl | rfl) hfd
      · exact absurd rfl hfd
      · rw [if_pos rfl, if_neg hfd.symm]
        exact hid
      · rw [if_pos rfl, if_neg hfd]
        exact hid.symm
      · exact absurd rfl hfd
  have hserved := Volume.served hsize k (fun fd => if fd = A then oA else oB)
    (show A ∈ ({A, B} : Set ℤ) from Or.inl rfl)
  rw [if_pos rfl] at hserved
  obtain ⟨replies, k₁, hreplies⟩ :=
    hvolume.runAccesses_returns hsize steps hsteps
  obtain ⟨k₂, halone⟩ := hserved.serve_filter steps ⟨_, if_pos rfl, hvolume⟩
    hahead hsteps hreplies
  exact ⟨replies, k₁, k₂, hreplies, halone⟩

/-- The volume of the file of two clusters, with the file open twice, in the
descriptors 0 and 1. -/
def twiceOpenKernel : Kernel :=
  { twoClusterKernel with
    mem := fun a => if (a - heapTableAddress).toNat < 12 then 1 else 0
    nextId := 13
    fileDescriptors := fun i =>
      if i = 0 then twoClusterPtr 4 else if i = 1 then twoClusterPtr 8
        else Ptr.null
    itemArrays := fun id => if id = 8 ∨ id = 12 then some [twoClusterItem]
      else none
    fatItems := fun id =>
      if id = 7 then some ⟨twoClusterPtr 7, FatItemType.file⟩
      else if id = 11 then some ⟨twoClusterPtr 11, FatItemType.file⟩ else none
    fatItemDescriptors := fun id =>
      if id = 6 then some ⟨twoClusterPtr 6, 0⟩
      else if id = 10 then some ⟨twoClusterPtr 10, 100⟩ else none
    fileDescriptorStructs := fun id =>
      if id = 5 then some ⟨0, FilesystemRef.fat16, twoClusterPtr 5,
        DiskRef.primary⟩
      else if id = 9 then some ⟨1, FilesystemRef.fat16, twoClusterPtr 9,
        DiskRef.primary⟩
      else none }

/-- The file, as descriptor 1 has it. -/
def secondFile : OpenInfo :=
  ⟨twoClusterPtr 9, twoClusterPtr 10, ⟨twoClusterPtr 11, FatItemType.file⟩,
    twoClusterItem⟩

theorem twiceOpenKernel_mounted : Mounted twiceOpenKernel twoClusterPrivate :=
  ⟨⟨⟨twoClusterHeap.heap_wf, by decide, by decide⟩,
    (List.range 12).map fun i => ⟨i, 1⟩,
    ⟨⟨by decide, by decide, by decide⟩, by decide⟩⟩, rfl, by decide, rfl,
    ⟨by decide, 0, rfl⟩, ⟨by decide, 0, rfl⟩, ⟨by decide, 0, rfl⟩⟩

theorem twiceOpenKernel_tableInv : TableInv twiceOpenKernel := by
  have hslot : ∀ i, (twiceOpenKernel.fileDescriptors i).addr ≠ 0 → i = 0
      ∨ i = 1 := by
    intro i hi
    by_contra hnot
    obtain ⟨h₀, h₁⟩ := not_or.mp hnot
    refine hi ?_
    show (if i = 0 then _ else if i = 1 then _ else Ptr.null : Ptr).addr = 0
    rw [if_neg h₀, if_neg h₁]
    rfl
  refine ⟨fun i _ hi => ?_, fun i j desc desc' _ _ hij hi hj hdesc hdesc' => ?_⟩
  · rcases hslot i hi with rfl | rfl
    · exact ⟨by decide, _, rfl, by decide⟩
    · exact ⟨by decide, _, rfl, by decide⟩
  · rcases hslot i hi with rfl | rfl <;> rcases hslot j hj with rfl | rfl
    · exact absurd rfl hij
    · rw [← Option.some.inj hdesc, ← Option.some.inj hdesc']
      decide
    · rw [← Option.some.inj hdesc, ← Option.some.inj hdesc']
      decide
    · exact absurd rfl hij

/-- Descriptor 0 of that kernel. -/
theorem twiceOpenKernel_first : OpenFd twiceOpenKernel 0 twoClusterFile 0 :=
  ⟨by decide, by decide, by decide, ⟨0, rfl⟩, by decide, rfl, by decide, rfl,
    fun _ => ⟨by decide, [], rfl⟩⟩

/-- Descriptor 1 of that kernel. -/
theorem twiceOpenKernel_second : OpenFd twiceOpenKernel 1 secondFile 100 :=
  ⟨by decide, by decide, by decide, ⟨1, rfl⟩, by decide, rfl, by decide, rfl,
    fun _ => ⟨by decide, [], rfl⟩⟩

/-- The theorem on the file that is open twice: the reads of descriptor 0 stay
in the sector buffer, and one of descriptor 1 does not. -/
theorem open_files_do_not_interfere_twice_open :
    DoesNotNotice twiceOpenKernel 0
      [(0, Access.fread 0x500000 (fun _ => 0) (fun _ => 0) 1 10),
        (1, Access.fseek (-1637) seekSet),
        (1, Access.fread 0x500200 (fun _ => 0) (fun _ => 0) 2 3),
        (0, Access.fseek 7 seekSet),
        (0, Access.fread 0x500000 (fun _ => 0) (fun _ => 0) 1 10)] := by
  have hp := twiceOpenKernel_mounted.heap.1
  refine (open_files_do_not_interfere twiceOpenKernel_tableInv Run.start
    twiceOpenKernel_mounted (by decide) twiceOpenKernel_first
    twiceOpenKernel_second (by decide) _ ?_ ?_)
  · exact List.forall_mem_cons.mpr ⟨⟨Or.inl rfl, OwnBuffer.of_between hp
        (by decide +kernel) (by decide +kernel) (by decide +kernel)⟩,
      List.forall_mem_cons.mpr ⟨⟨Or.inr rfl, trivial⟩,
      List.forall_mem_cons.mpr ⟨⟨Or.inr rfl, OwnBuffer.of_between hp
        (by decide +kernel) (by decide +kernel) (by decide +kernel)⟩,
      List.forall_mem_cons.mpr ⟨⟨Or.inl rfl, trivial⟩,
      List.forall_mem_singleton.mpr ⟨Or.inl rfl, OwnBuffer.of_between hp
        (by decide +kernel) (by decide +kernel) (by decide +kernel)⟩⟩⟩⟩⟩
  · exact ⟨fun _ _ _ => by decide, trivial, fun _ _ _ => by decide, trivial⟩

/-! ## A buffer before the sector buffer

The same two descriptors, on a volume with four sectors to a cluster, all of
cluster 2 filled with `0x42`. Block 12 of the heap is the buffer of the caller
that uses descriptor 1; the sector buffer of every read goes to block 13. -/

/-- The volume's private data. -/
def neighbourPrivate : FatPrivate :=
  { twoClusterPrivate with header := ⟨4, 1, 1, 16, 1, fat16Signature⟩ }

/-- The kernel. -/
def neighbourKernel : Kernel :=
  { twiceOpenKernel with
    mem := fun a => if (a - heapTableAddress).toNat < 13 then 1 else 0
    sectors := fun lba i =>
      if 3 ≤ lba ∧ lba < 7 then 0x42#8 else twoClusterSectors lba i
    fatPrivates := fun id => if id = 1 then some neighbourPrivate else none }

/-- The last bytes of block 12. -/
def neighbourBuffer : Word := 0x100CE00#32

/-- What descriptor 0 does: a seek to 100 bytes before the start of the disk,
and a read. -/
def neighbourReads : List Access :=
  [Access.fseek (-1636) seekSet,
    Access.fread 0x500000 (fun _ => 0) (fun _ => 0) 1 16]

theorem neighbourKernel_mounted : Mounted neighbourKernel neighbourPrivate :=
  ⟨⟨⟨twoClusterHeap.heap_wf, by decide, by decide⟩,
    (List.range 13).map fun i => ⟨i, 1⟩,
    ⟨⟨by decide, by decide, by decide⟩, by decide⟩⟩, rfl, by decide, rfl,
    ⟨by decide, 0, rfl⟩, ⟨by decide, 0, rfl⟩, ⟨by decide, 0, rfl⟩⟩

theorem neighbourKernel_tableInv : TableInv neighbourKernel :=
  ⟨twiceOpenKernel_tableInv.1, twiceOpenKernel_tableInv.2⟩

theorem neighbourKernel_volume : Volume neighbourKernel neighbourPrivate {0, 1}
    (fun fd => if fd = 0 then twoClusterFile else secondFile)
    (fun fd => if fd = 0 then 0 else 100) neighbourKernel := by
  refine ⟨neighbourKernel_mounted, rfl, rfl, rfl, ?_, ?_⟩
  · rintro fd (rfl | rfl)
    · exact ⟨by decide, by decide, by decide, ⟨0, rfl⟩, by decide, rfl,
        by decide, rfl, fun _ => ⟨by decide, [], rfl⟩⟩
    · exact ⟨by decide, by decide, by decide, ⟨1, rfl⟩, by decide, rfl,
        by decide, rfl, fun _ => ⟨by decide, [], rfl⟩⟩
  · rintro fd (rfl | rfl) fd' (rfl | rfl) hne
    · exact absurd rfl hne
    · decide
    · decide
    · exact absurd rfl hne

/-- The buffers of the callers are their own. -/
theorem neighbour_ownBuffer : OwnBuffer neighbourKernel neighbourBuffer 512
    ∧ OwnBuffer neighbourKernel 0x500000 16 :=
  ⟨OwnBuffer.of_between neighbourKernel_mounted.heap.1 (by decide +kernel)
      (by decide +kernel) (by decide +kernel),
    OwnBuffer.of_between neighbourKernel_mounted.heap.1 (by decide +kernel)
      (by decide +kernel) (by decide +kernel)⟩

/-- **What descriptor 0 gets** is what the last bytes of block 12 are. The
sector buffer is in block 13, right behind it, and the read starts a hundred
bytes before the buffer. -/
theorem neighbourReads_replies {k : Kernel} {pos : ℤ → Word}
    (h : Volume neighbourKernel neighbourPrivate {0, 1}
      (fun fd => if fd = 0 then twoClusterFile else secondFile) pos k) :
    ∃ out k', runAccesses (neighbourReads.map (Prod.mk 0)) k = Except.ok
        ([(0, Reply.result 0), (0, Reply.data 0 out)], k')
      ∧ out 0 = Fetched.sector (k.mem 0x100CF9C) := by
  have hspc : clusterSizeBytes neighbourPrivate ≠ 0 := by decide
  have hzero : (0 : ℤ) ∈ ({0, 1} : Set ℤ) := Or.inl rfl
  obtain ⟨k₁, hseek, h₁⟩ := h.access hspc hzero (Access.fseek (-1636) seekSet)
    trivial trivial
  have hmem₁ : k₁.mem = k.mem := by
    rw [Access.run, Call.run,
      Machine.bind_ok (fseek_spec (h.openFd 0 hzero) _ _)]
      at hseek
    rw [← (Prod.mk.inj (Except.ok.inj hseek)).2]
    rfl
  obtain ⟨k₂, hq, -, hread⟩ := h₁.freadInto hspc hzero (fun _ => 0)
    (show ((1 : Word) * (16 : Word)).toNat = 16 by decide) neighbour_ownBuffer.2
    (rfl : freadResult neighbourKernel.sectors neighbourKernel neighbourPrivate
      twoClusterFile (BitVec.ofInt 32 (-1636)) 1 16 (fun _ => Fetched.sector 0)
        = _)
  refine ⟨_, _, Clients.serve_cons_ok hseek (Clients.serve_cons_ok hread rfl),
    ?_⟩
  -- the first byte is one from before the sector buffer
  have hstray : (freadResult neighbourKernel.sectors neighbourKernel
      neighbourPrivate twoClusterFile (BitVec.ofInt 32 (-1636)) 1 16
      (fun _ => Fetched.sector 0)).2 0 = Fetched.stray 0x100CF9C := by
    decide +kernel
  have hpage : neighbourKernel.freshBlock = 0x100D000#32 := by decide +kernel
  refine congrArg Fetched.sector ?_
  rw [bufferBytes, hstray, if_neg (by decide), ← hmem₁]
  refine hq.behind _ ?_ ?_
  · rw [h₁.heap]
    decide +kernel
  · rw [h₁.freshBlock, hpage, Memory.mem_region_of_le (by decide)]
    decide

/-- **Open files interfere.** With the other descriptor's read into block 12,
the one's read from before the disk delivers what that has left there; without
it, zeros. -/
theorem open_files_interfere :
    TableInv neighbourKernel ∧ Mounted neighbourKernel neighbourPrivate
      ∧ neighbourKernel.HasFreeBlock
      ∧ OpenFd neighbourKernel 0 twoClusterFile 0
      ∧ OpenFd neighbourKernel 1 secondFile 100
      ∧ OwnBuffer neighbourKernel neighbourBuffer 512
      ∧ OwnBuffer neighbourKernel 0x500000 16
      ∧ ¬ DoesNotNotice neighbourKernel 0
          ((1, Access.fread neighbourBuffer (fun _ => 0) (fun _ => 0) 1 512)
            :: neighbourReads.map (Prod.mk 0)) := by
  have hvolume := neighbourKernel_volume
  have hspc : clusterSizeBytes neighbourPrivate ≠ 0 := by decide
  have hone : (1 : ℤ) ∈ ({0, 1} : Set ℤ) := Or.inr rfl
  refine ⟨neighbourKernel_tableInv, neighbourKernel_mounted,
    ⟨13, by decide, by decide⟩, hvolume.openFd 0 (Or.inl rfl),
    hvolume.openFd 1 hone, neighbour_ownBuffer.1, neighbour_ownBuffer.2,
    fun hright => ?_⟩
  -- the other descriptor's read
  obtain ⟨k₁, -, h₁, hread⟩ := hvolume.freadInto hspc hone (fun _ => 0)
    (show ((1 : Word) * (512 : Word)).toNat = 512 by decide)
    neighbour_ownBuffer.1
    (rfl : freadResult neighbourKernel.sectors neighbourKernel neighbourPrivate
      secondFile 100 1 512 (fun _ => Fetched.sector 0) = _)
  -- it has filled the last bytes of the block
  obtain ⟨out, k₂, hrun, hbyte⟩ := neighbourReads_replies h₁
  obtain ⟨out', k₂', hrun', hbyte'⟩ := neighbourReads_replies hvolume
  obtain ⟨replies, k₃, k₄, hall, halone⟩ := hright
  obtain ⟨rfl, -⟩ := Prod.mk.inj
    (Except.ok.inj (hall.symm.trans (Clients.serve_cons_ok hread hrun)))
  have hsame := (Prod.mk.inj (Except.ok.inj (halone.symm.trans hrun'))).1
  have hout : out = out' := by simpa using hsame
  have hdelivered : (freadResult neighbourKernel.sectors neighbourKernel
      neighbourPrivate secondFile 100 1 512 (fun _ => Fetched.sector 0)).2 412
        = Fetched.sector 0x42 := by decide +kernel
  have hmem : (0x100CF9C : Word) ∈ Memory.region neighbourBuffer 512 := by
    rw [Memory.mem_region_of_le (by decide)]
    decide
  have hleft := (congrFun hout 0).symm.trans hbyte
  rw [Kernel.putBytes_mem hmem,
    show ((0x100CF9C : Word) - neighbourBuffer).toNat
    = 412 by decide, hbyte', bufferBytes, hdelivered,
    if_neg (show ¬ (Fetched.sector 0x42).IsIn _ _ from id),
    Fetched.value] at hleft
  exact absurd hleft (by decide)

end File

end N00bOS
