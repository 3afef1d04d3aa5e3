import N00bOS.ReadBack

/-!
# Sessions

What a caller sees of the files of a disk: the descriptors that are open, each
on an entry of a directory and at a position, and how many have been handed out
(`Session`). What each call answers, and how it changes that, is said from the
sectors of the disk alone (`SessionStep`); there are no slots, items, streams or
blocks of the heap in it. The file calls of the kernel on a volume in service
are such steps (`File.Run.session`).

## What the sectors settle

Every answer to a call on a descriptor is settled, whatever its arguments are:
those of `fseek`, `fstat` and `fclose`, and that of `fread` at every position
and for every size (`readAnswer`), errors included. One thing is left open. A
read at a negative position copies bytes from before the sector buffer, and
which buffer that is depends on the heap; so answers are compared up to those
bytes (`Reply.masked`).

An `fopen` is settled (`OpenDetermined`) when its path is rejected, when it is
to write, and when the path denotes an entry or none. Otherwise the names on the
way are mistaken for others, or lead through a directory that `load_directory`
does not load right; the session says of such a path that it is opened on some
entry or not at all.

Two sessions with the same calls are then the same (`SessionRun.unique`): the
proof goes call by call, and each kind of call has one answer.

A call that does not return is no step. Such are, besides the calls whose
structures find no room on the heap: a call on a descriptor that has been
closed, unless it is a read of nothing; and an `fopen` of a path that goes on
after a name that is missing.
-/

namespace N00bOS

open KernelM Listing Fat16 PathParser

/-! ## Answers, up to the bytes from outside the buffer

How answers are compared. All that is forgotten of a byte from outside a sector
buffer is where it came from. -/

/-- A byte that was fetched; where it is not one of a sector, its address is
forgotten. -/
def Fetched.masked : Fetched Byte → Fetched Byte
  | Fetched.sector b => Fetched.sector b
  | Fetched.stray _ => Fetched.stray 0

namespace Fat16

section Streams

variable {sectors : ℤ → ℕ → Byte} {pd : FatPrivate}
  {items : List FatDirectoryItem} (cluster fat directory : Ptr)

/-- A directory is stored, whatever the streams are. -/
theorem StoredDirectory.withStreams {item : FatDirectoryItem} {len : ℕ}
    {c : ℕ → ℤ} {entries : List FatDirectoryItem}
    (h : StoredDirectory sectors pd item len c entries) :
    StoredDirectory sectors (FatPrivate.withStreams pd cluster fat directory)
      item len c entries :=
  ⟨h.directory, h.chain, h.below, h.listing, h.inside, h.ordered,
    h.cluster, h.after⟩

/-- A path denotes the same. -/
theorem Denotes.withStreams {names : List (List Byte)}
    {found : Option FatDirectoryItem}
    (h : Denotes sectors pd items names found) :
    Denotes sectors (FatPrivate.withStreams pd cluster fat directory) items
      names found := by
  induction h with
  | missing hfinds => exact Denotes.missing hfinds
  | last hfinds => exact Denotes.last hfinds
  | file hfinds hfile => exact Denotes.file hfinds hfile
  | inside hfinds hstored _ ih =>
    exact Denotes.inside hfinds (hstored.withStreams cluster fat directory) ih

end Streams

end Fat16

namespace File

/-- An answer, without the addresses of such bytes. -/
def Reply.masked : Reply → Reply
  | Reply.result r => Reply.result r
  | Reply.data r out => Reply.data r fun i => (out i).masked
  | Reply.stat r out => Reply.stat r out

/-! ## States

What a session knows: descriptors that are open, on an entry and at a position,
and the number of the next one. -/

/-- A file, or a directory, that is open: its entry, and the position. -/
structure OpenEntry where
  item : FatDirectoryItem
  pos : Word

/-- **What a caller knows**: the number of the next descriptor, and what is
open in the others. Nothing in it is from the heap, so two kernels can serve
the same session. -/
structure Session where
  next : ℕ
  files : ℤ → Option OpenEntry

namespace Session

/-- Nothing has been opened. -/
def start : Session := ⟨0, fun _ => none⟩

/-- The next descriptor is open on an entry. -/
def opened (s : Session) (item : FatDirectoryItem) : Session :=
  ⟨s.next + 1, Function.update s.files s.next (some ⟨item, 0⟩)⟩

/-- A descriptor is at a position. -/
def moved (s : Session) (fd : ℤ) (f : OpenEntry) (pos : Word) : Session :=
  { s with files := Function.update s.files fd (some { f with pos := pos }) }

/-- A descriptor is closed. -/
def closed (s : Session) (fd : ℤ) : Session :=
  { s with files := Function.update s.files fd none }

end Session

/-! ## Answers

The answers to calls on a descriptor that is open, as functions of the sectors,
the entry and the position. They follow the calls of the kernel, without its
streams and buffers. -/

/-- The answer to a call that is turned away: `-EINVAL`, and the buffers as they
were. -/
def Call.refused : Call → Reply
  | Call.fopen _ _ => Reply.result (-einval)
  | Call.fread data _ _ _ => Reply.data (-einval) data
  | Call.fseek _ _ _ => Reply.result (-einval)
  | Call.fstat _ stat => Reply.stat (-einval) stat
  | Call.fclose _ => Reply.result (-einval)

/-- What `fstat` answers for an entry. -/
def statAnswer (item : FatDirectoryItem) (stat : FileStat) : Reply :=
  if itemType item ≠ FatItemType.file then Reply.stat (-einval) stat
  else Reply.stat 0
    { filesize := item.filesize
      flags :=
        if item.attributeByte.setWidth 32 &&& fileStatReadOnly ≠ 0 then
          fileStatReadOnly
        else stat.flags }

/-- **What a read of some blocks answers**, at a position of an entry, with the
sector buffer at `buf`: `-EINVAL` for a directory; nothing for no bytes; the
error of the walk to the cluster of the position; or the bytes from there on, of
one cluster's length at most. -/
def readAnswer (sectors : ℤ → ℕ → Byte) (pd : FatPrivate) (buf : Word)
    (f : OpenEntry) (blockSize numBlocks : Word) (data : Output Byte) : Reply :=
  let total := (blockSize * numBlocks).toInt
  let cluster := clusterAt sectors pd (getFirstCluster f.item).toInt f.pos.toInt
  if itemType f.item ≠ FatItemType.file then Reply.data (-einval) data
  else if total ≤ 0 then Reply.data 0 data
  else if cluster < 0 then Reply.data cluster data
  else Reply.data 0
    (readOutput sectors buf pd (startingPos pd cluster f.pos.toInt) total data)

/-- The buffer matters for the bytes from outside it only. -/
theorem masked_readAnswer (sectors : ℤ → ℕ → Byte) (pd : FatPrivate)
    (buf buf' : Word) (f : OpenEntry) (blockSize numBlocks : Word)
    (data : Output Byte) :
    (readAnswer sectors pd buf f blockSize numBlocks data).masked
      = (readAnswer sectors pd buf' f blockSize numBlocks data).masked := by
  have hfetched : ∀ pos i, (fetched sectors buf pos i).masked
      = (fetched sectors buf' pos i).masked := by
    intro pos i
    rw [fetched, fetched]
    split <;> rfl
  simp only [readAnswer]
  split
  · rfl
  split
  · rfl
  split
  · rfl
  refine congrArg (Reply.data 0) (funext fun i => ?_)
  rw [readOutput, overwrite, readOutput, overwrite]
  split
  · exact hfetched _ _
  · rfl

/-- At a position of the disk that is not negative it does not matter. -/
theorem readAnswer_of_nonneg {sectors : ℤ → ℕ → Byte} {pd : FatPrivate}
    {f : OpenEntry}
    (hpos : 0 ≤ startingPos pd (clusterAt sectors pd
      (getFirstCluster f.item).toInt f.pos.toInt) f.pos.toInt)
    (buf buf' blockSize numBlocks : Word) (data : Output Byte) :
    readAnswer sectors pd buf f blockSize numBlocks data
      = readAnswer sectors pd buf' f blockSize numBlocks data := by
  have hbytes : readOutput sectors buf pd (startingPos pd
        (clusterAt sectors pd (getFirstCluster f.item).toInt f.pos.toInt)
          f.pos.toInt)
      = readOutput sectors buf' pd (startingPos pd
        (clusterAt sectors pd (getFirstCluster f.item).toInt f.pos.toInt)
          f.pos.toInt) := by
    funext total out i
    rw [readOutput, overwrite, readOutput, overwrite,
      fetched_of_nonneg _ _ hpos, fetched_of_nonneg _ _ hpos]
  simp only [readAnswer, hbytes]

/-! ## Opening

What may come of a path. For a path that the sectors settle there is one
result; for any other one, all that is said is that a file that is opened is on
some entry. -/

/-- **The paths that the sectors settle**: a path that is rejected; and one of
names, when it is not to be read, or denotes an entry or none. -/
def OpenDetermined (sectors : ℤ → ℕ → Byte) (pd : FatPrivate)
    (items : List FatDirectoryItem) (path mode : List Byte) : Prop :=
  Rejected path ∨ ∃ names, PathOf path names
    ∧ (str2Filemode mode = FileMode.read →
    ∃ found, Denotes sectors pd items names found)

/-- What `fopen` answers for what a path denotes, and the session after it: with
all the descriptors handed out, an entry is not opened. -/
def Session.openAnswer (s : Session) : Option FatDirectoryItem → ℤ × Session
  | none => (-eio, s)
  | some item =>
    if s.next < fsMaxFileDescriptors then (s.next, s.opened item)
      else (-enomem, s)

/-- **What `fopen` answers**, and the session after it. Where the sectors
settle what is found, a slot that is left decides between a descriptor and an
error. -/
inductive OpenStep (sectors : ℤ → ℕ → Byte) (pd : FatPrivate)
    (items : List FatDirectoryItem) (s : Session) (path mode : List Byte) :
    ℤ × Session → Prop where
  /-- A path is rejected. -/
  | rejected : Rejected path →
      OpenStep sectors pd items s path mode (-einval, s)
  /-- A path is not to be read. -/
  | mode {names : List (List Byte)} : PathOf path names →
      str2Filemode mode ≠ FileMode.read →
      OpenStep sectors pd items s path mode (modeStatus (str2Filemode mode), s)
  /-- What a path denotes is opened, with the next descriptor. -/
  | denotes {names : List (List Byte)}
      {found : Option FatDirectoryItem} : PathOf path names →
      str2Filemode mode = FileMode.read → Denotes sectors pd items names found →
      OpenStep sectors pd items s path mode (s.openAnswer found)
  /-- A path that is not settled is not opened. -/
  | failed {r : ℤ} : ¬ OpenDetermined sectors pd items path mode → r < 0 →
      OpenStep sectors pd items s path mode (r, s)
  /-- A path that is not settled is opened on an entry. -/
  | opened {item : FatDirectoryItem} : ¬ OpenDetermined sectors pd
      items path mode →
      s.next < fsMaxFileDescriptors →
      OpenStep sectors pd items s path mode (s.next, s.opened item)

/-- **What is settled is one thing.** A path is rejected or is one of names,
never both; it has one list of names, and these denote one thing. -/
theorem OpenStep.unique {sectors : ℤ → ℕ → Byte} {pd : FatPrivate}
    {items : List FatDirectoryItem} {s : Session} {path mode : List Byte}
    {r r' : ℤ × Session} (h : OpenStep sectors pd items s path mode r)
    (h' : OpenStep sectors pd items s path mode r')
    (hdet : OpenDetermined sectors pd items path mode) : r = r' := by
  cases h with
  | rejected hrejected =>
    cases h' with
    | rejected => rfl
    | mode hpath => exact absurd hrejected hpath.not_rejected
    | denotes hpath => exact absurd hrejected hpath.not_rejected
    | failed hnot => exact absurd hdet hnot
    | opened hnot => exact absurd hdet hnot
  | mode hpath hmode =>
    cases h' with
    | rejected hrejected => exact absurd hrejected hpath.not_rejected
    | mode => rfl
    | denotes _ hread => exact absurd hread hmode
    | failed hnot => exact absurd hdet hnot
    | opened hnot => exact absurd hdet hnot
  | denotes hpath hread hden =>
    cases h' with
    | rejected hrejected => exact absurd hrejected hpath.not_rejected
    | mode _ hmode => exact absurd hread hmode
    | denotes hpath' _ hden' =>
      obtain rfl := hpath.unique hpath'
      rw [hden.unique hden']
    | failed hnot => exact absurd hdet hnot
    | opened hnot => exact absurd hdet hnot
  | failed hnot => exact absurd hdet hnot
  | opened hnot => exact absurd hdet hnot

/-! ## Steps and runs

A step for each kind of call, and the sequences of steps. -/

/-- **A call, its answer, and the session after it**, on a disk with a root
directory of some items. There is a constructor for each kind of call and
answer, and the sectors are all that it looks at. -/
inductive SessionStep (sectors : ℤ → ℕ → Byte) (pd : FatPrivate)
    (items : List FatDirectoryItem) :
    Session → Call → Reply → Session → Prop where
  /-- A path is opened, or not. -/
  | fopen {s s' : Session} {path mode : List Byte} {r : ℤ} :
      OpenStep sectors pd items s path mode (r, s') →
      SessionStep sectors pd items s (Call.fopen path mode) (Reply.result r) s'
  /-- A read of nothing, and a descriptor that has not been handed out. -/
  | refused {s : Session} {c : Call} {fd : ℤ} : c.fd = some fd →
      c.AsksNothing ∨ (s.files fd = none ∧ (fd < 0 ∨ s.next ≤ fd)) →
      SessionStep sectors pd items s c c.refused s
  | read {s : Session} {fd : ℤ} {f : OpenEntry} {data : Output Byte}
      {blockSize numBlocks : Word}
      (buf : Word) : s.files fd = some f → blockSize ≠ 0 → numBlocks ≠ 0 →
      SessionStep sectors pd items s (Call.fread data blockSize numBlocks fd)
        (readAnswer sectors pd buf f blockSize numBlocks data) s
  | seek {s : Session} {fd offset : ℤ} {f : OpenEntry} {whence : FileSeekMode} :
      s.files fd = some f →
      SessionStep sectors pd items s (Call.fseek fd offset whence)
        (Reply.result (seekStatus (itemType f.item) whence))
        (s.moved fd f (seekPos (itemType f.item) whence offset f.pos))
  | stat {s : Session} {fd : ℤ} {f : OpenEntry} {stat : FileStat} : s.files fd
      = some f →
      SessionStep sectors pd items s (Call.fstat fd stat)
        (statAnswer f.item stat) s
  /-- A file is closed. -/
  | close {s : Session} {fd : ℤ} {f : OpenEntry} : s.files fd = some f →
      itemType f.item = FatItemType.file →
      SessionStep sectors pd items s (Call.fclose fd) (Reply.result 0)
        (s.closed fd)
  /-- A directory is not. -/
  | keep {s : Session} {fd : ℤ} {f : OpenEntry} : s.files fd = some f →
      itemType f.item = FatItemType.directory →
      SessionStep sectors pd items s (Call.fclose fd) (Reply.result (-einval)) s

/-- **A session**: calls with their answers, the latest first, and what is open
after them. -/
inductive SessionRun (sectors : ℤ → ℕ → Byte) (pd : FatPrivate)
    (items : List FatDirectoryItem) :
    List (Call × Reply) → Session → Prop where
  | start : SessionRun sectors pd items [] Session.start
  | step {history : List (Call × Reply)} {s s' : Session} {c : Call}
      {reply : Reply} :
      SessionRun sectors pd items history s →
      SessionStep sectors pd items s c reply s' →
      SessionRun sectors pd items ((c, reply) :: history) s'

/-! ## One answer to each call

Two sessions side by side. The induction is on the calls, and each pair of
steps is compared by its kind. -/

/-- **The calls that the sectors settle**: all but an `fopen` of a path that
they do not. -/
def Call.Determined (sectors : ℤ → ℕ → Byte) (pd : FatPrivate)
    (items : List FatDirectoryItem) : Call → Prop
  | Call.fopen path mode => OpenDetermined sectors pd items path mode
  | _ => True

/-- The histories of the same calls with the same answers, up to the bytes from
outside the buffers. -/
def SameAnswers (history history' : List (Call × Reply)) : Prop :=
  history.map (fun e => (e.1, e.2.masked)) = history'.map fun e =>
    (e.1, e.2.masked)

section Unique

variable {sectors : ℤ → ℕ → Byte} {pd : FatPrivate}
  {items : List FatDirectoryItem} {s s₁ s₂ : Session} {c : Call}
  {reply reply' : Reply}

/-- An open descriptor is not turned away, unless nothing is asked for. -/
theorem not_refused {fd fd' : ℤ} {f : OpenEntry} (hopen : s.files fd = some f)
    (hfd : c.fd = some fd) (hfd' : c.fd = some fd') (hasks : ¬ c.AsksNothing) :
    ¬ (c.AsksNothing ∨ (s.files fd' = none ∧ (fd' < 0 ∨ s.next ≤ fd'))) := by
  obtain rfl := Option.some.inj (hfd.symm.trans hfd')
  rintro (hnone | ⟨hnone, -⟩)
  · exact hasks hnone
  · rw [hopen] at hnone
    cases hnone

/-- **A call has one answer**, where the sectors settle it. For two steps of
the same call from the same session the answers agree up to the bytes from
outside the sector buffers, and the sessions after them are the same. -/
theorem SessionStep.unique (h : SessionStep sectors pd items s c reply s₁)
    (h' : SessionStep sectors pd items s c reply' s₂)
    (hdet : c.Determined sectors pd items) :
    reply.masked = reply'.masked ∧ s₁ = s₂ := by
  cases h with
  | fopen hopen =>
    cases h' with
    | fopen hopen' =>
      obtain ⟨rfl, rfl⟩ := Prod.mk.inj (hopen.unique hopen' hdet)
      exact ⟨rfl, rfl⟩
    | refused hfd => cases hfd
  | refused hfd hno =>
    cases h' with
    | fopen => cases hfd
    | refused => exact ⟨rfl, rfl⟩
    | read _ hopen hbs hnb =>
      exact absurd hno (not_refused hopen rfl hfd (not_or.mpr ⟨hbs, hnb⟩))
    | seek hopen | stat hopen | close hopen | keep hopen =>
      exact absurd hno (not_refused hopen rfl hfd id)
  | read buf hopen hbs hnb =>
    cases h' with
    | refused hfd hno =>
      exact absurd hno (not_refused hopen rfl hfd (not_or.mpr ⟨hbs, hnb⟩))
    | read buf' hopen' =>
      obtain rfl := Option.some.inj (hopen.symm.trans hopen')
      exact ⟨masked_readAnswer _ _ _ _ _ _ _ _, rfl⟩
  | seek hopen =>
    cases h' with
    | refused hfd hno => exact absurd hno (not_refused hopen rfl hfd id)
    | seek hopen' =>
      obtain rfl := Option.some.inj (hopen.symm.trans hopen')
      exact ⟨rfl, rfl⟩
  | stat hopen =>
    cases h' with
    | refused hfd hno => exact absurd hno (not_refused hopen rfl hfd id)
    | stat hopen' =>
      obtain rfl := Option.some.inj (hopen.symm.trans hopen')
      exact ⟨rfl, rfl⟩
  | close hopen hfile =>
    cases h' with
    | refused hfd hno => exact absurd hno (not_refused hopen rfl hfd id)
    | close => exact ⟨rfl, rfl⟩
    | keep hopen' hdir =>
      obtain rfl := Option.some.inj (hopen.symm.trans hopen')
      exact absurd (hfile.symm.trans hdir) (by decide)
  | keep hopen hdir =>
    cases h' with
    | refused hfd hno => exact absurd hno (not_refused hopen rfl hfd id)
    | close hopen' hfile =>
      obtain rfl := Option.some.inj (hopen.symm.trans hopen')
      exact absurd (hfile.symm.trans hdir) (by decide)
    | keep => exact ⟨rfl, rfl⟩

/-- **Sessions of the same calls are the same**: they give the same answers, and
leave the same entries open at the same positions. -/
theorem SessionRun.unique {history history' : List (Call × Reply)}
    (h : SessionRun sectors pd items history s)
    (h' : SessionRun sectors pd items history' s₁)
    (hcalls : history'.map Prod.fst = history.map Prod.fst)
    (hdet : ∀ e ∈ history, e.1.Determined sectors pd items) :
    SameAnswers history history' ∧ s = s₁ := by
  induction h generalizing history' s₁ with
  | start =>
    obtain rfl := List.map_eq_nil_iff.mp hcalls
    cases h'
    exact ⟨rfl, rfl⟩
  | step _ hstep ih =>
    cases h' with
    | start => cases hcalls
    | step hrun' hstep' =>
      obtain ⟨rfl, hrest⟩ := List.cons.inj hcalls
      obtain ⟨hfirst, hlater⟩ := List.forall_mem_cons.mp hdet
      obtain ⟨hanswers, rfl⟩ := ih hrun' hrest hlater
      obtain ⟨hreply, rfl⟩ := hstep.unique hstep' hfirst
      exact ⟨List.cons_eq_cons.mpr ⟨Prod.ext rfl hreply, hanswers⟩, rfl⟩

end Unique

/-! ## The streams do not matter

Two kernels have their streams in different places, and a volume has pointers
to them. No answer depends on these. -/

section Streams

variable {sectors : ℤ → ℕ → Byte} {pd : FatPrivate}
  {items : List FatDirectoryItem} {s s' : Session} (cluster fat directory : Ptr)

/-- So the same paths are settled. -/
theorem OpenDetermined.withStreams {path mode : List Byte}
    (h : OpenDetermined sectors pd items path mode) :
    OpenDetermined sectors (FatPrivate.withStreams pd cluster fat directory)
      items path mode :=
  h.imp_right fun ⟨names, hpath, hden⟩ => ⟨names, hpath, fun hread =>
    (hden hread).imp fun _ h => h.withStreams cluster fat directory⟩

/-- A step is one with other streams. -/
theorem SessionStep.withStreams {c : Call} {reply : Reply}
    (h : SessionStep sectors pd items s c reply s') :
    SessionStep sectors (FatPrivate.withStreams pd cluster fat directory) items
      s c reply s' := by
  -- the streams that there were can be put back
  have hback : ∀ {path mode : List Byte},
    ¬ OpenDetermined sectors pd items path mode →
      ¬ OpenDetermined sectors (FatPrivate.withStreams pd cluster fat directory)
        items path mode :=
    fun hnot hdet =>
      hnot (hdet.withStreams pd.clusterReadStream pd.fatReadStream
      pd.directoryReadStream)
  cases h with
  | fopen hopen =>
    refine SessionStep.fopen ?_
    generalize hr : (_, s') = r at hopen ⊢
    cases hopen with
    | rejected hrejected => exact OpenStep.rejected hrejected
    | mode hpath hmode => exact OpenStep.mode hpath hmode
    | denotes hpath hread hden =>
      exact OpenStep.denotes hpath hread
        (hden.withStreams cluster fat directory)
    | failed hnot hneg => exact OpenStep.failed (hback hnot) hneg
    | opened hnot hlt => exact OpenStep.opened (hback hnot) hlt
  | refused hfd hno => exact SessionStep.refused hfd hno
  | read buf hopen hbs hnb =>
    show SessionStep _ _ _ _ _
      (readAnswer sectors (FatPrivate.withStreams pd cluster fat directory)
        buf _ _ _ _) _
    exact SessionStep.read buf hopen hbs hnb
  | seek hopen => exact SessionStep.seek hopen
  | stat hopen => exact SessionStep.stat hopen
  | close hopen hfile => exact SessionStep.close hopen hfile
  | keep hopen hdir => exact SessionStep.keep hopen hdir

/-- And so is a session. -/
theorem SessionRun.withStreams {history : List (Call × Reply)}
    (h : SessionRun sectors pd items history s) :
    SessionRun sectors (FatPrivate.withStreams pd cluster fat directory) items
      history s := by
  induction h with
  | start => exact SessionRun.start
  | step _ hstep ih => exact ih.step (hstep.withStreams cluster fat directory)

end Streams

end File

end N00bOS
