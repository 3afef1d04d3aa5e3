import N00bOS.FileTable
import N00bOS.FileReads

/-!
# Calls on closed descriptors

`fclose` frees the private data of a descriptor and leaves the pointer to it in
the table. Every later call on the descriptor that looks at the data reads
freed memory: it does not return `-EINVAL`, it does not return
(`Stale.not_ok`). A run of calls is safe exactly when it makes no such call
(`no_use_after_close_iff`).

A descriptor is closed in a history when `fclose` has returned `0` for it and
no later `fopen` has returned it. That this makes its slot stale is an
invariant of the run (`Run.stale`): the close makes it so, and every other call
keeps it so, because what is stale stays stale (`Stale.callFrame`) and slots
are not filled twice. The theorem is then an induction over the rest of the run
(`noUseAfterClose_iff_of_run`).
-/

namespace N00bOS

open KernelM Fat16

namespace File

/-- **A descriptor that is closed**: `fclose` has returned `0` for it, and no
`fopen` has returned it since. -/
def Closed (fd : ℤ) : List (Call × Reply) → Prop
  | [] => False
  | (Call.fclose fd', reply) :: rest =>
    (fd' = fd ∧ reply.status = 0) ∨ Closed fd rest
  | (Call.fopen _ _, reply) :: rest => reply.status ≠ fd ∧ Closed fd rest
  | _ :: rest => Closed fd rest

/-- A slot whose private data is gone. -/
def Stale (k : Kernel) (fd : ℤ) : Prop :=
  ∃ desc, InSlot k fd desc ∧ k.fatItemDescriptors desc.privateData.id = none

/-- **A stale slot stays stale.** Every call keeps the slots that are taken,
and private data that is gone. -/
theorem Stale.callFrame {k k' : Kernel} {fd : ℤ} (h : Stale k fd)
    (hinv : TableInv k) (hframe : CallFrame k k') : Stale k' fd := by
  obtain ⟨desc, hin, hdead⟩ := h
  have hlt : fd.toNat < fsMaxFileDescriptors := by
    have := hin.nonneg
    have := hin.lt
    omega
  obtain ⟨hid, desc', hdesc', hdata⟩ := hinv.slots fd.toNat hlt hin.slot
  obtain rfl := Option.some.inj (hin.struct.symm.trans hdesc')
  have hslot := hframe.slots fd.toNat hin.slot
  refine ⟨desc, ⟨hin.nonneg, hin.lt, by rw [hslot]; exact hin.slot, ?_⟩,
    hframe.dead _ hdata hdead⟩
  rw [hslot, hframe.structs _ hid]
  exact hin.struct

/-- **A closed descriptor is a stale slot**, whatever the run does in between.
No call takes a slot that is not empty, so nothing new comes to be where the
closed one was. -/
theorem Run.stale {k₀ k : Kernel} {history : List (Call × Reply)}
    (h₀ : TableInv k₀) (hrun : Run k₀ history k) {fd : ℤ}
    (hclosed : Closed fd history) : Stale k fd := by
  induction hrun with
  | start => exact absurd hclosed id
  | @call history k k' c reply hbefore hcall ih =>
    have hinv := hbefore.tableInv h₀
    have hframe := (Call.run_inv hinv hcall).2
    cases c with
    | fopen filename mode => exact (ih hclosed.2).callFrame hinv hframe
    | fread data blockSize numBlocks fd' =>
      exact (ih hclosed).callFrame hinv hframe
    | fseek fd' offset whence => exact (ih hclosed).callFrame hinv hframe
    | fstat fd' stat => exact (ih hclosed).callFrame hinv hframe
    | fclose fd' =>
      rcases hclosed with ⟨rfl, hzero⟩ | hclosed
      · obtain ⟨r, hclose, rfl⟩ := Call.run_ok hcall
        rcases fclose_cases hclose with
          ⟨rfl, -⟩ | ⟨-, desc, k₁, hin, hopen, rfl⟩
        · exact absurd hzero (by decide)
        · refine ⟨desc, ⟨hin.nonneg, hin.lt, ?_, ?_⟩,
            Function.update_self _ _ _⟩
          · show (k₁.fileDescriptors fd'.toNat).addr ≠ 0
            rw [hopen.fileDescriptors]
            exact hin.slot
          · show k₁.fileDescriptorStructs (k₁.fileDescriptors fd'.toNat).id
              = some desc
            rw [hopen.fileDescriptors, hopen.fileDescriptorStructs]
            exact hin.struct
      · exact (ih hclosed).callFrame hinv hframe

/-- A program that starts by reading the private data does not return. -/
theorem Stale.body_not_ok {α : Type} {k k' : Kernel} {desc : FileDescriptor}
    (hdead : k.fatItemDescriptors desc.privateData.id = none)
    {f : FatItemDescriptor → KernelM α} {r : α} :
    (deref Kernel.fatItemDescriptors desc.privateData >>= f) k
      ≠ Except.ok (r, k') := by
  intro h
  obtain ⟨data, k₁, hdata, -⟩ := Machine.bind_eq_ok.mp h
  obtain ⟨-, hlive, -⟩ := deref_eq_ok hdata
  rw [hdead] at hlive
  cases hlive

/-- **A call on a stale slot does not return**, unless it is a read that asks
for nothing. It reads the private data, which has been given back. -/
theorem Stale.not_ok {k k' : Kernel} {fd : ℤ} (h : Stale k fd) {c : Call}
    (hc : c.fd = some fd) (hasks : ¬ c.AsksNothing) (reply : Reply) :
    c.run k ≠ Except.ok (reply, k') := by
  obtain ⟨desc, hin, hdead⟩ := h
  intro hrun
  cases c with
  | fopen filename mode => cases hc
  | fread data blockSize numBlocks fd' =>
    obtain rfl := Option.some.inj hc
    obtain ⟨r, hread, -⟩ :=
      Call.run_ok (f := fun r : ℤ × Output Byte => Reply.data r.1 r.2) hrun
    have hcond : (blockSize = 0 ∨ numBlocks = 0 ∨ fd' < 0) ↔ fd' < 0 :=
      ⟨fun hor => (hor.resolve_left fun hz => hasks (Or.inl hz)).resolve_left
        fun hz => hasks (Or.inr hz), fun hneg => Or.inr (Or.inr hneg)⟩
    rw [fread, if_congr hcond rfl rfl] at hread
    rcases call_cases hread with ⟨-, -, hno⟩ | ⟨desc', hin', hbody⟩
    · exact hno desc hin
    · obtain rfl := Option.some.inj (hin.struct.symm.trans hin'.struct)
      exact Stale.body_not_ok hdead hbody
  | fseek fd' offset whence =>
    obtain rfl := Option.some.inj hc
    obtain ⟨r, hseek, -⟩ := Call.run_ok hrun
    rcases call_cases hseek with ⟨-, -, hno⟩ | ⟨desc', hin', hbody⟩
    · exact hno desc hin
    · obtain rfl := Option.some.inj (hin.struct.symm.trans hin'.struct)
      exact Stale.body_not_ok hdead hbody
  | fstat fd' stat =>
    obtain rfl := Option.some.inj hc
    obtain ⟨r, hstat, -⟩ :=
      Call.run_ok (f := fun r : ℤ × FileStat => Reply.stat r.1 r.2) hrun
    rcases call_cases hstat with ⟨-, -, hno⟩ | ⟨desc', hin', hbody⟩
    · exact hno desc hin
    · obtain rfl := Option.some.inj (hin.struct.symm.trans hin'.struct)
      exact Stale.body_not_ok hdead hbody
  | fclose fd' =>
    obtain rfl := Option.some.inj hc
    obtain ⟨r, hclose, -⟩ := Call.run_ok hrun
    rcases call_cases hclose with ⟨-, -, hno⟩ | ⟨desc', hin', hbody⟩
    · exact hno desc hin
    · obtain rfl := Option.some.inj (hin.struct.symm.trans hin'.struct)
      exact Stale.body_not_ok hdead hbody

/-! ## The condition

Of the calls on a closed descriptor only a read that asks for nothing is turned
away, because it is before the descriptor is looked at. -/

/-- **A call that is turned away**: it returns `-EINVAL`, and the heap table
and the descriptors are as they were. -/
def TurnedAway (k : Kernel) (c : Call) : Prop :=
  ∃ reply k', c.run k = Except.ok (reply, k') ∧ reply.status = -einval
    ∧ SameTable k.heap k.mem k'.mem ∧ k'.fileDescriptors = k.fileDescriptors
    ∧ k'.fileDescriptorStructs = k.fileDescriptorStructs
    ∧ k'.fatItemDescriptors = k.fatItemDescriptors

/-- **Every call on a closed descriptor is turned away**, in a run of some
calls from a state, after a history. -/
def NoUseAfterClose (k : Kernel) (history : List (Call × Reply)) :
    List Call → Prop
  | [] => True
  | c :: rest => (∀ fd, c.fd = some fd → Closed fd history → TurnedAway k c)
    ∧ ∀ reply k', c.run k = Except.ok (reply, k') →
      NoUseAfterClose k' ((c, reply) :: history) rest

/-- **No call is made on a closed descriptor**, but reads that ask for
nothing. -/
def NoCallAfterClose (k : Kernel) (history : List (Call × Reply)) :
    List Call → Prop
  | [] => True
  | c :: rest => (∀ fd, c.fd = some fd → Closed fd history → c.AsksNothing)
    ∧ ∀ reply k', c.run k = Except.ok (reply, k') →
      NoCallAfterClose k' ((c, reply) :: history) rest

/-- A read that asks for nothing is turned away. -/
theorem Call.AsksNothing.turnedAway {c : Call} (h : c.AsksNothing)
    (k : Kernel) :
    TurnedAway k c := by
  cases c with
  | fread data blockSize numBlocks fd =>
    refine ⟨Reply.data (-einval) data, k, ?_, rfl, SameTable.refl _ _,
      rfl, rfl, rfl⟩
    have hcond : blockSize = 0 ∨ numBlocks = 0 ∨ fd < 0 := by
      rcases h with h | h
      · exact Or.inl h
      · exact Or.inr (Or.inl h)
    rw [Call.run, Machine.get_bind, File.fread, if_pos hcond]
    rfl
  | fopen filename mode => exact absurd h id
  | fseek fd offset whence => exact absurd h id
  | fstat fd stat => exact absurd h id
  | fclose fd => exact absurd h id

/-- The same, from the middle of a run. -/
theorem noUseAfterClose_iff_of_run {k₀ : Kernel} (h₀ : TableInv k₀)
    (calls : List Call) {k : Kernel} {history : List (Call × Reply)}
    (hrun : Run k₀ history k) :
    NoUseAfterClose k history calls ↔ NoCallAfterClose k history calls := by
  induction calls generalizing k history with
  | nil => exact Iff.rfl
  | cons c rest ih =>
    refine and_congr (forall_congr' fun fd => forall_congr' fun hc =>
      forall_congr' fun hclosed =>
        ⟨fun haway => ?_, fun hasks => hasks.turnedAway k⟩)
      (forall_congr' fun reply => forall_congr' fun k' =>
        forall_congr' fun hcall => ih (hrun.call hcall))
    by_contra hasks
    obtain ⟨reply, k', hcall, -⟩ := haway
    exact (hrun.stale h₀ hclosed).not_ok hc hasks reply hcall

/-- **A run of calls is safe after every close exactly when it does not call on
what it has closed.** For every start of the table, and every sequence of
`fopen`, `fread`, `fseek`, `fstat` and `fclose`. A slot is never emptied, so a
call on a closed descriptor finds the descriptor that was freed, and reads it.
The condition is about what the calls of the run have returned, and not about
states; a read of nothing returns before it looks at the slot. -/
theorem no_use_after_close_iff {k₀ : Kernel} (h₀ : TableInv k₀)
    (calls : List Call) :
    NoUseAfterClose k₀ [] calls ↔ NoCallAfterClose k₀ [] calls :=
  noUseAfterClose_iff_of_run h₀ calls Run.start

/-! ## A run that closes twice

The volume of `N00bOS.FileReads`, mounted, with nothing open. -/

/-- The volume of the file of two clusters, mounted, with nothing open: the
allocations are the private data and the three streams. -/
def mountedKernel : Kernel :=
  { twoClusterKernel with
    mem := storeItem (fun a => if (a - heapTableAddress).toNat < 4 then 1
      else 0) 0 twoClusterItem
    nextId := 5
    fileDescriptors := fun _ => Ptr.null
    itemArrays := fun _ => none
    fatItems := fun _ => none
    fatItemDescriptors := fun _ => none
    fileDescriptorStructs := fun _ => none }

/-- The path `0:/a` of the file. -/
def samplePath : List Byte := [0x30#8, 0x3A#8, 0x2F#8, 0x61#8]

/-- The mode `r`. -/
def readMode : List Byte := [0x72#8]

theorem mountedKernel_tableInv :
    TableInv mountedKernel := TableInv.of_empty fun _ _ => rfl

/-- The theorem on a run that opens, closes and then reads nothing. -/
theorem no_use_after_close_iff_empty_read :
    NoUseAfterClose mountedKernel [] [Call.fopen samplePath readMode,
      Call.fclose 0, Call.fread (fun _ => Fetched.sector 0) 1 0 0] :=
  (no_use_after_close_iff mountedKernel_tableInv _).mpr
    ⟨fun _ hc _ => (nomatch hc), fun _ _ _ =>
      ⟨fun _ _ hclosed => absurd hclosed.2 id, fun _ _ _ =>
        ⟨fun _ _ _ => Or.inr rfl, fun _ _ _ => trivial⟩⟩⟩

/-- A run that opens the file and closes it twice is not turned away the
second time: `fopen` returns, the first `fclose` returns `0`, and the second
one reads freed data. -/
theorem second_close_not_turned_away :
    Machine.result (fopen samplePath readMode >>= fclose) mountedKernel = some 0
      ∧ ¬ NoUseAfterClose mountedKernel []
          [Call.fopen samplePath readMode, Call.fclose 0, Call.fclose 0] := by
  have hopens : Machine.result (fopen samplePath readMode) mountedKernel
      = some 0 := by
    decide +kernel
  have hcloses : Machine.result (fopen samplePath readMode >>= fclose)
      mountedKernel = some 0 := by
    decide +kernel
  refine ⟨hcloses, fun hsafe => ?_⟩
  obtain ⟨k₁, hopen⟩ := Machine.result_eq_some.mp hopens
  obtain ⟨k₂, hclose⟩ := Machine.result_eq_some.mp hcloses
  rw [Machine.bind_ok hopen] at hclose
  have hrun₁ : (Call.fopen samplePath readMode).run mountedKernel
      = Except.ok (Reply.result 0, k₁) := by
    rw [Call.run, Machine.bind_ok hopen]
    rfl
  have hrun₂ : (Call.fclose 0).run k₁ = Except.ok (Reply.result 0, k₂) := by
    rw [Call.run, Machine.bind_ok hclose]
    rfl
  obtain ⟨reply, k₃, hrun₃, -⟩ :=
    ((hsafe.2 _ _ hrun₁).2 _ _ hrun₂).1 0 rfl (Or.inl ⟨rfl, rfl⟩)
  have hstale : Stale k₂ 0 := ((Run.start.call hrun₁).call hrun₂).stale
    mountedKernel_tableInv
    (Or.inl ⟨rfl, rfl⟩)
  exact hstale.not_ok rfl id reply hrun₃

end File

end N00bOS
