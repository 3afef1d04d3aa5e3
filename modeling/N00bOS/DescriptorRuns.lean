import N00bOS.LoadBinary

/-!
# Descriptors are numbered once

`fopen` takes the first slot of the table that is empty, and no call empties a
slot. So the files that are opened in a run are numbered `0`, `1`, `2`, … in
the order in which they are opened, whatever is closed in between, and after
`FS_MAX_FILE_DESCRIPTORS` of them no file can be opened any more
(`descriptors_count_up`).

What carries the induction is that the slots which are taken are the first ones
(`TakenUpTo`). Only `new_file_descriptor` puts something in a slot, and it
takes the first that is empty, so that one call keeps this
(`Call.run_takenUpTo`); a run is its calls (`Run.handedOut_eq`). Nothing is
asked of the disk, of what is free on the heap, or of what the calls answer.
-/

namespace N00bOS

open KernelM

/-- An allocation on a heap that is not at address `0` is not null, whatever
is in the table. -/
theorem Heap.kzallocFit_ne_zero {h : Heap} (hw : h.Wf)
    (hstart : h.startAddress ≠ 0) {m m' : Memory} {size p : Word}
    (hrun : h.kzallocFit m size = some (p, m')) : p ≠ 0 := by
  have hsize := Heap.size_lt_of_kzallocFit hrun
  have hpos : 0 < Heap.blocksFor size := Nat.succ_pos _
  have hkzalloc := Heap.kzalloc_of_kzallocFit hrun
  rcases Heap.findFirstFitStartBlock_spec hw.size_lt m
    (Heap.alignToUpper_toNat hsize) hpos with
    ⟨i, hi, hroom⟩ | ⟨hnone, -⟩
  · have hstop : i + Heap.blocksFor size ≤ h.total := hroom.1.1
    obtain ⟨m'', hkmalloc, -⟩ := Heap.kmalloc_run hw hsize hstop hi
    obtain ⟨m₃, hkmalloc'⟩ := Heap.kmalloc_of_kzalloc hkzalloc
    rw [← (Prod.mk.inj (Option.some.inj (hkmalloc.symm.trans hkmalloc'))).1]
    exact blockAddress_ne_zero hw hstart (by omega)
  · rw [Heap.kzallocFit, hnone, if_neg (by decide)] at hrun
    cases hrun

theorem allocate_addr_ne_zero {k k' : Kernel} (hw : k.heap.Wf)
    (hstart : k.heap.startAddress ≠ 0) {size : Word} {p : Ptr}
    (h : allocate size k = Except.ok (p, k')) : p.addr ≠ 0 := by
  rw [allocate] at h
  cases hrun : k.heap.kzallocFit k.mem size with
  | none =>
    rw [hrun] at h
    cases h
  | some r =>
    rw [hrun] at h
    rw [← (Prod.mk.inj (Except.ok.inj h)).1]
    exact Heap.kzallocFit_ne_zero hw hstart hrun

namespace File

/-! ## The table, slot by slot

What a run of `fopen` that has returned did to the table: nothing, or one slot
more. -/

/-- **The first `n` slots are taken**, and no other. It is the invariant of the
runs: a slot that has been taken stays so, and the next one to be taken is the
first that is not. -/
def TakenUpTo (k : Kernel) (n : ℕ) : Prop :=
  ∀ i, i < fsMaxFileDescriptors → ((k.fileDescriptors i).addr ≠ 0 ↔ i < n)

theorem TakenUpTo.congr {k k' : Kernel} {n : ℕ} (h : TakenUpTo k n)
    (htable : k'.fileDescriptors = k.fileDescriptors) : TakenUpTo k' n := by
  intro i hi
  rw [htable]
  exact h i hi

/-- The slot that is found is the first one that is not taken. -/
theorem TakenUpTo.freeSlot_eq {k : Kernel} {n idx : ℕ} (h : TakenUpTo k n)
    (hslot : freeSlot k.fileDescriptors = some idx) : idx = n := by
  obtain ⟨hlt, hfree⟩ := freeSlot_spec hslot
  have hle : n ≤ idx := Nat.le_of_not_lt fun hn => (h idx hlt).mpr hn hfree
  by_contra hne
  -- slot `n` is free, so the search would have stopped there
  have hn : n < idx := by omega
  have htaken := (List.find?_range_eq_some.mp hslot).2.2 n hn
  have hnfree : ¬ (k.fileDescriptors n).addr ≠ 0 := fun hne' =>
    absurd ((h n (by omega)).mp hne') (Nat.lt_irrefl n)
  rw [not_not.mp hnfree] at htaken
  exact absurd htaken (by decide)

/-- A run of `fopen` to its end takes the next slot. -/
theorem FopenRun.takenUpTo {filename mode : List Byte} {k k' : Kernel}
    {idx n : ℕ} {root : PathRoot} {fs : FilesystemRef} {p descriptor : Ptr}
    {k₁ k₂ k₃ : Kernel}
    (hrun : FopenRun filename mode k k' idx root fs p descriptor k₁ k₂ k₃)
    (hw : k₂.heap.Wf) (hstart : k₂.heap.startAddress ≠ 0) (h : TakenUpTo k n) :
    idx = n ∧ n < fsMaxFileDescriptors ∧ TakenUpTo k' (n + 1) := by
  obtain ⟨rootPath, hparse, -⟩ := hrun.parse
  have htable : k₂.fileDescriptors = k.fileDescriptors :=
    (fat16Open_cases hrun.lookup).1.fileDescriptors.trans
      (OpenFrame.parse _ _ _ _ hparse).fileDescriptors
  have hslot := hrun.slot
  obtain rfl : idx = n := (h.congr htable).freeSlot_eq hslot
  refine ⟨rfl, (freeSlot_spec hslot).1, fun i hi => ?_⟩
  have htable' : k'.fileDescriptors
      = Function.update k.fileDescriptors idx descriptor := by
    rw [hrun.result]
    show Function.update k₃.fileDescriptors idx descriptor = _
    rw [(OpenFrame.allocate _ _ _ _ hrun.allocate).fileDescriptors, htable]
  rw [htable']
  by_cases hidx : i = idx
  · rw [hidx, Function.update_self]
    exact iff_of_true (allocate_addr_ne_zero hw hstart hrun.allocate)
      (Nat.lt_succ_self idx)
  · rw [Function.update_of_ne hidx, h i hi]
    omega

/-! ## Runs

The descriptors are read off the results of the calls, so the statement is
about what a caller has seen. -/

/-- The descriptors that were handed out, the latest first. -/
def handedOut : List (Call × Reply) → List ℤ
  | [] => []
  | (Call.fopen _ _, reply) :: history =>
    if reply.status < 0 then handedOut history
      else reply.status :: handedOut history
  | _ :: history => handedOut history

/-- **One call** hands out the next descriptor, or none. Every call but an
`fopen` that succeeds leaves the slots as they are, and that one fills the
first that is free. -/
theorem Call.run_takenUpTo {k k' : Kernel} {c : Call} {reply : Reply} {n : ℕ}
    (hw : k.heap.Wf) (hstart : k.heap.startAddress ≠ 0) (h : TakenUpTo k n)
    (hrun : c.run k = Except.ok (reply, k')) (history : List (Call × Reply)) :
    k'.heap = k.heap
      ∧ ((handedOut ((c, reply) :: history) = handedOut history
        ∧ TakenUpTo k' n)
        ∨ n < fsMaxFileDescriptors ∧ TakenUpTo k' (n + 1)
          ∧ handedOut ((c, reply) :: history)
            = (n : ℤ) :: handedOut history) := by
  cases c with
  | fopen filename mode =>
    obtain ⟨r, hopen, rfl⟩ := Call.run_ok hrun
    refine ⟨(grows_fopen _ _ _ _ _ hopen).heap, ?_⟩
    rcases fopen_run hopen with ⟨hneg, hno⟩ | ⟨idx, root, fs, p, descriptor, k₁,
      k₂, k₃, rfl, hfopen⟩
    · exact Or.inl ⟨if_pos hneg, h.congr hno.fileDescriptors⟩
    · have hheap : k₂.heap = k.heap := by
        have h₃ := (OpenFrame.allocate _ _ _ _ hfopen.allocate).heap
        have hk' := (grows_fopen _ _ _ _ _ hopen).heap
        rw [hfopen.result] at hk'
        exact h₃.symm.trans hk'
      obtain ⟨rfl, hlt, htaken⟩ :=
        hfopen.takenUpTo (hheap ▸ hw) (hheap ▸ hstart) h
      exact Or.inr ⟨hlt, htaken, if_neg (Int.not_lt.mpr (Int.natCast_nonneg _))⟩
  | fread data blockSize numBlocks fd =>
    obtain ⟨r, hread, -⟩ :=
      Call.run_ok (f := fun r : ℤ × Output Byte => Reply.data r.1 r.2) hrun
    have hframe := OpenFrame.of_reads (ReadFrame.fread _ _ _ _ _) _ _ _ hread
    exact ⟨hframe.heap, Or.inl ⟨rfl, h.congr hframe.fileDescriptors⟩⟩
  | fseek fd offset whence =>
    obtain ⟨r, hseek, -⟩ := Call.run_ok hrun
    rcases fseek_cases hseek with rfl | ⟨id, v, w, -, rfl⟩
    · exact ⟨rfl, Or.inl ⟨rfl, h⟩⟩
    · exact ⟨rfl, Or.inl ⟨rfl, h.congr rfl⟩⟩
  | fstat fd stat =>
    obtain ⟨r, hstat, -⟩ :=
      Call.run_ok (f := fun r : ℤ × FileStat => Reply.stat r.1 r.2) hrun
    have hframe := OpenFrame.of_reads (ReadFrame.fstat _ _) _ _ _ hstat
    exact ⟨hframe.heap, Or.inl ⟨rfl, h.congr hframe.fileDescriptors⟩⟩
  | fclose fd =>
    obtain ⟨r, hclose, -⟩ := Call.run_ok hrun
    rcases fclose_cases hclose with ⟨-, rfl⟩ | ⟨-, desc, k₁, -, hframe, rfl⟩
    · exact ⟨rfl, Or.inl ⟨rfl, h⟩⟩
    · exact ⟨hframe.heap, Or.inl ⟨rfl, h.congr hframe.fileDescriptors⟩⟩

/-- **A run** hands out `0`, `1`, `2`, …, and takes the slots in this order.
The induction carries the number of slots that are taken, which is the number
of files that have been opened. -/
theorem Run.handedOut_eq {k₀ k : Kernel} {history : List (Call × Reply)}
    (hw : k₀.heap.Wf) (hstart : k₀.heap.startAddress ≠ 0) (h₀ : TakenUpTo k₀ 0)
    (hrun : Run k₀ history k) :
    ∃ n, n ≤ fsMaxFileDescriptors ∧ k.heap = k₀.heap ∧ TakenUpTo k n
      ∧ (handedOut history).reverse = (List.range n).map fun i : ℕ =>
        (i : ℤ) := by
  induction hrun with
  | start => exact ⟨0, Nat.zero_le _, rfl, h₀, rfl⟩
  | @call history k k' c reply _ hcall ih =>
    obtain ⟨n, hle, hheap, htaken, hhanded⟩ := ih
    obtain ⟨hheap', hsame | ⟨hlt, htaken', hnext⟩⟩ :=
      Call.run_takenUpTo (hheap ▸ hw) (hheap ▸ hstart) htaken hcall history
    · exact ⟨n, hle, hheap'.trans hheap, hsame.2, hsame.1 ▸ hhanded⟩
    · refine ⟨n + 1, hlt, hheap'.trans hheap, htaken', ?_⟩
      rw [hnext, List.reverse_cons, hhanded, List.range_succ, List.map_append,
        List.map_singleton]

/-- **Descriptors are numbered once.** In a run that starts without open
files, whatever is called in it, the files that are opened are numbered from
`0` on in the order in which they are opened; the slots taken are the ones of
these numbers; and when all the slots are taken, no `fopen` succeeds. -/
theorem descriptors_count_up {k₀ k : Kernel} {history : List (Call × Reply)}
    (hw : k₀.heap.Wf) (hstart : k₀.heap.startAddress ≠ 0)
    (hempty : ∀ i, i < fsMaxFileDescriptors → (k₀.fileDescriptors i).addr = 0)
    (hrun : Run k₀ history k) :
    (handedOut history).reverse
        = (List.range (handedOut history).length).map (fun i : ℕ => (i : ℤ))
      ∧ (handedOut history).length ≤ fsMaxFileDescriptors
      ∧ (∀ i, i < fsMaxFileDescriptors →
        ((k.fileDescriptors i).addr ≠ 0 ↔ i < (handedOut history).length))
      ∧ ((handedOut history).length = fsMaxFileDescriptors →
        ∀ filename mode r k', fopen filename mode k = Except.ok (r, k') →
        r < 0) := by
  have h₀ : TakenUpTo k₀ 0 := fun i hi =>
    iff_of_false (not_not.mpr (hempty i hi)) (Nat.not_lt_zero i)
  obtain ⟨n, hle, hheap, htaken, hhanded⟩ := hrun.handedOut_eq hw hstart h₀
  have hlength : (handedOut history).length = n := by
    rw [← List.length_reverse, hhanded, List.length_map, List.length_range]
  rw [hlength]
  refine ⟨hhanded, hle, htaken, fun hfull filename mode r k' hopen => ?_⟩
  rcases fopen_run hopen with ⟨hneg, -⟩ | ⟨idx, root, fs, p, descriptor, k₁, k₂,
    k₃, -, hfopen⟩
  · exact hneg
  · -- there is no slot left
    have hfree := hfopen.opened
    exact absurd hfree.free ((htaken idx hfree.lt).mpr (hfull ▸ hfree.lt))

/-- The theorem on a run that opens a file, closes it and opens it again. -/
theorem descriptors_count_up_after_close :
    ∃ history k, Run mountedKernel history k ∧ handedOut history = [1, 0]
      ∧ (k.fileDescriptors 0).addr ≠ 0 := by
  have hresult : Machine.result (fopen samplePath readMode >>= fun _ =>
    fclose 0 >>= fun _ =>
      fopen samplePath readMode) mountedKernel = some 1 := by
    decide +kernel
  obtain ⟨k₃, hok⟩ := Machine.result_eq_some.mp hresult
  obtain ⟨r₁, k₁, hopen, hrest⟩ := Machine.bind_eq_ok.mp hok
  obtain ⟨r₂, k₂, hclose, hreopen⟩ := Machine.bind_eq_ok.mp hrest
  have hrun₁ : (Call.fopen samplePath readMode).run mountedKernel
      = Except.ok (Reply.result r₁, k₁) := by
    rw [Call.run, Machine.bind_ok hopen]
    rfl
  have hrun₂ : (Call.fclose 0).run k₁ = Except.ok (Reply.result r₂, k₂) := by
    rw [Call.run, Machine.bind_ok hclose]
    rfl
  have hrun₃ : (Call.fopen samplePath readMode).run k₂
      = Except.ok (Reply.result 1, k₃) := by
    rw [Call.run, Machine.bind_ok hreopen]
    rfl
  have hrun := ((Run.start.call hrun₁).call hrun₂).call hrun₃
  obtain ⟨hcount, -, htaken, -⟩ :=
    descriptors_count_up mountedKernel_heapOk.1.toWf (by decide)
      (fun _ _ => rfl) hrun
  have hlist : handedOut [(Call.fopen samplePath readMode, Reply.result 1),
      (Call.fclose 0, Reply.result r₂),
      (Call.fopen samplePath readMode, Reply.result r₁)]
      = 1 :: if r₁ < 0 then [] else [r₁] := rfl
  rw [hlist] at hcount htaken
  by_cases hneg : r₁ < 0
  · -- the second one would be the first to be handed out
    rw [if_pos hneg] at hcount
    exact absurd hcount (by decide)
  · rw [if_neg hneg] at hcount hlist htaken
    have hfirst : r₁ = 0 := (List.cons.inj hcount).1
    subst hfirst
    exact ⟨_, k₃, hrun, hlist, (htaken 0 (by decide)).mpr (by decide)⟩

end File

end N00bOS
