import N00bOS.AddressSpaces

/-!
# Calls on an address space

`paging_new`, then any `paging_set` and `paging_map` calls on the directory it
made, then `paging_free`. A call replaces pages of the map (`PagingCall.apply`)
and writes inside the tables only, so that `paging_free` still finds every
allocation of `paging_new` and the heap table is the one from before
(`address_space_reclaimed`).

One `paging_map` call maps exactly its range when the pages that it leaves out,
or maps behind the end, were mapped that way before
(`paging_map_exact_iff`).
-/

namespace N00bOS

/-! ## Calls

What each call does to the map, for every argument; a call that is turned down
replaces nothing. -/

instance (va pa paEnd : Word) : Decidable (IsRange va pa paEnd) :=
  decidable_of_iff (va.toNat % 4096 = 0 ∧ pa.toNat % 4096 = 0
    ∧ paEnd.toNat % 4096 = 0
      ∧ pa.toNat ≤ paEnd.toNat)
    ⟨fun h => ⟨h.1, h.2.1, h.2.2.1, h.2.2.2⟩, fun h => ⟨h.1, h.2, h.3, h.4⟩⟩

/-- A call on the directory of an address space. -/
inductive PagingCall where
  /-- `paging_set`. -/
  | set (virtualAddress value : Word)
  /-- `paging_map`. -/
  | map (virtualAddress physicalAddress physicalAddressEnd flags : Word)

namespace PagingCall

/-- The memory after a call. -/
def run (chunk : Word) (m : Memory) : PagingCall → Memory
  | set va value => (pagingSet m (pagingDirectory m chunk) va value).2
  | map va pa paEnd flags =>
    (pagingMap m (pagingDirectory m chunk) va pa paEnd flags).2

/-- The memory after some calls. -/
def runAll (chunk : Word) (m : Memory) (calls : List PagingCall) : Memory :=
  calls.foldl (run chunk) m

/-- **The map after a call.** A call that `paging_set` or `paging_map` turns
down leaves the map as it was. -/
def apply (page : Word → Word) : PagingCall → Word → Word
  | set va value =>
    if va.toNat % 4096 = 0 then Function.update page va value else page
  | map va pa paEnd flags =>
    if IsRange va pa paEnd then mapRange page va pa flags
      (mappedPages (paEnd - pa)) else page

/-- The map after some calls. -/
def applyAll (page : Word → Word) (calls : List PagingCall) :
    Word → Word := calls.foldl apply page

section Run

variable {h : Heap} {chunk : Word} {L : SpaceLayout} {es : List Extent}

/-- **A call replaces pages of the map**, and leaves the heap alone. This is
for every argument, with those that are turned down among them. -/
theorem run_spec (hw : h.Wf) (hmem : ∀ e ∈ L.extents, e ∈ es)
    (hnd : L.extents.Nodup) {m : Memory} {page : Word → Word}
    (hinv : h.HeapInv m es) (hs : SpaceAt h m chunk L page)
    (call : PagingCall) :
    h.HeapInv (call.run chunk m) es
      ∧ SpaceAt h (call.run chunk m) chunk L (call.apply page) := by
  cases call with
  | set va value =>
    rw [run, apply]
    by_cases hva : va.toNat % 4096 = 0
    · obtain ⟨-, hwrite, hset⟩ := hs.set hw hinv hmem hnd hva value
      rw [if_pos hva]
      have htable := L.tableExtent_mem (directoryIdxOf_lt va)
      exact ⟨(hinv.eqOn_dataRegion hw (hmem _ htable) hwrite).1, hset⟩
    · rw [if_neg hva, pagingSet_of_not_aligned hva]
      exact ⟨hinv, hs⟩
  | map va pa paEnd flags =>
    rw [run, apply]
    by_cases hr : IsRange va pa paEnd
    · obtain ⟨m', hrun, hinv', hs', -⟩ := pagingMapPages_spec hw hmem hnd flags
        (mappedPages (paEnd - pa)) (Nat.le_of_lt (mappedPages_lt _)) pa
          hr.virtual hinv hs
      rw [if_pos hr, pagingMap_of_isRange hr, hs.directory_eq, hrun]
      exact ⟨hinv', hs'⟩
    · rw [if_neg hr, pagingMap_of_not_isRange hr]
      exact ⟨hinv, hs⟩

/-- **Any calls** do, one after the other. The heap invariant and the address
space in memory are what each of them finds and leaves. -/
theorem runAll_spec (hw : h.Wf) (hmem : ∀ e ∈ L.extents, e ∈ es)
    (hnd : L.extents.Nodup) (calls : List PagingCall) {m : Memory}
    {page : Word → Word} (hinv : h.HeapInv m es)
    (hs : SpaceAt h m chunk L page) :
    h.HeapInv (runAll chunk m calls) es
      ∧ SpaceAt h (runAll chunk m calls) chunk L (applyAll page calls) := by
  induction calls generalizing m page with
  | nil => exact ⟨hinv, hs⟩
  | cons call calls ih =>
    obtain ⟨hinv₁, hs₁⟩ := run_spec hw hmem hnd hinv hs call
    exact ih hinv₁ hs₁

end Run

end PagingCall

/-! ## Building an address space

From `paging_new` to `paging_free`, with the calls between them. -/

open PagingCall

/-- **An address space in use**: what `paging_new` made in a heap state of a
run, every allocation of it a success, and the calls made on it since. -/
structure BuiltSpace (h : Heap) (m₀ : Memory) where
  /-- The heap before `paging_new`. -/
  before : HeapState
  reachable : HeapReachable h m₀ before
  /-- The flags of `paging_new`. -/
  flags : Byte
  /-- The chunk it returned. -/
  chunk : Word
  /-- The memory it left. -/
  fresh : Memory
  room : (pagingNew h.kzallocFit flags before.mem).isSome
  made : pagingNew h.kzalloc flags before.mem = some (chunk, fresh)
  /-- The calls since, the first of them first. -/
  calls : List PagingCall

namespace BuiltSpace

variable {h : Heap} {m₀ : Memory}

/-- The memory now. -/
def mem (b : BuiltSpace h m₀) : Memory := runAll b.chunk b.fresh b.calls

/-- The directory. -/
def directory (b : BuiltSpace h m₀) : Word := pagingDirectory b.mem b.chunk

/-- **The address space is in memory**, in allocations beside those from
before. -/
theorem space (hw : h.Wf) (h₀ : h.HeapInv m₀ []) (b : BuiltSpace h m₀) :
    ∃ L, h.HeapInv b.mem (L.extents ++ b.before.live.map (Allocation.extent h))
      ∧ SpaceAt h b.mem b.chunk L (applyAll (fun p => p ||| b.flags.setWidth 32)
        b.calls) := by
  obtain ⟨r, hfit⟩ := Option.isSome_iff_exists.mp b.room
  rw [(pagingNew_kzalloc hfit).symm.trans b.made] at hfit
  obtain ⟨L, hinv, hs, -⟩ := pagingNew_spec hw b.flags
    (b.reachable.inv hw h₀).heap hfit
  have hnd := (List.nodup_append.mp hinv.packed.nodup).1
  exact ⟨L, runAll_spec hw (fun e he => List.mem_append_left _ he) hnd
    b.calls hinv hs⟩

/-- **A walk reads the map** that the calls made of the one of `paging_new`.
That one has each page go to itself, with the flags that the address space was
made with. -/
theorem walk (hw : h.Wf) (h₀ : h.HeapInv m₀ []) (b : BuiltSpace h m₀)
    (va : Word) :
    pagingWalk b.mem b.directory va
      = applyAll (fun p => p ||| b.flags.setWidth 32) b.calls
        (pageBase va) := by
  obtain ⟨L, -, hs⟩ := b.space hw h₀
  exact hs.walk va

end BuiltSpace

/-- **Address spaces are fully reclaimed.** On every heap, after every run of
`kmalloc` and `kfree` that leaves room for the allocations of `paging_new`:
`paging_new` returns, and `paging_free` leaves the heap table as it was before
it, whatever `paging_set` and `paging_map` calls came in between. The calls
write inside the tables, and keep the pointers to them; so `paging_free` finds
all 1026 allocations, and gives back each of them once. -/
theorem address_space_reclaimed (c : HeapConfig) (m₀ : Memory) (s : HeapState)
    (hs : HeapReachable (kheapInit c m₀).1 (kheapInit c m₀).2 s) (flags : Byte)
    (hroom : (pagingNew (kheapInit c m₀).1.kzallocFit flags s.mem).isSome)
    (calls : List PagingCall) :
    ∃ chunk m₁, pagingNew (kheapInit c m₀).1.kzalloc flags s.mem
      = some (chunk, m₁)
      ∧ ∀ i, i < (kheapInit c m₀).1.total →
        (kheapInit c m₀).1.entry
            (pagingFree (kheapInit c m₀).1.kfree chunk (runAll chunk m₁ calls))
              i
          = (kheapInit c m₀).1.entry s.mem i := by
  obtain ⟨hw, hinit⟩ := kheapInit_inv c m₀
  obtain ⟨⟨chunk, m₁⟩, hfit⟩ := Option.isSome_iff_exists.mp hroom
  have hmade := pagingNew_kzalloc hfit
  obtain ⟨L, hinv, hspace⟩ :=
    BuiltSpace.space hw hinit ⟨s, hs, flags, chunk, m₁, hroom, hmade, calls⟩
  refine ⟨chunk, m₁, hmade, fun i hi => ?_⟩
  exact (pagingFree_spec hw hinv hspace).1.entry_eq (hs.inv hw hinit).heap
    (fun _ => Iff.rfl) hi

/-- The theorem on the kernel's heap after boot, for an address space with one
page set and four mapped. -/
theorem address_space_reclaimed_after_boot : ∃ chunk m₁,
    pagingNew (kheapInit kernelHeapConfig fun _ => 0).1.kzalloc 3#8
        (kheapInit kernelHeapConfig fun _ => 0).2 = some (chunk, m₁)
      ∧ ∀ i, i < (kheapInit kernelHeapConfig fun _ => 0).1.total →
        (kheapInit kernelHeapConfig fun _ => 0).1.entry
            (pagingFree (kheapInit kernelHeapConfig fun _ => 0).1.kfree chunk
              (runAll chunk m₁ [set 0x00400000#32 0x00ABC007#32,
                map 0x00800000#32 0x02000000#32 0x02010000#32 7#32])) i
          = (kheapInit kernelHeapConfig fun _ => 0).1.entry
              (kheapInit kernelHeapConfig fun _ => 0).2 i :=
  address_space_reclaimed kernelHeapConfig (fun _ => 0) _ HeapReachable.init 3#8
    (pagingNew_booted 3#8) _

/-! ## What `paging_map` maps

The range that was asked for against the one that is counted, page by page. -/

/-- **`paging_map` maps exactly the range**: it succeeds, every page of the
range goes where it is to go, and every other page where it went. -/
def MapsExactly (m : Memory) (directory va pa paEnd flags : Word) : Prop :=
  let r := pagingMap m directory va pa paEnd flags
  let pages := (paEnd.toNat - pa.toNat) / 4096
  r.1 = 0
    ∧ (∀ k, k < pages →
        pagingWalk r.2 directory (rangePage va k) = rangePage pa k ||| flags)
    ∧ ∀ p : Word, p.toNat % 4096 = 0 → (∀ k, k < pages → p ≠ rangePage va k) →
        pagingWalk r.2 directory p = pagingWalk m directory p

/-- What `paging_map` is to do: map a range, or turn down what is none and
change nothing. -/
def MapsOrRefuses (m : Memory) (directory va pa paEnd flags : Word) : Prop :=
  (IsRange va pa paEnd → MapsExactly m directory va pa paEnd flags)
    ∧ (¬ IsRange va pa paEnd →
      pagingMap m directory va pa paEnd flags = (-einval, m))

/-- **The pages that `paging_map` does not count were mapped before.** Of a
range below 2GB it counts a quarter of the pages; of one from 2GB on it counts
786432 and a quarter, and those behind the end must have been mapped on to it
before. -/
def RestMapped (m : Memory) (directory va pa paEnd flags : Word) : Prop :=
  ((paEnd - pa).toNat < 2 ^ 31 → ∀ k, (paEnd - pa).toNat / 16384 ≤ k →
    k < (paEnd - pa).toNat / 4096 →
      pagingWalk m directory (rangePage va k) = rangePage pa k ||| flags)
  ∧ (2 ^ 31 ≤ (paEnd - pa).toNat → ∀ k, (paEnd - pa).toNat / 4096 ≤ k →
    k < 786432 + (paEnd - pa).toNat / 16384 →
      pagingWalk m directory (rangePage va k) = rangePage pa k ||| flags)

section Exact

variable {h : Heap} {m₀ : Memory} {va pa paEnd : Word}

/-- **Every walk after `paging_map`** on a range: the pages that are counted go
to the range, and the others where they went. -/
theorem BuiltSpace.walk_pagingMap (hw : h.Wf) (h₀ : h.HeapInv m₀ [])
    (b : BuiltSpace h m₀) (hr : IsRange va pa paEnd) (flags : Word) :
    ∃ m', pagingMap b.mem b.directory va pa paEnd flags = (0, m')
      ∧ ∀ p : Word, p.toNat % 4096 = 0 → pagingWalk m' b.directory p
        = if pageNumber va p < mappedPages (paEnd - pa) then
            rangePage pa (pageNumber va p) ||| flags
          else pagingWalk b.mem b.directory p := by
  obtain ⟨L, hinv, hs⟩ := b.space hw h₀
  have hnd := (List.nodup_append.mp hinv.packed.nodup).1
  obtain ⟨m', hrun, -, hs', -⟩ := pagingMapPages_spec hw
    (fun e he => List.mem_append_left _ he) hnd flags (mappedPages (paEnd - pa))
    (Nat.le_of_lt (mappedPages_lt _)) pa hr.virtual hinv hs
  have hdirectory : b.directory = h.blockAddress L.directory := hs.directory_eq
  refine ⟨m', ?_, fun p hp => ?_⟩
  · rw [pagingMap_of_isRange hr, hdirectory, hrun]
  · have hbefore : pagingWalk b.mem b.directory p = _ := hs.walk p
    have hafter := hs'.walk p
    rw [hs'.directory_eq, ← hdirectory] at hafter
    rw [hbefore, hafter, mapRange, pageBase_of_aligned hp]
    rfl

/-- A page outside the range is one with a larger number. -/
theorem forall_ne_rangePage_iff {base p : Word} (hbase : base.toNat % 4096 = 0)
    (hp : p.toNat % 4096 = 0) {n : ℕ} (hn : n ≤ 2 ^ 20) :
    (∀ k, k < n → p ≠ rangePage base k) ↔ n ≤ pageNumber base p := by
  constructor
  · intro hne
    by_contra hlt
    exact hne _ (Nat.lt_of_not_le hlt) (rangePage_pageNumber hbase hp).symm
  · rintro hle k hk rfl
    rw [pageNumber_rangePage base (by omega)] at hle
    omega

/-- **`paging_map` maps exactly a range when the pages that it does not count
were mapped before**, and turns down everything that is not a range. The pages
are counted as the difference of two pointers, which is in words: a quarter of
the pages below 2GB, and from there on more than there are. So a range goes
through right only if the rest of it was there already, and if what is mapped
behind its end was so before. -/
theorem paging_map_exact_iff (c : HeapConfig) (m₀ : Memory)
    (b : BuiltSpace (kheapInit c m₀).1 (kheapInit c m₀).2)
    (va pa paEnd flags : Word) :
    MapsOrRefuses b.mem b.directory va pa paEnd flags
      ↔ (IsRange va pa paEnd →
        RestMapped b.mem b.directory va pa paEnd flags) := by
  obtain ⟨hw, hinit⟩ := kheapInit_inv c m₀
  by_cases hr : IsRange va pa paEnd
  swap
  · exact iff_of_true ⟨fun h => absurd h hr, fun _ =>
      pagingMap_of_not_isRange hr _ _ _⟩
      fun h => absurd h hr
  obtain ⟨m', hrun, hwalk⟩ := b.walk_pagingMap hw hinit hr flags
  have hsize : (paEnd - pa).toNat = paEnd.toNat - pa.toNat :=
    BitVec.toNat_sub_of_le (BitVec.le_def.mpr hr.le)
  have hsize4 : (paEnd - pa).toNat % 4096 = 0 := by
    have := hr.physical
    have := hr.physicalEnd
    omega
  have hcount := mappedPages_lt (paEnd - pa)
  have hpages : (paEnd - pa).toNat / 4096 ≤ 2 ^ 20 := by
    have := (paEnd - pa).isLt
    omega
  have hpage : ∀ k, k < 2 ^ 20 → pagingWalk m' b.directory (rangePage va k)
      = if k < mappedPages (paEnd - pa) then rangePage pa k ||| flags
        else pagingWalk b.mem b.directory (rangePage va k) := fun k hk => by
    rw [hwalk _ (rangePage_aligned hr.virtual k), pageNumber_rangePage va hk]
  have hexact : MapsOrRefuses b.mem b.directory va pa paEnd flags
      ↔ MapsExactly b.mem b.directory va pa paEnd flags :=
    ⟨fun h => h.1 hr, fun h => ⟨fun _ => h, fun hnr => absurd hr hnr⟩⟩
  rw [hexact, MapsExactly, hrun, ← hsize, forall_prop_of_true hr, RestMapped,
    mappedPages_between_iff hsize4]
  constructor
  · rintro ⟨-, hmaps, hkeeps⟩
    refine ⟨fun k h₁ h₂ => ?_, fun k h₁ h₂ => ?_⟩
    · -- a page of the range that was not counted
      have hk := hmaps k h₂
      rwa [hpage k (by omega), if_neg (Nat.not_lt.mpr h₁)] at hk
    · -- a page behind the range that was
      have haligned := rangePage_aligned hr.virtual k
      have hk := hkeeps _ haligned
        ((forall_ne_rangePage_iff hr.virtual haligned hpages).mpr
        (by rwa [pageNumber_rangePage va (by omega)]))
      rwa [hpage k (by omega), if_pos h₂, eq_comm] at hk
  · rintro ⟨hrest, hbehind⟩
    refine ⟨rfl, fun k hk => ?_, fun p hp hne => ?_⟩
    · rw [hpage k (by omega)]
      by_cases hlt : k < mappedPages (paEnd - pa)
      · rw [if_pos hlt]
      · rw [if_neg hlt, hrest k (Nat.le_of_not_lt hlt) hk]
    · rw [forall_ne_rangePage_iff hr.virtual hp hpages] at hne
      rw [hwalk p hp]
      by_cases hlt : pageNumber va p < mappedPages (paEnd - pa)
      · rw [if_pos hlt, ← hbehind _ hne hlt, rangePage_pageNumber hr.virtual hp]
      · rw [if_neg hlt]

end Exact

/-- There is an address space right after boot, which maps every page to itself
with its flags. -/
theorem exists_builtSpace (flags : Byte) :
    ∃ b : BuiltSpace (kheapInit kernelHeapConfig fun _ => 0).1
        (kheapInit kernelHeapConfig fun _ => 0).2,
      ∀ p : Word, p.toNat % 4096 = 0 →
        pagingWalk b.mem b.directory p = p ||| flags.setWidth 32 := by
  obtain ⟨hw, hinit⟩ := kheapInit_inv kernelHeapConfig fun _ => 0
  obtain ⟨⟨chunk, m₁⟩, hfit⟩ := Option.isSome_iff_exists.mp
    (pagingNew_booted flags)
  refine ⟨⟨_, HeapReachable.init, flags, chunk, m₁, pagingNew_booted flags,
    pagingNew_kzalloc hfit, []⟩, fun p hp => ?_⟩
  rw [BuiltSpace.walk hw hinit, pageBase_of_aligned hp]
  rfl

/-- The theorem on four pages that are mapped to where they are already. -/
theorem paging_map_exact_iff_in_place :
    ∃ b : BuiltSpace (kheapInit kernelHeapConfig fun _ => 0).1
        (kheapInit kernelHeapConfig fun _ => 0).2,
      MapsOrRefuses b.mem b.directory 0x400000#32 0x400000#32
        0x404000#32 7#32 := by
  obtain ⟨b, hb⟩ := exists_builtSpace 7#8
  refine ⟨b, (paging_map_exact_iff kernelHeapConfig (fun _ => 0) b _ _ _ _).mpr
    fun hr =>
      ⟨fun _ k _ _ => ?_, fun hle => absurd hle (by decide)⟩⟩
  exact hb _ (rangePage_aligned hr.virtual k)

/-- One page is not mapped: a quarter of a page is none. -/
theorem one_page_not_mapped :
    ∃ b : BuiltSpace (kheapInit kernelHeapConfig fun _ => 0).1
        (kheapInit kernelHeapConfig fun _ => 0).2,
      IsRange 0x400000#32 0#32 0x1000#32
        ∧ ¬ MapsOrRefuses b.mem b.directory 0x400000#32 0#32
          0x1000#32 7#32 := by
  obtain ⟨hw, hinit⟩ := kheapInit_inv kernelHeapConfig fun _ => 0
  have hr : IsRange 0x400000#32 0#32 0x1000#32 := by decide
  obtain ⟨b, hb⟩ := exists_builtSpace 3#8
  refine ⟨b, hr, fun h => ?_⟩
  obtain ⟨m', hrun, hwalk⟩ := b.walk_pagingMap hw hinit hr 7#32
  obtain ⟨-, hmaps, -⟩ := h.1 hr
  have hpage := hmaps 0 (by decide)
  have haligned := rangePage_aligned hr.virtual 0
  rw [hrun, hwalk _ haligned, if_neg (by decide), hb _ haligned] at hpage
  exact absurd hpage (by decide)

end N00bOS
