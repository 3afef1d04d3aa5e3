import N00bOS.PagingWalk

/-!
# Mapping a range, and freeing an address space

What the two loops over an address space do to its map and to the heap.
`paging_free` gives back exactly the allocations of the address space
(`pagingFree_spec`). `paging_map` replaces as many pages of the map as it
counts (`pagingMapPages_spec`); how many it counts is `mappedPages`, and
because the difference of two `PAGING_ENTRY` pointers counts words of four
bytes, that is a quarter of the pages of the range.

A range of pages is taken apart at its first page, as the loop does it
(`mapRange_update`), with the pages numbered from there on; the numbers wrap
around where the range does. What the count comes to is arithmetic on the two
ends, and from 2GB on the difference of the pointers is negative
(`mappedPages_of_lt`, `mappedPages_of_le`).
-/

namespace N00bOS

open Memory (index)

/-! ## `paging_free`

The tables are given back one after the other, each found through a directory
that is still there. -/

section Free

variable {h : Heap} {m : Memory} {rest : List Extent}

/-- **A `kfree` of the first allocation of the list** leaves the others, and
the data of all. -/
theorem Heap.HeapInv.kfree_head (hw : h.Wf) {e : Extent}
    (hinv : h.HeapInv m (e :: rest)) :
    h.HeapInv (h.kfree m (h.blockAddress e.first)) rest
      ∧ ∀ f : Extent, f.stop ≤ h.total →
          Set.EqOn (h.kfree m (h.blockAddress e.first)) m (h.dataRegion f) := by
  have he := List.mem_cons_self (a := e) (l := rest)
  obtain ⟨hfreed, hframe⟩ := Heap.kfree_spec hw hinv he
  rw [List.erase_cons_head] at hfreed
  refine ⟨hfreed, fun f hf => hframe.mono
    (Set.subset_compl_iff_disjoint_right.mpr ?_)⟩
  exact Heap.disjoint_dataRegion_tableRegion hw hf (hinv.packed.stop_le e he)
    (hinv.packed.pos e he)

variable {chunk : Word} {L : SpaceLayout} {page : Word → Word}

/-- **The loop of `paging_free`** gives back the tables from `idx` on. It
changes no byte of any block, so the directory that it reads the next pointer
from is as before. -/
theorem pagingFreeTables_spec (hw : h.Wf) (left idx : ℕ)
    (hle : idx + left ≤ 1024)
    (hinv : h.HeapInv m ((List.range' idx left).map L.tableExtent ++ rest))
    (hstop : ∀ e ∈ L.extents, e.stop ≤ h.total)
    (hs : SpaceAt h m chunk L page) :
    h.HeapInv (pagingFreeTables h.kfree chunk left idx m) rest
      ∧ ∀ f : Extent, f.stop ≤ h.total →
          Set.EqOn (pagingFreeTables h.kfree chunk left idx m) m
            (h.dataRegion f) := by
  induction left generalizing idx m with
  | zero => exact ⟨hinv, fun _ _ _ _ => rfl⟩
  | succ left ih =>
    rw [List.range'_succ, List.map_cons, List.cons_append] at hinv
    obtain ⟨hfreed, hdata⟩ := hinv.kfree_head hw
    have htable : m.load32 (index (pagingDirectory m chunk) idx)
      &&& pagingAddressMask
        = h.blockAddress (L.tableExtent idx).first := by
      rw [hs.directory_eq]
      exact hs.table_eq idx (by omega)
    rw [pagingFreeTables, htable]
    obtain ⟨hrest, hdata'⟩ := ih (idx + 1) (by omega) hfreed
      (hs.congr fun e he => hdata e (hstop e he))
    exact ⟨hrest, fun f hf => (hdata' f hf).trans (hdata f hf)⟩

/-- The tables first, then the directory, then the chunk. -/
theorem moveEnds (c d : Extent) (ts rest : List Extent) :
    (c :: (ts ++ [d]) ++ rest).Perm (ts ++ d :: c :: rest) := by
  have hsplit : c :: (ts ++ [d]) ++ rest = c :: ((ts ++ [d]) ++ rest) :=
    List.cons_append
  have hjoin : (ts ++ [d]) ++ c :: rest = ts ++ d :: c :: rest := by
    rw [List.append_assoc, List.singleton_append]
  rw [hsplit, ← hjoin]
  exact List.perm_middle.symm

/-- **`paging_free`** gives back the allocations of the address space, and no
others. It goes from the tables to the chunk, so that each pointer is read from
a block that is still in use. -/
theorem pagingFree_spec (hw : h.Wf) (hinv : h.HeapInv m (L.extents ++ rest))
    (hs : SpaceAt h m chunk L page) :
    h.HeapInv (pagingFree h.kfree chunk m) rest
      ∧ ∀ f : Extent, f.stop ≤ h.total →
          Set.EqOn (pagingFree h.kfree chunk m) m (h.dataRegion f) := by
  have hstop : ∀ e ∈ L.extents, e.stop ≤ h.total := fun e he =>
    hinv.packed.stop_le e (List.mem_append_left rest he)
  have hperm := moveEnds L.chunkExtent L.directoryExtent
    ((List.range' 0 1024).map L.tableExtent) rest
  obtain ⟨htables, hdata₁⟩ := pagingFreeTables_spec hw 1024 0 (by decide)
    (hinv.perm hperm) hstop hs
  have hs₁ := hs.congr fun e he => hdata₁ e (hstop e he)
  obtain ⟨hdirectory, hdata₂⟩ := htables.kfree_head hw
  obtain ⟨hchunk, hdata₃⟩ := hdirectory.kfree_head hw
  have heq : pagingFree h.kfree chunk m
    = h.kfree (h.kfree (pagingFreeTables h.kfree chunk 1024 0 m)
      (h.blockAddress L.directoryExtent.first))
        (h.blockAddress L.chunkExtent.first) := by
    rw [pagingFree]
    show h.kfree (h.kfree (pagingFreeTables h.kfree chunk 1024 0 m)
      (pagingDirectory
      (pagingFreeTables h.kfree chunk 1024 0 m) chunk)) chunk = _
    rw [hs₁.directory_eq]
    exact congrArg (h.kfree _) hs.chunk_eq
  rw [heq]
  exact ⟨hchunk, fun f hf => (hdata₃ f hf).trans
    ((hdata₂ f hf).trans (hdata₁ f hf))⟩

end Free

/-! ## `paging_map`

First maps and ranges alone, and then the loop and the checks before it. -/

/-- The number of the page `p` is in, counted from the page at `base`. -/
def pageNumber (base p : Word) : ℕ := (p - base).toNat / 4096

/-- The page with a number. -/
def rangePage (base : Word) (k : ℕ) : Word := base + BitVec.ofNat 32 (k * 4096)

/-- **A map with a range replaced**: the `n` pages from `virtualAddress` on go
to those from `physicalAddress` on. -/
def mapRange (page : Word → Word) (virtualAddress physicalAddress flags : Word)
    (n : ℕ) :
    Word → Word := fun p =>
  if pageNumber virtualAddress p < n then
    (physicalAddress + BitVec.ofNat 32 (pageNumber virtualAddress p * 4096))
      ||| flags
  else page p

@[simp] theorem mapRange_zero (page : Word → Word) (va pa flags : Word) :
    mapRange page va pa flags 0 = page := rfl

theorem pageNumber_self (base : Word) : pageNumber base base = 0 := by
  rw [pageNumber, BitVec.sub_self]
  rfl

/-- An address is in the page of its page. -/
theorem pageNumber_pageBase {base : Word} (hbase : base.toNat % 4096 = 0)
    (va : Word) :
    pageNumber base (pageBase va) = pageNumber base va := by
  have hva := va.isLt
  have hb := base.isLt
  rw [pageNumber, pageNumber, BitVec.toNat_sub, BitVec.toNat_sub, pageBase,
    and_pagingAddressMask_toNat]
  omega

/-- The number of the page an offset from the base is in. -/
theorem pageNumber_add (base : Word) (o : ℕ) (ho : o < 2 ^ 32) :
    pageNumber base (base + BitVec.ofNat 32 o) = o / 4096 := by
  rw [pageNumber, BitVec.add_comm, BitVec.add_sub_cancel, BitVec.toNat_ofNat,
    Nat.mod_eq_of_lt ho]

/-- The page of an address, by its number. -/
theorem pageBase_eq {base : Word} (hbase : base.toNat % 4096 = 0) (va : Word) :
    pageBase va = base + BitVec.ofNat 32 (pageNumber base va * 4096) := by
  have hva := va.isLt
  have hb := base.isLt
  apply BitVec.eq_of_toNat_eq
  rw [pageBase, and_pagingAddressMask_toNat, pageNumber, BitVec.toNat_add,
    BitVec.toNat_ofNat, BitVec.toNat_sub]
  omega

/-- The pages of a range are aligned as the first is. -/
theorem rangePage_aligned {base : Word}
    (hbase : base.toNat % 4096 = 0) (k : ℕ) :
    (rangePage base k).toNat % 4096 = 0 := by
  rw [rangePage, BitVec.toNat_add, BitVec.toNat_ofNat]
  omega

/-- A page of a range has the number it was given. -/
theorem pageNumber_rangePage (base : Word) {k : ℕ} (hk : k < 2 ^ 20) :
    pageNumber base (rangePage base k) = k := by
  rw [rangePage, pageNumber_add base (k * 4096) (by omega),
    Nat.mul_div_cancel k (by decide)]

/-- A page is the one with its number. -/
theorem rangePage_pageNumber {base p : Word} (hbase : base.toNat % 4096 = 0)
    (hp : p.toNat % 4096 = 0) : rangePage base (pageNumber base p) = p := by
  rw [rangePage, ← pageBase_eq hbase, pageBase_of_aligned hp]

/-- A page that is not the first is one less from the next page on. -/
theorem pageNumber_next {base p : Word} (hbase : base.toNat % 4096 = 0)
    (hp : p.toNat % 4096 = 0) (hne : p ≠ base) :
    pageNumber base p = pageNumber (base + pagingPageSize) p + 1 := by
  unfold pageNumber pagingPageSize
  bv_omega

/-- The first page is the last from the next page on. -/
theorem pageNumber_next_self (base : Word) :
    pageNumber (base + pagingPageSize) base = 2 ^ 20 - 1 := by
  unfold pageNumber pagingPageSize
  bv_omega

/-- **Replacing the first page and then the rest** replaces the range. The
range may wrap around at the end of the address space, as long as no page comes
twice in it. -/
theorem mapRange_update {page : Word → Word} {va pa flags p : Word} {n : ℕ}
    (hva : va.toNat % 4096 = 0) (hp : p.toNat % 4096 = 0)
    (hn : n + 1 ≤ 2 ^ 20) :
    mapRange (Function.update page va (pa ||| flags)) (va + pagingPageSize)
      (pa + pagingPageSize)
        flags n p = mapRange page va pa flags (n + 1) p := by
  unfold mapRange
  by_cases hpv : p = va
  · rw [hpv, pageNumber_next_self, if_neg (by omega), Function.update_self,
      pageNumber_self, if_pos (Nat.succ_pos n)]
    exact congrArg (· ||| flags) (BitVec.add_zero pa).symm
  · rw [pageNumber_next hva hp hpv, Function.update_of_ne hpv]
    by_cases hlt : pageNumber (va + pagingPageSize) p < n
    · rw [if_pos hlt, if_pos (Nat.succ_lt_succ hlt), Nat.add_mul,
        BitVec.ofNat_add, BitVec.add_assoc, BitVec.add_comm pagingPageSize]
      rfl
    · rw [if_neg hlt, if_neg (fun h => hlt (Nat.lt_of_succ_lt_succ h))]

/-- A page and the next one are aligned alike. -/
theorem add_pagingPageSize_aligned {va : Word} (hva : va.toNat % 4096 = 0) :
    (va + pagingPageSize).toNat % 4096 = 0 := by
  unfold pagingPageSize
  bv_omega

/-- **The loop of `paging_map`** replaces a range of the map. It writes inside
the tables of the address space, so the pointers to these stay, and every other
allocation keeps its bytes. -/
theorem pagingMapPages_spec {h : Heap} (hw : h.Wf) {chunk : Word}
    {L : SpaceLayout} {es : List Extent} (hmem : ∀ e ∈ L.extents, e ∈ es)
    (hnd : L.extents.Nodup) (flags : Word) (left : ℕ) (hleft : left ≤ 2 ^ 20)
    {m : Memory} {va : Word} (pa : Word) {page : Word → Word}
    (hva : va.toNat % 4096 = 0) (hinv : h.HeapInv m es)
    (hs : SpaceAt h m chunk L page) :
    ∃ m', pagingMapPages (h.blockAddress L.directory) flags left va pa m
      = (0, m')
      ∧ h.HeapInv m' es ∧ SpaceAt h m' chunk L (mapRange page va pa flags left)
      ∧ ∀ e ∈ es, e ∉ L.extents → Set.EqOn m' m (h.dataRegion e) := by
  induction left generalizing m va pa page with
  | zero => exact ⟨m, rfl, hinv, hs, fun _ _ _ _ _ => rfl⟩
  | succ left ih =>
    obtain ⟨hzero, hwrite, hset⟩ := hs.set hw hinv hmem hnd hva (pa ||| flags)
    have htable := L.tableExtent_mem (directoryIdxOf_lt va)
    obtain ⟨hinv₁, hkeep₁⟩ := hinv.eqOn_dataRegion hw (hmem _ htable) hwrite
    rw [hs.directory_eq] at hzero hset hinv₁ hkeep₁
    obtain ⟨m', hrun, hinv', hspace, hkeep⟩ := ih (Nat.le_of_succ_le hleft)
      (pa + pagingPageSize) (add_pagingPageSize_aligned hva) hinv₁ hset
    refine ⟨m', ?_, hinv',
      hspace.congr_page fun i j _ _ => ?_, fun e he hne => ?_⟩
    · rw [pagingMapPages]
      simp only [hzero, ne_eq, not_true_eq_false, if_false]
      exact hrun
    · exact mapRange_update hva (pageAddress_aligned i j) hleft
    · refine (hkeep e he hne).trans (hkeep₁ e he fun heq => hne ?_)
      rw [heq]
      exact htable

/-- **How many pages `paging_map` counts** in a range of so many bytes. The two
ends are pointers to words of four bytes, so their difference is a number of
words; it is signed, and divided by the size of a page as a number that is not.
-/
def mappedPages (size : Word) : ℕ :=
  (BitVec.ofInt 32 (size.toInt.tdiv 4) / pagingPageSize).toInt.toNat

/-- Below 2GB that is a quarter of its pages. -/
theorem mappedPages_of_lt {size : Word} (h : size.toNat < 2 ^ 31) :
    mappedPages size = size.toNat / 16384 := by
  have hint : size.toInt = (size.toNat : ℤ) :=
    BitVec.toInt_eq_toNat_of_lt (by omega)
  have hdiv : size.toInt.tdiv 4 = ((size.toNat / 4 : ℕ) : ℤ) := by
    rw [hint, Int.ofNat_tdiv]
    rfl
  have hword : (BitVec.ofInt 32 (size.toInt.tdiv 4) / pagingPageSize).toNat
      = size.toNat / 16384 := by
    rw [hdiv, BitVec.ofInt_natCast, BitVec.toNat_udiv, BitVec.toNat_ofNat]
    show size.toNat / 4 % 2 ^ 32 / 4096 = _
    omega
  rw [mappedPages, BitVec.toInt_eq_toNat_of_lt (by omega), hword]
  rfl

/-- How many pages `paging_map` counts from 2GB on: the difference of the two
pointers is negative then. -/
theorem mappedPages_of_le {size : Word} (h4 : size.toNat % 4096 = 0)
    (h : 2 ^ 31 ≤ size.toNat) :
    mappedPages size = 786432 + size.toNat / 16384 := by
  have hlt := size.isLt
  have hint : size.toInt.tdiv 4 = -((2 ^ 32 - size.toNat) / 4 : ℕ) := by
    have hneg : size.toInt = -(((2 ^ 32 - size.toNat) : ℕ) : ℤ) := by
      rw [BitVec.toInt_eq_toNat_cond, if_neg (by omega)]
      omega
    rw [hneg, Int.neg_tdiv, Int.ofNat_tdiv]
    rfl
  have hword : (BitVec.ofInt 32 (size.toInt.tdiv 4) / pagingPageSize).toNat
      = 786432 + size.toNat / 16384 := by
    have hpage : pagingPageSize.toNat = 4096 := rfl
    rw [hint, BitVec.toNat_udiv, BitVec.toNat_ofInt, hpage]
    omega
  rw [mappedPages, BitVec.toInt_eq_toNat_of_lt (by omega), hword]
  rfl

/-- The pages between the end of a range and the last one counted, either way
round. -/
theorem mappedPages_between_iff {size : Word} (h4 : size.toNat % 4096 = 0)
    (p q : ℕ → Prop) :
    ((size.toNat < 2 ^ 31 → ∀ k, size.toNat / 16384 ≤ k →
      k < size.toNat / 4096 → p k)
      ∧ (2 ^ 31 ≤ size.toNat → ∀ k, size.toNat / 4096 ≤ k →
          k < 786432 + size.toNat / 16384 → q k))
      ↔ (∀ k, mappedPages size ≤ k → k < size.toNat / 4096 → p k)
        ∧ ∀ k, size.toNat / 4096 ≤ k → k < mappedPages size → q k := by
  have hlt := size.isLt
  by_cases hbig : size.toNat < 2 ^ 31
  · rw [mappedPages_of_lt hbig]
    refine ⟨fun hm => ⟨hm.1 hbig, fun k h₁ h₂ => absurd h₂ (by omega)⟩,
      fun hm => ⟨fun _ => hm.1, fun hle => absurd hle (by omega)⟩⟩
  · rw [mappedPages_of_le h4 (Nat.le_of_not_lt hbig)]
    refine ⟨fun hm => ⟨fun k h₁ h₂ => absurd h₂ (by omega),
      hm.2 (Nat.le_of_not_lt hbig)⟩, fun hm =>
        ⟨fun hle => absurd hle hbig, fun _ => hm.2⟩⟩

theorem mappedPages_lt (size : Word) : mappedPages size < 2 ^ 20 := by
  have hlt : (BitVec.ofInt 32 (size.toInt.tdiv 4) / pagingPageSize).toNat
      < 2 ^ 20 := by
    rw [BitVec.toNat_udiv]
    have := (BitVec.ofInt 32 (size.toInt.tdiv 4)).isLt
    show _ / 4096 < _
    omega
  rw [mappedPages, BitVec.toInt_eq_toNat_of_lt (by omega)]
  exact hlt

/-- **A range that `paging_map` takes.** These are its checks: three addresses
at page boundaries, and an end that is not below the start. -/
structure IsRange (virtualAddress physicalAddress physicalAddressEnd : Word) :
    Prop where
  virtual : virtualAddress.toNat % 4096 = 0
  physical : physicalAddress.toNat % 4096 = 0
  physicalEnd : physicalAddressEnd.toNat % 4096 = 0
  le : physicalAddress.toNat ≤ physicalAddressEnd.toNat

/-- **`paging_map` on a range** runs its loop, for as many pages as the
difference of the two pointers comes to. -/
theorem pagingMap_of_isRange {va pa paEnd : Word} (hr : IsRange va pa paEnd)
    (m : Memory) (directory flags : Word) :
    pagingMap m directory va pa paEnd flags
      = pagingMapPages directory flags (mappedPages (paEnd - pa)) va pa m := by
  have hlt : ¬ paEnd < pa := by
    rw [BitVec.lt_def]
    exact Nat.not_lt.mpr hr.le
  rw [pagingMap, (pagingIsAligned_iff va).mpr hr.virtual,
    (pagingIsAligned_iff pa).mpr hr.physical,
    (pagingIsAligned_iff paEnd).mpr hr.physicalEnd]
  simp only [Bool.not_true, Bool.false_eq_true, if_false, if_neg hlt]
  rfl

/-- **`paging_map` on anything else** changes nothing. It returns `-EINVAL`,
whichever of the checks it is that fails. -/
theorem pagingMap_of_not_isRange {va pa paEnd : Word}
    (hr : ¬ IsRange va pa paEnd) (m : Memory) (directory flags : Word) :
    pagingMap m directory va pa paEnd flags = (-einval, m) := by
  have hcon : pagingIsAligned va = true → pagingIsAligned pa = true →
      pagingIsAligned paEnd = true → paEnd < pa := fun hva hpa hend => by
    rw [BitVec.lt_def]
    refine Nat.lt_of_not_le fun hle => hr ?_
    exact ⟨(pagingIsAligned_iff va).mp hva, (pagingIsAligned_iff pa).mp hpa,
      (pagingIsAligned_iff paEnd).mp hend, hle⟩
  rw [pagingMap]
  cases hva : pagingIsAligned va with
  | false => rfl
  | true =>
    cases hpa : pagingIsAligned pa with
    | false => rfl
    | true =>
      cases hend : pagingIsAligned paEnd with
      | false => rfl
      | true =>
        rw [if_pos (hcon hva hpa hend)]
        rfl

/-! ## `paging_align`

What the function does to an address, on a page and off one. -/

/-- An aligned address stays. -/
theorem pagingAlign_of_aligned {address : Word} (h : address.toNat % 4096 = 0) :
    pagingAlign address = address := by
  rw [pagingAlign, if_neg]
  rw [ne_eq, not_not, ← BitVec.toNat_inj, BitVec.toNat_umod]
  exact h

/-- **An unaligned address stays unaligned**: a multiple of the page size is
added to it. -/
theorem pagingAlign_of_not_aligned {address : Word}
    (h : ¬ address.toNat % 4096 = 0) :
    ¬ (pagingAlign address).toNat % 4096 = 0 := by
  have hne : address % pagingPageSize ≠ 0 := by
    rw [ne_eq, ← BitVec.toNat_inj, BitVec.toNat_umod]
    exact h
  rw [pagingAlign, if_pos hne]
  have hmod : (address % pagingPageSize).toNat = address.toNat % 4096 :=
    BitVec.toNat_umod
  have hlt := address.isLt
  generalize address % pagingPageSize = r at hmod
  have hpage : pagingPageSize.toNat = 4096 := rfl
  rw [BitVec.toNat_add, BitVec.toNat_add, BitVec.toNat_sub, hmod, hpage]
  omega

end N00bOS
