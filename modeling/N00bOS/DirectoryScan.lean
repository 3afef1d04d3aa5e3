import N00bOS.ClusterSpec
import N00bOS.Listing

/-!
# Scanning a directory

A directory on the disk is a listing of entries of 32 bytes: a first byte of
`0x00` ends it, and one of `0xE5` says that the entry is deleted. The loop of
`get_directory_total_items` goes over the entries that lie one after the other
from a position on (`scanned`), wherever they belong; its count is the number
of those that are not deleted (`countItems_spec`). An entry at a negative
position may be one that the sector buffer does not hold; `scanned` has no
value there, and the code takes what the memory holds before the buffer.

`countItems_round` is one round of the loop, as a case distinction on the entry
that is read, and the count is the induction over the listing that the entries
are (`N00bOS.Listing`). Positions are `int`s, so the entries repeat after
`2 ^ 27` of them: a listing is shorter than that, and the loop, which has so
many rounds, gets to its end.
-/

namespace N00bOS

open KernelM Listing

namespace Fat16

/-! ## Entries

What the bytes of an entry say of it, and which entries lie from a position
on. -/

/-- An entry that is free ends the directory. -/
def IsFree (item : FatDirectoryItem) : Prop := item 0 = 0x00#8

/-- An entry that is deleted. -/
def IsDeleted (item : FatDirectoryItem) : Prop := item 0 = 0xE5#8

instance :
    DecidablePred IsFree := fun item =>
      inferInstanceAs (Decidable (item 0 = 0x00#8))

instance :
    DecidablePred IsDeleted := fun item =>
      inferInstanceAs (Decidable (item 0 = 0xE5#8))

/-- The live entries of a directory. -/
abbrev liveItems (entries : List FatDirectoryItem) : List FatDirectoryItem :=
  kept IsDeleted entries

theorem length_liveItems_le (entries : List FatDirectoryItem) :
    (liveItems entries).length ≤ entries.length :=
  length_kept_le entries

/-- The entry that a read at a position gets; none if a byte of it is not
from the disk. -/
def scannedItem (sectors : ℤ → ℕ → Byte) (pos : ℤ) : Option FatDirectoryItem :=
  if pos.tmod sectorSize < 0 then none
  else some fun j : Fin 32 => diskAt sectors (wrap32 (pos + (j : ℕ)))

/-- **The entries from a position on**, one after the other on the disk.
Positions are `int`s, so after `2 ^ 27` entries they start over; of those below
`0` only the ones at the start of a sector are on the disk. -/
def scanned (sectors : ℤ → ℕ → Byte) (pos : ℤ) (i : ℕ) :
    Option FatDirectoryItem :=
  scannedItem sectors (wrap32 (pos + 32 * i))

/-- The entry at a position. -/
def entryAt (sectors : ℤ → ℕ → Byte) (pos : ℤ) : FatDirectoryItem := fun j =>
  diskAt sectors (pos + j)

theorem scanned_zero (sectors : ℤ → ℕ → Byte) {pos : ℤ} (hpos : IsInt32 pos) :
    scanned sectors pos 0 = scannedItem sectors pos := by
  rw [scanned, Int.natCast_zero, Int.mul_zero, Int.add_zero,
    wrap32_of_isInt32 hpos]

/-- The entries from the next one on. -/
theorem scanned_succ (sectors : ℤ → ℕ → Byte) (pos : ℤ) :
    (fun i => scanned sectors pos (i + 1))
      = scanned sectors (wrap32 (pos + 32)) := by
  funext i
  rw [scanned, scanned, wrap32_add_wrap32]
  exact congrArg (fun p => scannedItem sectors (wrap32 p)) (by push_cast; omega)

/-- The positions repeat. -/
theorem scanned_periodic (sectors : ℤ → ℕ → Byte) (pos : ℤ) (i : ℕ) :
    scanned sectors pos (i + 2 ^ 27) = scanned sectors pos i := by
  rw [scanned, scanned]
  refine congrArg (scannedItem sectors) ?_
  have hsum : pos + 32 * ((i + 2 ^ 27 : ℕ) : ℤ)
      = pos + 32 * i + (2 ^ 32 : ℕ) := by
    rw [Int.natCast_add, show ((2 ^ 27 : ℕ) : ℤ) = 134217728 from rfl,
      show ((2 ^ 32 : ℕ) : ℤ) = 4294967296 from rfl]
    omega
  rw [hsum]
  exact Int.add_bmod_right _ _

/-- At a position that is not negative, an entry is one of the disk. -/
theorem scannedItem_of_nonneg (sectors : ℤ → ℕ → Byte) {pos : ℤ}
    (hpos : 0 ≤ pos) :
    scannedItem sectors pos = some fun j : Fin 32 =>
      diskAt sectors (wrap32 (pos + (j : ℕ))) := by
  have hmod := Int.tmod_nonneg sectorSize hpos
  rw [scannedItem, if_neg (Int.not_lt.mpr hmod)]

/-- Below `2 ^ 31` they are the entries of the disk. -/
theorem scanned_eq_entryAt (sectors : ℤ → ℕ → Byte) {pos : ℤ} (hpos : 0 ≤ pos)
    {i : ℕ} (hi : pos + 32 * (i + 1) ≤ 2 ^ 31) :
    scanned sectors pos i = some (entryAt sectors (pos + 32 * i)) := by
  have hint : wrap32 (pos + 32 * i) = pos + 32 * i :=
    wrap32_of_isInt32 (by unfold IsInt32; omega)
  rw [scanned, hint, scannedItem_of_nonneg _ (by omega)]
  refine congrArg some (funext fun j => ?_)
  have hj := j.isLt
  rw [entryAt, wrap32_of_isInt32 (by unfold IsInt32; omega)]

/-! ## One entry

An entry is read into a local variable, through a sector buffer that is taken
and given back. -/

/-- **What is read into a local item** is the scanned entry, wherever the
sector buffer was. -/
theorem itemOf_overwrite (m : Memory) (sectors : ℤ → ℕ → Byte) (buf : Word)
    {pos : ℤ} {item : FatDirectoryItem}
    (h : scannedItem sectors pos = some item) :
    itemOf m (overwrite zeroOutput directoryItemSize (fetched sectors buf pos))
      0 = item := by
  rw [scannedItem] at h
  split at h
  · cases h
  · next hin =>
    obtain rfl := Option.some.inj h
    funext j
    have hj := j.isLt
    rw [itemOf, overwrite, if_pos (by unfold directoryItemSize; omega), fetched,
      if_neg (by omega), Fetched.value, Nat.mul_zero, Nat.zero_add]

/-- **One round of the scan**, whatever the block table holds: an entry is
read, and decides what is next. -/
theorem countItems_round {k : Kernel} (hp : k.heap.Placed) {stream : Ptr}
    (hne : stream.addr ≠ 0) {pos : ℤ}
    (hs : k.diskStreams stream.id = some ⟨pos, DiskRef.primary⟩)
    (hpos : IsInt32 pos) (directory : Option FatDirectory)
    (rounds numItems : ℕ) :
    ∃ k₁ item, Steady k k₁ ∧ (k.HeapOk → Quiet k k₁)
      ∧ k₁.diskStreams stream.id = some ⟨wrap32 (pos + 32), DiskRef.primary⟩
      ∧ (∀ entry, scannedItem k.sectors pos = some entry → item = entry)
      ∧ countItems stream directory (rounds + 1) numItems k
        = if IsFree item then Except.ok ((numItems : ℤ), k₁)
          else if IsDeleted item then
            countItems stream directory rounds numItems k₁
          else (populateItem directory numItems item >>= fun _ =>
            countItems stream directory rounds (numItems + 1)) k₁ := by
  obtain ⟨k₁, hread, hs₁, hsteady, hquiet⟩ :=
    Streamer.read_spec k.sectors hp hne hs hpos directoryItemSize zeroOutput
  refine ⟨k₁, itemOf k₁.mem (overwrite zeroOutput directoryItemSize
    (fetched k.sectors k.freshBlock pos)) 0, hsteady, hquiet, hs₁,
    fun entry hentry => itemOf_overwrite _ _ _ hentry, ?_⟩
  rw [countItems, Machine.get_bind, Machine.bind_ok hread]
  simp only [ne_eq, not_true_eq_false, if_false]
  rw [Machine.bind_ok (show localItem _ k₁ = Except.ok (_, k₁) from rfl)]
  generalize itemOf k₁.mem _ 0 = item
  by_cases hstop : IsFree item
  · rw [if_pos hstop, if_pos (show item 0 = 0x00#8 from hstop)]
    rfl
  · rw [if_neg hstop, if_neg (show ¬ item 0 = 0x00#8 from hstop)]
    by_cases hskip : IsDeleted item
    · rw [if_pos hskip, if_pos (show item 0 = 0xE5#8 from hskip)]
    · rw [if_neg hskip, if_neg (show ¬ item 0 = 0xE5#8 from hskip)]

/-! ## Counting

The loop without a directory to fill. The scan that fills one is in
`N00bOS.LowItems`. -/

section Counting

variable {stream : Ptr} {pos : ℤ} {entries : List FatDirectoryItem}

/-- A listing of what is scanned is shorter than the rounds there are. -/
theorem entries_length_lt {sectors : ℤ → ℕ → Byte}
    (h : Entries IsFree (scanned sectors pos) entries) :
    entries.length < 2 ^ 27 :=
  h.length_lt_of_periodic (by decide) fun i => scanned_periodic sectors pos i

/-- **The count** is the number of live entries. The induction is on the
entries before the one that starts with `0x00`; the rounds after the first are
the same scan from the next entry, with the stream there. -/
theorem countItems_spec {k : Kernel}
    (h : Entries IsFree (scanned k.sectors pos) entries) (hk : k.HeapOk)
    (hne : stream.addr ≠ 0)
    (hs : k.diskStreams stream.id = some ⟨pos, DiskRef.primary⟩)
    (hpos : IsInt32 pos) {rounds : ℕ} (hrounds : entries.length < rounds)
    (numItems : ℕ) :
    ∃ k', Quiet k k' ∧ countItems stream none rounds numItems k
      = Except.ok (((numItems + (liveItems entries).length : ℕ) : ℤ), k') := by
  generalize hslots : scanned k.sectors pos = slots at h
  induction h generalizing k pos rounds numItems with
  | @last slots a ha hstop =>
    obtain ⟨rounds, rfl⟩ := Nat.exists_eq_add_one.mpr
      (Nat.zero_lt_of_lt hrounds)
    obtain ⟨k₁, item, -, hq₁, -, hitem, hround⟩ :=
      countItems_round hk.1 hne hs hpos none rounds numItems
    subst hslots
    rw [scanned_zero _ hpos] at ha
    rw [hitem a ha, if_pos hstop] at hround
    exact ⟨k₁, hq₁ hk, hround⟩
  | @next slots a rest ha hgo _ ih =>
    obtain ⟨rounds, rfl⟩ := Nat.exists_eq_add_one.mpr
      (Nat.zero_lt_of_lt hrounds)
    obtain ⟨k₁, item, -, hq₁, hs₁, hitem, hround⟩ :=
      countItems_round hk.1 hne hs hpos none rounds numItems
    replace hq₁ := hq₁ hk
    subst hslots
    rw [scanned_zero _ hpos] at ha
    have hrest : scanned k₁.sectors (wrap32 (pos + 32)) = fun i =>
        scanned k.sectors pos (i + 1) := by
      rw [hq₁.sectors, scanned_succ]
    have hih := fun n => ih (hq₁.heapOk hk) hs₁ (isInt32_wrap32 _)
      (Nat.lt_of_succ_lt_succ hrounds) n hrest
    rw [hround, hitem a ha, if_neg hgo]
    by_cases hskip : IsDeleted a
    · obtain ⟨k₂, hq₂, hcount⟩ := hih numItems
      rw [if_pos hskip, liveItems, kept_cons_of_skip hskip]
      exact ⟨k₂, hq₁.trans hq₂, hcount⟩
    · obtain ⟨k₂, hq₂, hcount⟩ := hih (numItems + 1)
      rw [if_neg hskip, liveItems, kept_cons_of_not_skip hskip,
        List.length_cons, Nat.add_comm (kept IsDeleted rest).length,
        ← Nat.add_assoc]
      exact ⟨k₂, hq₁.trans hq₂, hcount⟩

end Counting

end Fat16

end N00bOS
