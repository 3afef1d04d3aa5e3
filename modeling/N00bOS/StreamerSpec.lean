import N00bOS.KernelSpec

/-!
# What the streamer reads

A read of `total` bytes at position `pos` is the bytes of the disk from `pos`
on, except that the first sector of a read at a negative position is indexed
from before its buffer. `fetched` says so byte by byte, and
`Streamer.read_spec` that the code does.

The loop starts in the middle of a sector and goes on at sector boundaries:
`readLoop_aligned` is every round but the first, by induction on what is left
to read, and `readLoop_spec` puts the first round in front of it. `read_eq`
adds the sector buffer, which is taken before the loop and given back after it,
and the position, which moves by what was asked for.

The theorems hold for every source, every position that is an `int` and every
table of the heap. On a heap in use the change is moreover quiet
(`read_quiet`).
-/

namespace N00bOS

open KernelM

/-- The byte of the disk at a position. -/
def diskAt {α : Type} (source : ℤ → ℕ → α) (pos : ℤ) : α :=
  source (pos / 512) (pos % 512).toNat

/-- **Byte `i` of a read at `pos`**, into the sector buffer at `buf`: the byte
of the disk at that place, or, while the read is in the sector of a negative
position, a byte from before the buffer. -/
def fetched {α : Type} (source : ℤ → ℕ → α) (buf : Word) (pos : ℤ) (i : ℕ) :
    Fetched α :=
  if pos.tmod sectorSize + i < 0 then
    Fetched.stray (buf + BitVec.ofInt 32 (pos.tmod sectorSize + i))
  else Fetched.sector (diskAt source (wrap32 (pos + i)))

/-- At a position that is not negative, a read gets the disk's bytes. -/
theorem fetched_of_nonneg {α : Type} (source : ℤ → ℕ → α) (buf : Word) {pos : ℤ}
    (hpos : 0 ≤ pos) (i : ℕ) :
    fetched source buf pos i
      = Fetched.sector (diskAt source (wrap32 (pos + i))) := by
  have hmod := Int.tmod_nonneg sectorSize hpos
  rw [fetched, if_neg (by omega)]

/-- The output with the first `n` bytes of a read in place. -/
def overwrite {α : Type} (out : Output α) (n : ℤ) (f : ℕ → Fetched α) :
    Output α :=
  fun i => if (i : ℤ) < n then f i else out i

namespace Streamer

variable {α : Type} {source : ℤ → ℕ → α} {buf : Word} {pos total : ℤ}

/-- A byte of the sector that a position is in has a position too. -/
theorem isInt32_add_of_same_sector {q : ℤ} {j : ℕ} (hq : IsInt32 q)
    (h₁ : q.tmod sectorSize + j < 512) : IsInt32 (q + j) := by
  obtain ⟨hsplit, hlo, -, hnn, -⟩ := tdiv_sectorSize_spec q
  unfold sectorSize at *
  unfold IsInt32 at *
  by_cases hneg : q < 0
  · omega
  · have := hnn (Int.not_lt.mp hneg)
    omega

/-- **A byte of the sector buffer**, counted from the start of the sector that a
position is in, is one of the disk. -/
theorem bufferByte_eq_diskAt (source : ℤ → ℕ → α) (buf : Word) {q : ℤ} {j : ℕ}
    (hq : IsInt32 q) (h₀ : 0 ≤ q.tmod sectorSize + j)
    (h₁ : q.tmod sectorSize + j < 512) :
    bufferByte buf (source (q.tdiv sectorSize)) (q.tmod sectorSize + j)
      = Fetched.sector (diskAt source (wrap32 (q + j))) := by
  have hint := isInt32_add_of_same_sector hq h₁
  obtain ⟨hsplit, -⟩ := tdiv_sectorSize_spec q
  rw [bufferByte, if_pos ⟨h₀, h₁⟩, wrap32_of_isInt32 hint, diskAt]
  generalize q.tmod sectorSize = offset at *
  generalize q.tdiv sectorSize = sector at *
  unfold sectorSize at hsplit
  have hsector : sector = (q + j) / 512 := by omega
  have hindex : offset + j = (q + j) % 512 := by omega
  rw [← hsector, ← hindex]

/-- A copying loop of no bytes. -/
theorem copyOut_zero (out : Output α) (start : ℕ) (bytes : ℕ → α) (first : ℤ) :
    copyOut out start 0 buf bytes first = out := by
  funext i
  rw [copyOut, if_neg]
  rintro ⟨h₁, h₂⟩
  exact absurd h₂ (Nat.not_lt.mpr h₁)

/-- A round copies up to the sector boundary, or what is left to read. -/
theorem bytesToRead_eq_min {remainder toNextSector : ℤ} (h₀ : 0 ≤ remainder)
    (h₁ : 0 ≤ toNextSector) :
    ((if remainder > toNextSector then toNextSector else remainder).toNat : ℤ)
      = min remainder toNextSector := by
  split
  · next hlt => rw [Int.toNat_of_nonneg h₁, Int.min_eq_right (Int.le_of_lt hlt)]
  · next hle => rw [Int.toNat_of_nonneg h₀, Int.min_eq_left (Int.not_lt.mp hle)]

/-- **The rounds after the first** go from sector boundary to sector boundary.
Each copies a whole sector, but for the last, which copies what is left. -/
theorem readLoop_aligned (rounds bytesRead sectorsRead : ℕ) (out : Output α)
    (hrounds : total.toNat - bytesRead < rounds)
    (hal : (bytesRead : ℤ) < total → (pos + bytesRead) % 512 = 0) :
    readLoop source DiskRef.primary buf pos total rounds bytesRead
      sectorsRead out
      = Except.ok (0, fun i => if bytesRead ≤ i ∧ (i : ℤ) < total
          then Fetched.sector (diskAt source (wrap32 (pos + i)))
            else out i) := by
  induction rounds generalizing bytesRead sectorsRead out with
  | zero => exact absurd hrounds (Nat.not_lt_zero _)
  | succ rounds ih =>
    rw [readLoop]
    by_cases hlt : (bytesRead : ℤ) < total
    · rw [if_pos hlt]
      obtain ⟨q, hq, hint⟩ := wrap32_spec (pos + bytesRead)
      set p := wrap32 (pos + bytesRead) with hp
      have hpal : p % 512 = 0 := by
        have := hal hlt
        omega
      have hspec := tdiv_sectorSize_spec p
      have hoffset : p.tmod sectorSize = 0 := by
        unfold sectorSize at hspec ⊢
        omega
      have hblock : readBlock source DiskRef.primary (p.tdiv sectorSize)
          = Except.ok (source (p.tdiv sectorSize)) := rfl
      simp only [hblock, hoffset]
      -- nothing is copied from before the offset, which is zero
      have hleading : (if 0 < sectorsRead then (0 : ℤ).toNat else 0) = 0 := by
        split <;> rfl
      simp only [hleading, Nat.add_zero]
      set n : ℕ := (if total - bytesRead > sectorSize - 0 then sectorSize - 0
        else total - bytesRead).toNat with hn
      have hn512 : (n : ℤ) = min (total - bytesRead) 512 :=
        bytesToRead_eq_min (Int.sub_nonneg_of_le (Int.le_of_lt hlt)) (by decide)
      have hnext : ((bytesRead + n : ℕ) : ℤ) < total →
          (pos + (bytesRead + n : ℕ)) % 512 = 0 := by
        have := hal hlt
        omega
      have hfewer : total.toNat - (bytesRead + n) < rounds := by
        have hmoved : 0 < n := by
          clear hspec hoffset hint hq hal hpal
          omega
        have htotal := Int.lt_toNat.mpr hlt
        exact Nat.lt_of_lt_of_le
          (Nat.sub_lt_sub_left htotal (Nat.lt_add_of_pos_right hmoved))
          (Nat.le_of_lt_succ hrounds)
      rw [ih (bytesRead + n) (sectorsRead + 1) _ hfewer hnext]
      refine congrArg Except.ok (congrArg (Prod.mk 0) (funext fun i => ?_))
      by_cases hafter : bytesRead + n ≤ i ∧ (i : ℤ) < total
      · rw [if_pos hafter, if_pos ⟨by omega, hafter.2⟩]
      · rw [if_neg hafter]
        by_cases hin : bytesRead ≤ i ∧ i < bytesRead + n
        · have hbyte := bufferByte_eq_diskAt source buf (j :=
            i - bytesRead) hint (by omega)
            (by omega)
          rw [hoffset] at hbyte
          have hi : pos + bytesRead + (i - bytesRead : ℕ) = pos + i := by omega
          rw [copyOut, if_pos hin, hbyte, if_pos ⟨hin.1, by omega⟩, hp,
            wrap32_add_wrap32, hi]
        · have hout : ¬ (bytesRead ≤ i ∧ (i : ℤ) < total) := fun hi => by
            have hle : bytesRead + n ≤ i :=
              Nat.not_lt.mp fun hlt' => hin ⟨hi.1, hlt'⟩
            exact hafter ⟨hle, hi.2⟩
          rw [copyOut, if_neg hin, copyOut_zero, if_neg hout]
    · rw [if_neg hlt]
      refine congrArg Except.ok (congrArg (Prod.mk 0) (funext fun i => ?_))
      rw [if_neg (by omega)]

/-- **The loop of `read`**, from a position that is an `int`. The first round
goes up to the end of a sector, and the others start at one. -/
theorem readLoop_spec (hpos : IsInt32 pos) (rounds : ℕ) (out : Output α)
    (hrounds : total.toNat < rounds) :
    readLoop source DiskRef.primary buf pos total rounds 0 0 out
      = Except.ok (0, overwrite out total (fetched source buf pos)) := by
  cases rounds with
  | zero => exact absurd hrounds (Nat.not_lt_zero _)
  | succ rounds =>
    rw [readLoop]
    by_cases hlt : ((0 : ℕ) : ℤ) < total
    · rw [if_pos hlt]
      have hp : wrap32 (pos + (0 : ℕ)) = pos := by
        rw [Int.natCast_zero, Int.add_zero, wrap32_of_isInt32 hpos]
      have hspec := tdiv_sectorSize_spec pos
      have hblock : readBlock source DiskRef.primary (pos.tdiv sectorSize)
          = Except.ok (source (pos.tdiv sectorSize)) := rfl
      simp only [hp, hblock, Nat.lt_irrefl, if_false, Nat.add_zero,
        Nat.zero_add]
      set offset := pos.tmod sectorSize with hoffset
      set n : ℕ := (if total - (0 : ℕ) > sectorSize - offset then
        sectorSize - offset
        else total - (0 : ℕ)).toNat with hn
      have hn' : (n : ℤ) = min (total - (0 : ℕ)) (sectorSize - offset) :=
        bytesToRead_eq_min (Int.sub_nonneg_of_le (Int.le_of_lt hlt))
          (by unfold sectorSize at hspec ⊢; omega)
      unfold sectorSize at hn'
      have hnext : (n : ℤ) < total → (pos + n) % 512 = 0 := by
        unfold sectorSize at hspec
        omega
      rw [readLoop_aligned rounds n 1 _ (by omega) hnext]
      refine congrArg Except.ok (congrArg (Prod.mk 0) (funext fun i => ?_))
      rw [overwrite]
      by_cases hafter : n ≤ i ∧ (i : ℤ) < total
      · rw [if_pos hafter, if_pos hafter.2, fetched, if_neg (by omega)]
      · rw [if_neg hafter]
        by_cases hin : 0 ≤ i ∧ i < 0 + n
        · rw [copyOut, if_pos hin, if_pos (by omega), fetched, ← hoffset,
            Nat.sub_zero]
          by_cases hstray : offset + i < 0
          · rw [if_pos hstray, bufferByte, if_neg (by omega)]
          · rw [if_neg hstray]
            exact bufferByte_eq_diskAt source buf hpos (by omega) (by omega)
        · have hout : ¬ (i : ℤ) < total := fun hi => by
            have hle : 0 + n ≤ i :=
              Nat.not_lt.mp fun hlt' => hin ⟨Nat.zero_le i, hlt'⟩
            exact hafter ⟨Nat.zero_add n ▸ hle, hi⟩
          rw [copyOut, if_neg hin, copyOut_zero, if_neg hout]
    · rw [if_neg hlt]
      refine congrArg Except.ok (congrArg (Prod.mk 0) (funext fun i => ?_))
      rw [overwrite, if_neg (by omega)]

/-- **`seek`** moves a stream. Any position will do; it is only looked at by
the next read. -/
theorem seek_spec {k : Kernel} {stream : Ptr} {d : DiskRef}
    (hp : stream.addr ≠ 0) (hs : k.diskStreams stream.id = some ⟨pos, d⟩)
    (pos' : ℤ) :
    seek stream pos' k = Except.ok (0,
      k.setDiskStream stream.id (some ⟨pos', d⟩)) := by
  rw [seek, Machine.bind_ok (deref_ok hp hs)]
  rfl

/-- **`read`**: it takes a sector buffer and gives it back, so that the memory
changes, and then moves the stream. -/
theorem read_eq (source : ℤ → ℕ → α) {k : Kernel} (hp : k.heap.Placed)
    {stream : Ptr} (hne : stream.addr ≠ 0)
    (hs : k.diskStreams stream.id = some ⟨pos, DiskRef.primary⟩)
    (hpos : IsInt32 pos) (total : ℤ) (out : Output α) :
    ∃ m', read source stream out total k
        = Except.ok ((0, overwrite out total (fetched source k.freshBlock pos)),
            ({ k with mem := m' } : Kernel).setDiskStream stream.id
              (some ⟨wrap32 (pos + total), DiskRef.primary⟩))
      ∧ Steady k { k with mem := m' }
      ∧ (k.HeapOk → Quiet k { k with mem := m' }) := by
  obtain ⟨m₁, halloc, hsteady, hquiet⟩ :=
    kzalloc_kfree hp (show (512 : Word).toNat < 4096 by decide)
  refine ⟨k.heap.kfree m₁ k.freshBlock, ?_, hsteady, hquiet⟩
  rw [read, Machine.bind_ok (deref_ok hne hs),
    Machine.bind_ok (show derefDisk DiskRef.primary k
    = Except.ok (k.disk, k) from rfl), Machine.bind_ok halloc,
    readLoop_spec hpos _ out (Nat.lt_succ_self _)]
  rfl

/-- **`read`** gets the bytes from the stream's position on and moves the
position, whatever the block table holds; on a heap in use the change is
quiet. -/
theorem read_spec (source : ℤ → ℕ → α) {k : Kernel} (hp : k.heap.Placed)
    {stream : Ptr} (hne : stream.addr ≠ 0)
    (hs : k.diskStreams stream.id = some ⟨pos, DiskRef.primary⟩)
    (hpos : IsInt32 pos) (total : ℤ) (out : Output α) :
    ∃ k', read source stream out total k
        = Except.ok ((0, overwrite out total (fetched source k.freshBlock pos)),
          k')
      ∧ k'.diskStreams stream.id = some ⟨wrap32 (pos + total), DiskRef.primary⟩
      ∧ Steady k k' ∧ (k.HeapOk → Quiet k k') := by
  obtain ⟨m', hread, hsteady, hquiet⟩ := read_eq source hp hne hs hpos total out
  have hs' : ({ k with mem := m' } : Kernel).diskStreams stream.id
      = some ⟨pos, DiskRef.primary⟩ := hs
  exact ⟨_, hread, Function.update_self _ _ _,
    hsteady.trans (Steady.setDiskStream hs' _), fun hk =>
      (hquiet hk).trans (Quiet.setDiskStream hs' _)⟩

/-- **A read on a heap in use** is a quiet change, and leaves the stream after
what it got. -/
theorem read_quiet (source : ℤ → ℕ → α) {k : Kernel} (hk : k.HeapOk)
    {stream : Ptr} (hne : stream.addr ≠ 0)
    (hs : k.diskStreams stream.id = some ⟨pos, DiskRef.primary⟩)
    (hpos : IsInt32 pos) (total : ℤ) (out : Output α) :
    ∃ k', read source stream out total k
        = Except.ok ((0, overwrite out total (fetched source k.freshBlock pos)),
          k')
      ∧ Quiet k k'
      ∧ k'.diskStreams stream.id = some ⟨wrap32 (pos + total),
        DiskRef.primary⟩ := by
  obtain ⟨k', hread, hs', -, hquiet⟩ :=
    read_spec source hk.1 hne hs hpos total out
  exact ⟨k', hread, hquiet hk, hs'⟩

end Streamer

end N00bOS
