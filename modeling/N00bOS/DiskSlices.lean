import N00bOS.FileReads

/-!
# Reading is slicing

`StreamerSpec` says of every read, the wrapped and the negative positions
included, where each byte comes from. At the positions a stream should have –
not negative, and with the end of the read below `2 ^ 31` – that is a slice of
the disk (`read_slice`), and a stream that has read `a` bytes is where a stream
is that starts `a` bytes later. So reads compose (`streamer_read_is_a_slice`).

A slice is a function of the disk alone, with no stream and no heap in it. That
two reads in a row deliver what one read of both lengths delivers is then an
equation between slices (`diskSlice_add`), and what is left of the two runs is
that they end in the same state but for memory.
-/

namespace N00bOS

open KernelM

/-- The bytes of the disk from a position on. -/
def diskSlice {α : Type} (source : ℤ → ℕ → α) (pos : ℤ) (i : ℕ) : Fetched α :=
  Fetched.sector (diskAt source (pos + i))

/-- A slice starts where the one before it ends. -/
theorem diskSlice_add {α : Type} (source : ℤ → ℕ → α) (pos : ℤ) (a i : ℕ) :
    diskSlice source (pos + a) i = diskSlice source pos (a + i) := by
  rw [diskSlice, diskSlice, Int.natCast_add, Int.add_assoc]

/-- What is read below `2 ^ 31` is a slice of the disk. -/
theorem overwrite_fetched {α : Type} (source : ℤ → ℕ → α) (buf : Word)
    {pos total : ℤ} (hpos : 0 ≤ pos) (hend : pos + total < 2 ^ 31)
    (out : Output α) :
    overwrite out total (fetched source buf pos)
      = overwrite out total (diskSlice source pos) := by
  funext i
  rw [overwrite, overwrite]
  by_cases hi : (i : ℤ) < total
  · rw [if_pos hi, if_pos hi, fetched_of_nonneg _ _ hpos,
      wrap32_of_isInt32 (by unfold IsInt32; omega), diskSlice]
  · rw [if_neg hi, if_neg hi]

namespace Streamer

variable {α : Type} (source : ℤ → ℕ → α) {k : Kernel} {stream : Ptr}
  {pos total : ℤ}

/-- **A read is a slice**, and leaves the stream at its end. So reads that
follow one another go over the disk without a gap, however they are cut. -/
theorem read_slice (hk : k.HeapOk) (hp : stream.addr ≠ 0)
    (hs : k.diskStreams stream.id = some ⟨pos, DiskRef.primary⟩)
    (hpos : 0 ≤ pos) (htotal : 0 ≤ total) (hend : pos + total < 2 ^ 31)
    (out : Output α) :
    ∃ m', SameTable k.heap k.mem m' ∧ read source stream out total k
      = Except.ok ((0, overwrite out total (diskSlice source pos)),
          ({ k with mem := m' } : Kernel).setDiskStream stream.id
            (some ⟨pos + total, DiskRef.primary⟩)) := by
  have hint : IsInt32 pos := by
    unfold IsInt32
    omega
  obtain ⟨m', hread, -, hquiet⟩ := read_eq source hk.1 hp hs hint total out
  rw [overwrite_fetched source _ hpos hend,
    wrap32_of_isInt32
      (show IsInt32 (pos + total) by unfold IsInt32; omega)] at hread
  exact ⟨m', (hquiet hk).table, hread⟩

/-- A stream whose position is set twice has the second one. -/
theorem setDiskStream_twice (k : Kernel) (m : Memory) (id : ℕ)
    (v v' : Option DiskStream) :
    (({ k.setDiskStream id v with mem := m } : Kernel).setDiskStream id v')
      = ({ k with mem := m } : Kernel).setDiskStream id v' :=
  congrArg
    (fun streams => ({ k with mem := m, diskStreams := streams } : Kernel))
    (Function.update_idem _ _ _)

/-- **A read is a slice of the disk.** For every disk content, every position
that is not negative and every total that ends below `2 ^ 31`, on a heap that is
full as on any other: `read` returns `0`, its output is bytes `pos` to
`pos + total - 1` of the disk and is otherwise as it was, the stream moves on by
`total`, and the heap table is as before. And two reads in a row, of `a` and of
`b` bytes, deliver what one read of `a + b` bytes delivers, and leave the stream
where it does. -/
theorem streamer_read_is_a_slice (hk : k.HeapOk) (hp : stream.addr ≠ 0)
    (hs : k.diskStreams stream.id = some ⟨pos, DiskRef.primary⟩)
    (hpos : 0 ≤ pos) (htotal : 0 ≤ total) (hend : pos + total < 2 ^ 31) :
    (∀ out : Output α, ∃ m', SameTable k.heap k.mem m'
      ∧ read source stream out total k
      = Except.ok ((0, fun i : ℕ => if (i : ℤ) < total then
            Fetched.sector (diskAt source (pos + i)) else out i),
          ({ k with mem := m' } : Kernel).setDiskStream stream.id
            (some ⟨pos + total, DiskRef.primary⟩)))
      ∧ ∀ (a b : ℕ) (out₁ out₂ out : Output α), (a + b : ℤ) = total →
        ∃ data₁ k₁ data₂ data m₂ m',
        read source stream out₁ a k = Except.ok ((0, data₁), k₁)
          ∧ read source stream out₂ b k₁ = Except.ok ((0, data₂),
              ({ k with mem := m₂ } : Kernel).setDiskStream stream.id
                (some ⟨pos + total, DiskRef.primary⟩))
          ∧ read source stream out total k = Except.ok ((0, data),
              ({ k with mem := m' } : Kernel).setDiskStream stream.id
                (some ⟨pos + total, DiskRef.primary⟩))
          ∧ SameTable k.heap k.mem m₂ ∧ SameTable k.heap k.mem m'
          ∧ (∀ i, i < a → data₁ i = data i) ∧ ∀ i, i < b →
            data₂ i = data (a + i) := by
  refine ⟨fun out => read_slice source hk hp hs hpos htotal hend out,
    fun a b out₁ out₂ out hab => ?_⟩
  obtain ⟨m₁, htable₁, hread₁⟩ :=
    read_slice source hk hp hs hpos (Int.natCast_nonneg a)
    (by omega) out₁
  -- the second read starts where the first one ended
  have hk₁ : (({ k with mem := m₁ } : Kernel).setDiskStream stream.id
      (some ⟨pos + a, DiskRef.primary⟩)).HeapOk :=
    ⟨hk.1, hk.2.choose, hk.2.choose_spec.congr htable₁⟩
  obtain ⟨m₂, htable₂, hread₂⟩ :=
    read_slice source hk₁ hp (Function.update_self _ _ _)
    (by omega) (Int.natCast_nonneg b) (show pos + a + b < 2 ^ 31 by omega) out₂
  rw [setDiskStream_twice, show pos + a + b = pos + total by omega] at hread₂
  obtain ⟨m', htable', hread⟩ := read_slice source hk hp hs hpos htotal hend out
  refine ⟨_, _, _, _, m₂, m', hread₁, hread₂, hread,
    htable₁.trans htable₂, htable', fun i hi => ?_, fun i hi => ?_⟩
  · rw [overwrite, overwrite, if_pos (by omega), if_pos (by omega)]
  · rw [overwrite, overwrite, if_pos (by omega), if_pos (by omega),
      diskSlice_add]

end Streamer

/-- The theorem on the disk with the two clusters, for 3000 bytes from its
start: a read that ends inside its sixth sector. -/
theorem streamer_read_is_a_slice_two_clusters :
    ∃ k', Streamer.read File.twoClusterSectors (File.twoClusterPtr 1)
        (fun _ => Fetched.sector 1) 3000 File.twoClusterKernel
      = Except.ok ((0, fun i : ℕ => if (i : ℤ) < 3000 then
          Fetched.sector (diskAt File.twoClusterSectors (0 + i))
              else Fetched.sector 1), k') := by
  obtain ⟨m', -, hread⟩ :=
    (Streamer.streamer_read_is_a_slice File.twoClusterSectors
    File.twoClusterKernel_heapOk (by decide)
      (show File.twoClusterKernel.diskStreams
      (File.twoClusterPtr 1).id = some ⟨0, DiskRef.primary⟩ from rfl)
        (Int.le_refl 0)
    (show (0 : ℤ) ≤ 3000 by decide) (by decide)).1 (fun _ => Fetched.sector 1)
  exact ⟨_, hread⟩

end N00bOS
