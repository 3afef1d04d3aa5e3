import Mathlib.Data.BitVec
import Mathlib.Data.List.GetD
import Mathlib.Data.Set.BooleanAlgebra
import Mathlib.Data.Set.Function
import Mathlib.Order.CompletePartialOrder
import Mathlib.Tactic.Ring

/-!
# A flat 32-bit byte memory

An i386 program that manages its own storage sees one array of `2 ^ 32` bytes.
Addresses are machine words and wrap; a run of bytes that starts at `a` is the
set of addresses whose distance from `a`, counted modulo `2 ^ 32`, is below its
length. Stating a run by that distance is what makes it indifferent to where
the address space ends: `mem_region` is the definition, and `mem_region_of_le`
reads it as an interval for a run that does not wrap.

A write is described by the run it may change. `Set.EqOn m' m (region a n)ᶜ`
says that `m'` is `m` outside the `n` bytes at `a`, and such statements
compose: that is the whole frame reasoning a client needs.

Four shapes of writes are here, from one byte to arrays of words. For each
there is a lemma that reads back what was written, and one that says that
nothing else has changed. A loop that fills a run is verified with `Written`,
which says how far it has come: `store_end` and `store_start` are its two step
lemmas, for loops that go up and for loops that go down.
-/

/-- A machine word: an address, a `size_t`, a `uint32_t`. -/
abbrev Word := BitVec 32

/-- A byte of memory. -/
abbrev Byte := BitVec 8

/-- **A flat memory**: one byte at every address. Addresses wrap around, so a
run of bytes is given by where it starts and how long it is. -/
abbrev Memory := Word → Byte

namespace Memory

/-- The `n` addresses from `a` on, wrapping at the end of memory. -/
def region (a : Word) (n : ℕ) : Set Word := {x | (x - a).toNat < n}

/-- Membership of a run is a distance below its length. -/
theorem mem_region {a x : Word} {n : ℕ} : x ∈ region a n ↔ (x - a).toNat < n :=
  Iff.rfl

instance (a x : Word) (n : ℕ) : Decidable (x ∈ region a n) :=
  inferInstanceAs (Decidable ((x - a).toNat < n))

/-- **A run that does not wrap is an interval.** Whether two such runs meet is
then a question about four numbers. -/
theorem mem_region_of_le {a x : Word} {n : ℕ} (h : a.toNat + n ≤ 2 ^ 32) :
    x ∈ region a n ↔ a.toNat ≤ x.toNat ∧ x.toNat < a.toNat + n := by
  rw [mem_region]
  bv_omega

/-- A longer run contains a shorter one. -/
theorem region_subset {a : Word} {n k : ℕ} (h : n ≤ k) :
    region a n ⊆ region a k :=
  fun _ hx => lt_of_lt_of_le hx h

/-- A run of `k` bytes that starts `d` bytes into a run of `n` stays inside
it when there is room. -/
theorem region_add_subset {a : Word} {d k n : ℕ} (h : d + k ≤ n)
    (hn : n ≤ 2 ^ 32) :
    region (a + BitVec.ofNat 32 d) k ⊆ region a n := by
  intro x hx
  rw [mem_region] at hx ⊢
  bv_omega

/-- How far from `a` a run lies that starts `d` bytes after `a`. -/
theorem sub_of_mem_region_add {a x : Word} {d k : ℕ} (h : d + k ≤ 2 ^ 32)
    (hx : x ∈ region (a + BitVec.ofNat 32 d) k) :
    d ≤ (x - a).toNat ∧ (x - a).toNat < d + k := by
  rw [mem_region] at hx
  bv_omega

/-- Fill the `n` bytes at `a` with `v`. -/
def fill (m : Memory) (a : Word) (v : Byte) (n : ℕ) : Memory :=
  fun x => if (x - a).toNat < n then v else m x

theorem fill_of_mem {m : Memory} {a x : Word} {v : Byte} {n : ℕ}
    (h : x ∈ region a n) :
    m.fill a v n x = v := if_pos h

theorem fill_of_notMem {m : Memory} {a x : Word} {v : Byte} {n : ℕ}
    (h : x ∉ region a n) :
    m.fill a v n x = m x := if_neg h

/-- A fill changes nothing outside its run. -/
theorem eqOn_fill (m : Memory) (a : Word) (v : Byte) (n : ℕ) :
    Set.EqOn (m.fill a v n) m (region a n)ᶜ :=
  fun _ hx => fill_of_notMem hx

/-- Store one byte. -/
def store8 (m : Memory) (a : Word) (v : Byte) : Memory :=
  fun x => if x = a then v else m x

@[simp] theorem store8_self (m : Memory) (a : Word) (v : Byte) :
    m.store8 a v a = v :=
  if_pos rfl

theorem store8_of_ne {m : Memory} {a x : Word} {v : Byte} (h : x ≠ a) :
    m.store8 a v x = m x := if_neg h

/-! ## Runs of bytes

The bytes of a run by their number. Numbers below `2 ^ 32` are different
addresses, so a run that is longer than the memory is never needed. -/

/-- The address of byte `i` of the run at `a`. -/
def offset (a : Word) (i : ℕ) : Word := a + BitVec.ofNat 32 i

@[simp] theorem offset_zero (a : Word) : offset a 0 = a := BitVec.add_zero a

/-- A later byte of a run. -/
theorem offset_add (a : Word) (i j : ℕ) :
    offset a i + BitVec.ofNat 32 j = offset a (i + j) := by
  rw [offset, offset, BitVec.add_assoc, ← BitVec.ofNat_add]

/-- The next byte of a run. -/
theorem offset_add_one (a : Word) (i : ℕ) :
    offset a i + 1#32 = offset a (i + 1) :=
  offset_add a i 1

/-- Two bytes of a run lie at two addresses. -/
theorem offset_inj {a : Word} {i j : ℕ} (hi : i < 2 ^ 32) (hj : j < 2 ^ 32) :
    offset a i = offset a j ↔ i = j := by
  refine ⟨fun h => ?_, congrArg _⟩
  unfold offset at h
  bv_omega

/-- A byte of a run lies in the run. -/
theorem offset_mem_region {a : Word} {i n : ℕ} (hi : i < 2 ^ 32) :
    offset a i ∈ region a n ↔ i < n := by
  rw [mem_region, offset]
  bv_omega

/-- Where a byte of a run that does not wrap lies. -/
theorem toNat_offset {a : Word} {i : ℕ} (h : a.toNat + i < 2 ^ 32) :
    (offset a i).toNat = a.toNat + i := by
  rw [offset]
  bv_omega

/-- **A run that is written**: the bytes of the run at `a` from `lo` up to
`hi` hold `f`, and every other byte is as it was in `m₀`. A loop that writes
the run in one direction or the other extends it at one end. -/
structure Written (m₀ m : Memory) (a : Word) (f : ℕ → Byte)
    (lo hi : ℕ) : Prop where
  inside : ∀ i, lo ≤ i → i < hi → m (offset a i) = f i
  outside : ∀ x, (∀ i, lo ≤ i → i < hi → x ≠ offset a i) → m x = m₀ x

namespace Written

variable {m₀ m : Memory} {a : Word} {f : ℕ → Byte} {lo hi : ℕ}

/-- Nothing is written yet. -/
theorem nil (m : Memory) (a : Word) (f : ℕ → Byte) (i : ℕ) :
    Written m m a f i i :=
  ⟨fun _ hlo hhi => absurd hhi (Nat.not_lt.mpr hlo), fun _ _ => rfl⟩

/-- One more byte, at the end. -/
theorem store_end (h : Written m₀ m a f lo hi) (hle : lo ≤ hi)
    (hhi : hi < 2 ^ 32) :
    Written m₀ (m.store8 (offset a hi) (f hi)) a f lo (hi + 1) := by
  constructor
  · intro i hlo hlt
    rcases Nat.lt_succ_iff_lt_or_eq.mp hlt with hbefore | rfl
    · have hne : offset a i ≠ offset a hi := fun heq =>
        absurd ((offset_inj (by omega) hhi).mp heq) (Nat.ne_of_lt hbefore)
      rw [store8_of_ne hne]
      exact h.inside i hlo hbefore
    · exact store8_self _ _ _
  · intro x hx
    rw [store8_of_ne (hx hi hle (Nat.lt_succ_self hi))]
    exact h.outside x fun i hlo hlt => hx i hlo (Nat.lt_succ_of_lt hlt)

/-- One more byte, at the start. -/
theorem store_start (h : Written m₀ m a f (lo + 1) hi) (hlt : lo < hi)
    (hhi : hi ≤ 2 ^ 32) :
    Written m₀ (m.store8 (offset a lo) (f lo)) a f lo hi := by
  constructor
  · intro i hlo hi'
    rcases Nat.eq_or_lt_of_le hlo with rfl | hafter
    · exact store8_self _ _ _
    · have hne : offset a i ≠ offset a lo := fun heq =>
        absurd ((offset_inj (by omega) (by omega)).mp heq) (Nat.ne_of_gt hafter)
      rw [store8_of_ne hne]
      exact h.inside i hafter hi'
  · intro x hx
    rw [store8_of_ne (hx lo (Nat.le_refl lo) hlt)]
    exact h.outside x fun i hlo hi' => hx i (Nat.le_of_succ_le hlo) hi'

/-- The bytes that hold `f` matter only where they are written. -/
theorem congr (h : Written m₀ m a f lo hi) {g : ℕ → Byte}
    (hfg : ∀ i, lo ≤ i → i < hi → f i = g i) : Written m₀ m a g lo hi :=
  ⟨fun i hlo hi' => (h.inside i hlo hi').trans (hfg i hlo hi'), h.outside⟩

/-- A run that is written changes nothing outside it. -/
theorem eqOn (h : Written m₀ m a f lo hi) (hhi : hi ≤ 2 ^ 32) :
    Set.EqOn m m₀ (region a hi)ᶜ := by
  intro x hx
  refine h.outside x fun i _ hi' heq => hx ?_
  rw [heq, offset_mem_region (by omega)]
  exact hi'

end Written

/-- **A list that is written** at `a`, byte after byte. Every other byte of the
memory is what it was before. -/
def WrittenList (m₀ m : Memory) (a : Word) (s : List Byte) : Prop :=
  Written m₀ m a (fun i => s.getD i 0) 0 s.length

namespace WrittenList

variable {m₀ m : Memory} {a : Word} {s : List Byte}

theorem nil (m : Memory) (a : Word) :
    WrittenList m m a [] := Written.nil m a _ 0

/-- One more byte. -/
theorem store_end (h : WrittenList m₀ m a s) (hfit : s.length < 2 ^ 32)
    (c : Byte) :
    WrittenList m₀ (m.store8 (offset a s.length) c) a (s ++ [c]) := by
  have hsame : ∀ i, 0 ≤ i → i < s.length →
    s.getD i 0 = (s ++ [c]).getD i 0 := fun i _ hi =>
      (List.getD_append s [c] 0 i hi).symm
  have hnew : (s ++ [c]).getD s.length 0 = c := by
    rw [List.getD_append_right _ _ _ _ le_rfl, Nat.sub_self,
      List.getD_cons_zero]
  have hend := (Written.congr h hsame).store_end (Nat.zero_le _) hfit
  rw [hnew] at hend
  rwa [WrittenList, List.length_append, List.length_singleton]

/-- The bytes of the list. -/
theorem apply (h : WrittenList m₀ m a s) {i : ℕ} (hi : i < s.length) :
    m (offset a i) = s[i] :=
  (h.inside i (Nat.zero_le i) hi).trans (List.getD_eq_getElem _ _ hi)

/-- The bytes after the list are as they were. -/
theorem apply_of_le (h : WrittenList m₀ m a s) {i : ℕ} (hi : s.length ≤ i)
    (hfit : i < 2 ^ 32) :
    m (offset a i) = m₀ (offset a i) := by
  refine h.outside _ fun j _ hj heq => ?_
  have hij := (offset_inj hfit (by omega)).mp heq
  omega

end WrittenList

/-! ## Halves of words

A half of a word is stored low byte first, in two consecutive bytes. -/

/-- Store the half word `v` at `a`. -/
def store16 (m : Memory) (a : Word) (v : BitVec 16) : Memory :=
  (m.store8 a (v.setWidth 8)).store8 (a + 1#32) ((v >>> 8).setWidth 8)

/-- A half word made of two bytes is stored as these. -/
theorem store16_append (m : Memory) (a : Word) (hi lo : Byte) :
    m.store16 a (hi ++ lo) = (m.store8 a lo).store8 (a + 1#32) hi := by
  have hlo : (hi ++ lo).setWidth 8 = lo := by
    refine BitVec.eq_of_getLsbD_eq fun i hi' => ?_
    rw [BitVec.getLsbD_setWidth, BitVec.getLsbD_append]
    simp [hi']
  have hhi : ((hi ++ lo) >>> 8).setWidth 8 = hi := by
    refine BitVec.eq_of_getLsbD_eq fun i hi' => ?_
    rw [BitVec.getLsbD_setWidth, BitVec.getLsbD_ushiftRight,
      BitVec.getLsbD_append]
    simp [hi']
  rw [store16, hlo, hhi]

/-! ## Blocks of bytes

A block is written at once. What a loop of byte stores or of half word stores
has written is such a block, which grows by one store at its front. -/

/-- Write the first `n` bytes of `f` at `a`. -/
def put (m : Memory) (a : Word) (f : ℕ → Byte) (n : ℕ) : Memory :=
  fun x => if (x - a).toNat < n then f (x - a).toNat else m x

theorem put_zero (m : Memory) (a : Word) (f : ℕ → Byte) : m.put a f 0 = m :=
  funext fun _ => if_neg (Nat.not_lt_zero _)

theorem put_of_mem {m : Memory} {a x : Word} {f : ℕ → Byte} {n : ℕ}
    (h : x ∈ region a n) :
    m.put a f n x = f (x - a).toNat := if_pos h

theorem put_of_notMem {m : Memory} {a x : Word} {f : ℕ → Byte} {n : ℕ}
    (h : x ∉ region a n) :
    m.put a f n x = m x := if_neg h

/-- A byte of a block. -/
theorem put_offset (m : Memory) (a : Word) (f : ℕ → Byte) {n i : ℕ} (hi : i < n)
    (hn : n ≤ 2 ^ 32) : m.put a f n (offset a i) = f i := by
  have hdist : (offset a i - a).toNat = i := by
    rw [offset]
    bv_omega
  rw [put_of_mem ((offset_mem_region (by omega)).mpr hi), hdist]

/-- A block changes nothing outside its run. -/
theorem eqOn_put (m : Memory) (a : Word) (f : ℕ → Byte) (n : ℕ) :
    Set.EqOn (m.put a f n) m (region a n)ᶜ :=
  fun _ hx => put_of_notMem hx

/-- One more byte of a block. -/
theorem put_store8 (m : Memory) (a : Word) (f : ℕ → Byte) {n : ℕ}
    (hn : n < 2 ^ 32) :
    (m.put a f n).store8 (offset a n) (f n) = m.put a f (n + 1) := by
  funext x
  have hdist : x = offset a n ↔ (x - a).toNat = n := by
    rw [offset]
    bv_omega
  by_cases hx : x = offset a n
  · rw [hx, store8_self, put_offset m a f (Nat.lt_succ_self n) (by omega)]
  · have hne := mt hdist.mpr hx
    rw [store8_of_ne hx, put, put]
    exact if_congr (by omega) rfl rfl

/-- A block of two memories that agree. -/
theorem put_congr {m m' : Memory} {S : Set Word} (h : Set.EqOn m' m S)
    (a : Word) (f : ℕ → Byte) (n : ℕ) :
    Set.EqOn (m'.put a f n) (m.put a f n) S := by
  intro x hx
  rw [put, put, h hx]

/-- One more byte, before a block. -/
theorem store8_put (m : Memory) (a : Word) (c : Byte) (f : ℕ → Byte) {n : ℕ}
    (hn : n < 2 ^ 32) :
    (m.store8 a c).put (a + 1#32) f n
      = m.put a (fun i => if i = 0 then c else f (i - 1)) (n + 1) := by
  funext x
  have hfirst : x = a ↔ (x - a).toNat = 0 := by bv_omega
  by_cases hx : x = a
  · have hzero := hfirst.mp hx
    have hlast : ¬ (x - (a + 1#32)).toNat < n := by bv_omega
    rw [put, put, if_neg hlast, if_pos (by omega), if_pos hzero, hx,
      store8_self]
  · have hnext : (x - (a + 1#32)).toNat = (x - a).toNat - 1 := by bv_omega
    have hpos : (x - a).toNat ≠ 0 := mt hfirst.mpr hx
    rw [put, put, store8_of_ne hx, hnext, if_neg hpos]
    exact if_congr (by omega) rfl rfl

/-- Two more bytes before a block make a longer block. -/
theorem exists_store16_put (a : Word) (w : BitVec 16) (f : ℕ → Byte) {n : ℕ}
    (hn : n + 1 < 2 ^ 32) :
    ∃ g, ∀ m : Memory, (m.store16 a w).put (offset a 2) f n
      = m.put a g (n + 2) := by
  refine ⟨fun i => if i = 0 then w.setWidth 8 else
    if i - 1 = 0 then (w >>> 8).setWidth 8 else f (i - 1 - 1), fun m => ?_⟩
  rw [store16, ← offset_add_one a 1, ← offset_add_one a 0, offset_zero,
    store8_put _ _ _ _ (by omega), store8_put _ _ _ _ hn]

/-- Two more bytes of a block. -/
theorem put_store16 (m : Memory) (a : Word) (f : ℕ → Byte) {n : ℕ}
    (hn : n + 1 < 2 ^ 32) :
    (m.put a f n).store16 (offset a n) (f (n + 1) ++ f n)
      = m.put a f (n + 2) := by
  rw [store16_append, offset_add_one, put_store8 m a f (by omega),
    put_store8 m a f hn]

/-! ## Words in memory

A word is stored low byte first, in four consecutive bytes, and read back from
them. -/

/-- The word at `a`. -/
def load32 (m : Memory) (a : Word) : Word :=
  BitVec.ofNat 32 ((m a).toNat + 256 * (m (a + 1#32)).toNat
    + 65536 * (m (a + 2#32)).toNat + 16777216 * (m (a + 3#32)).toNat)

/-- Store the word `v` at `a`. -/
def store32 (m : Memory) (a : Word) (v : Word) : Memory :=
  fun x => if (x - a).toNat < 4 then BitVec.ofNat 8
    (v.toNat / 256 ^ (x - a).toNat) else m x

/-- A word is read from its own four bytes. -/
theorem load32_congr {m m' : Memory} {a : Word}
    (h : Set.EqOn m' m (region a 4)) :
    m'.load32 a = m.load32 a := by
  have hin : ∀ d : ℕ,
      d < 4 → m' (a + BitVec.ofNat 32 d) = m (a + BitVec.ofNat 32 d) := by
    intro d hd
    refine h ?_
    rw [mem_region]
    bv_omega
  have h0 := hin 0 (by omega)
  have h1 := hin 1 (by omega)
  have h2 := hin 2 (by omega)
  have h3 := hin 3 (by omega)
  rw [BitVec.add_zero] at h0
  rw [load32, load32, h0, h1, h2, h3]

/-- A store changes its own four bytes only. -/
theorem eqOn_store32 (m : Memory) (a v : Word) :
    Set.EqOn (m.store32 a v) m (region a 4)ᶜ :=
  fun _ hx => if_neg hx

/-- **A word read back is the word stored.** The four bytes lie at four
addresses, also where these wrap around. -/
@[simp] theorem load32_store32_self (m : Memory) (a v : Word) :
    (m.store32 a v).load32 a = v := by
  have hin : ∀ d : ℕ, d < 4 →
      m.store32 a v (a + BitVec.ofNat 32 d)
        = BitVec.ofNat 8 (v.toNat / 256 ^ d) := by
    intro d hd
    have hdist : (a + BitVec.ofNat 32 d - a).toNat = d := by bv_omega
    rw [store32, if_pos (by omega), hdist]
  have h0 := hin 0 (by omega)
  have h1 := hin 1 (by omega)
  have h2 := hin 2 (by omega)
  have h3 := hin 3 (by omega)
  rw [BitVec.add_zero] at h0
  rw [load32, h0, h1, h2, h3]
  simp only [BitVec.toNat_ofNat]
  apply BitVec.eq_of_toNat_eq
  rw [BitVec.toNat_ofNat]
  have hv := v.isLt
  omega

/-- A store elsewhere leaves a word alone. -/
theorem load32_of_eqOn_compl {m m' : Memory} {S : Set Word} {a : Word}
    (h : Set.EqOn m' m Sᶜ) (ha : Disjoint (region a 4) S) :
    m'.load32 a = m.load32 a :=
  load32_congr (h.mono (Set.subset_compl_iff_disjoint_right.mpr ha))

/-! ## Arrays of words

Two words of an array do not meet, and the words of an array that does not wrap
lie in its bytes: a store to one leaves the others alone. -/

/-- The address of word `i` of the array at `a`. -/
def index (a : Word) (i : ℕ) : Word := a + BitVec.ofNat 32 (4 * i)

/-- A word of an array lies in the bytes of the array. -/
theorem region_index_subset {a : Word} {i n : ℕ} (h : 4 * i + 4 ≤ n)
    (hn : n ≤ 2 ^ 32) :
    region (index a i) 4 ⊆ region a n :=
  region_add_subset h hn

/-- Two words of an array do not meet. -/
theorem disjoint_index {a : Word} {i j : ℕ} (hi : 4 * i + 4 ≤ 2 ^ 32)
    (hj : 4 * j + 4 ≤ 2 ^ 32) (hij : i ≠ j) :
    Disjoint (region (index a i) 4) (region (index a j) 4) := by
  rw [Set.disjoint_left]
  intro x hxi hxj
  have hi' := sub_of_mem_region_add hi hxi
  have hj' := sub_of_mem_region_add hj hxj
  omega

/-- A store to one word of an array leaves the others alone. -/
theorem load32_store32_index_of_ne {m : Memory} {a v : Word} {i j : ℕ}
    (hi : 4 * i + 4 ≤ 2 ^ 32) (hj : 4 * j + 4 ≤ 2 ^ 32) (hij : i ≠ j) :
    (m.store32 (index a j) v).load32 (index a i) = m.load32 (index a i) :=
  load32_of_eqOn_compl (eqOn_store32 m _ v) (disjoint_index hi hj hij)

end Memory
