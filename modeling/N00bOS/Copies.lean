import Mathlib.Data.List.GetD
import N00bOS.Processes

/-!
# Copying bytes

`memmove` chooses its direction by the order of the addresses, and so reads
every byte of the source before it writes over it (`memmove_is_overlap_safe`).
`strncpy` copies right, but the loop that pads writes the same byte again and
again: it leaves the destination padded when every byte after the first
terminator is zero already (`strncpy_copies_pads_stops_iff`).

Each loop is described by how far it has written (`Memory.Written`), from one
end of the destination or from the other. For `memmove` the step needs that the
byte which is read next is not among those written, and this is where the order
of the addresses comes in.

`strncpy` is modelled twice, on the memory and on a list for a field of a
structure; the last theorem is that the two agree (`strncpy_refines`).
-/

namespace N00bOS

namespace Libc

open Memory

/-! ## `memmove`

One loop for each direction, and the choice between them. -/

section Memmove

variable {dst src : Word} {m₀ : Memory}

/-- Copying from the start reads no byte that it has written, when the
destination does not come after the source. -/
theorem memmoveFromStart_written (hle : dst.toNat ≤ src.toNat) (left : ℕ) :
    ∀ {idx : ℕ} {m : Memory}, src.toNat + (idx + left) ≤ 2 ^ 32 →
      Written m₀ m dst (fun i => m₀ (offset src i)) 0 idx →
      Written m₀ (memmoveFromStart dst src left idx m) dst
        (fun i => m₀ (offset src i)) 0
        (idx + left) := by
  induction left with
  | zero => exact fun _ h => h
  | succ left ih =>
    intro idx m hfit h
    have hread : m (offset src idx) = m₀ (offset src idx) :=
        h.outside _ fun i _ hi heq => by
          have hnum := congrArg BitVec.toNat heq
          rw [toNat_offset (by omega), toNat_offset (by omega)] at hnum
          omega
    have hnext := h.store_end (Nat.zero_le idx) (by omega)
    rw [← hread] at hnext
    rw [memmoveFromStart, show idx + (left + 1) = idx + 1 + left by omega]
    exact ih (by omega) hnext

/-- Copying from the end reads no byte that it has written, when the
destination does not come before the source. -/
theorem memmoveFromEnd_written {n : ℕ} (hle : src.toNat ≤ dst.toNat)
    (hfit : dst.toNat + n ≤ 2 ^ 32) (idx : ℕ) :
    ∀ {m : Memory},
    idx ≤ n → Written m₀ m dst (fun i => m₀ (offset src i)) idx n →
      Written m₀ (memmoveFromEnd dst src idx m) dst
        (fun i => m₀ (offset src i)) 0 n := by
  induction idx with
  | zero => exact fun _ h => h
  | succ idx ih =>
    intro m hidx h
    have hread : m (offset src idx) = m₀ (offset src idx) :=
        h.outside _ fun i hlo hi heq => by
          have hnum := congrArg BitVec.toNat heq
          rw [toNat_offset (by omega), toNat_offset (by omega)] at hnum
          omega
    have hnext := h.store_start (by omega) (by omega)
    rw [← hread] at hnext
    exact ih (by omega) hnext

end Memmove

/-- **`memmove` is right for any two ranges**, disjoint, equal or overlapping
in either direction: the destination holds the bytes the source held, every
other byte is unchanged, and the destination is returned. It copies from the
end on when the destination is above the source, so that no byte is written
before it has been read. -/
theorem memmove_is_overlap_safe {dst src n : Word} (m : Memory)
    (hsrc : src.toNat + n.toNat ≤ 2 ^ 32)
    (hdst : dst.toNat + n.toNat ≤ 2 ^ 32) :
    (memmove dst src n m).1 = dst
      ∧ (∀ i, i < n.toNat →
        (memmove dst src n m).2 (offset dst i) = m (offset src i))
      ∧ Set.EqOn (memmove dst src n m).2 m (region dst n.toNat)ᶜ := by
  have hwritten : Written m (memmove dst src n m).2 dst
      (fun i => m (offset src i)) 0 n.toNat := by
    unfold memmove
    split_ifs with hlt
    · exact memmoveFromEnd_written (Nat.le_of_lt (BitVec.lt_def.mp hlt)) hdst
        n.toNat le_rfl
        (Written.nil m dst _ _)
    · have h := memmoveFromStart_written
        (Nat.le_of_not_lt fun h => hlt (BitVec.lt_def.mpr h))
        n.toNat (by omega) (Written.nil m dst (fun i => m (offset src i)) 0)
      rwa [Nat.zero_add] at h
  refine ⟨?_, fun i hi => hwritten.inside i (Nat.zero_le i) hi,
    hwritten.eqOn (by omega)⟩
  unfold memmove
  split_ifs <;> rfl

/-- The theorem for four bytes moved by one, in a memory where every byte is
the low byte of its address. -/
theorem memmove_is_overlap_safe_by_one :
    (memmove 0x1001#32 0x1000#32 4#32 (BitVec.setWidth 8)).2 0x1004#32
      = 0x03#8 :=
  (memmove_is_overlap_safe (BitVec.setWidth 8) (by decide) (by decide)).2.1
    3 (by decide)

/-! ## `strncpy`

A loop that copies and one that pads, of which the second does not move. -/

section Strncpy

variable {dst : Word} {m₀ : Memory}

/-- The loop that copies appends to what is written. -/
theorem strncpyCopy_written (src : List Byte) :
    ∀ (left : ℕ) {s : List Byte} {m : Memory}, s.length + left ≤ 2 ^ 32 →
    WrittenList m₀ m dst s →
      ∃ m', strncpyCopy src left (offset dst s.length) m
          = (left - src.length, offset dst (s ++ src.take left).length, m')
        ∧ WrittenList m₀ m' dst (s ++ src.take left) := by
  induction src with
  | nil =>
    intro left s m _ h
    rw [strncpyCopy, List.take_nil, List.append_nil]
    · exact ⟨m, rfl, h⟩
    · intro c src left' hcons
      cases hcons
  | cons c src ih =>
    intro left s m hfit h
    cases left with
    | zero =>
      rw [strncpyCopy, List.take_zero, List.append_nil]
      · exact ⟨m, by rw [Nat.zero_sub], h⟩
      · intro c' src' left' _ hsucc
        cases hsucc
    | succ left =>
      have hlength : (s ++ [c]).length = s.length + 1 := List.length_append
      have hrest := ih left (by omega) (h.store_end (by omega) c)
      rw [hlength, List.append_assoc, List.singleton_append] at hrest
      rwa [strncpyCopy, offset_add_one, List.length_cons, Nat.add_sub_add_right,
        List.take_succ_cons]

/-- The loop that pads writes one byte. -/
theorem strncpyPad_succ (left : ℕ) (m : Memory) :
    strncpyPad dst (left + 1) m = m.store8 dst 0 := by
  induction left generalizing m with
  | zero => rfl
  | succ left ih =>
    rw [strncpyPad, ih]
    funext x
    by_cases hx : x = dst
    · rw [hx, store8_self, store8_self]
    · rw [store8_of_ne hx, store8_of_ne hx, store8_of_ne hx]

/-- The bytes that `strncpy` writes: the string, and one terminator if it fits
in `n` bytes. -/
def copiedBytes (src : List Byte) (n : ℕ) : List Byte := (src ++ [0]).take n

theorem length_copiedBytes (src : List Byte) (n : ℕ) :
    (copiedBytes src n).length = min n (src.length + 1) := by
  rw [copiedBytes, List.length_take, List.length_append, List.length_singleton]

/-- A string that fits is written with its terminator. -/
theorem copiedBytes_of_lt {src : List Byte} {n : ℕ} (h : src.length < n) :
    copiedBytes src n = src ++ [0] :=
  List.take_of_length_le (by rwa [List.length_append, List.length_singleton])

/-- Another one is cut. -/
theorem copiedBytes_of_le {src : List Byte} {n : ℕ} (h : n ≤ src.length) :
    copiedBytes src n = src.take n :=
  List.take_append_of_le_length h

/-- **What `strncpy` writes**: the characters that it copies and, if there is
room, one terminator. Behind that nothing is written, however much room there
is. -/
theorem strncpy_written (dst : Word) (src : List Byte) (n : Word) (m : Memory) :
    (strncpy dst src n m).1 = dst
      ∧ WrittenList m (strncpy dst src n m).2 dst
        (copiedBytes src n.toNat) := by
  have hn := n.isLt
  obtain ⟨m', hcopy, hwritten⟩ := strncpyCopy_written src n.toNat
    (by rw [List.length_nil]; omega) (WrittenList.nil m dst)
  rw [List.length_nil, offset_zero, List.nil_append] at hcopy
  rw [List.nil_append] at hwritten
  unfold strncpy
  rw [hcopy]
  refine ⟨rfl, ?_⟩
  show WrittenList m (strncpyPad _ (n.toNat - src.length) m') dst _
  rcases Nat.lt_or_ge src.length n.toNat with hlt | hge
  · obtain ⟨left, hleft⟩ : ∃ left, n.toNat - src.length = left + 1 :=
      ⟨n.toNat - src.length - 1, by omega⟩
    rw [List.take_of_length_le (Nat.le_of_lt hlt)] at hwritten ⊢
    rw [hleft, strncpyPad_succ, copiedBytes_of_lt hlt]
    exact hwritten.store_end (by omega) 0
  · rw [Nat.sub_eq_zero_of_le hge, copiedBytes_of_le hge]
    exact hwritten

end Strncpy

/-- **`strncpy` copies, pads and stops**, as `string.h` says: the characters of
the source up to `n`, then zeros up to `n`, and no other byte. -/
structure CopiesPadsStops (dst : Word) (src : List Byte) (n : Word)
    (m : Memory) : Prop where
  returned : (strncpy dst src n m).1 = dst
  copied : ∀ i (hi : i < src.length), i < n.toNat →
    (strncpy dst src n m).2 (offset dst i) = src[i]
  padded : ∀ i, src.length ≤ i → i < n.toNat →
    (strncpy dst src n m).2 (offset dst i) = 0
  stops : Set.EqOn (strncpy dst src n m).2 m (region dst n.toNat)ᶜ

/-- A byte after the terminator is not written. -/
theorem strncpy_after (dst : Word) (src : List Byte) (n : Word) (m : Memory)
    {i : ℕ} (hi : src.length < i) (hin : i < n.toNat) :
    (strncpy dst src n m).2 (offset dst i) = m (offset dst i) := by
  have hn := n.isLt
  refine (strncpy_written dst src n m).2.apply_of_le ?_ (by omega)
  rw [length_copiedBytes]
  omega

/-- **`strncpy` is right exactly when what it should pad is padded already**,
the first terminator apart. The loop over the padding counts on, but writes to
one byte each time; that is the terminator of the copy, and the bytes behind it
stay as they were. -/
theorem strncpy_copies_pads_stops_iff (dst : Word) (src : List Byte) (n : Word)
    (m : Memory) :
    CopiesPadsStops dst src n m
      ↔ ∀ i, src.length < i → i < n.toNat → m (offset dst i) = 0 := by
  have hn := n.isLt
  obtain ⟨hreturned, hwritten⟩ := strncpy_written dst src n m
  constructor
  · intro h i hi hin
    rw [← strncpy_after dst src n m hi hin]
    exact h.padded i (Nat.le_of_lt hi) hin
  · intro hzero
    have hlength := length_copiedBytes src n.toNat
    refine ⟨hreturned, fun i hi hin => ?_, fun i hi hin => ?_, ?_⟩
    · rw [hwritten.apply (show i < (copiedBytes src n.toNat).length by omega)]
      simp only [copiedBytes, List.getElem_take, List.getElem_append_left hi]
    · rcases Nat.eq_or_lt_of_le hi with rfl | hafter
      · rw [hwritten.apply (show src.length
          < (copiedBytes src n.toNat).length by omega)]
        simp only [copiedBytes, List.getElem_take, List.getElem_concat_length]
      · rw [strncpy_after dst src n m hafter hin]
        exact hzero i hafter hin
    · exact (hwritten.eqOn (by omega)).mono
        (Set.compl_subset_compl.mpr (region_subset (by omega)))

/-- A buffer of no zeros is not padded: of three bytes after the empty string
only the first is zero. -/
theorem strncpy_leaves_padding :
    ¬ CopiesPadsStops 0x1000#32 [] 3#32 fun _ => 0x78#8 := fun h =>
  absurd (h.padded 1 (Nat.zero_le 1) (by decide)) (by decide)

/-- The copy on lists leaves what is written, and the old list after that. -/
theorem strncpy_eq_append (old src : List Byte) (n : ℕ) :
    N00bOS.strncpy old src n = copiedBytes src n ++ old.drop
      (copiedBytes src n).length := by
  rcases Nat.lt_or_ge src.length n with hlt | hge
  · have htake : src.take n = src := List.take_of_length_le (Nat.le_of_lt hlt)
    rw [N00bOS.strncpy, htake, if_pos hlt, copiedBytes_of_lt hlt,
      List.length_append, List.append_assoc]
    rfl
  · have hlen : (src.take n).length = n := List.length_take_of_le hge
    rw [N00bOS.strncpy, copiedBytes_of_le hge, hlen, if_neg (Nat.lt_irrefl n)]

/-- **The two models of `strncpy` agree**: on a buffer that holds a list, the
memory afterwards holds the list afterwards. The path parser is written over
strings as lists, and this is what connects it to the bytes. -/
theorem strncpy_refines {dst : Word} {src old : List Byte} {n : Word}
    {m : Memory} (hlen : old.length ≤ 2 ^ 32)
    (hold : ∀ i (hi : i < old.length), m (offset dst i) = old[i]) (i : ℕ)
    (hi : i < old.length) :
    some ((strncpy dst src n m).2 (offset dst i))
      = (N00bOS.strncpy old src n.toNat)[i]? := by
  obtain ⟨-, hwritten⟩ := strncpy_written dst src n m
  rw [strncpy_eq_append]
  rcases Nat.lt_or_ge i (copiedBytes src n.toNat).length with hin | hafter
  · rw [hwritten.apply hin, List.getElem?_append_left hin,
      List.getElem?_eq_getElem hin]
  · rw [hwritten.apply_of_le hafter (by omega), hold i hi,
      List.getElem?_append_right hafter, List.getElem?_drop,
      Nat.add_sub_of_le hafter, List.getElem?_eq_getElem hi]

end Libc

end N00bOS
