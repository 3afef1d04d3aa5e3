import Mathlib.Algebra.GroupWithZero.Nat
import Mathlib.Data.Finset.Card
import Mathlib.Data.Finset.Range
import Mathlib.Data.List.Pairwise
import Mathlib.Data.List.Perm.Basic
import Mathlib.Order.Interval.Finset.Nat
import Mathlib.Tactic.Common

/-!
# Extents and the tables that encode them

A block allocator hands out *extents*: runs of consecutive cells of an array of
`n` cells. What it owes its clients is that the extents in use are pairwise
apart (`Packed`).

An allocator of this kind often keeps no list of extents. It keeps one mark per
cell – free, the last cell of an extent, or a cell that has a successor – and
finds the end of an extent by following the marks. `markAt` is the table a list
of extents is encoded by, and the lemmas below are the two updates of such a
table: taking an extent whose cells were all free (`Packed.cons`) and giving
one back (`Packed.erase`, `Packed.markAt_erase`). Adjacent extents stay
distinct, since the last cell of each is marked.

Everything is about a list of extents and the table it encodes, never about two
tables: an allocator is verified by keeping such a list beside its table, as a
ghost, and by showing that each operation changes the table as the list says.
That a cell belongs to one extent only (`Packed.eq_of_covers`) is what makes
the mark of a cell well defined, and what makes giving back one extent leave
the others' marks alone.

`Room` and `FirstRoom` say what a search for free cells is to return.
-/

/-- A run of `count` consecutive cells from the cell `first`. -/
structure Extent where
  /-- The first cell. -/
  first : ℕ
  /-- How many cells. -/
  count : ℕ
  deriving DecidableEq

namespace Extent

/-- The first cell past the extent. -/
def stop (e : Extent) : ℕ := e.first + e.count

/-- The cell `i` belongs to the extent. -/
def Covers (e : Extent) (i : ℕ) : Prop := e.first ≤ i ∧ i < e.stop

instance (e : Extent) (i : ℕ) : Decidable (e.Covers i) :=
  inferInstanceAs (Decidable (_ ∧ _))

/-- Two extents lie one after the other. -/
def Apart (e f : Extent) : Prop := e.stop ≤ f.first ∨ f.stop ≤ e.first

instance (e f : Extent) : Decidable (e.Apart f) :=
  inferInstanceAs (Decidable (_ ∨ _))

theorem Apart.symm {e f : Extent} (h : e.Apart f) : f.Apart e := Or.symm h

instance : Std.Symm Extent.Apart := ⟨fun _ _ => Apart.symm⟩

/-- Extents that lie apart share no cell. -/
theorem Apart.not_covers {e f : Extent} (h : e.Apart f) {i : ℕ}
    (he : e.Covers i) :
    ¬ f.Covers i := by
  unfold Apart Covers at *
  omega

/-- Non-empty extents that share no cell lie apart. -/
theorem apart_of_not_covers {e f : Extent} (he : 0 < e.count) (hf : 0 < f.count)
    (h : ∀ i, e.Covers i → ¬ f.Covers i) : e.Apart f := by
  have h₁ := h e.first
  have h₂ := h f.first
  unfold Apart Covers stop at *
  omega

/-- An extent covers its first cell. -/
theorem covers_first {e : Extent} (h : 0 < e.count) : e.Covers e.first :=
  ⟨Nat.le_refl _, Nat.lt_add_of_pos_right h⟩

end Extent

/-- **Extents packed into `n` cells**: non-empty, inside the array, and
pairwise apart. This is the invariant of an allocator's list of extents in use.
-/
structure Packed (n : ℕ) (es : List Extent) : Prop where
  /-- No two extents of the list overlap. -/
  apart : es.Pairwise Extent.Apart
  /-- Every extent has a cell. -/
  pos : ∀ e ∈ es, 0 < e.count
  /-- Every extent ends inside the array. -/
  stop_le : ∀ e ∈ es, e.stop ≤ n

/-- The mark of a cell. -/
inductive Mark where
  /-- The cell is in no extent. -/
  | free
  /-- The cell ends its extent. -/
  | last
  /-- The next cell is in the same extent. -/
  | more
  deriving DecidableEq

/-- The mark a cell of the extent `e` carries. -/
def Extent.mark (e : Extent) (i : ℕ) : Mark :=
  if i + 1 = e.stop then Mark.last else Mark.more

theorem Extent.mark_ne_free (e : Extent) (i : ℕ) : e.mark i ≠ Mark.free := by
  unfold Extent.mark
  split <;> exact Mark.noConfusion

/-- **The table that encodes a list of extents**: a cell carries the mark that
the extent which covers it gives it, and is free if there is none. The order of
the list makes no difference when the extents are apart. -/
def markAt : List Extent → ℕ → Mark
  | [], _ => Mark.free
  | e :: es, i => if e.Covers i then e.mark i else markAt es i

/-- A cell is free exactly when no extent covers it. -/
theorem markAt_eq_free_iff {es : List Extent} {i : ℕ} :
    markAt es i = Mark.free ↔ ∀ e ∈ es, ¬ e.Covers i := by
  induction es with
  | nil => exact iff_of_true rfl (fun _ h => absurd h List.not_mem_nil)
  | cons e es ih =>
    rw [markAt, List.forall_mem_cons]
    by_cases h : e.Covers i
    · rw [if_pos h]
      exact iff_of_false (e.mark_ne_free i) (fun hc => hc.1 h)
    · rw [if_neg h, ih]
      exact (and_iff_right h).symm

namespace Packed

variable {n : ℕ} {es : List Extent}

/-- Nothing in use. -/
theorem nil (n : ℕ) : Packed n [] :=
  ⟨List.Pairwise.nil, fun _ h => absurd h List.not_mem_nil,
    fun _ h => absurd h List.not_mem_nil⟩

theorem tail {e : Extent} (h : Packed n (e :: es)) : Packed n es :=
  ⟨h.apart.of_cons, fun f hf => h.pos f (List.mem_cons_of_mem e hf),
    fun f hf => h.stop_le f (List.mem_cons_of_mem e hf)⟩

/-- The cells of an extent are free without it. -/
theorem markAt_tail {e : Extent} (h : Packed n (e :: es)) {i : ℕ}
    (hi : e.Covers i) :
    markAt es i = Mark.free :=
  markAt_eq_free_iff.mpr fun f hf =>
    ((List.pairwise_cons.mp h.apart).1 f hf).not_covers hi

theorem perm {es' : List Extent} (h : Packed n es) (hp : es.Perm es') :
    Packed n es' :=
  ⟨(hp.pairwise_iff (fun h => Extent.Apart.symm h)).mp h.apart,
    fun e he => h.pos e (hp.mem_iff.mpr he), fun e he =>
      h.stop_le e (hp.mem_iff.mpr he)⟩

/-- **Taking free cells keeps the extents packed.** Cells that are free are
covered by none of the extents, so the new one is apart from all of them. -/
theorem cons {e : Extent} (h : Packed n es) (hpos : 0 < e.count)
    (hstop : e.stop ≤ n) (hfree : ∀ i, e.Covers i → markAt es i = Mark.free) :
    Packed n (e :: es) := by
  refine ⟨List.pairwise_cons.mpr ⟨fun f hf => ?_, h.apart⟩, ?_, ?_⟩
  · exact Extent.apart_of_not_covers hpos (h.pos f hf)
      (fun i hi => markAt_eq_free_iff.mp (hfree i hi) f hf)
  · exact List.forall_mem_cons.mpr ⟨hpos, h.pos⟩
  · exact List.forall_mem_cons.mpr ⟨hstop, h.stop_le⟩

/-- Giving an extent back keeps the others packed. -/
theorem erase (h : Packed n es) (e : Extent) : Packed n (es.erase e) :=
  ⟨h.apart.sublist List.erase_sublist,
    fun f hf => h.pos f (List.mem_of_mem_erase hf),
    fun f hf => h.stop_le f (List.mem_of_mem_erase hf)⟩

/-- **A cell belongs to one extent.** Two extents of the list are the same or
apart, and a cell that both cover rules out the second. -/
theorem eq_of_covers {e f : Extent} (h : Packed n es) (he : e ∈ es)
    (hf : f ∈ es) {i : ℕ} (hei : e.Covers i) (hfi : f.Covers i) : e = f := by
  by_contra hne
  exact (h.apart.forall he hf hne).not_covers hei hfi

/-- … so its mark is the one that extent gives it. -/
theorem markAt_of_covers {e : Extent} (h : Packed n es) (he : e ∈ es) {i : ℕ}
    (hi : e.Covers i) : markAt es i = e.mark i := by
  induction es with
  | nil => exact absurd he List.not_mem_nil
  | cons f es ih =>
    rw [markAt]
    by_cases hf : f.Covers i
    · rw [if_pos hf, h.eq_of_covers List.mem_cons_self he hf hi]
    · rw [if_neg hf]
      refine ih h.tail ((List.mem_cons.mp he).resolve_left ?_)
      rintro rfl
      exact hf hi

/-- An extent occurs once, since a second occurrence would overlap it. -/
theorem nodup (h : Packed n es) : es.Nodup := by
  refine List.Pairwise.imp_of_mem (fun {e f} he _ hef => ?_) h.apart
  rintro rfl
  have hc := Extent.covers_first (h.pos e he)
  exact hef.not_covers hc hc

/-- The table depends on which extents are in use, not on their order. -/
theorem markAt_congr {es' : List Extent} (h : Packed n es) (h' : Packed n es')
    {i : ℕ} (hmem : ∀ e : Extent, e.Covers i → (e ∈ es ↔ e ∈ es')) :
    markAt es i = markAt es' i := by
  by_cases hex : ∃ e ∈ es, e.Covers i
  · obtain ⟨e, he, hi⟩ := hex
    rw [h.markAt_of_covers he hi, h'.markAt_of_covers ((hmem e hi).mp he) hi]
  · have hfree : markAt es i = Mark.free :=
      markAt_eq_free_iff.mpr (fun e he hi => hex ⟨e, he, hi⟩)
    have hfree' : markAt es' i = Mark.free :=
      markAt_eq_free_iff.mpr (fun e he hi => hex ⟨e, (hmem e hi).mpr he, hi⟩)
    rw [hfree, hfree']

/-- **Giving an extent back frees its cells and no other.** The mark of a cell
is that of the one extent which covers it, and this one is still there unless
it is the one that was given back. -/
theorem markAt_erase {e : Extent} (h : Packed n es) (he : e ∈ es) (i : ℕ) :
    markAt (es.erase e) i = if e.Covers i then Mark.free else markAt es i := by
  by_cases hi : e.Covers i
  · rw [if_pos hi, markAt_eq_free_iff]
    intro f hf hfi
    exact (h.nodup.mem_erase_iff.mp hf).1
      (h.eq_of_covers (List.mem_of_mem_erase hf) he hfi hi)
  · rw [if_neg hi]
    refine (h.erase e).markAt_congr h (fun f hfi => ?_)
    rw [h.nodup.mem_erase_iff]
    refine and_iff_right ?_
    rintro rfl
    exact hi hfi

/-- **The cells that are free and those that are taken** are all the cells. The
number of cells that are taken is the sum over the extents, since no cell is
counted twice. -/
theorem card_free (h : Packed n es) :
    ((Finset.range n).filter fun i => markAt es i = Mark.free).card
      + (es.map Extent.count).sum
      = n := by
  induction es with
  | nil =>
    rw [Finset.filter_true_of_mem (fun _ _ => by rfl), Finset.card_range,
      List.map_nil, List.sum_nil, Nat.add_zero]
  | cons e es ih =>
    have hstop := h.stop_le e List.mem_cons_self
    -- without the first extent its cells are free
    have hcells : (Finset.range n).filter (fun i => markAt es i = Mark.free)
        = (Finset.range n).filter (fun i => markAt (e :: es) i = Mark.free)
          ∪ Finset.Ico e.first e.stop := by
      ext i
      rw [Finset.mem_union, Finset.mem_filter, Finset.mem_filter,
        Finset.mem_range, Finset.mem_Ico, markAt_eq_free_iff,
        markAt_eq_free_iff, List.forall_mem_cons]
      by_cases hi : e.Covers i
      · refine iff_of_true ⟨Nat.lt_of_lt_of_le hi.2 hstop, fun f hf => ?_⟩
          (Or.inr hi)
        exact ((List.pairwise_cons.mp h.apart).1 f hf).not_covers hi
      · refine ⟨fun hfree => Or.inl ⟨hfree.1, hi, hfree.2⟩, ?_⟩
        rintro (⟨hlt, -, hfree⟩ | hmem)
        · exact ⟨hlt, hfree⟩
        · exact absurd hmem hi
    have hdisjoint : Disjoint ((Finset.range n).filter fun i =>
      markAt (e :: es) i = Mark.free)
        (Finset.Ico e.first e.stop) := by
      rw [Finset.disjoint_left]
      intro i hi hmem
      rw [Finset.mem_filter, markAt_eq_free_iff] at hi
      exact hi.2 e List.mem_cons_self (Finset.mem_Ico.mp hmem)
    have hcard := ih h.tail
    rw [hcells, Finset.card_union_of_disjoint hdisjoint, Nat.card_Ico,
      show e.stop - e.first = e.count from Nat.add_sub_cancel_left _ _] at hcard
    rw [List.map_cons, List.sum_cons]
    omega

end Packed

/-! ## Searching for free cells

A search for `k` free cells is described without a loop: what it returns is
room, and nothing before it is. So a first fit is unique, and two tables with
the same free cells have the same one. -/

/-- The `k` cells from `i` on exist and satisfy `free`. -/
def Room (free : ℕ → Prop) (n k i : ℕ) : Prop :=
  i + k ≤ n ∧ ∀ j, i ≤ j → j < i + k → free j

/-- **A first fit**: room at `i`, and nowhere before. There is at most one, and
any other room comes after it (`FirstRoom.le`). The cells are given by a
predicate, so nothing is said of how a table marks them. -/
def FirstRoom (free : ℕ → Prop) (n k i : ℕ) : Prop :=
  Room free n k i ∧ ∀ i', i' < i → ¬ Room free n k i'

/-- Room for more cells is room for fewer. -/
theorem Room.mono {free : ℕ → Prop} {n k k' i : ℕ} (h : Room free n k i)
    (hk : k' ≤ k) :
    Room free n k' i :=
  ⟨Nat.le_trans (Nat.add_le_add_left hk i) h.1,
    fun j hij hj =>
      h.2 j hij (Nat.lt_of_lt_of_le hj (Nat.add_le_add_left hk i))⟩

/-- A taken cell leaves no room that reaches over it. -/
theorem Room.le_of_not_free {free : ℕ → Prop} {n k i j : ℕ}
    (h : Room free n k i) (hj : ¬ free j) : j < i ∨ i + k ≤ j := by
  by_contra hcon
  exact hj (h.2 j (by omega) (by omega))

/-- A first fit comes before any other. -/
theorem FirstRoom.le {free : ℕ → Prop} {n k i b : ℕ} (h : FirstRoom free n k i)
    (hb : Room free n k b) : i ≤ b :=
  Nat.le_of_not_lt (fun hlt => h.2 b hlt hb)
