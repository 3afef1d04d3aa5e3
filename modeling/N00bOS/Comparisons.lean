import Mathlib.Data.List.Forall2
import Mathlib.Data.List.Lex
import Mathlib.Data.Set.Basic

/-!
# Comparison functions

A comparison function tells by the sign of an integer how two values are
ordered. `ComparesOn` states its laws for a key, on a set of values; they come
down to the sign (`comparesOn_iff_sign`): it is negative exactly where the key
of the first value is less, and positive exactly where it is greater.

`compareLoop` compares two lists by a loop that stops where an element of the
first list is *below* that of the second, and that does not look for the
opposite. It says "greater" only when it gets to the end of a shorter list
(`compareLoop_pos_iff`), and so it compares right exactly where the lesser list
is the shorter one and nowhere above the other (`compareLoop_comparesOn_iff`).
What "below" means is a parameter: the same loop with two notions of it is two
functions of the source.
-/

variable {α β γ : Type*}

/-- **A comparison orders by a key**, on a set of values: its sign says which
of two keys is the less, or that they are the same. -/
structure ComparesOn [LinearOrder γ] (S : Set β) (cmp : β → β → ℤ)
    (key : β → γ) : Prop where
  eq_zero_iff : ∀ a ∈ S, ∀ b ∈ S, cmp a b = 0 ↔ key a = key b
  swap : ∀ a ∈ S, ∀ b ∈ S, 0 < cmp a b ↔ cmp b a < 0
  neg_iff : ∀ a ∈ S, ∀ b ∈ S, cmp a b < 0 ↔ key a < key b
  pos_iff : ∀ a ∈ S, ∀ b ∈ S, 0 < cmp a b ↔ key b < key a
  trans : ∀ a ∈ S, ∀ b ∈ S, ∀ c ∈ S, cmp a b ≤ 0 → cmp b c ≤ 0 → cmp a c ≤ 0

/-- **The sign says it all.** A comparison that orders by a key is negative
exactly for a lesser one, and positive exactly for a greater one; that it is
`0` for equal keys follows. -/
theorem comparesOn_iff_sign [LinearOrder γ] {S : Set β} {cmp : β → β → ℤ}
    {key : β → γ} :
    ComparesOn S cmp key ↔ ∀ a ∈ S, ∀ b ∈ S,
      (cmp a b < 0 ↔ key a < key b) ∧ (0 < cmp a b ↔ key b < key a) := by
  refine ⟨fun h a ha b hb => ⟨h.neg_iff a ha b hb, h.pos_iff a ha b hb⟩,
    fun h => ?_⟩
  have hle : ∀ a ∈ S, ∀ b ∈ S, cmp a b ≤ 0
      ↔ key a ≤ key b := fun a ha b hb => by
        rw [← not_lt, (h a ha b hb).2, not_lt]
  refine ⟨fun a ha b hb => ?_, fun a ha b hb => ?_, fun a ha b hb =>
    (h a ha b hb).1, fun a ha b hb =>
      (h a ha b hb).2, fun a ha b hb c hc hab hbc => ?_⟩
  · obtain ⟨hneg, hpos⟩ := h a ha b hb
    constructor
    · intro hzero
      exact le_antisymm (not_lt.mp fun hlt => (hpos.mpr hlt).ne' hzero)
        (not_lt.mp fun hlt => (hneg.mpr hlt).ne hzero)
    · intro hkey
      exact le_antisymm (not_lt.mp fun hlt => (hpos.mp hlt).ne' hkey)
        (not_lt.mp fun hlt => (hneg.mp hlt).ne hkey)
  · rw [(h a ha b hb).2, (h b hb a ha).1]
  · rw [hle _ ha _ hc]
    exact ((hle _ ha _ hb).mp hab).trans ((hle _ hb _ hc).mp hbc)

/-! ## A loop that looks one way

The loop goes on over every pair of elements of which the first is not below,
and that is a relation between the lists, place for place, up to the end of one
of them (`BelowPrefix`). -/

section Loop

variable (below : α → α → Prop) [DecidableRel below]

/-- **A comparison of lists that looks one way**: the first element that is
below decides, and the end of a list. -/
def compareLoop : List α → List α → ℤ
  | [], [] => 0
  | [], _ :: _ => -1
  | _ :: _, [] => 1
  | c :: s, d :: t => if below c d then -1 else compareLoop s t

/-- A list is shorter than another, and stands in a relation to its beginning,
place for place. -/
def BelowPrefix (r : α → α → Prop) (s t : List α) : Prop :=
  s.length < t.length ∧ List.Forall₂ r s (t.take s.length)

instance (r : α → α → Prop) [DecidableRel r] (s t : List α) :
    Decidable (BelowPrefix r s t) :=
  inferInstanceAs (Decidable (_ ∧ _))

theorem belowPrefix_cons {r : α → α → Prop} {c d : α} {s t : List α} :
    BelowPrefix r (c :: s) (d :: t) ↔ r c d ∧ BelowPrefix r s t := by
  rw [BelowPrefix, BelowPrefix, List.length_cons, List.length_cons,
    List.take_succ_cons, List.forall₂_cons, Nat.add_lt_add_iff_right]
  exact and_left_comm

variable {below}

/-- **The loop says "greater"** at the end of the second list only. Up to there
no element of the first may be below, or the answer would have been the other
one. -/
theorem compareLoop_pos_iff (s t : List α) :
    0 < compareLoop below s t ↔ BelowPrefix (fun c d => ¬ below d c) t s := by
  induction s generalizing t with
  | nil =>
    refine iff_of_false ?_ fun h => absurd h.1 (Nat.not_lt_zero _)
    cases t with
    | nil => exact lt_irrefl 0
    | cons d t => exact (by decide : ¬ (0 : ℤ) < -1)
  | cons c s ih =>
    cases t with
    | nil =>
      exact iff_of_true (by decide : (0 : ℤ) < 1)
        ⟨Nat.succ_pos _, List.Forall₂.nil⟩
    | cons d t =>
      rw [compareLoop, belowPrefix_cons]
      by_cases hbelow : below c d
      · rw [if_pos hbelow]
        exact iff_of_false (by decide) fun h => h.1 hbelow
      · rw [if_neg hbelow, ih]
        exact (and_iff_right hbelow).symm

/-- It says "less" of a list that is shorter and nowhere above. -/
theorem compareLoop_neg (s t : List α)
    (h : BelowPrefix (fun c d => ¬ below d c) s t) :
    compareLoop below s t < 0 := by
  induction s generalizing t with
  | nil =>
    cases t with
    | nil => exact absurd h.1 (Nat.lt_irrefl 0)
    | cons d t => exact (by decide : (-1 : ℤ) < 0)
  | cons c s ih =>
    cases t with
    | nil => exact absurd h.1 (Nat.not_lt_zero _)
    | cons d t =>
      rw [compareLoop]
      split_ifs
      · decide
      · exact ih t (belowPrefix_cons.mp h).2

theorem compareLoop_self (hirrefl : ∀ c, ¬ below c c) (s : List α) :
    compareLoop below s s = 0 := by
  induction s with
  | nil => rfl
  | cons c s ih => rw [compareLoop, if_neg (hirrefl c), ih]

/-- **The loop compares right** exactly where the lesser list is shorter, and
nowhere above the other. Then the first place that tells the two apart is one
where it is below, or its end, and both are what the loop looks for. -/
theorem compareLoop_comparesOn_iff [LinearOrder γ] (hirrefl : ∀ c, ¬ below c c)
    {S : Set β} {view : β → List α} {key : β → γ}
    (hkey : ∀ a b, key a = key b → view a = view b) :
    ComparesOn S (fun a b => compareLoop below (view a) (view b)) key
      ↔ ∀ a ∈ S, ∀ b ∈ S, key a < key b →
        BelowPrefix (fun c d => ¬ below d c) (view a) (view b) := by
  constructor
  · intro h a ha b hb hlt
    exact (compareLoop_pos_iff _ _).mp ((h.pos_iff b hb a ha).mpr hlt)
  · intro h
    refine comparesOn_iff_sign.mpr fun a ha b hb => ?_
    rcases lt_trichotomy (key a) (key b) with hlt | heq | hgt
    · have hneg := compareLoop_neg _ _ (h a ha b hb hlt)
      exact ⟨iff_of_true hneg hlt, iff_of_false (not_lt.mpr hneg.le) hlt.not_gt⟩
    · have hzero : compareLoop below (view a) (view b) = 0 := by
        rw [hkey a b heq]
        exact compareLoop_self hirrefl _
      exact ⟨iff_of_false (not_lt.mpr hzero.ge) heq.not_lt,
        iff_of_false (not_lt.mpr hzero.le) heq.not_gt⟩
    · have hpos := (compareLoop_pos_iff _ _).mpr (h b hb a ha hgt)
      exact ⟨iff_of_false (not_lt.mpr hpos.le) hgt.not_gt, iff_of_true hpos hgt⟩

end Loop
