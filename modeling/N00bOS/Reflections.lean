import Mathlib.Logic.Equiv.Basic

/-!
# Reversal by swaps

A run is reversed in place by swapping place `r` with place `s - r`, for one
`r` after the other. While the two places have not met, the places swapped so
far hold what their mirror images held, and all others are as they were
(`reflectFrom_apply`): that is the invariant of the loop, stated for the number
of swaps made. Swaps that go on past the middle undo what was done
(`reflectFrom_succ_last`): one swap too many is visible.

Values and places are arbitrary; a loop over a buffer is an instance with the
buffer as a function from places to bytes.
-/

variable {α : Type*}

/-- **A reversal by swaps**: `n` of them, from place `r` on, each with its
mirror image in `s`. -/
def reflectFrom (s : ℕ) : ℕ → ℕ → (ℕ → α) → ℕ → α
  | 0, _, f => f
  | n + 1, r, f => reflectFrom s n (r + 1) (f ∘ Equiv.swap r (s - r))

/-- The last swap, instead of the first. -/
theorem reflectFrom_succ_last (s n r : ℕ) (f : ℕ → α) :
    reflectFrom s (n + 1) r f = reflectFrom s n r f ∘ Equiv.swap (r + n)
      (s - (r + n)) := by
  induction n generalizing r f with
  | zero => rfl
  | succ n ih =>
    rw [reflectFrom, ih, show r + 1 + n = r + (n + 1) by omega]
    rfl

/-- **Up to the middle**, the places that were swapped hold their mirror
images. Beyond it a swap undoes an earlier one. -/
theorem reflectFrom_apply {s n r : ℕ} {f : ℕ → α}
    (hmid : ∀ j < n, 2 * (r + j) ≤ s) (i : ℕ) :
    reflectFrom s n r f i
      = if i < s + 1 - r ∧ r ≤ i ∧ (i < r + n ∨ s - i < r + n) then f (s - i)
        else f i := by
  induction n generalizing r f with
  | zero =>
    rw [if_neg (by omega)]
    rfl
  | succ n ih =>
    have hfirst := hmid 0 (Nat.succ_pos n)
    have hlast := hmid n (Nat.lt_succ_self n)
    rw [reflectFrom, ih fun j hj => by have := hmid (j + 1) (by omega); omega]
    split_ifs with hin hall hall
    · -- a place that the later swaps move
      rw [Function.comp_apply,
        Equiv.swap_apply_of_ne_of_ne (by omega) (by omega)]
    · omega
    · -- one of the two places of the first swap
      rcases (show i = r ∨ i = s - r by omega) with rfl | rfl
      · rw [Function.comp_apply, Equiv.swap_apply_left]
      · rw [Function.comp_apply, Equiv.swap_apply_right]
        congr 1
        omega
    · rw [Function.comp_apply,
        Equiv.swap_apply_of_ne_of_ne (by omega) (by omega)]
