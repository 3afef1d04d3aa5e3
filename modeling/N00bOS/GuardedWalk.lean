import Mathlib.Logic.Function.Iterate
import Mathlib.Tactic.Common

/-!
# Guarded walks

A walk applies a function again and again, and is over at the first value that
fails a test. A walk of `n` steps is then the `n`-th iterate, or nothing, and
walks compose: a walk of `m + n` steps is one of `m` steps and, where that one
has arrived, one of `n` steps (`walk_add`). Nothing is asked of the function,
so a walk may well go in circles.

A chain of links that is followed by a loop with an early exit is such a walk:
the function reads the link, and the test is what the loop checks of it. What
is known of one link is known of where the walk arrives (`walk_induction`).
-/

namespace GuardedWalk

variable {α : Type} {f : α → α} {ok : α → Prop} [DecidablePred ok]

/-- **A guarded walk**: `n` steps of `f` from a start, none of them to a value
that fails the test. The start itself is not tested. -/
def walk (f : α → α) (ok : α → Prop) [DecidablePred ok] : ℕ → α → Option α
  | 0, a => some a
  | n + 1, a => if ok (f a) then walk f ok n (f a) else none

theorem walk_succ_of_ok {a : α} (h : ok (f a)) (n : ℕ) :
    walk f ok (n + 1) a = walk f ok n (f a) := if_pos h

theorem walk_succ_of_not_ok {a : α} (h : ¬ ok (f a)) (n : ℕ) :
    walk f ok (n + 1) a = none :=
  if_neg h

omit [DecidablePred ok] in
/-- The values visited, from the first step on. -/
theorem forall_visited_succ (n : ℕ) (a : α) :
    (∀ i < n + 1, ok (f^[i + 1] a)) ↔ ok (f a) ∧ ∀ i < n,
    ok (f^[i + 1] (f a)) := by
  constructor
  · exact fun h => ⟨h 0 (Nat.succ_pos n), fun i hi =>
      h (i + 1) (Nat.succ_lt_succ hi)⟩
  · rintro ⟨hfirst, hrest⟩ i hi
    cases i with
    | zero => exact hfirst
    | succ i => exact hrest i (Nat.lt_of_succ_lt_succ hi)

/-- **A walk is the iterate**, when every value visited passes the test. The
start is not tested, and the value where the walk arrives is. -/
theorem walk_eq_ite (n : ℕ) (a : α) :
    walk f ok n a = if ∀ i < n, ok (f^[i + 1] a) then some (f^[n] a)
      else none := by
  induction n generalizing a with
  | zero => exact (if_pos fun i hi => absurd hi (Nat.not_lt_zero i)).symm
  | succ n ih =>
    by_cases hok : ok (f a)
    · rw [walk_succ_of_ok hok, ih]
      exact if_congr ((forall_visited_succ n a).trans (and_iff_right hok)).symm
        rfl rfl
    · rw [walk_succ_of_not_ok hok, if_neg fun h =>
        hok ((forall_visited_succ n a).mp h).1]

/-- **Walks compose.** A walk of `m + n` steps is one of `n` steps from where
the first `m` have arrived; if these stop, so does the whole. -/
theorem walk_add (m n : ℕ) (a : α) :
    walk f ok (m + n) a = (walk f ok m a).bind (walk f ok n) := by
  induction m generalizing a with
  | zero =>
    rw [Nat.zero_add]
    rfl
  | succ m ih =>
    rw [Nat.succ_add]
    by_cases hok : ok (f a)
    · rw [walk_succ_of_ok hok, walk_succ_of_ok hok, ih]
    · rw [walk_succ_of_not_ok hok, walk_succ_of_not_ok hok]
      rfl

/-- What holds of the start and of every value of the function holds where a
walk arrives. -/
theorem walk_induction {p : α → Prop} (hf : ∀ a, p (f a)) {n : ℕ} {a b : α}
    (ha : p a) (h : walk f ok n a = some b) : p b := by
  induction n generalizing a with
  | zero =>
    rw [← Option.some.inj h]
    exact ha
  | succ n ih =>
    by_cases hok : ok (f a)
    · rw [walk_succ_of_ok hok] at h
      exact ih (hf a) h
    · rw [walk_succ_of_not_ok hok] at h
      cases h

end GuardedWalk
