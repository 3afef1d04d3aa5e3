import Mathlib.Data.BitVec
import Mathlib.Order.Defs.Unbundled
import Mathlib.Tactic.Ring

/-!
# Programs over a state that may fault

A C function that reads and writes memory is a program over a state which
either returns a value and a new state, or does something the language gives no
meaning to. `Machine ε σ` is the monad of such programs: `Except.error` is the
second outcome, and what the fault was is the value in it. Nothing here knows
what the states or the faults are; the kernel's are in `Kernel`.

Two ways of reasoning are here. A run that is known can be followed forward,
one `bind` at a time (`bind_ok`, `bind_error`). A run that is only known to
have returned is taken apart (`bind_eq_ok`), or described by a triple:
`Triple P x Q` says that `x`, started in a state with `P`, can only return with
`Q`. Triples say nothing about a run that faults.

What a program leaves alone is a relation between the states before and after.
`Keeps R x` says that `x` stays within `R`, and for a preorder `R` that goes
through sequences, so it is checked on the primitives only. That one fault
never happens is checked the same way: `FreeOf I e x` says that `x` does not
end in `e` from a state with the invariant `I`, and keeps `I`. And where a
program draws on a resource of the state, `Spends` says how much it takes.

Each of the four notions has one rule for every way a program is built – a
value, a fault, a change of the state, a choice, a sequence – under the same
names, so that a proof about a program of the model follows its text from the
top to the bottom and names the rule of each step.
-/

/-- **A program** over states `σ` that may fault with an `ε`. It is a function,
so a run is the program applied to a state, and two programs are equal when
their runs are. -/
abbrev Machine (ε σ : Type) := StateT σ (Except ε)

namespace Machine

variable {ε σ α β : Type}

/-- A program that faults. -/
def fault (e : ε) : Machine ε σ α := fun _ => Except.error e

@[simp] theorem fault_apply (e : ε) (s : σ) :
    (fault e : Machine ε σ α) s = Except.error e :=
  rfl

@[simp] theorem pure_apply (a : α) (s : σ) :
    (pure a : Machine ε σ α) s = Except.ok (a, s) :=
  rfl

@[simp] theorem get_apply (s : σ) :
    (get : Machine ε σ σ) s = Except.ok (s, s) :=
  rfl

@[simp] theorem modify_apply (f : σ → σ) (s : σ) :
    (modify f : Machine ε σ PUnit) s = Except.ok (PUnit.unit, f s) :=
  rfl

/-- After a first program that returns, the second one runs. -/
theorem bind_ok {x : Machine ε σ α} {f : α → Machine ε σ β} {s s' : σ} {a : α}
    (h : x s = Except.ok (a, s')) : (x >>= f) s = f a s' := by
  show (x s >>= fun r => f r.1 r.2) = _
  rw [h]
  rfl

/-- After a first program that faults, nothing runs. -/
theorem bind_error {x : Machine ε σ α} {f : α → Machine ε σ β} {s : σ} {e : ε}
    (h : x s = Except.error e) : (x >>= f) s = Except.error e := by
  show (x s >>= fun r => f r.1 r.2) = _
  rw [h]
  rfl

@[simp] theorem get_bind (f : σ → Machine ε σ β) (s : σ) :
    (get >>= f) s = f s s := rfl

@[simp] theorem modify_bind (g : σ → σ) (f : PUnit → Machine ε σ β) (s : σ) :
    (modify g >>= f) s = f PUnit.unit (g s) := rfl

/-- A first program that runs only under a condition. -/
theorem when_bind {c : Prop} [Decidable c] {x : Machine ε σ PUnit}
    {f : PUnit → Machine ε σ β} {s s' : σ}
    (hx : c → x s = Except.ok (PUnit.unit, s')) (hs : ¬ c → s' = s) :
    (if c then x >>= f else f PUnit.unit) s = f PUnit.unit s' := by
  by_cases hc : c
  · rw [if_pos hc, bind_ok (hx hc)]
  · rw [if_neg hc, hs hc]

/-- A result that is an error unless some condition holds. -/
theorem ite_error_eq_ok {c : Prop} [Decidable c] {e : ε} {u v : α} :
    (if c then Except.ok u else Except.error e : Except ε α) = Except.ok v
      ↔ c ∧ u = v := by
  by_cases hc : c
  · rw [if_pos hc, Except.ok.injEq, and_iff_right hc]
  · rw [if_neg hc]
    exact iff_of_false (fun h => by cases h) (fun h => hc h.1)

/-- **A sequence returns** when its first program returns and the second one
does, from there. This is the inversion that proofs about runs that are known
to have returned start with. -/
theorem bind_eq_ok {x : Machine ε σ α} {f : α → Machine ε σ β} {s s'' : σ}
    {b : β} :
    (x >>= f) s = Except.ok (b, s'')
      ↔ ∃ a s', x s = Except.ok (a, s') ∧ f a s' = Except.ok (b, s'') := by
  constructor
  · intro h
    cases hx : x s with
    | error e => rw [bind_error hx] at h; exact absurd h (by simp)
    | ok r =>
      obtain ⟨a, s'⟩ := r
      rw [bind_ok hx] at h
      exact ⟨a, s', rfl, h⟩
  · rintro ⟨a, s', hx, hf⟩
    rw [bind_ok hx, hf]

/-- What a program returns, when it does. -/
def result (x : Machine ε σ α) (s : σ) : Option α :=
  match x s with
  | Except.ok (a, _) => some a
  | Except.error _ => none

theorem result_eq_some {x : Machine ε σ α} {s : σ} {a : α} :
    result x s = some a ↔ ∃ s', x s = Except.ok (a, s') := by
  rw [result]
  cases hx : x s with
  | error e =>
    constructor
    · intro h
      cases h
    · rintro ⟨s', h⟩
      cases h
  | ok r =>
    obtain ⟨b, s'⟩ := r
    constructor
    · intro h
      exact ⟨s', by rw [Option.some.inj h]⟩
    · rintro ⟨s'', h⟩
      exact congrArg some (Prod.mk.inj (Except.ok.inj h)).1

/-- How a program fails, when it does. -/
def failure (x : Machine ε σ α) (s : σ) : Option ε :=
  match x s with
  | Except.ok _ => none
  | Except.error e => some e

theorem failure_eq_some {x : Machine ε σ α} {s : σ} {e : ε} :
    failure x s = some e ↔ x s = Except.error e := by
  rw [failure]
  cases x s with
  | error e' => exact ⟨fun h => congrArg Except.error (Option.some.inj h),
      fun h => congrArg some (Except.error.inj h)⟩
  | ok r => exact ⟨by rintro ⟨⟩, by rintro ⟨⟩⟩

/-! ## Triples

Partial correctness. A triple is a statement about the runs that return, so the
rule for a fault has no premise, and a loop is proved by induction with the
triple of its body. -/

/-- **A partial-correctness triple**: from a state with `P`, a run of `x` that
returns does so with `Q` of its value and its final state. A run that faults
satisfies every triple. -/
def Triple (P : σ → Prop) (x : Machine ε σ α) (Q : α → σ → Prop) : Prop :=
  ∀ s a s', P s → x s = Except.ok (a, s') → Q a s'

namespace Triple

variable {P : σ → Prop} {Q : α → σ → Prop} {R : β → σ → Prop}

/-- A value. -/
theorem pure {a : α} (h : ∀ s, P s → Q a s) :
    Triple P (Pure.pure a : Machine ε σ α) Q := by
  intro s b s' hs hx
  obtain ⟨rfl, rfl⟩ := Prod.mk.inj (Except.ok.inj hx)
  exact h s hs

/-- A fault returns nothing. -/
theorem fault {e : ε} : Triple P (Machine.fault e : Machine ε σ α) Q :=
  fun _ _ _ _ hx => nomatch hx

/-- **A sequence.** -/
theorem bind {x : Machine ε σ α} {f : α → Machine ε σ β} (hx : Triple P x Q)
    (hf : ∀ a, Triple (Q a) (f a) R) : Triple P (x >>= f) R := by
  intro s b s'' hs hrun
  obtain ⟨a, s', hx', hf'⟩ := bind_eq_ok.mp hrun
  exact hf a s' b s'' (hx s a s' hs hx') hf'

/-- A choice. -/
theorem ite {c : Prop} [Decidable c] {x y : Machine ε σ α}
    (hx : c → Triple P x Q) (hy : ¬ c → Triple P y Q) :
    Triple P (if c then x else y) Q := by
  by_cases hc : c
  · rw [if_pos hc]
    exact hx hc
  · rw [if_neg hc]
    exact hy hc

end Triple

/-! ## Frames

What does not change. A frame is a relation that a program keeps to from every
state, without a precondition; the relations are preorders, declared as
instances of `IsPreorder`, so that the rules for values and sequences come from
reflexivity and transitivity. -/

/-- **A program stays within a relation**: a run that returns ends in a state
related to the one it started in, whatever that is. -/
def Keeps (R : σ → σ → Prop) (x : Machine ε σ α) : Prop :=
  ∀ s a s', x s = Except.ok (a, s') → R s s'

namespace Keeps

variable {R : σ → σ → Prop}

/-- A fault ends nowhere. -/
theorem fault {e : ε} :
    Keeps R (Machine.fault e : Machine ε σ α) := fun _ _ _ hx => nomatch hx

/-- Changing the state. -/
theorem modify {f : σ → σ} (h : ∀ s, R s (f s)) :
    Keeps R (modify f : Machine ε σ PUnit) := by
  intro s a s' hx
  obtain ⟨-, rfl⟩ := Prod.mk.inj (Except.ok.inj hx)
  exact h s

/-- A choice. -/
theorem ite {c : Prop} [Decidable c] {x y : Machine ε σ α} (hx : Keeps R x)
    (hy : Keeps R y) :
    Keeps R (if c then x else y) := by
  by_cases hc : c
  · rw [if_pos hc]
    exact hx
  · rw [if_neg hc]
    exact hy

/-- A smaller relation is a stronger frame. -/
theorem mono {R' : σ → σ → Prop} {x : Machine ε σ α} (h : Keeps R x)
    (hle : ∀ s s', R s s' → R' s s') : Keeps R' x :=
  fun s a s' hx => hle s s' (h s a s' hx)

variable [IsPreorder σ R]

/-- A value. -/
theorem pure {a : α} : Keeps R (Pure.pure a : Machine ε σ α) := by
  intro s b s' hx
  obtain ⟨-, rfl⟩ := Prod.mk.inj (Except.ok.inj hx)
  exact Std.Refl.refl s

/-- Reading the state. -/
theorem get : Keeps R (get : Machine ε σ σ) := by
  intro s b s' hx
  obtain ⟨-, rfl⟩ := Prod.mk.inj (Except.ok.inj hx)
  exact Std.Refl.refl s

/-- **A sequence.** -/
theorem bind {x : Machine ε σ α} {f : α → Machine ε σ β} (hx : Keeps R x)
    (hf : ∀ a, Keeps R (f a)) : Keeps R (x >>= f) := by
  intro s b s'' hrun
  obtain ⟨a, s', hx', hf'⟩ := bind_eq_ok.mp hrun
  exact IsTrans.trans _ _ _ (hx s a s' hx') (hf a s' b s'' hf')

end Keeps

/-! ## Faults that do not happen

A frame does not say that a program returns. `FreeOf` excludes one fault, and
lets the others be: that is what is proved of a division whose divisor an
invariant keeps away from zero. -/

/-- **A program is free of the fault** `e` under an invariant: from a state
with the invariant a run does not end in `e`, and one that returns does so with
the invariant. Other faults may happen. -/
def FreeOf (I : σ → Prop) (e : ε) (x : Machine ε σ α) : Prop :=
  ∀ s, I s → x s ≠ Except.error e ∧ ∀ a s', x s = Except.ok (a, s') → I s'

namespace FreeOf

variable {I : σ → Prop} {e : ε}

/-- A value. -/
theorem pure {a : α} : FreeOf I e (Pure.pure a : Machine ε σ α) := by
  intro s hs
  refine ⟨by rintro ⟨⟩, fun b s' h => ?_⟩
  obtain ⟨-, rfl⟩ := Prod.mk.inj (Except.ok.inj h)
  exact hs

/-- Another fault. -/
theorem fault {e' : ε} (he : e' ≠ e) :
    FreeOf I e (Machine.fault e' : Machine ε σ α) :=
  fun _ _ => ⟨fun h => he (Except.error.inj h), fun _ _ h => nomatch h⟩

/-- Reading the state. -/
theorem get : FreeOf I e (get : Machine ε σ σ) := by
  intro s hs
  refine ⟨by rintro ⟨⟩, fun b s' h => ?_⟩
  obtain ⟨-, rfl⟩ := Prod.mk.inj (Except.ok.inj h)
  exact hs

/-- Changing the state. -/
theorem modify {f : σ → σ} (h : ∀ s, I s → I (f s)) :
    FreeOf I e (modify f : Machine ε σ PUnit) := by
  intro s hs
  refine ⟨by rintro ⟨⟩, fun b s' hrun => ?_⟩
  obtain ⟨-, rfl⟩ := Prod.mk.inj (Except.ok.inj hrun)
  exact h s hs

/-- A choice. -/
theorem ite {c : Prop} [Decidable c] {x y : Machine ε σ α}
    (hx : c → FreeOf I e x) (hy : ¬ c → FreeOf I e y) :
    FreeOf I e (if c then x else y) := by
  by_cases hc : c
  · rw [if_pos hc]
    exact hx hc
  · rw [if_neg hc]
    exact hy hc

/-- **A sequence**, when something is known of what its first program
returns. -/
theorem bind_of {x : Machine ε σ α} {f : α → Machine ε σ β} {Q : α → Prop}
    (hx : FreeOf I e x) (hq : Triple I x fun a _ => Q a)
    (hf : ∀ a, Q a → FreeOf I e (f a)) :
    FreeOf I e (x >>= f) := by
  intro s hs
  obtain ⟨hne, hkeep⟩ := hx s hs
  constructor
  · cases hrun : x s with
    | error e' =>
      rw [bind_error hrun]
      exact fun h =>
        hne (hrun.trans (congrArg Except.error (Except.error.inj h)))
    | ok r =>
      obtain ⟨a, s'⟩ := r
      rw [bind_ok hrun]
      exact (hf a (hq s a s' hs hrun) s' (hkeep a s' hrun)).1
  · intro b s'' hrun
    obtain ⟨a, s', hx', hf'⟩ := bind_eq_ok.mp hrun
    exact (hf a (hq s a s' hs hx') s' (hkeep a s' hx')).2 b s'' hf'

/-- **A sequence.** -/
theorem bind {x : Machine ε σ α} {f : α → Machine ε σ β} (hx : FreeOf I e x)
    (hf : ∀ a, FreeOf I e (f a)) : FreeOf I e (x >>= f) :=
  hx.bind_of (Q := fun _ => True) (fun _ _ _ _ _ => trivial) fun a _ => hf a

end FreeOf

/-! ## Parts of a state

A program over a part of the state is one over the whole. The kernel proper is
a part of the state of processes and tasks, and its programs run there
unchanged. -/

/-- **A program on a part** `get` of the state, which `put` puts back. The rest
of the state is what it was. -/
def zoom {τ : Type} (get : σ → τ) (put : τ → σ → σ) (x : Machine ε τ α) :
    Machine ε σ α := fun s =>
  match x (get s) with
  | Except.ok (a, t) => Except.ok (a, put t s)
  | Except.error e => Except.error e

section Zoom

variable {τ : Type} {get : σ → τ} {put : τ → σ → σ} {x : Machine ε τ α} {s : σ}

theorem zoom_ok {t : τ} {a : α} (h : x (get s) = Except.ok (a, t)) :
    zoom get put x s = Except.ok (a, put t s) := by
  rw [zoom, h]

theorem zoom_error {e : ε} (h : x (get s) = Except.error e) :
    zoom get put x s = Except.error e := by
  rw [zoom, h]

/-- **A run on a part** is a run of the program there. The rest of the state is
what it was, since `put` replaces the part and nothing else. -/
theorem zoom_eq_ok {a : α} {s' : σ} :
    zoom get put x s = Except.ok (a, s') ↔ ∃ t, x (get s) = Except.ok (a, t)
      ∧ s' = put t s := by
  constructor
  · intro h
    cases hx : x (get s) with
    | error e =>
      rw [zoom_error hx] at h
      cases h
    | ok r =>
      obtain ⟨b, t⟩ := r
      rw [zoom_ok hx] at h
      obtain ⟨rfl, rfl⟩ := Prod.mk.inj (Except.ok.inj h)
      exact ⟨t, rfl, rfl⟩
  · rintro ⟨t, hx, rfl⟩
    exact zoom_ok hx

end Zoom

/-! ## Budgets

A program may draw on something that the state has so much of, and fail with
one error when there is not enough. `Spends` says how much it takes: with less
than that it fails, and otherwise it returns. The free blocks of a heap are
such a budget, and a sequence of programs spends the sum of what they spend. -/

/-- **A program spends `n`** of a budget, from a state: it fails with `e` if
that is more than there is, and otherwise it returns with `Q`, having taken
exactly so much of the budget. -/
def Spends (budget : σ → ℕ) (e : ε) (n : ℕ) (x : Machine ε σ α) (s : σ)
    (Q : α → σ → Prop) : Prop :=
  (budget s < n ∧ x s = Except.error e)
    ∨ ∃ a s', x s = Except.ok (a, s') ∧ budget s' + n = budget s ∧ Q a s'

namespace Spends

variable {budget : σ → ℕ} {e : ε} {n m : ℕ} {s : σ} {Q : α → σ → Prop}
  {R : β → σ → Prop}

/-- A value costs nothing. -/
theorem pure {a : α} (h : Q a s) : Spends budget e 0 (Pure.pure a) s Q :=
  Or.inr ⟨a, s, rfl, rfl, h⟩

/-- **A sequence** spends what its programs spend. -/
theorem bind {x : Machine ε σ α} {f : α → Machine ε σ β}
    (hx : Spends budget e n x s Q)
    (hf : ∀ a s', Q a s' → Spends budget e m (f a) s' R) :
    Spends budget e (n + m) (x >>= f) s R := by
  rcases hx with ⟨hlt, hx⟩ | ⟨a, s', hx, hbudget, hq⟩
  · exact Or.inl ⟨by omega, bind_error hx⟩
  · rcases hf a s' hq with ⟨hlt, hrun⟩ | ⟨b, s'', hrun, hbudget', hr⟩
    · exact Or.inl ⟨by omega, (bind_ok hx).trans hrun⟩
    · exact Or.inr ⟨b, s'', (bind_ok hx).trans hrun, by omega, hr⟩

/-- A change of the state that the budget does not see. -/
theorem modify_bind {g : σ → σ} {f : PUnit → Machine ε σ β}
    (hg : budget (g s) = budget s)
    (hf : Spends budget e n (f PUnit.unit) (g s) R) :
    Spends budget e n (modify g >>= f) s R := by
  rw [Spends, hg] at hf
  exact hf

/-- The rule of consequence. -/
theorem conseq {x : Machine ε σ α} {Q' : α → σ → Prop}
    (h : Spends budget e n x s Q) (hpost : ∀ a s', Q a s' → Q' a s') :
    Spends budget e n x s Q' :=
  h.imp_right fun ⟨a, s', hx, hbudget, hq⟩ =>
    ⟨a, s', hx, hbudget, hpost a s' hq⟩

/-- With enough of it, the program returns. -/
theorem returns {x : Machine ε σ α} (h : Spends budget e n x s Q)
    (hn : n ≤ budget s) :
    ∃ a s', x s = Except.ok (a, s') ∧ budget s' + n = budget s ∧ Q a s' :=
  h.resolve_left fun hlt => absurd hlt.1 (Nat.not_lt.mpr hn)

/-- A run that returned did so with the postcondition. -/
theorem of_ok {x : Machine ε σ α} (h : Spends budget e n x s Q) {a : α} {s' : σ}
    (hx : x s = Except.ok (a, s')) : budget s' + n = budget s ∧ Q a s' := by
  rcases h with ⟨-, herror⟩ | ⟨b, s'', hok, hbudget, hq⟩
  · cases hx.symm.trans herror
  · obtain ⟨rfl, rfl⟩ := Prod.mk.inj (Except.ok.inj (hx.symm.trans hok))
    exact ⟨hbudget, hq⟩

end Spends

end Machine
