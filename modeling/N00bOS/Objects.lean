import Mathlib.Logic.Function.Basic
import Mathlib.Tactic.Common

/-!
# Stores of objects

What the clients of an allocator think they have: objects under names, each
with a size and its own values, and nothing else. Making an object gives a name
a meaning, dropping it takes the meaning away, and storing a value changes one
place of one object. Nothing is said about addresses, and no two objects have
anything to do with each other.

A memory in which the objects lie is any function `load` from a name and a
place to a value. It `Represents` the store when every place of every object
holds the object's value, and it goes on doing so along an operation when it
changes what the operation changes (`Represents.make`, `.drop`, `.store`). To
verify an allocator against this picture is to say what `load` is and to show,
for each of its operations, which places keep their values.
-/

/-- **An object**: its size, and its values. A function gives the values, and
what it says of places beyond the size does not matter. -/
structure Object (β : Type) where
  /-- How many places it has. -/
  size : ℕ
  /-- What is in them. -/
  bytes : ℕ → β

/-- **A store**: the objects under their names. It is what a client of an
allocator thinks of memory as: names instead of addresses, and objects that
have nothing to do with one another. -/
abbrev Objects (ν β : Type) := ν → Option (Object β)

namespace Objects

variable {ν β : Type} [DecidableEq ν]

/-- No object. -/
def empty : Objects ν β := fun _ => none

/-- A new object, the same value everywhere. -/
def make (σ : Objects ν β) (p : ν) (size : ℕ) (v : β) : Objects ν β :=
  Function.update σ p (some ⟨size, fun _ => v⟩)

/-- An object goes. -/
def drop (σ : Objects ν β) (p : ν) : Objects ν β := Function.update σ p none

/-- A value is stored in an object. -/
def store (σ : Objects ν β) (p : ν) (i : ℕ) (v : β) : Objects ν β :=
  Function.update σ p ((σ p).map fun o =>
    { o with bytes := Function.update o.bytes i v })

variable {σ : Objects ν β} {p q : ν} {size i : ℕ} {v : β} {o : Object β}

@[simp] theorem make_self : σ.make p size v p = some ⟨size, fun _ => v⟩ :=
  Function.update_self _ _ _

theorem make_of_ne (h : q ≠ p) :
    σ.make p size v q = σ q := Function.update_of_ne h _ _

@[simp] theorem drop_self : σ.drop p p = none := Function.update_self _ _ _

theorem drop_of_ne (h : q ≠ p) : σ.drop p q = σ q := Function.update_of_ne h _ _

theorem store_self (h : σ p = some o) :
    σ.store p i v p = some { o with bytes := Function.update o.bytes i v } := by
  rw [store, Function.update_self, h]
  rfl

theorem store_of_ne (h : q ≠ p) :
    σ.store p i v q = σ q := Function.update_of_ne h _ _

/-- An object that is there after a drop was there before. -/
theorem of_drop (h : σ.drop p q = some o) : q ≠ p ∧ σ q = some o := by
  have hne : q ≠ p := by
    rintro rfl
    rw [drop_self] at h
    cases h
  exact ⟨hne, (drop_of_ne hne).symm.trans h⟩

/-- A store changes no size. -/
theorem of_store (h : σ.store p i v q = some o) :
    ∃ o', σ q = some o' ∧ o'.size = o.size := by
  by_cases hq : q = p
  · subst hq
    rw [store, Function.update_self] at h
    obtain ⟨o', ho', rfl⟩ := Option.map_eq_some_iff.mp h
    exact ⟨o', ho', rfl⟩
  · exact ⟨o, (store_of_ne hq).symm.trans h, rfl⟩

/-- **A memory that represents a store**: every place of every object, below
the object's size, holds the object's value there. Places of no object may hold
anything. -/
def Represents (load : ν → ℕ → β) (σ : Objects ν β) : Prop :=
  ∀ p o, σ p = some o → ∀ i, i < o.size → load p i = o.bytes i

namespace Represents

variable {load load' : ν → ℕ → β}

omit [DecidableEq ν] in
theorem empty (load : ν → ℕ → β) : Represents load (empty : Objects ν β) :=
  fun _ _ h => nomatch h

/-- A new object: its places are filled, the other objects keep theirs. -/
theorem make (h : Represents load σ) (hnew : ∀ i, i < size → load' p i = v)
    (hold : ∀ q o, q ≠ p → σ q = some o → ∀ i, i < o.size →
      load' q i = load q i) :
    Represents load' (σ.make p size v) := by
  intro q o hq i hi
  by_cases hqp : q = p
  · subst hqp
    obtain rfl := Option.some.inj (make_self.symm.trans hq)
    exact hnew i hi
  · rw [make_of_ne hqp] at hq
    rw [hold q o hqp hq i hi, h q o hq i hi]

/-- An object that goes: the others keep their places. -/
theorem drop (h : Represents load σ)
    (hold : ∀ q o, q ≠ p → σ q = some o → ∀ i, i < o.size →
      load' q i = load q i) :
    Represents load' (σ.drop p) := by
  intro q o hq i hi
  obtain ⟨hne, hq'⟩ := of_drop hq
  rw [hold q o hne hq' i hi, h q o hq' i hi]

/-- A value that is stored: its place holds it, all others are as they were. -/
theorem store (h : Represents load σ) (hnew : load' p i = v)
    (hold : ∀ q o j, σ q = some o → j < o.size → q ≠ p
      ∨ j ≠ i → load' q j = load q j) :
    Represents load' (σ.store p i v) := by
  intro q o hq j hj
  by_cases hqp : q = p
  · subst hqp
    rw [Objects.store, Function.update_self] at hq
    obtain ⟨o', ho', rfl⟩ := Option.map_eq_some_iff.mp hq
    by_cases hji : j = i
    · rw [hji, hnew]
      exact (Function.update_self i v o'.bytes).symm
    · rw [hold q o' j ho' hj (Or.inr hji), h q o' ho' j hj]
      exact (Function.update_of_ne hji v o'.bytes).symm
  · rw [store_of_ne hqp] at hq
    rw [hold q o j hq hj (Or.inl hqp), h q o hq j hj]

end Represents

end Objects
