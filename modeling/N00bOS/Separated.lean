import Mathlib.Data.List.Chain
import Mathlib.Data.List.TakeWhile
import Mathlib.Tactic.Common

/-!
# Names between separators

A list is read as a sequence of names, with a separator between two of them and
perhaps one at the end; no name is empty. `Names` says which names, as a
relation between the list and its names, and names joined by separators are
read back (`Names.of_intercalate`). A reader takes the longest name it finds
and drops the separator after it (`names_iff_of_ne_nil`). There is a reading
exactly when no separator comes first or directly after another
(`exists_names_iff`).

The relation is what a grammar of such lists says, and `firstName` and
`afterName` are one step of a reader of them. That the two agree, step by step,
is `names_iff_of_ne_nil`: a parser that takes one name after the other is then
verified by an induction on what is left, which gets shorter
(`length_afterName_lt`), and never has to look at the list as a whole.
-/

namespace Separated

variable {α : Type} {sep : α}

/-- **The names of a list**: none, if it is empty; or a first name, which is
not empty and has no separator in it, and then, after a separator, the names of
the rest, if there is one. -/
inductive Names (sep : α) : List α → List (List α) → Prop where
  | nil : Names sep [] []
  | last {name : List α} : name ≠ [] → sep ∉ name → Names sep name [name]
  | next {name rest : List α} {names : List (List α)} : name ≠ [] → sep ∉ name →
      Names sep rest names → Names sep (name ++ sep :: rest) (name :: names)

namespace Names

variable {l : List α} {names : List (List α)}

/-- Names are not empty, and have no separator in them. -/
theorem name (h : Names sep l names) :
    ∀ name ∈ names, name ≠ [] ∧ sep ∉ name := by
  induction h with
  | nil => exact fun _ h => absurd h List.not_mem_nil
  | last hne hsep =>
    intro name hname
    rw [List.mem_singleton.mp hname]
    exact ⟨hne, hsep⟩
  | next hne hsep _ ih => exact List.forall_mem_cons.mpr ⟨⟨hne, hsep⟩, ih⟩

/-- What is in a name is in the list. -/
theorem subset (h : Names sep l names) : ∀ name ∈ names, name ⊆ l := by
  induction h with
  | nil => exact fun _ h => absurd h List.not_mem_nil
  | last =>
    intro name hname
    rw [List.mem_singleton.mp hname]
    exact List.Subset.refl _
  | next _ _ _ ih =>
    refine List.forall_mem_cons.mpr
      ⟨List.subset_append_left _ _, fun name hname => ?_⟩
    exact List.subset_append_of_subset_right _
      (List.subset_cons_of_subset _ (ih name hname))

/-- There are at most as many names as elements. -/
theorem length_le (h : Names sep l names) : names.length ≤ l.length := by
  induction h with
  | nil => exact le_rfl
  | last hne => exact List.length_pos_of_ne_nil hne
  | next hne _ _ ih =>
    rw [List.length_cons, List.length_append, List.length_cons]
    have := List.length_pos_of_ne_nil hne
    omega

/-- A list with an element has a name. -/
theorem ne_nil (h : Names sep l names) (hl : l ≠ []) : names ≠ [] := by
  cases h with
  | nil => exact absurd rfl hl
  | last => exact List.cons_ne_nil _ _
  | next => exact List.cons_ne_nil _ _

/-- An empty list has no name. -/
theorem eq_nil (h : Names sep l names) (hl : l = []) : names = [] := by
  cases h with
  | nil => rfl
  | last hne => exact absurd hl hne
  | next =>
    exact absurd hl (List.append_ne_nil_of_right_ne_nil _
      (List.cons_ne_nil _ _))

/-- **Names that are joined are read back**, with and without a separator at
the end. The names are not empty and have no separator in them, so each ends
where the next separator is. -/
theorem of_intercalate (hne : names ≠ [])
    (h : ∀ name ∈ names, name ≠ [] ∧ sep ∉ name) :
    Names sep ([sep].intercalate names) names
      ∧ Names sep ([sep].intercalate names ++ [sep]) names := by
  induction names with
  | nil => exact absurd rfl hne
  | cons name rest ih =>
    obtain ⟨⟨hname, hsep⟩, hrest⟩ := List.forall_mem_cons.mp h
    cases rest with
    | nil =>
      rw [List.intercalate_singleton]
      exact ⟨last hname hsep, next hname hsep nil⟩
    | cons name' rest' =>
      obtain ⟨h₁, h₂⟩ := ih (List.cons_ne_nil _ _) hrest
      rw [List.intercalate_cons_cons, List.append_assoc, List.append_assoc,
        List.append_assoc]
      exact ⟨next hname hsep h₁, next hname hsep h₂⟩

end Names

/-! ## Reading

One step of a reader, and what it says about the names: they are those of what
is left, with the name that was taken in front. -/

variable [DecidableEq α]

/-- The first name of a list, as far as it goes. -/
def firstName (sep : α) (l : List α) : List α := l.takeWhile (· ≠ sep)

/-- What follows it, and the separator. -/
def afterName (sep : α) (l : List α) :
    List α := (l.drop (firstName sep l).length).drop 1

theorem firstName_of_notMem {name : List α} (h : sep ∉ name) :
    firstName sep name = name := by
  rw [firstName, List.takeWhile_eq_self_iff]
  exact fun a ha => decide_eq_true fun heq : a = sep => h (heq ▸ ha)

theorem firstName_append {name rest : List α} (h : sep ∉ name) :
    firstName sep (name ++ sep :: rest) = name := by
  have hall : ∀ a ∈ name, decide (a ≠ sep) = true := fun a ha =>
    decide_eq_true fun heq => h (heq ▸ ha)
  rw [firstName,
    List.takeWhile_append_of_pos (p := fun a => decide (a ≠ sep)) hall,
    List.takeWhile_cons_of_neg (by simp), List.append_nil]

theorem notMem_firstName (sep : α) (l : List α) :
    sep ∉ firstName sep l := fun h =>
  of_decide_eq_true (List.mem_takeWhile_imp (p := fun a => decide (a ≠ sep)) h)
    rfl

/-- A list is its first name, or goes on with a separator. -/
theorem firstName_cases (sep : α) (l : List α) :
    (l = firstName sep l ∧ afterName sep l = [])
      ∨ l = firstName sep l ++ sep :: afterName sep l := by
  have hsplit : firstName sep l ++ l.dropWhile (· ≠ sep) = l :=
    List.takeWhile_append_dropWhile
  have hdrop : l.drop (firstName sep l).length = l.dropWhile (· ≠ sep) := by
    have hleft := congrArg (List.drop (firstName sep l).length) hsplit
    rw [List.drop_left] at hleft
    exact hleft.symm
  rw [afterName, hdrop]
  cases hrest : l.dropWhile (· ≠ sep) with
  | nil =>
    rw [hrest, List.append_nil] at hsplit
    exact Or.inl ⟨hsplit.symm, rfl⟩
  | cons a rest =>
    have ha := List.head?_dropWhile_not (fun a => decide (a ≠ sep)) l
    simp only [hrest, List.head?_cons, decide_eq_false_iff_not, not_not] at ha
    rw [hrest, ha] at hsplit
    exact Or.inr hsplit.symm

theorem afterName_append {name rest : List α} (h : sep ∉ name) :
    afterName sep (name ++ sep :: rest) = rest := by
  rw [afterName, firstName_append h, List.drop_left]
  rfl

/-- **One name is read**, and then the rest. This is a reading as a parser
makes it: from the front, one name and one separator at a time. -/
theorem names_iff_of_ne_nil {l : List α} (hl : l ≠ []) {names : List (List α)} :
    Names sep l names ↔ firstName sep l ≠ []
      ∧ ∃ tail, names = firstName sep l :: tail
      ∧ Names sep (afterName sep l) tail := by
  constructor
  · intro h
    induction h with
    | nil => exact absurd rfl hl
    | last hne hsep =>
      rw [afterName, firstName_of_notMem hsep, List.drop_length]
      exact ⟨hne, [], rfl, Names.nil⟩
    | next hne hsep hrest =>
      rw [firstName_append hsep, afterName_append hsep]
      exact ⟨hne, _, rfl, hrest⟩
  · rintro ⟨hne, tail, rfl, hrest⟩
    have hsep := notMem_firstName sep l
    rcases firstName_cases sep l with ⟨heq, hnil⟩ | heq
    · rw [hnil] at hrest
      rw [← heq] at hne hsep ⊢
      rw [hrest.eq_nil rfl]
      exact Names.last hne hsep
    · conv => arg 2; rw [heq]
      exact Names.next hne hsep hrest

/-- A list is read as one list of names. -/
theorem Names.unique {l : List α} {names names' : List (List α)}
    (h : Names sep l names) (h' : Names sep l names') : names = names' := by
  induction names generalizing l names' with
  | nil =>
    by_contra hne
    have hl : l ≠ [] := fun hnil => hne (h'.eq_nil hnil).symm
    exact h.ne_nil hl rfl
  | cons name rest ih =>
    have hl : l ≠ [] := fun hnil => nomatch h.eq_nil hnil
    obtain ⟨-, tail, heq, hrest⟩ := (names_iff_of_ne_nil hl).mp h
    obtain ⟨-, tail', rfl, hrest'⟩ := (names_iff_of_ne_nil hl).mp h'
    obtain ⟨rfl, rfl⟩ := List.cons.inj heq
    rw [ih hrest hrest']

/-- What is left after a name is shorter. -/
theorem length_afterName_lt {l : List α} (h : firstName sep l ≠ []) :
    (afterName sep l).length < l.length := by
  have hpos := List.length_pos_of_ne_nil h
  rcases firstName_cases sep l with ⟨heq, hnil⟩ | heq
  · rw [hnil, heq]
    exact hpos
  · conv_rhs => rw [heq]
    rw [List.length_append, List.length_cons]
    omega

omit [DecidableEq α] in
theorem isChain_cons_of_notMem (a : α) {name : List α} (h : sep ∉ name) :
    (a :: name).IsChain fun a b => a = sep → b ≠ sep := by
  induction name generalizing a with
  | nil => exact List.IsChain.singleton _
  | cons b rest ih =>
    obtain ⟨hb, hrest⟩ := not_or.mp (mt List.mem_cons.mpr h)
    exact List.isChain_cons_cons.mpr ⟨fun _ heq => hb heq.symm, ih b hrest⟩

/-- **There is a reading** exactly when no separator comes first or directly
after another: this is the shape of the lists that have names at all. The proof
reads name after name, on lists that become shorter. -/
theorem exists_names_iff {l : List α} :
    (∃ names, Names sep l names) ↔ (sep :: l).IsChain fun a b => a = sep →
    b ≠ sep := by
  constructor
  · rintro ⟨names, h⟩
    induction h with
    | nil => exact List.IsChain.singleton _
    | last _ hsep => exact isChain_cons_of_notMem _ hsep
    | @next name rest names hne hsep _ ih =>
      refine List.IsChain.append (isChain_cons_of_notMem sep hsep) ih
        fun x hx y _ heq => ?_
      rw [List.getLast?_cons_of_ne_nil hne] at hx
      exact absurd (heq ▸ List.mem_of_getLast? hx) hsep
  · intro h
    induction hn : l.length using Nat.strong_induction_on generalizing l with
    | _ n ih =>
      by_cases hl : l = []
      · exact ⟨[], hl ▸ Names.nil⟩
      have hfirst : firstName sep l ≠ [] := by
        intro hnil
        rcases firstName_cases sep l with ⟨heq, -⟩ | heq
        · exact hl (heq.trans hnil)
        · rw [heq, hnil] at h
          exact (List.isChain_cons_cons.mp h).1 rfl rfl
      have hafter : (sep :: afterName sep l).IsChain fun a b => a = sep →
          b ≠ sep := by
        rcases firstName_cases sep l with ⟨-, hnil⟩ | heq
        · rw [hnil]
          exact List.IsChain.singleton _
        · refine h.suffix ⟨sep :: firstName sep l, ?_⟩
          rw [List.cons_append, ← heq]
      obtain ⟨tail, htail⟩ := ih _ (hn ▸ length_afterName_lt hfirst) hafter rfl
      exact ⟨_, (names_iff_of_ne_nil hl).mpr ⟨hfirst, tail, rfl, htail⟩⟩

end Separated
