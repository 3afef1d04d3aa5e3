import Mathlib.Data.List.Nodup
import Mathlib.Tactic.Common

/-!
# Doubly linked lists

Nodes with two links each, and a value that stands for no node. A *stretch* of
nodes is linked when each one's links name its neighbours (`Segment`), and a
list is a stretch with no node in front of it and none behind (`LinkedList`).

The two operations are described by what they leave in the links and not by the
assignments that do it: after one more node (`LinkedList.append`), and after
one node less (`LinkedList.remove`). In the second one the two pointers that
are moved are the predecessor's `next` and the successor's `prev`, and at the
ends of the list these nodes are not there. Both are proved by cutting the list
into stretches around the node (`segment_append`), of which each sees one of
its ends move (`Segment.congr_after`, `Segment.congr_before`).

The links are functions from nodes to nodes, so that a list in a heap of
structures is an instance with the fields as functions, and the head and the
tail are values of their own. That there are no cycles is part of the notion:
the nodes of a list are pairwise different.
-/

namespace Linked

variable {α : Type} {next prev next' prev' : α → α}

/-- **A stretch of linked nodes**: `before` is in front of the first, and
`after` behind the last. A list is a stretch between two nulls, and taking a
node out of it leaves two stretches. -/
def Segment (next prev : α → α) : α → List α → α → Prop
  | _, [], _ => True
  | before, x :: l, after =>
    prev x = before ∧ next x = l.headD after ∧ Segment next prev x l after

theorem headD_append (l₁ l₂ : List α) (after : α) :
    (l₁ ++ l₂).headD after = l₁.headD (l₂.headD after) := by
  cases l₁ with
  | nil => rfl
  | cons x l₁ => rfl

theorem getLastD_append_singleton (l : List α) (x before : α) :
    (l ++ [x]).getLastD before = x := by
  rw [List.getLastD_eq_getLast?, List.getLast?_concat, Option.getD_some]

/-- **Two stretches, one after the other.** Each of them knows the other by one
node: the first one of the second, and the last one of the first. -/
theorem segment_append {before after : α} {l₁ l₂ : List α} :
    Segment next prev before (l₁ ++ l₂) after
      ↔ Segment next prev before l₁ (l₂.headD after)
        ∧ Segment next prev (l₁.getLastD before) l₂ after := by
  induction l₁ generalizing before with
  | nil => exact ⟨fun h => ⟨trivial, h⟩, fun h => h.2⟩
  | cons x l₁ ih =>
    rw [List.cons_append, Segment, Segment, ih, headD_append,
      List.getLastD_cons]
    exact ⟨fun ⟨hp, hn, h₁, h₂⟩ => ⟨⟨hp, hn, h₁⟩, h₂⟩, fun ⟨⟨hp, hn, h₁⟩, h₂⟩ =>
      ⟨hp, hn, h₁, h₂⟩⟩

/-- A node in the middle names its neighbours. -/
theorem Segment.links {before after x : α} {l₁ l₂ : List α}
    (h : Segment next prev before (l₁ ++ x :: l₂) after) :
    prev x = l₁.getLastD before ∧ next x = l₂.headD after :=
  let ⟨hp, hn, _⟩ := (segment_append.mp h).2
  ⟨hp, hn⟩

/-- Only the links of its nodes matter. -/
theorem Segment.congr {before after : α} {l : List α}
    (h : Segment next prev before l after) (hn : ∀ x ∈ l, next' x = next x)
    (hp : ∀ x ∈ l, prev' x = prev x) :
    Segment next' prev' before l after := by
  induction l generalizing before with
  | nil => trivial
  | cons x l ih =>
    obtain ⟨hprev, hnext, hrest⟩ := h
    have hx := List.mem_cons_self (a := x) (l := l)
    refine ⟨(hp x hx).trans hprev, (hn x hx).trans hnext, ih hrest ?_ ?_⟩
    · exact fun y hy => hn y (List.mem_cons_of_mem x hy)
    · exact fun y hy => hp y (List.mem_cons_of_mem x hy)

/-- **Another node behind a stretch**: the last `next` moves. The nodes are
different, so that this link is changed for no other node of the stretch. -/
theorem Segment.congr_after {before after after' : α} {l : List α}
    (hnd : l.Nodup) (h : Segment next prev before l after)
    (hn : ∀ x ∈ l, l.getLast? ≠ some x → next' x = next x)
    (hlast : ∀ x, l.getLast? = some x → next' x = after')
    (hp : ∀ x ∈ l, prev' x = prev x) :
    Segment next' prev' before l after' := by
  rcases List.eq_nil_or_concat' l with rfl | ⟨l, x, rfl⟩
  · trivial
  · rw [List.getLast?_concat] at hn hlast
    obtain ⟨hl, hprev, -, -⟩ := segment_append.mp h
    have hx := List.mem_append_right l (List.mem_singleton_self x)
    have hne : ∀ y ∈ l, some x ≠ some y := fun y hy heq =>
      (List.nodup_append.mp hnd).2.2 y hy x (List.mem_singleton_self x)
        (Option.some.inj heq).symm
    refine segment_append.mpr ⟨hl.congr ?_ ?_, (hp x hx).trans hprev,
      hlast x rfl, trivial⟩
    · exact fun y hy => hn y (List.mem_append_left _ hy) (hne y hy)
    · exact fun y hy => hp y (List.mem_append_left _ hy)

/-- **Another node in front of a stretch**: the first `prev` moves. It is the
mirror image of `Segment.congr_after`, without a common statement, since the
links are two functions. -/
theorem Segment.congr_before {before before' after : α} {l : List α}
    (hnd : l.Nodup) (h : Segment next prev before l after)
    (hn : ∀ x ∈ l, next' x = next x)
    (hp : ∀ x ∈ l, l.head? ≠ some x → prev' x = prev x)
    (hfirst : ∀ x, l.head? = some x → prev' x = before') :
    Segment next' prev' before' l after := by
  cases l with
  | nil => trivial
  | cons x l =>
    obtain ⟨-, hnext, hrest⟩ := h
    have hne : ∀ y ∈ l, some x ≠ some y := fun y hy heq =>
      (List.nodup_cons.mp hnd).1 (Option.some.inj heq ▸ hy)
    refine ⟨hfirst x rfl, (hn x List.mem_cons_self).trans hnext,
      hrest.congr ?_ ?_⟩
    · exact fun y hy => hn y (List.mem_cons_of_mem x hy)
    · exact fun y hy => hp y (List.mem_cons_of_mem x hy) (hne y hy)

/-! ## Whole lists

A list is a stretch from null to null with a head and a tail that name its
ends, or are null when it is empty. -/

/-- **A doubly linked list**: its nodes, in order, are `l`, they are pairwise
different and none is null, each names its neighbours, and the head and the
tail are the first and the last of them. -/
structure LinkedList (null : α) (next prev : α → α) (head tail : α)
    (l : List α) : Prop where
  /-- The links name the neighbours. -/
  links : Segment next prev null l null
  /-- No node is there twice. -/
  nodup : l.Nodup
  /-- Null is not a node. -/
  null_notMem : null ∉ l
  /-- The first node. -/
  head_eq : head = l.headD null
  /-- The last node. -/
  tail_eq : tail = l.getLastD null

namespace LinkedList

variable {null head tail x : α} {l l₁ l₂ : List α}

/-- No nodes. -/
theorem nil (null : α) (next prev : α → α) :
    LinkedList null next prev null null [] :=
  ⟨trivial, List.nodup_nil, List.not_mem_nil, rfl, rfl⟩

/-- Only the links of its nodes matter. -/
theorem congr (h : LinkedList null next prev head tail l)
    (hn : ∀ x ∈ l, next' x = next x) (hp : ∀ x ∈ l, prev' x = prev x) :
    LinkedList null next' prev' head tail l :=
  ⟨h.links.congr hn hp, h.nodup, h.null_notMem, h.head_eq, h.tail_eq⟩

theorem head_eq_null_iff (h : LinkedList null next prev head tail l) :
    head = null ↔ l = [] := by
  rw [h.head_eq]
  cases l with
  | nil => exact iff_of_true rfl rfl
  | cons x l =>
    refine iff_of_false (fun heq => h.null_notMem ?_) (List.cons_ne_nil x l)
    rw [← heq]
    exact List.mem_cons_self

theorem tail_eq_null_iff (h : LinkedList null next prev head tail l) :
    tail = null ↔ l = [] := by
  rw [h.tail_eq]
  rcases List.eq_nil_or_concat' l with rfl | ⟨l, x, rfl⟩
  · exact iff_of_true rfl rfl
  · rw [getLastD_append_singleton]
    refine iff_of_false (fun heq => h.null_notMem ?_) (List.concat_ne_nil x l)
    rw [← heq]
    exact List.mem_append_right l (List.mem_singleton_self x)

/-- The first node is one. -/
theorem head_mem (h : LinkedList null next prev head tail l) (hl : l ≠ []) :
    head ∈ l := by
  cases l with
  | nil => exact absurd rfl hl
  | cons x l => exact h.head_eq ▸ List.mem_cons_self

/-- The last node is one. -/
theorem tail_mem (h : LinkedList null next prev head tail l) (hl : l ≠ []) :
    tail ∈ l := by
  rcases List.eq_nil_or_concat' l with rfl | ⟨l, x, rfl⟩
  · exact absurd rfl hl
  · rw [h.tail_eq, getLastD_append_singleton]
    exact List.mem_append_right l (List.mem_singleton_self x)

/-- **The ends of the list**: nothing is in front of the first node or behind
the last. -/
theorem ends (h : LinkedList null next prev head tail l) (hl : l ≠ []) :
    prev head = null ∧ next tail = null := by
  constructor
  · cases l with
    | nil => exact absurd rfl hl
    | cons x l => exact h.head_eq ▸ h.links.1
  · rcases List.eq_nil_or_concat' l with rfl | ⟨l, x, rfl⟩
    · exact absurd rfl hl
    · rw [h.tail_eq, getLastD_append_singleton]
      exact h.links.links.2

/-- What is in front of a node is null or an earlier node. -/
theorem prev_eq_or_mem (h : LinkedList null next prev head tail
    (l₁ ++ x :: l₂)) :
    prev x = null ∨ prev x ∈ l₁ := by
  rw [h.links.links.1]
  rcases List.eq_nil_or_concat' l₁ with rfl | ⟨l, y, rfl⟩
  · exact Or.inl rfl
  · rw [getLastD_append_singleton]
    exact Or.inr (List.mem_append_right l (List.mem_singleton_self y))

/-- What is behind a node is null or a later node. -/
theorem next_eq_or_mem (h : LinkedList null next prev head tail
    (l₁ ++ x :: l₂)) :
    next x = null ∨ next x ∈ l₂ := by
  rw [h.links.links.2]
  cases l₂ with
  | nil => exact Or.inl rfl
  | cons y l₂ => exact Or.inr List.mem_cons_self

/-- **The successor of a node**, wrapping around: what is behind it, or else
the first node of the list without it. -/
theorem successor (h : LinkedList null next prev head tail (l₁ ++ x :: l₂))
    [DecidableEq α] :
    (if next x = null then (l₁ ++ l₂).headD null else next x)
      = (l₂ ++ l₁).headD null := by
  rw [h.links.links.2]
  cases l₂ with
  | nil => rw [List.append_nil, List.nil_append, List.headD_nil, if_pos rfl]
  | cons y l₂ =>
    have hy : y ≠ null := fun heq => h.null_notMem (heq ▸
      List.mem_append_right l₁ (List.mem_cons_of_mem x List.mem_cons_self))
    rw [List.headD_cons, if_neg hy]
    rfl

/-- **One more node, behind the last.** Its own links and that of the last node
are the only ones that change; for an empty list the new node is head and tail.
-/
theorem append (h : LinkedList null next prev head tail l) (hx : x ∉ l)
    (hnull : x ≠ null) (hnext : next' x = null) (hprev : prev' x = tail)
    (htail : l ≠ [] → next' tail = x)
    (hn : ∀ y ∈ l, y ≠ tail → next' y = next y)
    (hp : ∀ y ∈ l, prev' y = prev y) :
    LinkedList null next' prev' (l.headD x) x (l ++ [x]) := by
  refine ⟨segment_append.mpr ⟨h.links.congr_after h.nodup ?_ ?_ hp, ?_,
    hnext, trivial⟩,
    List.nodup_append.mpr ⟨h.nodup, List.nodup_singleton x, ?_⟩, ?_, ?_, ?_⟩
  · refine fun y hy hlast => hn y hy (fun heq => hlast ?_)
    rcases List.eq_nil_or_concat' l with rfl | ⟨l, z, rfl⟩
    · exact absurd hy List.not_mem_nil
    · rw [heq, h.tail_eq, getLastD_append_singleton, List.getLast?_concat]
  · intro y hy
    have hl : l ≠ [] := fun hl => by
      rw [hl] at hy
      cases hy
    have heq : tail = y := by
      rw [h.tail_eq, List.getLastD_eq_getLast?, hy, Option.getD_some]
    exact heq ▸ htail hl
  · rw [hprev, h.tail_eq]
  · rintro y hy z hz rfl
    exact hx (List.mem_singleton.mp hz ▸ hy)
  · intro hmem
    rcases List.mem_append.mp hmem with hmem | hmem
    · exact h.null_notMem hmem
    · exact hnull (List.mem_singleton.mp hmem).symm
  · rw [headD_append]
    rfl
  · rw [getLastD_append_singleton]

/-- **One node less.** Its predecessor's `next` goes to its successor, and its
successor's `prev` to its predecessor; at the ends of the list the head and the
tail move instead. The links of the node itself do not matter. -/
theorem remove [DecidableEq α]
    (h : LinkedList null next prev head tail (l₁ ++ x :: l₂))
    (hn : ∀ y ∈ l₁ ++ l₂, next' y = if y = prev x then next x else next y)
    (hp : ∀ y ∈ l₁ ++ l₂, prev' y = if y = next x then prev x else prev y) :
    LinkedList null next' prev' (if x = head then next x else head)
      (if x = tail then prev x else tail) (l₁ ++ l₂) := by
  obtain ⟨hprevx, hnextx⟩ := h.links.links
  obtain ⟨hl₁, -, -, hl₂⟩ := segment_append.mp h.links
  have hnd₁ := (List.nodup_append.mp h.nodup).1
  have hnd₂ := (List.nodup_cons.mp (List.nodup_append.mp h.nodup).2.1)
  have hdis := (List.nodup_append.mp h.nodup).2.2
  have hsub : ∀ y ∈ l₁ ++ l₂, y ∈ l₁ ++ x :: l₂ := fun y hy =>
    (List.mem_append.mp hy).elim (List.mem_append_left _)
      (fun hy => List.mem_append_right _ (List.mem_cons_of_mem x hy))
  have hnull : ∀ y ∈ l₁ ++ l₂, y ≠ null := fun y hy heq =>
    h.null_notMem (heq ▸ hsub y hy)
  refine ⟨segment_append.mpr ⟨hl₁.congr_after hnd₁ ?_ ?_ ?_,
    hl₂.congr_before hnd₂.2 ?_ ?_ ?_⟩, ?_, fun hmem =>
      hnull null hmem rfl, ?_, ?_⟩
  -- the nodes in front of `x`: their last `next` is what moves
  · intro y hy hlast
    rw [hn y (List.mem_append_left _ hy), if_neg]
    rintro rfl
    rcases List.eq_nil_or_concat' l₁ with rfl | ⟨l, z, rfl⟩
    · exact absurd hy List.not_mem_nil
    · rw [hprevx, getLastD_append_singleton, List.getLast?_concat] at hlast
      exact hlast rfl
  · intro y hlast
    have heq : y = prev x := by
      rw [hprevx, List.getLastD_eq_getLast?, hlast, Option.getD_some]
    rw [hn y (List.mem_append_left _ (List.mem_of_getLast? hlast)),
      if_pos heq, hnextx]
  · intro y hy
    rw [hp y (List.mem_append_left _ hy), if_neg]
    rw [hnextx]
    rintro rfl
    cases l₂ with
    | nil => exact hnull _ (List.mem_append_left _ hy) rfl
    | cons z l₂ =>
      exact hdis _ hy _ (List.mem_cons_of_mem x List.mem_cons_self) rfl
  -- the nodes behind it: their first `prev`
  · intro y hy
    rw [hn y (List.mem_append_right _ hy), if_neg]
    rw [hprevx]
    rintro rfl
    rcases List.eq_nil_or_concat' l₁ with rfl | ⟨l, z, rfl⟩
    · exact hnull _ (List.mem_append_right _ hy) rfl
    · rw [getLastD_append_singleton] at hy
      exact hdis z (List.mem_append_right l (List.mem_singleton_self z)) z
        (List.mem_cons_of_mem x hy) rfl
  · intro y hy hfirst
    rw [hp y (List.mem_append_right _ hy), if_neg]
    rw [hnextx]
    rintro rfl
    cases l₂ with
    | nil => cases hy
    | cons z l₂ => exact hfirst rfl
  · intro y hfirst
    have heq : y = next x := by
      rw [hnextx, List.headD_eq_head?_getD, hfirst, Option.getD_some]
    rw [hp y (List.mem_append_right _ (List.mem_of_head? hfirst)),
      if_pos heq, hprevx]
  · exact h.nodup.sublist (List.Sublist.append_left
      (List.sublist_cons_self x l₂) l₁)
  -- the ends
  · rw [h.head_eq, hnextx]
    cases l₁ with
    | nil => exact if_pos rfl
    | cons z l₁ =>
      exact if_neg fun heq => hdis z List.mem_cons_self x
        List.mem_cons_self heq.symm
  · rw [h.tail_eq, hprevx]
    rcases List.eq_nil_or_concat' l₂ with rfl | ⟨l, z, rfl⟩
    · rw [getLastD_append_singleton, if_pos rfl, List.append_nil]
    · rw [← List.cons_append, ← List.append_assoc, ← List.append_assoc,
        getLastD_append_singleton, getLastD_append_singleton, if_neg]
      rintro rfl
      exact hnd₂.1 (List.mem_append_right l (List.mem_singleton_self x))

end LinkedList

end Linked
