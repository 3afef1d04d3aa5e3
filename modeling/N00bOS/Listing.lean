import Mathlib.Data.List.Basic
import Mathlib.Tactic.Common

/-!
# Listings

A listing is a sequence of slots, read from the first on, up to one that ends
it. A slot may be unreadable, and an entry may be one to skip. What a listing
says is the entries before its end (`Entries`), without the ones to skip
(`kept`).

Slots are a function from the natural numbers, because nothing says in advance
where the listing ends: it may run on into whatever lies behind the place that
was meant for it. That there is an end is therefore part of `Entries`, and a
sequence without one has no entries at all. Where the slots repeat, as they do
behind the last address there is, a listing is shorter than the period
(`length_lt_of_periodic`), so that an end is found within a bounded number of
steps or never.

A directory on a disk is such a listing, its entries being the slots; a search
in it is a search in what is kept.
-/

namespace Listing

variable {α : Type} {stop : α → Prop}

/-- **The entries of a listing**: those before the first slot that ends it,
which are all readable. A listing that never ends, or comes to a slot that
cannot be read, has none. -/
inductive Entries (stop : α → Prop) : (ℕ → Option α) → List α → Prop where
  | last {slots : ℕ → Option α} {a : α} : slots 0 = some a → stop a →
      Entries stop slots []
  | next {slots : ℕ → Option α} {a : α} {rest : List α} : slots 0 = some a →
      ¬ stop a →
      Entries stop (fun i => slots (i + 1)) rest →
      Entries stop slots (a :: rest)

namespace Entries

variable {slots slots' : ℕ → Option α} {entries entries' tail : List α}

/-- A listing has one list of entries. -/
theorem unique (h : Entries stop slots entries)
    (h' : Entries stop slots entries') :
    entries = entries' := by
  induction h generalizing entries' with
  | last ha hstop =>
    cases h' with
    | last => rfl
    | next ha' hgo =>
      exact absurd (Option.some.inj (ha.symm.trans ha') ▸ hstop) hgo
  | next ha hgo _ ih =>
    cases h' with
    | last ha' hstop =>
      exact absurd (Option.some.inj (ha'.symm.trans ha) ▸ hstop) hgo
    | next ha' _ hrest => rw [Option.some.inj (ha.symm.trans ha'), ih hrest]

/-- The entries are in the slots, in order. -/
theorem slot (h : Entries stop slots entries) (i : ℕ)
    (hi : i < entries.length) :
    slots i = some entries[i] := by
  induction h generalizing i with
  | last => exact absurd hi (Nat.not_lt_zero _)
  | next ha _ _ ih =>
    cases i with
    | zero => exact ha
    | succ i => exact ih i (Nat.lt_of_succ_lt_succ hi)

/-- No entry ends the listing. -/
theorem not_stop (h : Entries stop slots entries) {a : α} (ha : a ∈ entries) :
    ¬ stop a := by
  induction h with
  | last => exact absurd ha List.not_mem_nil
  | next _ hgo _ ih =>
    rcases List.mem_cons.mp ha with rfl | ha
    · exact hgo
    · exact ih ha

/-- The slot after the entries does. -/
theorem slot_length (h : Entries stop slots entries) :
    ∃ a, slots entries.length = some a ∧ stop a := by
  induction h with
  | last ha hstop => exact ⟨_, ha, hstop⟩
  | next _ _ _ ih => exact ih

/-- A slot that ends a listing, with no unreadable slot before it, is the end
of one or comes after it. -/
theorem exists_of_stop {n : ℕ} (hread : ∀ i, i < n → ∃ a, slots i = some a)
    (hstop : ∃ a, slots n = some a ∧ stop a) :
    ∃ entries, entries.length ≤ n ∧ Entries stop slots entries := by
  induction n generalizing slots with
  | zero =>
    obtain ⟨a, ha, hstop⟩ := hstop
    exact ⟨[], Nat.le_refl _, last ha hstop⟩
  | succ n ih =>
    obtain ⟨a, ha⟩ := hread 0 (Nat.succ_pos n)
    by_cases hfirst : stop a
    · exact ⟨[], Nat.zero_le _, last ha hfirst⟩
    · have htail : ∃ entries, entries.length ≤ n
          ∧ Entries stop (fun i => slots (i + 1)) entries :=
        ih (fun i hi => hread (i + 1) (Nat.succ_lt_succ hi)) hstop
      obtain ⟨rest, hlen, hrest⟩ := htail
      exact ⟨a :: rest, Nat.succ_le_succ hlen, next ha hfirst hrest⟩

/-- The slots after the end do not matter. -/
theorem congr (h : Entries stop slots entries)
    (heq : ∀ i, i ≤ entries.length → slots' i = slots i) :
    Entries stop slots' entries := by
  induction h generalizing slots' with
  | last ha hstop => exact last ((heq 0 (Nat.zero_le _)).trans ha) hstop
  | next ha hgo _ ih =>
    exact next ((heq 0 (Nat.zero_le _)).trans ha) hgo
      (ih fun i hi => heq (i + 1) (Nat.succ_le_succ hi))

/-- The entries from one on are a listing of the slots from there on. -/
theorem drop (h : Entries stop slots entries) (n : ℕ)
    (hn : n ≤ entries.length) :
    Entries stop (fun i => slots (i + n)) (entries.drop n) := by
  induction n generalizing slots entries with
  | zero => exact h
  | succ n ih =>
    cases h with
    | last => exact absurd hn (Nat.not_succ_le_zero n)
    | next _ _ hrest => exact ih hrest (Nat.le_of_succ_le_succ hn)

/-- Where the slots agree, so do the entries. -/
theorem take_eq (h : Entries stop slots entries)
    (h' : Entries stop slots' entries') (m : ℕ)
    (heq : ∀ i, i < m → slots' i = slots i) (hm : m ≤ entries.length) :
    entries'.take m = entries.take m := by
  induction m generalizing slots slots' entries entries' with
  | zero => rfl
  | succ m ih =>
    cases h with
    | last => exact absurd hm (Nat.not_succ_le_zero m)
    | next ha hgo hrest =>
      have hfirst := (heq 0 (Nat.succ_pos m)).trans ha
      cases h' with
      | last ha' hstop =>
        exact absurd (Option.some.inj (ha'.symm.trans hfirst) ▸ hstop) hgo
      | next ha' _ hrest' =>
        rw [List.take_succ_cons, List.take_succ_cons,
          Option.some.inj (ha'.symm.trans hfirst)]
        exact congrArg _
          (ih hrest hrest' (fun i hi => heq (i + 1) (Nat.succ_lt_succ hi))
          (Nat.le_of_succ_le_succ hm))

/-- Entries in the first slots, and a listing of the slots after them, are a
listing. -/
theorem append (hin : ∀ i (hi : i < entries.length), slots i = some entries[i])
    (hgo : ∀ a ∈ entries, ¬ stop a)
    (h : Entries stop (fun i => slots (i + entries.length)) tail) :
    Entries stop slots (entries ++ tail) := by
  induction entries generalizing slots with
  | nil => exact h
  | cons a rest ih =>
    refine next (hin 0 (Nat.succ_pos _)) (hgo a List.mem_cons_self) (ih ?_ ?_ h)
    · exact fun i hi => hin (i + 1) (Nat.succ_lt_succ hi)
    · exact fun b hb => hgo b (List.mem_cons_of_mem a hb)

/-- **Slots that repeat** list fewer entries than there are different slots.
For when all of them are entries, so are the next ones, and the listing does
not end. -/
theorem length_lt_of_periodic (h : Entries stop slots entries) {n : ℕ}
    (hn : 0 < n) (hper : ∀ i, slots (i + n) = slots i) :
    entries.length < n := by
  by_contra hle
  obtain ⟨a, ha, hstop⟩ := h.slot_length
  have hlt : entries.length - n < entries.length := by omega
  have hsame := hper (entries.length - n)
  rw [Nat.sub_add_cancel (Nat.not_lt.mp hle), ha, h.slot _ hlt] at hsame
  exact h.not_stop (List.getElem_mem hlt) (Option.some.inj hsame ▸ hstop)

end Entries

/-! ## Searching

Two tests find the same element when they agree on what comes first. This is
what remains of a search whose test accepts too much. -/

/-- A weaker test finds the same element exactly when what it accepts is
accepted by the stronger one, or comes after something that is. -/
theorem find?_eq_find?_iff {p q : α → Prop} [DecidablePred p] [DecidablePred q]
    (hpq : ∀ a, p a → q a) (l : List α) :
    l.find? (fun a => decide (q a)) = l.find? (fun a => decide (p a))
      ↔ ∀ before a after, l = before ++ a :: after → q a → p a
        ∨ ∃ b ∈ before, p b := by
  induction l with
  | nil => exact iff_of_true rfl fun before a after h => absurd h (by simp)
  | cons x l ih =>
    by_cases hp : p x
    · rw [List.find?_cons_of_pos (by simpa using hpq x hp),
        List.find?_cons_of_pos (by simpa using hp)]
      refine iff_of_true rfl fun before a after h _ => ?_
      cases before with
      | nil =>
        obtain ⟨rfl, -⟩ := List.cons_eq_cons.mp h
        exact Or.inl hp
      | cons b before =>
        obtain ⟨rfl, -⟩ := List.cons_eq_cons.mp h
        exact Or.inr ⟨x, List.mem_cons_self, hp⟩
    · rw [List.find?_cons_of_neg (p := fun a => decide (p a))
        (by simpa using hp)]
      by_cases hq : q x
      · rw [List.find?_cons_of_pos (by simpa using hq)]
        refine iff_of_false (fun h => ?_) fun h => ?_
        · exact hp (of_decide_eq_true
            (List.find?_some (p := fun a => decide (p a)) h.symm))
        · rcases h [] x l rfl hq with hx | ⟨b, hb, -⟩
          · exact hp hx
          · exact absurd hb List.not_mem_nil
      · rw [List.find?_cons_of_neg (by simpa using hq), ih]
        constructor
        · intro h before a after heq ha
          cases before with
          | nil =>
            obtain ⟨rfl, -⟩ := List.cons_eq_cons.mp heq
            exact absurd ha hq
          | cons b before =>
            obtain ⟨rfl, htail⟩ := List.cons_eq_cons.mp heq
            exact (h before a after htail ha).imp_right fun ⟨c, hc, hpc⟩ =>
              ⟨c, List.mem_cons_of_mem _ hc, hpc⟩
        · intro h before a after heq ha
          refine (h (x :: before) a after (by rw [heq]; rfl) ha).imp_right ?_
          rintro ⟨c, hc, hpc⟩
          rcases List.mem_cons.mp hc with rfl | hc
          · exact absurd hpc hp
          · exact ⟨c, hc, hpc⟩

/-! ## Skipping

What is kept is a list of its own. A reader that takes the first entries as
they stand, and does not skip, is right exactly when nothing that is skipped
stands before something that is not. -/

variable (skip : α → Prop) [DecidablePred skip]

/-- The entries that are not skipped. A scan counts these, and a deleted entry
between two others does not end it. -/
def kept (entries : List α) : List α := entries.filter fun a => ¬ skip a

variable {skip}

theorem kept_cons_of_skip {a : α} (h : skip a) (entries : List α) :
    kept skip (a :: entries) = kept skip entries :=
  List.filter_cons_of_neg (by simpa using h)

theorem kept_cons_of_not_skip {a : α} (h : ¬ skip a) (entries : List α) :
    kept skip (a :: entries) = a :: kept skip entries :=
  List.filter_cons_of_pos (by simpa using h)

theorem kept_append (entries tail : List α) :
    kept skip (entries ++ tail) = kept skip entries ++ kept skip tail :=
  List.filter_append _ _

theorem kept_eq_nil_iff {entries : List α} :
    kept skip entries = [] ↔ ∀ a ∈ entries, skip a := by
  simp [kept, List.filter_eq_nil_iff]

theorem length_kept_le (entries : List α) :
    (kept skip entries).length ≤ entries.length :=
  List.length_filter_le _ _

/-- **What is kept comes first** exactly when nothing that is skipped stands
before something that is not: then a reader that does not skip reads the right
entries. -/
theorem kept_prefix_iff {entries : List α} :
    kept skip entries <+: entries ↔ entries.Pairwise fun a b => skip a →
    skip b := by
  induction entries with
  | nil => exact iff_of_true List.prefix_rfl List.Pairwise.nil
  | cons a rest ih =>
    rw [List.pairwise_cons]
    by_cases ha : skip a
    · rw [kept_cons_of_skip ha]
      constructor
      · intro hprefix
        -- the first entry that is kept would be `a`
        have hnil : kept skip rest = [] := by
          cases hkept : kept skip rest with
          | nil => rfl
          | cons b l =>
            rw [hkept] at hprefix
            obtain rfl := (List.cons_prefix_cons.mp hprefix).1
            have hb : b ∈ kept skip rest := hkept ▸ List.mem_cons_self
            exact absurd ha (by simpa using (List.mem_filter.mp hb).2)
        have hall := kept_eq_nil_iff.mp hnil
        exact ⟨fun b hb _ => hall b hb,
          List.Pairwise.imp_of_mem (fun _ hc _ _ => hall _ hc)
            (List.pairwise_of_forall fun _ _ => trivial)⟩
      · rintro ⟨hall, -⟩
        rw [kept_eq_nil_iff.mpr fun b hb => hall b hb ha]
        exact List.nil_prefix
    · rw [kept_cons_of_not_skip ha, List.cons_prefix_cons, ih]
      exact ⟨fun h => ⟨fun _ _ hskip => absurd hskip ha, h.2⟩,
        fun h => ⟨rfl, h.2⟩⟩

/-- What is kept and comes first is kept of any part of the list that is long
enough. -/
theorem kept_take_of_prefix {entries : List α}
    (h : kept skip entries <+: entries) {m : ℕ}
    (hm : (kept skip entries).length ≤ m) :
    kept skip (entries.take m) = kept skip entries := by
  obtain ⟨tail, htail⟩ := h
  have hidem : kept skip (kept skip entries) = kept skip entries :=
    List.filter_eq_self.mpr fun a ha => (List.mem_filter.mp ha).2
  have hsplit := congrArg (kept skip) htail
  rw [kept_append, hidem] at hsplit
  have hnone := kept_eq_nil_iff.mp (List.append_right_eq_self.mp hsplit)
  conv_lhs => rw [← htail]
  rw [List.take_append, List.take_of_length_le hm, kept_append, hidem,
    kept_eq_nil_iff.mpr fun a ha => hnone a (List.mem_of_mem_take ha),
    List.append_nil]

end Listing
