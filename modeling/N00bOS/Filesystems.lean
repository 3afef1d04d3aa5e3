import N00bOS.File

/-!
# The table of filesystems

`insert_filesystem` puts a filesystem in the first slot of a table that is free,
and `resolve` goes through the slots until a filesystem accepts the disk. So the
filesystems are tried in the order in which they were registered, each from the
state that the one before it left (`registered_filesystems_are_tried_in_order`).
What a filesystem is does not matter here, and what its `resolve` does neither.
-/

namespace N00bOS

open Machine

namespace File

/-- `FS_MAX_FILESYSTEMS`. -/
def fsMaxFilesystems : ℕ := 512

section Registry

variable {F : Type}

/-- `filesystems`, after the `memset` of `load`. -/
def clearedFilesystems : List (Option F) := List.replicate fsMaxFilesystems none

/-- `get_free_filesystem`: the number of the slot. -/
def getFreeFilesystem (filesystems : List (Option F)) : Option ℕ :=
  filesystems.findIdx? Option.isNone

/-- `insert_filesystem`. It does not return when the table is full. -/
def insertFilesystem (fs : F) : Machine Fault (List (Option F)) Unit := do
  let filesystems ← get
  match getFreeFilesystem filesystems with
  | none => fault Fault.diverged
  | some idx => set (filesystems.set idx (some fs))

/-- One filesystem after the other is registered. -/
def insertFilesystems (registered : List F) :
    Machine Fault (List (Option F)) Unit :=
  registered.forM insertFilesystem

/-! ## Registering

The list of what has been registered is read off the first slots of the
table. -/

/-- **The table when some filesystems are registered**: they stand in its first
slots, in order, and the slots after them are free. It is what
`insert_filesystem` keeps, so that the table is a list. -/
structure Registered (registered : List F)
    (filesystems : List (Option F)) : Prop where
  length_le : registered.length ≤ fsMaxFilesystems
  table : filesystems
    = registered.map some ++ List.replicate
      (fsMaxFilesystems - registered.length) none

variable {registered : List F} {filesystems filesystems' : List (Option F)}
  {fs : F}

theorem registered_cleared : Registered ([] : List F) clearedFilesystems where
  length_le := Nat.zero_le _
  table := rfl

/-- The first slot after the registered filesystems is free. -/
theorem Registered.getFreeFilesystem (h : Registered registered filesystems) :
    getFreeFilesystem filesystems
      = if registered.length < fsMaxFilesystems then some registered.length
        else none := by
  have hnone : (registered.map some).findIdx? Option.isNone = none := by
    rw [List.findIdx?_eq_none_iff]
    intro slot hslot
    obtain ⟨f, -, rfl⟩ := List.mem_map.mp hslot
    rfl
  rw [File.getFreeFilesystem, h.table, List.findIdx?_append, hnone,
    List.length_map]
  by_cases hlt : registered.length < fsMaxFilesystems
  · obtain ⟨free, hfree⟩ : ∃ free, fsMaxFilesystems - registered.length
        = free + 1 :=
      ⟨fsMaxFilesystems - registered.length - 1, by omega⟩
    rw [if_pos hlt, hfree, List.replicate_succ, List.findIdx?_cons]
    simp
  · rw [if_neg hlt, Nat.sub_eq_zero_of_le (by omega)]
    rfl

/-- **A filesystem is registered** after those there are, as long as the table
is not full. -/
theorem Registered.insert (h : Registered registered filesystems)
    (hlt : registered.length < fsMaxFilesystems) (fs : F) :
    ∃ filesystems', insertFilesystem fs filesystems
      = Except.ok ((), filesystems')
      ∧ Registered (registered ++ [fs]) filesystems' := by
  refine ⟨filesystems.set registered.length (some fs), ?_, ?_, ?_⟩
  · rw [insertFilesystem, get_bind, h.getFreeFilesystem, if_pos hlt]
    rfl
  · rw [List.length_append, List.length_singleton]
    exact hlt
  · obtain ⟨free, hfree⟩ : ∃ free, fsMaxFilesystems - registered.length
        = free + 1 :=
      ⟨fsMaxFilesystems - registered.length - 1, by omega⟩
    rw [h.table, List.set_append_right _ _ (by rw [List.length_map]),
      List.length_map, Nat.sub_self, hfree, List.replicate_succ,
      List.set_cons_zero, List.map_append, List.append_assoc,
      List.length_append, List.length_singleton, ← Nat.sub_sub, hfree]
    rfl

/-- A full table takes no filesystem. -/
theorem Registered.insert_full (h : Registered registered filesystems)
    (hfull : ¬ registered.length < fsMaxFilesystems) :
    insertFilesystem fs filesystems = Except.error Fault.diverged := by
  rw [insertFilesystem, get_bind, h.getFreeFilesystem, if_neg hfull]
  rfl

/-- **Registering one after the other** returns exactly when there are slots for
all. -/
theorem Registered.insertAll (more : List F)
    (h : Registered registered filesystems) :
    (registered.length + more.length ≤ fsMaxFilesystems → ∃ filesystems',
        insertFilesystems more filesystems = Except.ok ((), filesystems')
        ∧ Registered (registered ++ more) filesystems')
      ∧ (¬ registered.length + more.length ≤ fsMaxFilesystems →
        insertFilesystems more filesystems = Except.error Fault.diverged) := by
  induction more generalizing registered filesystems with
  | nil =>
    refine ⟨fun _ => ⟨filesystems, rfl, ?_⟩, fun hfull =>
      absurd h.length_le hfull⟩
    rw [List.append_nil]
    exact h
  | cons f more ih =>
    have hcons : insertFilesystems (f :: more)
        = insertFilesystem f >>= fun _ => insertFilesystems more := rfl
    rw [List.length_cons, hcons]
    by_cases hlt : registered.length < fsMaxFilesystems
    · obtain ⟨filesystems₁, hinsert, h₁⟩ := h.insert hlt f
      have hrest := ih h₁
      rw [List.length_append, List.length_singleton, List.append_assoc] at hrest
      rw [bind_ok hinsert, show registered.length + (more.length + 1)
        = registered.length + 1 + more.length by omega]
      exact hrest
    · refine ⟨fun hle => absurd hle (by omega), fun _ => ?_⟩
      exact bind_error (h.insert_full hlt)

/-! ## Resolving

The loop over the slots becomes the loop over the list; the slots behind it are
free and passed over. -/

variable {resolveOf : F → DiskRef → KernelM ℤ} {d : DiskRef} {k k' : Kernel}

/-- Slots that are free are passed over. -/
theorem resolve_free (n : ℕ) :
    resolve resolveOf d (List.replicate n none) = pure none := by
  induction n with
  | zero => rfl
  | succ n ih =>
    rw [List.replicate_succ, resolve, ih]

/-- **The slots after the registered filesystems** make no difference. Each of
them is passed over, and the answer at the end is the same. -/
theorem resolve_append_free (registered : List F) (n : ℕ) :
    resolve resolveOf d (registered.map some ++ List.replicate n none)
      = resolve resolveOf d (registered.map some) := by
  induction registered with
  | nil => exact resolve_free n
  | cons f registered ih =>
    rw [List.map_cons, List.cons_append, resolve, ih, resolve]

/-- **Filesystems that do not accept a disk**, one after the other, each from
the state that the one before it has left. -/
inductive Refused (resolveOf : F → DiskRef → KernelM ℤ) (d : DiskRef) :
    List F → Kernel → Kernel → Prop where
  | nil {k : Kernel} : Refused resolveOf d [] k k
  | cons {f : F} {rest : List F} {k k₁ k' : Kernel} {r : ℤ} :
      resolveOf f d k = Except.ok (r, k₁) → r ≠ 0 →
      Refused resolveOf d rest k₁ k' →
      Refused resolveOf d (f :: rest) k k'

/-- A filesystem is found **when those before it refuse**, and it accepts. -/
theorem resolve_eq_some :
    resolve resolveOf d (registered.map some) k = Except.ok (some fs, k')
      ↔ ∃ before after k₁, registered = before ++ fs :: after
        ∧ Refused resolveOf d before k k₁
        ∧ resolveOf fs d k₁ = Except.ok (0, k') := by
  induction registered generalizing k with
  | nil =>
    refine ⟨fun h => ?_, fun ⟨before, after, _, hsplit, _⟩ => ?_⟩
    · cases (Prod.mk.inj (Except.ok.inj h)).1
    · exact absurd hsplit.symm (List.append_ne_nil_of_right_ne_nil _
        (List.cons_ne_nil _ _))
  | cons f registered ih =>
    rw [List.map_cons, resolve, bind_eq_ok]
    constructor
    · rintro ⟨r, k₁, hf, hrest⟩
      by_cases hr : r = 0
      · rw [if_pos hr] at hrest
        obtain ⟨hfs, rfl⟩ := Prod.mk.inj (Except.ok.inj hrest)
        obtain rfl := Option.some.inj hfs
        exact ⟨[], registered, k, rfl, Refused.nil, by rw [hf, hr]⟩
      · rw [if_neg hr] at hrest
        obtain ⟨before, after, k₂, rfl, hrefused, hfs⟩ := ih.mp hrest
        exact ⟨f :: before, after, k₂, rfl, Refused.cons hf hr hrefused, hfs⟩
    · rintro ⟨before, after, k₂, hsplit, hrefused, hfs⟩
      cases hrefused with
      | nil =>
        obtain ⟨rfl, rfl⟩ := List.cons.inj hsplit
        exact ⟨0, k', hfs, rfl⟩
      | @cons g rest _ k₁ _ r hg hr hrest =>
        obtain ⟨rfl, rfl⟩ := List.cons.inj hsplit
        refine ⟨r, k₁, hg, ?_⟩
        rw [if_neg hr]
        exact ih.mpr ⟨rest, after, k₂, rfl, hrest, hfs⟩

/-- None is found **when all refuse**. -/
theorem resolve_eq_none :
    resolve resolveOf d (registered.map some) k = Except.ok (none, k')
      ↔ Refused resolveOf d registered k k' := by
  induction registered generalizing k with
  | nil =>
    refine ⟨fun h => ?_, fun h => ?_⟩
    · obtain ⟨-, rfl⟩ := Prod.mk.inj (Except.ok.inj h)
      exact Refused.nil
    · cases h
      rfl
  | cons f registered ih =>
    rw [List.map_cons, resolve, bind_eq_ok]
    constructor
    · rintro ⟨r, k₁, hf, hrest⟩
      by_cases hr : r = 0
      · rw [if_pos hr] at hrest
        cases (Prod.mk.inj (Except.ok.inj hrest)).1
      · rw [if_neg hr] at hrest
        exact Refused.cons hf hr (ih.mp hrest)
    · intro h
      cases h with
      | @cons _ _ _ k₁ _ r hf hr hrest =>
        refine ⟨r, k₁, hf, ?_⟩
        rw [if_neg hr]
        exact ih.mpr hrest

/-- **Registered filesystems are tried in order.** For every list of
filesystems, whatever their `resolve` does: they can be registered exactly when
there are no more than `FS_MAX_FILESYSTEMS`; and then `resolve` returns a
filesystem exactly when it answers `0` and each one registered before it has
answered something else, and none exactly when all have. -/
theorem registered_filesystems_are_tried_in_order (registered : List F)
    (resolveOf : F → DiskRef → KernelM ℤ) (d : DiskRef) :
    ((∃ filesystems, insertFilesystems registered clearedFilesystems
        = Except.ok ((), filesystems)) ↔ registered.length ≤ fsMaxFilesystems)
      ∧ ∀ filesystems, insertFilesystems registered clearedFilesystems
          = Except.ok ((), filesystems) → ∀ k k',
        (∀ fs, resolve resolveOf d filesystems k = Except.ok (some fs, k')
          ↔ ∃ before after k₁, registered = before ++ fs :: after
            ∧ Refused resolveOf d before k k₁
            ∧ resolveOf fs d k₁ = Except.ok (0, k'))
        ∧ (resolve resolveOf d filesystems k = Except.ok (none, k')
          ↔ Refused resolveOf d registered k k') := by
  obtain ⟨hreturns, hfails⟩ := registered_cleared.insertAll registered
  rw [List.length_nil, Nat.zero_add] at hreturns hfails
  have hiff : (∃ filesystems, insertFilesystems registered clearedFilesystems
      = Except.ok ((), filesystems))
        ↔ registered.length ≤ fsMaxFilesystems := by
    refine ⟨fun ⟨filesystems, hok⟩ => ?_, fun hle =>
      (hreturns hle).imp fun _ h => h.1⟩
    by_contra hfull
    rw [hfails hfull] at hok
    cases hok
  refine ⟨hiff, fun filesystems hok k k' => ?_⟩
  obtain ⟨filesystems', hok', hregistered⟩ :=
    hreturns (hiff.mp ⟨filesystems, hok⟩)
  obtain ⟨-, rfl⟩ := Prod.mk.inj (Except.ok.inj (hok.symm.trans hok'))
  rw [hregistered.table, List.nil_append, resolve_append_free]
  exact ⟨fun fs => resolve_eq_some, resolve_eq_none⟩

end Registry

end File

end N00bOS
