import N00bOS.FileReads
import N00bOS.Items
import Mathlib.Logic.Relation

/-!
# Walking a path

`get_item` as a transition system: a state is the current item with the
components to go, and a step looks the next component up in the directory that
the item is, and frees the item. The lookup is a parameter; what is asked of it
(`FindsItems`) is what `find_item_in_directory` does
(`findItemInDirectory_findsItems`).

Only the first lookup is checked for null. A component that is missing further
on, with another component to go, is a null dereference, and so is a directory
that could not be loaded (`MeetsNull`). On every other path `get_item` is
right (`get_item_walks_iff`).

What is right is said without the loop: the item that is found for the last
component, if every earlier one was found and is a directory, and null
otherwise (`RightItem`). Both that and the question whether a null pointer is
met are about the states ahead of the walk. The walk is deterministic, so each
of them is a question about the next state (`ahead_iff_of_step`), and the
induction of `walkPath_cases` is over the components to go.
-/

namespace N00bOS

namespace Fat16

open KernelM Relation

/-- A lookup of a component: every item that it returns is live, and nothing
old has changed. What it looks for, and how, is left open. -/
def FindsItems (find : FatDirectory → Ptr → KernelM Ptr) : Prop :=
  ∀ ⦃directory name k p k'⦄, find directory name k = Except.ok (p, k') →
    k.nextId ≤ k'.nextId ∧ SameItems (fun id => id < k.nextId) k k'
      ∧ (p.addr ≠ 0 → LiveItem k.nextId k'.nextId k' p)

/-- **`find_item_in_directory` is such a lookup.** It is the one that the
kernel has; the walk is verified for all of them. -/
theorem findItemInDirectory_findsItems (d : DiskRef) :
    FindsItems (findItemInDirectory d) := by
  intro directory name k p k' h
  have hfound := findItemInDirectory_spec h
  exact ⟨hfound.frame.nextId, hfound.old, hfound.live⟩

/-- **A state of the walk**: the current item, the components to go, and the
state of the kernel. -/
structure Walk where
  item : Ptr
  parts : List PathPart
  kernel : Kernel

namespace Walk

/-- The component looked up last is missing. -/
def Missing (w : Walk) : Prop := w.item.addr = 0

/-- The current item is a file. -/
def AtFile (w : Walk) : Prop :=
  w.item.addr ≠ 0 ∧ ∃ entry,
    w.kernel.fatItems w.item.id = some ⟨entry, FatItemType.file⟩

/-- The current item is a directory that could not be loaded. -/
def AtUnloaded (w : Walk) : Prop :=
  w.item.addr ≠ 0 ∧ ∃ entry,
    w.kernel.fatItems w.item.id = some ⟨entry, FatItemType.directory⟩
    ∧ entry.addr = 0

/-- The current item is a directory. -/
def AtDirectory (w : Walk) (directory : FatDirectory) : Prop :=
  w.item.addr ≠ 0 ∧ ∃ entry,
    w.kernel.fatItems w.item.id = some ⟨entry, FatItemType.directory⟩
    ∧ entry.addr ≠ 0 ∧ w.kernel.fatDirectories entry.id = some directory

/-- **One component**: looked up in the current directory, which is freed. The
item that was found is the next one, and may be null. -/
inductive Step (find : FatDirectory → Ptr → KernelM Ptr) :
    Walk → Walk → Prop where
  | lookup {item tmpItem : Ptr} {part : PathPart} {rest : List PathPart}
      {k k₁ k₂ : Kernel}
      {directory : FatDirectory} : AtDirectory ⟨item, part :: rest,
        k⟩ directory →
      find directory part.partName k = Except.ok (tmpItem, k₁) →
      itemFree item k₁ = Except.ok ((), k₂) →
      Step find ⟨item, part :: rest, k⟩ ⟨tmpItem, rest, k₂⟩

/-- A path ends here: a component is missing, or a component that is not the
last one is a file, or a directory that could not be loaded. -/
def Stops (w : Walk) : Prop :=
  w.Missing ∨ w.parts ≠ [] ∧ (w.AtFile ∨ w.AtUnloaded)

/-- A null pointer is about to be read through: the item, or the directory,
with a component to go. -/
def AtNull (w : Walk) : Prop := w.parts ≠ [] ∧ (w.Missing ∨ w.AtUnloaded)

/-- **The lookups return**, from here to the end of the walk. A lookup reads
the disk, and makes an item that needs blocks, so this is not known of every
state. -/
def LookupsReturn (find : FatDirectory → Ptr → KernelM Ptr) (w : Walk) : Prop :=
  ∀ w', ReflTransGen (Step find) w w' → ∀ part rest directory,
    w'.parts = part :: rest →
    w'.AtDirectory directory → ∃ r,
    find directory part.partName w'.kernel = Except.ok r

/-- **The right item**: the one found for the last component, if every
earlier one was found and is a directory; null exactly if the path stops. -/
def RightItem (find : FatDirectory → Ptr → KernelM Ptr) (w : Walk)
    (p : Ptr) : Prop :=
  (∀ q k', ReflTransGen (Step find) w ⟨q, [], k'⟩ → q.addr ≠ 0 → p = q)
    ∧ (p.addr = 0 ↔ ∃ w', ReflTransGen (Step find) w w' ∧ w'.Stops)

/-- A null pointer is met on the walk. -/
def MeetsNull (find : FatDirectory → Ptr → KernelM Ptr) (w : Walk) : Prop :=
  ∃ w', ReflTransGen (Step find) w w' ∧ w'.AtNull

variable {find : FatDirectory → Ptr → KernelM Ptr} {w w₁ w₂ : Walk}

theorem AtDirectory.unique {d d' : FatDirectory} (h : w.AtDirectory d)
    (h' : w.AtDirectory d') :
    d = d' := by
  obtain ⟨-, entry, hitem, -, hdir⟩ := h
  obtain ⟨-, entry', hitem', -, hdir'⟩ := h'
  obtain ⟨rfl, -⟩ := FatItem.mk.inj (Option.some.inj (hitem.symm.trans hitem'))
  exact Option.some.inj (hdir.symm.trans hdir')

/-- The walk is deterministic. -/
theorem Step.unique (h₁ : Step find w w₁) (h₂ : Step find w w₂) : w₁ = w₂ := by
  cases h₁ with
  | lookup hdir₁ hfind₁ hfree₁ =>
    cases h₂ with
    | lookup hdir₂ hfind₂ hfree₂ =>
      obtain rfl := hdir₁.unique hdir₂
      obtain ⟨rfl, rfl⟩ :=
        Prod.mk.inj (Except.ok.inj (hfind₁.symm.trans hfind₂))
      obtain ⟨-, rfl⟩ := Prod.mk.inj (Except.ok.inj (hfree₁.symm.trans hfree₂))
      rfl

/-- What is ahead of a walk that steps: where it is, and what is ahead of the
next state. -/
theorem ahead_iff_of_step (hstep : Step find w w₁) :
    ReflTransGen (Step find) w w₂ ↔ w₂ = w
      ∨ ReflTransGen (Step find) w₁ w₂ := by
  refine ⟨fun h => ?_, fun h => ?_⟩
  · rcases h.cases_head with rfl | ⟨w', hstep', h⟩
    · exact Or.inl rfl
    · exact Or.inr (hstep.unique hstep' ▸ h)
  · rcases h with rfl | h
    · exact ReflTransGen.refl
    · exact ReflTransGen.head hstep h

/-- Nothing is ahead of a walk that cannot step. -/
theorem ahead_iff_of_stuck (hstuck : ∀ directory, ¬ w.AtDirectory directory) :
    ReflTransGen (Step find) w w₂ ↔ w₂ = w := by
  refine ⟨fun h => ?_, fun h => h ▸ ReflTransGen.refl⟩
  rcases h.cases_head with rfl | ⟨w', hstep, -⟩
  · rfl
  · cases hstep with
    | lookup hdir _ _ => exact absurd hdir (hstuck _)

/-- Nothing is ahead of the last component. -/
theorem ahead_iff_of_nil (hparts : w.parts = []) :
    ReflTransGen (Step find) w w₂ ↔ w₂ = w := by
  refine ⟨fun h => ?_, fun h => h ▸ ReflTransGen.refl⟩
  rcases h.cases_head with rfl | ⟨w', hstep, -⟩
  · rfl
  · cases hstep with
    | lookup _ _ _ => cases hparts

/-- The walk can go on: the current item, if there is one, is live. -/
def Live (w : Walk) : Prop :=
  w.item.addr ≠ 0 → ∃ lo hi, LiveItem lo hi w.kernel w.item
    ∧ hi ≤ w.kernel.nextId

/-- **Where a walk can be.** At a directory it steps; at a file it stops, and
at nothing, or a directory that could not be loaded, it meets a null pointer if
there is a component left. -/
theorem Live.cases (hlive : w.Live) :
    w.Missing ∨ w.AtFile ∨ w.AtUnloaded ∨ ∃ directory,
    w.AtDirectory directory := by
  by_cases hitem : w.item.addr = 0
  · exact Or.inl hitem
  obtain ⟨lo, hi, h, -⟩ := hlive hitem
  obtain ⟨⟨entry, type⟩, hi', hrest⟩ := h.item
  cases type with
  | file => exact Or.inr (Or.inl ⟨hitem, entry, hi'⟩)
  | directory =>
    by_cases hentry : entry.addr = 0
    · exact Or.inr (Or.inr (Or.inl ⟨hitem, entry, hi', hentry⟩))
    · obtain ⟨-, -, directory, hdir, -⟩ := hrest hentry
      exact Or.inr
        (Or.inr (Or.inr ⟨directory, hitem, entry, hi', hentry, hdir⟩))

/-- A file and a directory that was not loaded are no directories to look
in. -/
theorem not_atDirectory_of_stops (h : w.Missing ∨ w.AtFile ∨ w.AtUnloaded)
    (directory : FatDirectory) : ¬ w.AtDirectory directory := by
  rintro ⟨hitem, entry, hi, hentry, -⟩
  rcases h with hmissing | ⟨-, entry', hi'⟩ | ⟨-, entry', hi', hnull⟩
  · exact hitem hmissing
  · cases hi.symm.trans hi'
  · obtain ⟨rfl, -⟩ := FatItem.mk.inj (Option.some.inj (hi.symm.trans hi'))
    exact hentry hnull

/-- **One component**: the lookup returns, the old item is freed, and the new
one is live. -/
theorem Live.step (hfind : FindsItems find) {item : Ptr} {part : PathPart}
    {rest : List PathPart} {k : Kernel} {directory : FatDirectory}
    (hlive : Live ⟨item, part :: rest, k⟩)
    (hdir : AtDirectory ⟨item, part :: rest, k⟩ directory) {tmpItem : Ptr}
    {k₁ : Kernel}
    (hlookup : find directory part.partName k = Except.ok (tmpItem, k₁)) :
    ∃ k₂, itemFree item k₁ = Except.ok ((), k₂) ∧ Live ⟨tmpItem, rest, k₂⟩ := by
  obtain ⟨lo, hi, hitem, hhi⟩ := hlive hdir.1
  obtain ⟨hnext, hold, hnew⟩ := hfind hlookup
  have hhi : hi ≤ k.nextId := hhi
  have hitem₁ : LiveItem lo hi k₁ item :=
    hitem.congr (hold.mono fun id hid => Nat.lt_of_lt_of_le hid.2 hhi)
  obtain ⟨k₂, hfree, hsame⟩ := itemFree_ok hitem₁ hdir.1
  have hnext₂ : k₁.nextId ≤ k₂.nextId :=
    (OpenFrame.itemFree _ _ _ _ hfree).nextId
  refine ⟨k₂, hfree, fun htmp => ⟨k.nextId, k₁.nextId, ?_, hnext₂⟩⟩
  exact (hnew htmp).congr (hsame.mono fun id hid => Or.inr (hhi.trans hid.1))

/-- Where a walk stops, null is right. -/
theorem RightItem.null (hstuck : ∀ directory, ¬ w.AtDirectory directory)
    (hstops : w.Stops) :
    RightItem find w Ptr.null := by
  refine ⟨fun q k' hq hne => ?_,
    ⟨fun _ => ⟨w, ReflTransGen.refl, hstops⟩, fun _ => rfl⟩⟩
  obtain rfl := (ahead_iff_of_stuck hstuck).mp hq
  rcases hstops with hmissing | ⟨hparts, -⟩
  · exact absurd hmissing hne
  · exact absurd rfl hparts

/-- At the last component, its item is right. -/
theorem RightItem.last (hparts : w.parts = []) : RightItem find w w.item := by
  refine ⟨fun q k' hq _ => ?_,
    ⟨fun hnull => ⟨w, ReflTransGen.refl, Or.inl hnull⟩, ?_⟩⟩
  · rw [← (ahead_iff_of_nil hparts).mp hq]
  · rintro ⟨w', hw', hstops⟩
    obtain rfl := (ahead_iff_of_nil hparts).mp hw'
    rcases hstops with hmissing | ⟨hne, -⟩
    · exact hmissing
    · exact absurd hparts hne

/-- What is right from the next state on is right from here. -/
theorem RightItem.of_step {p : Ptr} (hstep : Step find w w₁)
    (hright : RightItem find w₁ p) (hgoes : ¬ w.Stops) (hparts : w.parts ≠ []) :
    RightItem find w p := by
  refine ⟨fun q k' hq hne => ?_, hright.2.trans ⟨?_, ?_⟩⟩
  · rcases (ahead_iff_of_step hstep).mp hq with rfl | hq
    · exact absurd rfl hparts
    · exact hright.1 q k' hq hne
  · rintro ⟨w', hw', hstops⟩
    exact ⟨w', ReflTransGen.head hstep hw', hstops⟩
  · rintro ⟨w', hw', hstops⟩
    rcases (ahead_iff_of_step hstep).mp hw' with rfl | hw'
    · exact absurd hstops hgoes
    · exact ⟨w', hw', hstops⟩

/-- **The loop of `get_item`**: it meets a null pointer and reads through it,
or it meets none and returns the right item. The induction is on the components
to go, and the case that steps is put back by `ahead_iff_of_step`. -/
theorem walkPath_cases (hfind : FindsItems find) (parts : List PathPart)
    {item : Ptr} {k : Kernel} (hlive : Live ⟨item, parts, k⟩)
    (hret : LookupsReturn find ⟨item, parts, k⟩) :
    (MeetsNull find ⟨item, parts, k⟩
        ∧ walkPath find item parts k = Except.error Fault.nullDereference)
      ∨ (¬ MeetsNull find ⟨item, parts, k⟩
        ∧ ∃ p k', walkPath find item parts k = Except.ok (p, k')
        ∧ RightItem find ⟨item, parts, k⟩ p) := by
  induction parts generalizing item k with
  | nil =>
    refine Or.inr ⟨?_, item, k, rfl, RightItem.last rfl⟩
    rintro ⟨w', hw', hparts, -⟩
    obtain rfl := (ahead_iff_of_nil rfl).mp hw'
    exact hparts rfl
  | cons part rest ih =>
    rw [walkPath]
    rcases hlive.cases with hmissing | hfile | hunloaded | ⟨directory, hdir⟩
    · -- no item to read the type of
      exact Or.inl ⟨⟨_, ReflTransGen.refl, by simp, Or.inl hmissing⟩,
        Machine.bind_error (deref_null hmissing)⟩
    · -- a file: null is returned
      obtain ⟨hitem, entry, hi⟩ := id hfile
      have hstuck := not_atDirectory_of_stops (Or.inr (Or.inl hfile))
      refine Or.inr ⟨?_, Ptr.null, k, ?_,
        RightItem.null hstuck (Or.inr ⟨by simp, Or.inl hfile⟩)⟩
      · rintro ⟨w', hw', -, hnull⟩
        obtain rfl := (ahead_iff_of_stuck hstuck).mp hw'
        rcases hnull with hmissing | ⟨-, entry', hi', -⟩
        · exact hitem hmissing
        · cases hi.symm.trans hi'
      · rw [Machine.bind_ok (deref_ok hitem hi), if_pos (by simp)]
        rfl
    · -- no directory to read the total of
      obtain ⟨hitem, entry, hi, hentry⟩ := id hunloaded
      refine Or.inl ⟨⟨_, ReflTransGen.refl, by simp, Or.inr hunloaded⟩, ?_⟩
      rw [Machine.bind_ok (deref_ok hitem hi), if_neg (by simp)]
      exact Machine.bind_error (deref_null hentry)
    · -- a directory: the walk goes on
      obtain ⟨hitem, entry, hi, hentry, hdirs⟩ := id hdir
      obtain ⟨⟨tmpItem, k₁⟩, hlookup⟩ :=
        hret _ ReflTransGen.refl part rest directory rfl hdir
      obtain ⟨k₂, hfree, hlive₂⟩ := hlive.step hfind hdir hlookup
      have hstep : Step find ⟨item, part :: rest, k⟩ ⟨tmpItem, rest, k₂⟩ :=
        Step.lookup hdir hlookup hfree
      have hret₂ : LookupsReturn find ⟨tmpItem, rest, k₂⟩ := fun w' hw' =>
        hret w' (ReflTransGen.head hstep hw')
      have hgoes : ∀ {P : Prop}, Missing ⟨item, part :: rest, k⟩
        ∨ AtFile ⟨item, part :: rest, k⟩
          ∨ AtUnloaded ⟨item, part :: rest, k⟩ → P := fun h =>
        absurd hdir (not_atDirectory_of_stops h directory)
      have hmeets : MeetsNull find ⟨item, part :: rest, k⟩
          ↔ MeetsNull find ⟨tmpItem, rest, k₂⟩ := by
        constructor
        · rintro ⟨w', hw', hnull⟩
          rcases (ahead_iff_of_step hstep).mp hw' with rfl | hw'
          · rcases hnull.2 with h | h
            · exact hgoes (Or.inl h)
            · exact hgoes (Or.inr (Or.inr h))
          · exact ⟨w', hw', hnull⟩
        · rintro ⟨w', hw', hnull⟩
          exact ⟨w', ReflTransGen.head hstep hw', hnull⟩
      rw [Machine.bind_ok (deref_ok hitem hi), if_neg (by simp), Machine.bind_ok
        (deref_ok hentry hdirs), Machine.bind_ok hlookup,
        Machine.bind_ok hfree, hmeets]
      rcases ih hlive₂ hret₂ with hnull | ⟨hnone, p, k', hwalk, hright⟩
      · exact Or.inl hnull
      · refine Or.inr ⟨hnone, p, k', hwalk, hright.of_step hstep ?_ (by simp)⟩
        rintro (h | ⟨-, h | h⟩)
        · exact hgoes (Or.inl h)
        · exact hgoes (Or.inr (Or.inl h))
        · exact hgoes (Or.inr (Or.inr h))

end Walk

open Walk in
/-- **`get_item` is total and right exactly on the paths that meet no null
pointer** after their first component. For every mounted volume, every
non-empty path, and every lookup. A missing first component is answered with
null; a later one is looked for in the item of the one before, and that null
pointer is read. The proof follows the walk as a relation (`Step`), of which
the loop is a run. -/
theorem get_item_walks_iff {find : FatDirectory → Ptr → KernelM Ptr}
    (hfind : FindsItems find) {k k₁ : Kernel} {pd : FatPrivate}
    (hm : Mounted k pd) {part : PathPart} {rest : List PathPart} {item : Ptr}
    (hfirst : find pd.rootDirectory part.partName k = Except.ok (item, k₁))
    (hret : LookupsReturn find ⟨item, rest, k₁⟩) :
    (∃ p k', getItemWith find DiskRef.primary (part :: rest) k
      = Except.ok (p, k')
        ∧ RightItem find ⟨item, rest, k₁⟩ p)
      ↔ item.addr = 0 ∨ ¬ MeetsNull find ⟨item, rest, k₁⟩ := by
  rw [getItemWith, Machine.bind_ok (privateData_ok hm), Machine.bind_ok hfirst]
  by_cases hitem : item.addr = 0
  · rw [if_pos hitem]
    have hmissing : Missing ⟨item, rest, k₁⟩ := hitem
    exact ⟨fun _ => Or.inl hitem, fun _ => ⟨Ptr.null, k₁, rfl, RightItem.null
      (not_atDirectory_of_stops (Or.inl hmissing)) (Or.inl hmissing)⟩⟩
  · rw [if_neg hitem]
    obtain ⟨-, -, hnew⟩ := hfind hfirst
    have hlive : Live ⟨item, rest, k₁⟩ := fun hne =>
      ⟨k.nextId, k₁.nextId, hnew hne, le_rfl⟩
    rcases walkPath_cases hfind rest hlive hret with
      ⟨hmeets, hfault⟩ | ⟨hnone, hwalk⟩
    · refine ⟨?_, fun h => ?_⟩
      · rintro ⟨p, k', hok, -⟩
        cases hfault.symm.trans hok
      · rcases h with h | h
        · exact absurd h hitem
        · exact absurd hmeets h
    · exact ⟨fun _ => Or.inr hnone, fun _ => hwalk⟩

/-! ## A volume with a directory

Its root directory has one entry, the directory `D`, and `D` has one, `.`. -/

/-- The entry of `D`: a directory, in cluster 2. -/
def nestedItem : FatDirectoryItem := fun i =>
  if i = 0 then 0x44#8 else if i = 11 then fatFileSubdirectory
    else if i = 26 then 2 else 0

/-- The sectors: the root directory in sector 2, and `D` in sector 3. -/
def nestedSectors (lba : ℤ) (i : ℕ) : Byte :=
  if lba = 2 then if h : i < 32 then nestedItem ⟨i, h⟩ else 0
  else if lba = 3 then
    if i = 0 then 0x2E#8 else if h : i < 32 then nestedItem ⟨i, h⟩ else 0
  else 0

/-- The kernel with the volume mounted, and the components `d`, `c` and `a`
of a path. -/
def nestedKernel : Kernel :=
  { File.twoClusterKernel with
    mem := storeItem (fun a => if (a - heapTableAddress).toNat < 10 then 1
      else 0) 0 nestedItem
    nextId := 11
    sectors := nestedSectors
    fileDescriptors := fun _ => Ptr.null
    itemArrays := fun _ => none
    fatItems := fun _ => none
    fatItemDescriptors := fun _ => none
    fileDescriptorStructs := fun _ => none
    strings := fun id => if id = 5 then some [0x64#8] else if id = 6 then
      some [0x63#8]
      else if id = 7 then some [0x61#8] else none }

/-- The components. -/
def nestedPart (i : ℕ) : PathPart :=
  ⟨File.twoClusterPtr (7 + i), File.twoClusterPtr (4 + i)⟩

theorem nestedKernel_mounted : Mounted nestedKernel File.twoClusterPrivate :=
  ⟨⟨⟨File.twoClusterHeap.heap_wf, by decide, by decide⟩,
    (List.range 10).map fun i => ⟨i, 1⟩,
      ⟨⟨by decide, by decide, by decide⟩, by decide⟩⟩,
    rfl, by decide, rfl, ⟨by decide, 0, rfl⟩, ⟨by decide, 0, rfl⟩,
    ⟨by decide, 0, rfl⟩⟩

/-- The program of the two lookups of `d` and, in what it finds, of `c`. -/
def nestedLookups : KernelM Ptr := do
  let item ← findItemInDirectory DiskRef.primary
    File.twoClusterPrivate.rootDirectory
    (nestedPart 0).partName
  let i ← deref Kernel.fatItems item
  let directory ← deref Kernel.fatDirectories i.entry
  findItemInDirectory DiskRef.primary directory (nestedPart 1).partName

/-- The theorem on the path `d/c`, whose last component is missing. -/
theorem get_item_walks_iff_missing_last :
    ∃ item k₁,
    (∃ p k', getItem DiskRef.primary [nestedPart 0, nestedPart 1] nestedKernel
        = Except.ok (p, k')
        ∧ Walk.RightItem (findItemInDirectory DiskRef.primary) ⟨item,
          [nestedPart 1], k₁⟩ p)
      ↔ item.addr = 0
        ∨ ¬ Walk.MeetsNull (findItemInDirectory DiskRef.primary) ⟨item,
          [nestedPart 1], k₁⟩ := by
  obtain ⟨r, hr⟩ := Option.isSome_iff_exists.mp
    (show (Machine.result nestedLookups nestedKernel).isSome by decide +kernel)
  obtain ⟨k₃, hlookups⟩ := Machine.result_eq_some.mp hr
  obtain ⟨item, k₁, hfirst, h₁⟩ := Machine.bind_eq_ok.mp hlookups
  refine ⟨item, k₁,
    get_item_walks_iff (findItemInDirectory_findsItems _) nestedKernel_mounted
    hfirst fun w' hw' part rest directory hparts hdir => ?_⟩
  obtain ⟨i, k₂, hi, h₂⟩ := Machine.bind_eq_ok.mp h₁
  obtain ⟨directory', k₂', hdir', h₃⟩ := Machine.bind_eq_ok.mp h₂
  obtain ⟨-, hi, rfl⟩ := deref_eq_ok hi
  obtain ⟨hentry, hdir', rfl⟩ := deref_eq_ok hdir'
  rcases hw'.cases_head with rfl | ⟨w'', hstep, hw'⟩
  · obtain ⟨rfl, rfl⟩ := List.cons.inj hparts
    obtain ⟨-, entry, hi', -, hdir⟩ := hdir
    obtain rfl := Option.some.inj (hi.symm.trans hi')
    obtain rfl := Option.some.inj (hdir'.symm.trans hdir)
    exact ⟨_, h₃⟩
  · cases hstep with
    | lookup _ _ _ =>
      obtain rfl := (Walk.ahead_iff_of_nil rfl).mp hw'
      cases hparts

/-- On the path `d/c/a` the middle component is missing, and `get_item` reads
through a null pointer. -/
theorem missing_component_dereferences_null :
    Mounted nestedKernel File.twoClusterPrivate
      ∧ getItem DiskRef.primary [nestedPart 0, nestedPart 1,
        nestedPart 2] nestedKernel
        = Except.error Fault.nullDereference :=
  ⟨nestedKernel_mounted, Machine.failure_eq_some.mp (by decide +kernel)⟩

end Fat16

end N00bOS
