import Mathlib.Data.List.Forall2
import N00bOS.FileReads
import N00bOS.Listing

/-!
# Looking a name up

`find_item_in_directory` goes through the entries of a directory and builds the
item of the first one that `strcasecmp` finds equal to the name. Both tests in
the loop of `strcasecmp` ask whether the first string is below the second, so a
string that is nowhere below another of the same length is equal to it
(`strcasecmp_eq_zero_iff`). The lookup is exact as long as no such name stands
before the right one (`name_lookup_exact_iff`).

The making of the item is a parameter of the search here, so that which entry
is found is a statement about the search alone
(`findItemInDirectoryWith_spec`): for every way to make the item, it is made
from that entry. That one weaker test finds what the right test would find is a
general fact about searches in a list (`find?_eq_find?_iff`, in
`N00bOS.Listing`).
-/

namespace N00bOS

open KernelM Machine Listing

/-! ## Comparing

What `strcasecmp` takes for equal, against equality up to the case of ASCII
letters. -/

/-- A letter as a small one, the other characters as they are. -/
def asciiLower (c : Byte) : Byte :=
  if 0x41#8 ≤ c ∧ c ≤ 0x5A#8 then c + 0x20#8 else c

/-- **Two strings are equal, ignoring ASCII case.** It is what the lookup
should find a name by, and is said without any comparison of the code. -/
def EqIgnoringCase (s t : List Byte) : Prop :=
  s.map asciiLower = t.map asciiLower

/-- A string is as long as another, and in no place below it. -/
def NowhereBelow (s t : List Byte) : Prop :=
  List.Forall₂ (fun a b => (asciiLower b).toInt ≤ (asciiLower a).toInt) s t

instance (s t : List Byte) : Decidable (EqIgnoringCase s t) :=
  inferInstanceAs (Decidable (s.map asciiLower = t.map asciiLower))

instance (s t : List Byte) : Decidable (NowhereBelow s t) :=
  inferInstanceAs (Decidable (List.Forall₂ _ s t))

theorem tolower_eq :
    ∀ c : Byte, tolower c = (asciiLower c).toInt := by decide +kernel

/-- Equal strings are nowhere below each other. -/
theorem EqIgnoringCase.nowhereBelow {s t : List Byte} (h : EqIgnoringCase s t) :
    NowhereBelow s t := by
  induction s generalizing t with
  | nil =>
    cases t with
    | nil => exact List.Forall₂.nil
    | cons b t => cases h
  | cons a s ih =>
    cases t with
    | nil => cases h
    | cons b t =>
      obtain ⟨hab, hst⟩ := List.cons_eq_cons.mp h
      exact List.Forall₂.cons (by rw [hab]) (ih hst)

/-- **What `strcasecmp` takes for equal.** Strings of one length, of which the
first is in no place below the second; being above it makes no difference. -/
theorem strcasecmp_eq_zero_iff (s t : List Byte) :
    strcasecmp s t = 0 ↔ NowhereBelow s t := by
  induction s generalizing t with
  | nil =>
    cases t with
    | nil => exact iff_of_true rfl List.Forall₂.nil
    | cons b t =>
      exact iff_of_false (show ¬ (-1 : ℤ) = 0 by decide) fun h => nomatch h
  | cons a s ih =>
    cases t with
    | nil =>
      exact iff_of_false (show ¬ (1 : ℤ) = 0 by decide) fun h => nomatch h
    | cons b t =>
      rw [strcasecmp, NowhereBelow, List.forall₂_cons, ← tolower_eq,
        ← tolower_eq]
      by_cases hlt : tolower a < tolower b
      · rw [if_pos hlt]
        exact iff_of_false (by decide) fun h => absurd h.1 (Int.not_le.mpr hlt)
      · rw [if_neg hlt, if_neg hlt, ih]
        exact (and_iff_right (Int.not_lt.mp hlt)).symm

namespace Fat16

/-! ## The lookup

The search over the entries, each with the name that `get_filename` makes of
it. -/

/-- The loop of `find_item_in_directory`, with the making of the item
given. -/
def findFromItemWith (build : FatDirectoryItem → KernelM Ptr)
    (directory : FatDirectory) (name : Ptr) : ℕ → ℕ → KernelM Ptr
  | 0, _ => return Ptr.null
  | left + 1, itemIdx => do
    let directoryItem ← readItem directory.item itemIdx
    let partName ← deref Kernel.strings name
    if strcasecmp (getFilename directoryItem) partName = 0 then
      build directoryItem
    else
      findFromItemWith build directory name left (itemIdx + 1)

/-- `find_item_in_directory`, with the making of the item given. -/
def findItemInDirectoryWith (build : FatDirectoryItem → KernelM Ptr)
    (directory : FatDirectory) (name : Ptr) : KernelM Ptr :=
  findFromItemWith build directory name directory.total.toNat 0

/-- `find_item_in_directory` makes the item with `new_item`. -/
theorem findItemInDirectory_eq (d : DiskRef) (directory : FatDirectory)
    (name : Ptr) :
    findItemInDirectory d directory name
      = findItemInDirectoryWith (newItem d) directory name := by
  have hloop : ∀ left idx, findFromItem d directory name left idx
      = findFromItemWith (newItem d) directory name left idx := by
    intro left
    induction left with
    | zero => exact fun _ => rfl
    | succ left ih =>
      intro idx
      rw [findFromItem, findFromItemWith]
      simp only [ih]
  exact hloop _ _

/-- The entries of a directory, as they are read. -/
structure DirectoryItems (k : Kernel) (directory : FatDirectory)
    (items : List FatDirectoryItem) : Prop where
  total : directory.total = items.length
  item : ∀ i (hi : i < items.length),
    readItem directory.item i k = Except.ok (items[i], k)

/-- A name that is looked up. -/
structure RequestedName (k : Kernel) (name : Ptr) (str : List Byte) : Prop where
  ne_null : name.addr ≠ 0
  string : k.strings name.id = some str

/-- What a lookup does with the entry it has found. -/
def buildFound (build : FatDirectoryItem → KernelM Ptr) :
    Option FatDirectoryItem → KernelM Ptr
  | some directoryItem => build directoryItem
  | none => return Ptr.null

section Lookup

variable {k : Kernel} {directory : FatDirectory} {items : List FatDirectoryItem}
  {name : Ptr} {str : List Byte}

/-- **The lookup** finds the first entry that `strcasecmp` accepts. How an item
is made of the entry is a parameter, and the name is read from the directory's
entry at that index. -/
theorem findItemInDirectoryWith_spec (h : DirectoryItems k directory items)
    (hname : RequestedName k name str) (build : FatDirectoryItem →
      KernelM Ptr) :
    findItemInDirectoryWith build directory name k = buildFound build
      (items.find? fun item => decide (NowhereBelow (getFilename item) str))
        k := by
  have hloop : ∀ left idx, idx + left = items.length →
      findFromItemWith build directory name left idx k = buildFound build
        ((items.drop idx).find? fun item =>
          decide (NowhereBelow (getFilename item) str)) k := by
    intro left
    induction left with
    | zero =>
      intro idx hidx
      rw [List.drop_of_length_le (by omega)]
      rfl
    | succ left ih =>
      intro idx hidx
      have hlt : idx < items.length := by omega
      rw [findFromItemWith, bind_ok (h.item idx hlt),
        bind_ok (deref_ok hname.ne_null hname.string),
        List.drop_eq_getElem_cons hlt]
      by_cases hmatch : NowhereBelow (getFilename items[idx]) str
      · rw [if_pos ((strcasecmp_eq_zero_iff _ _).mpr hmatch),
          List.find?_cons_of_pos (by simpa using hmatch)]
        rfl
      · rw [if_neg fun hz => hmatch ((strcasecmp_eq_zero_iff _ _).mp hz),
          List.find?_cons_of_neg (by simpa using hmatch)]
        exact ih (idx + 1) (by omega)
  rw [findItemInDirectoryWith, h.total, Int.toNat_natCast]
  exact hloop _ 0 (Nat.zero_add _)

/-- **A lookup is exact**: whatever makes the item, it is made from the first
entry whose name is the requested one, ignoring case, and there is none if no
entry has that name. -/
def LookupExact (k : Kernel) (directory : FatDirectory) (name : Ptr)
    (items : List FatDirectoryItem) (str : List Byte) : Prop :=
  ∀ build, findItemInDirectoryWith build directory name k = buildFound build
    (items.find? fun item => decide (EqIgnoringCase (getFilename item) str)) k

/-- **When it is**: every entry whose name has the length of the requested one
and is nowhere below it has that name, or comes after one that has. -/
def NoneMistaken (items : List FatDirectoryItem) (str : List Byte) : Prop :=
  ∀ before item after, items = before ++ item :: after →
    NowhereBelow (getFilename item) str →
    EqIgnoringCase (getFilename item) str ∨ ∃ other ∈ before,
    EqIgnoringCase (getFilename other) str

/-- Two lookups that do the same whatever makes the item find the same. -/
theorem eq_of_buildFound {x y : Option FatDirectoryItem}
    (h : ∀ build, buildFound build x k = buildFound build y k) : x = y := by
  classical
  have hbuild := h fun item => if x = some item then pure ⟨1, 1⟩
    else fault Fault.diverged
  cases x with
  | none =>
    cases y with
    | none => rfl
    | some item' =>
      simp only [buildFound, reduceCtorEq, if_false] at hbuild
      cases hbuild
  | some item =>
    cases y with
    | none =>
      simp only [buildFound, if_true] at hbuild
      exact absurd (Prod.mk.inj (Except.ok.inj hbuild)).1 (by decide)
    | some item' =>
      by_cases heq : item = item'
      · rw [heq]
      · simp only [buildFound, if_true, Option.some.injEq, if_neg heq] at hbuild
        cases hbuild

/-- **The lookup of a name is exact exactly when no entry is mistaken for it.**
For every directory and every name; `find_item_in_directory` makes the item
with `new_item`. An entry is mistaken when its name has the length of the
other, differs from it, and is in no place below it: for `strcasecmp` tests the
same order twice. Then the search ends at that entry, if there is none of the
right name before. -/
theorem name_lookup_exact_iff (h : DirectoryItems k directory items)
    (hname : RequestedName k name str) :
    (∀ d, findItemInDirectory d directory name
      = findItemInDirectoryWith (newItem d) directory name)
      ∧ (LookupExact k directory name items str ↔ NoneMistaken items str) := by
  refine ⟨fun d => findItemInDirectory_eq d directory name, ?_⟩
  rw [NoneMistaken,
    ← find?_eq_find?_iff (fun item => EqIgnoringCase.nowhereBelow)]
  constructor
  · intro hexact
    exact eq_of_buildFound fun build =>
      (findItemInDirectoryWith_spec h hname build).symm.trans (hexact build)
  · intro heq build
    rw [findItemInDirectoryWith_spec h hname build, heq]

end Lookup

/-! ## A directory with two files

A directory whose entries are `A` and `B`, in that order. -/

/-- The entry of `B`. -/
def otherItem : FatDirectoryItem := fun i => if i = 0 then 0x42#8 else 0

/-- The two entries. -/
def twoItems : List FatDirectoryItem := [File.twoClusterItem, otherItem]

/-- The directory. -/
def twoItemsDirectory : FatDirectory := ⟨File.twoClusterPtr 8, 2, 0, 0⟩

/-- A kernel with that directory, and a name to look up. -/
def namedKernel (str : List Byte) : Kernel :=
  { File.twoClusterKernel with
    itemArrays := fun id => if id = 9 then some twoItems else none
    strings := fun id => if id = 10 then some str else none }

theorem namedKernel_directoryItems (str : List Byte) :
    DirectoryItems (namedKernel str) twoItemsDirectory twoItems := by
  refine ⟨rfl, fun i hi => ?_⟩
  match i, hi with
  | 0, _ => rfl
  | 1, _ => rfl

theorem namedKernel_requestedName (str : List Byte) :
    RequestedName (namedKernel str) (File.twoClusterPtr 9) str :=
  ⟨by decide, rfl⟩

/-- The theorem for the name `b`, which is that of the second entry. -/
theorem name_lookup_exact_iff_right_name :
    LookupExact (namedKernel [0x62#8]) twoItemsDirectory (File.twoClusterPtr 9)
      twoItems [0x62#8] :=
  (name_lookup_exact_iff (namedKernel_directoryItems _)
    (namedKernel_requestedName _)).2.mpr
      ((find?_eq_find?_iff (fun _ => EqIgnoringCase.nowhereBelow) _).mp
        (by decide))

/-- A lookup of the name `0` finds the file `A`. -/
theorem other_name_is_found :
    DirectoryItems (namedKernel [0x30#8]) twoItemsDirectory twoItems
      ∧ RequestedName (namedKernel [0x30#8]) (File.twoClusterPtr 9) [0x30#8]
      ∧ ¬ LookupExact (namedKernel [0x30#8]) twoItemsDirectory
          (File.twoClusterPtr 9) twoItems [0x30#8] := by
  refine ⟨namedKernel_directoryItems _, namedKernel_requestedName _,
    fun hexact => ?_⟩
  have hfound := eq_of_buildFound fun build => (findItemInDirectoryWith_spec
    (namedKernel_directoryItems _) (namedKernel_requestedName _)
      build).symm.trans
      (hexact build)
  exact absurd (congrArg Option.isSome hfound) (by decide)

end Fat16

end N00bOS
