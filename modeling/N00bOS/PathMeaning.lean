import N00bOS.DirectoryLoaders
import N00bOS.NameLookup
import N00bOS.PathSyntax
import N00bOS.VolumeFrames

/-!
# What a path names

On the disk a path is a walk from directory to directory: the entry that the
first name finds among those of the root directory, then the entry that the
next name finds in the directory that this one is, and so on. `Denotes` is that
walk, over the sectors alone; it says nothing of items, streams or the heap.

`get_item` makes an item for each entry on the way and frees it again. Whenever
it returns, the item is that of the entry which the path denotes, and null if
it denotes none (`getItem_denotes`). Where a name is missing that has another
one after it, the code does not return, and neither does the theorem speak of
that.

Three things are put together. A volume in service has the entries of its root
directory where a lookup finds them (`InService.directoryItems`), and stays in
service. A lookup makes the item of the entry that the name finds
(`Finds.isItemOfFound`); for a directory that is an item with the entries that
are stored on the disk for it. And the loop goes from such an item to the next
(`Walking.step`): freeing an item leaves the allocations of the one after it
alone, since they are its own. The induction is on the walk on the disk, whose
constructors are the ways in which the loop can go on or end.
-/

namespace N00bOS

open KernelM Listing PathParser

namespace Fat16

open File (FatChain clusterPos clusterSize fileByte)

/-! ## On the disk

Names and entries, without a kernel. A name is to find its entry and no other,
and the entries of a directory are to be those that `load_directory` finds in
its clusters. -/

/-- **A name finds an entry** among some, or none, and no other entry is taken
for it. -/
def Finds (items : List FatDirectoryItem) (name : List Byte)
    (found : Option FatDirectoryItem) : Prop :=
  NoneMistaken items name
    ∧ items.find? (fun item => decide (EqIgnoringCase (getFilename item) name))
      = found

/-- **A directory that is stored on the disk**: its chain of clusters, the
entries that the chain holds, and what `load_directory` needs to find them:
they end in the first cluster, or go on with deleted entries only, and no
deleted entry stands before a live one. For it counts the live entries in what
stands on the disk from the first cluster on, and then reads as many from the
start, whichever these are. -/
structure StoredDirectory (sectors : ℤ → ℕ → Byte) (pd : FatPrivate)
    (item : FatDirectoryItem) (len : ℕ) (c : ℕ → ℤ)
    (entries : List FatDirectoryItem) : Prop where
  directory : item.attributeByte &&& fatFileSubdirectory ≠ 0
  chain : FatChain (fatEntry sectors pd) (getFirstCluster item).toInt len c
  below : ∀ j, j < len → clusterPos pd (c j) + clusterSizeBytes pd ≤ 2 ^ 31
  listing : Entries IsFree (fun i => some fun j =>
    fileByte sectors pd c (32 * i + j)) entries
  inside : 32 * (entries.length + 1) ≤ len * clusterSize pd
  ordered : entries.Pairwise fun a b => IsDeleted a → IsDeleted b
  cluster : 32 * (liveItems entries).length ≤ clusterSize pd
  after : 32 * entries.length < clusterSize pd ∨
    ∃ tail,
    Entries IsFree (scanned sectors (clusterPos pd (c 0) + clusterSize pd)) tail
      ∧ ∀ a ∈ tail, IsDeleted a

/-- **What a path denotes**, from a directory with some live entries on: an
entry, or none. It denotes none as well when it goes on after a name that is
missing, or after a file. -/
inductive Denotes (sectors : ℤ → ℕ → Byte) (pd : FatPrivate) :
    List FatDirectoryItem → List (List Byte) →
    Option FatDirectoryItem → Prop where
  /-- There is no entry of the first name. -/
  | missing {items : List FatDirectoryItem} {name : List Byte}
      {rest : List (List Byte)} :
      Finds items name none → Denotes sectors pd items (name :: rest) none
  /-- The last name finds the entry. -/
  | last {items : List FatDirectoryItem} {name : List Byte}
      {item : FatDirectoryItem} :
      Finds items name (some item) → Denotes sectors pd items [name] (some item)
  /-- A file has no entries. -/
  | file {items : List FatDirectoryItem} {name next : List Byte}
      {rest : List (List Byte)}
      {item : FatDirectoryItem} : Finds items name (some item) →
      item.attributeByte &&& fatFileSubdirectory = 0 →
      Denotes sectors pd items (name :: next :: rest) none
  /-- The path goes on in the directory that was found. -/
  | inside {items : List FatDirectoryItem} {name next : List Byte}
      {rest : List (List Byte)}
      {item : FatDirectoryItem} {len : ℕ} {c : ℕ → ℤ}
        {entries : List FatDirectoryItem}
      {found : Option FatDirectoryItem} : Finds items name (some item) →
      StoredDirectory sectors pd item len c entries →
      Denotes sectors pd (liveItems entries) (next :: rest) found →
      Denotes sectors pd items (name :: next :: rest) found

/-- What a name finds is one thing. -/
theorem Finds.unique {items : List FatDirectoryItem} {name : List Byte}
    {found found' : Option FatDirectoryItem} (h : Finds items name found)
    (h' : Finds items name found') : found = found' :=
  h.2.symm.trans h'.2

/-- A directory has the entries that are stored for it, and no others. -/
theorem StoredDirectory.unique {sectors : ℤ → ℕ → Byte} {pd : FatPrivate}
    {item : FatDirectoryItem} {len len' : ℕ} {c c' : ℕ → ℤ}
    {entries entries' : List FatDirectoryItem}
    (h : StoredDirectory sectors pd item len c entries)
    (h' : StoredDirectory sectors pd item len' c' entries') :
    entries = entries' := by
  obtain ⟨-, hsame⟩ := h.chain.unique h'.chain
  have hinside := h.inside
  refine (h.listing.congr fun i hi => congrArg some (funext fun j => ?_)).unique
    h'.listing
  have hlt : 32 * i + j < clusterSize pd * len := by
    rw [Nat.mul_comm (clusterSize pd)]
    omega
  rw [fileByte, fileByte, File.filePos, File.filePos,
    hsame _ (Nat.div_lt_of_lt_mul hlt)]

/-- **A path denotes one thing.** Each name finds one thing, and a directory
has one list of entries, so the two walks go the same way. -/
theorem Denotes.unique {sectors : ℤ → ℕ → Byte} {pd : FatPrivate}
    {items : List FatDirectoryItem} {path : List (List Byte)}
    {found found' : Option FatDirectoryItem}
    (h : Denotes sectors pd items path found)
    (h' : Denotes sectors pd items path found') :
    found = found' := by
  induction h generalizing found' with
  | missing hfinds =>
    cases h' with
    | missing => rfl
    | last h => exact hfinds.unique h
    | file => rfl
    | inside h => exact absurd (hfinds.unique h) (nomatch ·)
  | last hfinds =>
    cases h' with
    | missing h => exact hfinds.unique h
    | last h => exact hfinds.unique h
  | file hfinds hfile =>
    cases h' with
    | missing => rfl
    | file => rfl
    | inside h hstored =>
      obtain rfl := Option.some.inj (hfinds.unique h)
      exact absurd hfile hstored.directory
  | inside hfinds hstored _ ih =>
    cases h' with
    | missing h => exact absurd (hfinds.unique h) (nomatch ·)
    | file h hfile =>
      obtain rfl := Option.some.inj (hfinds.unique h)
      exact absurd hfile hstored.directory
    | inside h hstored' hrest =>
      obtain rfl := Option.some.inj (hfinds.unique h)
      obtain rfl := hstored.unique hstored'
      exact ih hrest

/-- A lookup finds what the name does. -/
theorem Finds.lookup {k : Kernel} {directory : FatDirectory} {name : Ptr}
    {items : List FatDirectoryItem} {str : List Byte}
    {found : Option FatDirectoryItem} (h : Finds items str found)
    (hitems : DirectoryItems k directory items)
    (hname : RequestedName k name str) (d : DiskRef) :
    findItemInDirectory d directory name k
      = buildFound (newItem d) found k := by
  rw [findItemInDirectory_eq, findItemInDirectoryWith_spec hitems hname,
    (find?_eq_find?_iff (fun _ => EqIgnoringCase.nowhereBelow) items).mpr h.1,
    h.2]

/-! ## Volumes in service

What mounting leaves behind, and what every lookup needs. -/

/-- **A volume in service**: it is mounted, its clusters have sectors, and the
root directory has been loaded. -/
structure InService (k : Kernel) (pd : FatPrivate)
    (items : List FatDirectoryItem) : Prop where
  mounted : Mounted k pd
  cluster_ne_zero : pd.header.sectorsPerCluster ≠ 0
  root_nonneg : 0 ≤ pd.rootDirectory.sectorPosEnd
  item_null : pd.rootDirectory.item.addr = 0
  total : pd.rootDirectory.total = items.length
  low : items.length ≤ quietItems
  item : ∀ i (hi : i < items.length), lowItem k.mem i = items[i]

namespace InService

variable {k k' : Kernel} {pd : FatPrivate} {items : List FatDirectoryItem}

/-- The entries of the root directory are read. -/
theorem directoryItems (h : InService k pd items) :
    DirectoryItems k pd.rootDirectory items where
  total := h.total
  item i hi := by
    rw [readItem, if_pos h.item_null, h.item_null, Machine.get_bind,
      ← h.item i hi, lowItem, show (0 : Word) + BitVec.ofNat 32 (32 * i)
        = BitVec.ofNat 32 (32 * i)
        from BitVec.zero_add _]
    rfl

/-- The items stay where the memory below the table does. -/
theorem lowItem_congr (h : InService k pd items) (hlow : SameLow k k') {i : ℕ}
    (hi : i < items.length) : lowItem k'.mem i = lowItem k.mem i := by
  have hle := h.low
  exact Fat16.lowItem_congr (hlow h.mounted.heap.1) (by decide) (by
    have hquiet : quietItems = 1007 := rfl
    have htable : heapTableAddress.toNat = 32256 := rfl
    omega)

/-- A volume stays in service. -/
theorem volumeFrame (h : InService k pd items) (hframe : VolumeFrame k k')
    (hk : k'.HeapOk) :
    InService k' pd items where
  mounted := h.mounted.volumeFrame hframe hk
  cluster_ne_zero := h.cluster_ne_zero
  root_nonneg := h.root_nonneg
  item_null := h.item_null
  total := h.total
  low := h.low
  item i hi := by rw [← h.item i hi, h.lowItem_congr hframe.low hi]

/-- Private data of a descriptor is not the volume's. -/
theorem setFatItemDescriptor (h : InService k pd items) (id : ℕ)
    (v : Option FatItemDescriptor) :
    InService (k.setFatItemDescriptor id v) pd items :=
  { h with mounted := h.mounted.setFatItemDescriptor id v }

end InService

/-! ## Items of entries

What an item has to do with the entry that it was made of, for files and for
directories. -/

/-- An item for a file has a copy of its entry. -/
def IsFileItem (k : Kernel) (p : Ptr) (item : FatDirectoryItem) : Prop :=
  ∃ entry, k.fatItems p.id = some ⟨entry, FatItemType.file⟩ ∧ entry.addr ≠ 0
    ∧ k.itemArrays entry.id = some [item]

/-- An item for a directory has its live entries. -/
def IsDirectoryItem (k : Kernel) (p : Ptr)
    (items : List FatDirectoryItem) : Prop :=
  ∃ entry q, k.fatItems p.id = some ⟨entry, FatItemType.directory⟩
    ∧ entry.addr ≠ 0
    ∧ k.fatDirectories entry.id = some ⟨q, items.length, 0, 0⟩ ∧ q.addr ≠ 0
    ∧ k.itemArrays q.id = some items

/-- **An item is that of an entry**: a file, or a directory with what is stored
on the disk for it. Whatever chain and entries are stored for the directory,
the item has these; there are no others. -/
structure IsItemOf (sectors : ℤ → ℕ → Byte) (pd : FatPrivate) (k : Kernel)
    (p : Ptr) (item : FatDirectoryItem) : Prop where
  ne_null : p.addr ≠ 0
  file : item.attributeByte &&& fatFileSubdirectory = 0 → IsFileItem k p item
  directory : item.attributeByte &&& fatFileSubdirectory ≠ 0 →
    ∃ entry, k.fatItems p.id = some ⟨entry, FatItemType.directory⟩
  stored : ∀ len c entries, StoredDirectory sectors pd item len c entries →
    IsDirectoryItem k p (liveItems entries)

/-- The item of the entry that was found; null if there is none. -/
def IsItemOfFound (sectors : ℤ → ℕ → Byte) (pd : FatPrivate) (k : Kernel)
    (p : Ptr) :
    Option FatDirectoryItem → Prop
  | some item => IsItemOf sectors pd k p item
  | none => p.addr = 0

section Congr

variable {sectors : ℤ → ℕ → Byte} {pd : FatPrivate} {k k' : Kernel} {p : Ptr}
  {lo hi : ℕ}

/-- An item is that of its entry as long as its allocations are left alone. -/
theorem IsItemOf.congr {item : FatDirectoryItem}
    (h : IsItemOf sectors pd k p item) (hlive : LiveItem lo hi k p)
    (hsame : SameItems (fun id => lo ≤ id ∧ id < hi) k k') :
    IsItemOf sectors pd k' p item := by
  obtain ⟨i, hitem, hrest⟩ := hlive.item
  have hitem' := hsame.fatItems p.id ⟨hlive.le, hlive.lt⟩
  refine ⟨h.ne_null, fun hfile => ?_, fun hdir => ?_,
    fun len c entries hstored => ?_⟩
  · obtain ⟨entry, hfat, hne, harray⟩ := h.file hfile
    rw [hitem] at hfat
    obtain rfl := Option.some.inj hfat
    exact ⟨entry, hitem'.trans hitem, hne,
      (hsame.itemArrays _ hrest).trans harray⟩
  · obtain ⟨entry, hfat⟩ := h.directory hdir
    exact ⟨entry, hitem'.trans hfat⟩
  · obtain ⟨entry, q, hfat, hne, hdirs, hq, harray⟩ :=
      h.stored len c entries hstored
    rw [hitem] at hfat
    obtain rfl := Option.some.inj hfat
    obtain ⟨hlo, hhi, dir, hdir', hq'⟩ := hrest hne
    rw [hdirs] at hdir'
    obtain rfl := Option.some.inj hdir'
    exact ⟨entry, q, hitem'.trans hitem, hne,
      (hsame.fatDirectories _ ⟨hlo, hhi⟩).trans hdirs, hq,
      (hsame.itemArrays _ hq').trans harray⟩

theorem IsItemOfFound.congr {found : Option FatDirectoryItem}
    (h : IsItemOfFound sectors pd k p found)
    (hlive : p.addr ≠ 0 → LiveItem lo hi k p)
    (hsame : SameItems (fun id => lo ≤ id ∧ id < hi) k k') :
    IsItemOfFound sectors pd k' p found := by
  cases found with
  | none => exact h
  | some item => exact IsItemOf.congr h (hlive (IsItemOf.ne_null h)) hsame

end Congr

section Make

variable {k k' : Kernel} {pd : FatPrivate} {items : List FatDirectoryItem}

/-- **A directory that is stored on the disk is loaded**, by every run of
`load_directory` that returns. -/
theorem StoredDirectory.loaded {item : FatDirectoryItem} {len : ℕ} {c : ℕ → ℤ}
    {entries : List FatDirectoryItem}
    (h : StoredDirectory k.sectors pd item len c entries)
    (hs : InService k pd items) {p : Ptr}
    (hrun : loadDirectory DiskRef.primary item k = Except.ok (p, k')) :
    p.addr ≠ 0 ∧ ∃ q,
    k'.fatDirectories p.id = some ⟨q, (liveItems entries).length, 0, 0⟩
      ∧ q.addr ≠ 0 ∧ k'.itemArrays q.id = some (liveItems entries) := by
  have hsub : Subdirectory k pd item len c entries :=
    ⟨hs.mounted, h.directory, hs.cluster_ne_zero, h.chain, hs.root_nonneg,
      h.below, h.listing, h.inside⟩
  have hlead := kept_prefix_iff.mpr h.ordered
  obtain ⟨scan, hscan, hlen⟩ := (hsub.scan_live_iff hlead h.cluster).mpr h.after
  obtain ⟨p', k₁, q, hrun', hp, hdir, hq, harray⟩ :=
    hsub.load hscan (hsub.room_of_load hscan hrun)
  obtain ⟨rfl, rfl⟩ := Prod.mk.inj (Except.ok.inj (hrun.symm.trans hrun'))
  rw [hlen] at hdir harray
  refine ⟨hp, q, hdir, hq, ?_⟩
  rw [harray]
  refine congrArg some (List.ext_getElem ?_ fun i _ hi => ?_)
  · rw [List.length_map, List.length_range]
  · rw [List.getElem_map, List.getElem_range]
    exact hsub.loadedItem_eq hlead h.cluster hi

/-- **`new_item`** makes the item of its entry. For a file that is a copy of
the entry; for a directory, what `load_directory` makes of it, with all the
entries if it is stored on the disk for that. -/
theorem newItem_isItemOf (h : InService k pd items) {item : FatDirectoryItem}
    {p : Ptr} (hrun : newItem DiskRef.primary item k = Except.ok (p, k')) :
    IsItemOf k.sectors pd k' p item := by
  rw [newItem] at hrun
  obtain ⟨p₁, k₁, halloc, h₁⟩ := Machine.bind_eq_ok.mp hrun
  have hne := allocate_ne_null h.mounted.heap halloc
  rw [Machine.modify_bind] at h₁
  have hframe : VolumeFrame k (k₁.setFatItem p₁.id
      (some ⟨Ptr.null, FatItemType.directory⟩)) :=
    IsTrans.trans _ _ _ (VolumeFrame.allocate _ _ _ _ halloc)
      (VolumeFrame.of_eq rfl (SameLow.refl _))
  have hs₁ := h.volumeFrame hframe (h.mounted.allocate halloc).heap
  by_cases hdirectory : item.attributeByte &&& fatFileSubdirectory ≠ 0
  · rw [if_pos hdirectory] at h₁
    obtain ⟨directory, k₂, hload, h₂⟩ := Machine.bind_eq_ok.mp h₁
    rw [Machine.modify_bind] at h₂
    obtain ⟨rfl, rfl⟩ := Prod.mk.inj (Except.ok.inj h₂)
    refine ⟨hne, fun hfile => absurd hfile hdirectory,
      fun _ => ⟨directory, Function.update_self _ _ _⟩,
      fun len c entries hstored => ?_⟩
    rw [← hframe.sectors] at hstored
    obtain ⟨hnull, q, hdir, hq, harray⟩ := hstored.loaded hs₁ hload
    exact ⟨directory, q, Function.update_self _ _ _, hnull, hdir, hq, harray⟩
  · rw [if_neg hdirectory] at h₁
    obtain ⟨copy, k₂, hclone, h₂⟩ := Machine.bind_eq_ok.mp h₁
    rw [Machine.modify_bind] at h₂
    obtain ⟨rfl, rfl⟩ := Prod.mk.inj (Except.ok.inj h₂)
    rw [cloneDirectoryItem] at hclone
    obtain ⟨copy', k₃, halloc', h₃⟩ := Machine.bind_eq_ok.mp hclone
    rw [Machine.modify_bind] at h₃
    obtain ⟨rfl, rfl⟩ := Prod.mk.inj (Except.ok.inj h₃)
    have hcopy := allocate_ne_null hs₁.mounted.heap halloc'
    exact ⟨hne, fun _ => ⟨copy', Function.update_self _ _ _, hcopy,
      Function.update_self _ _ _⟩, fun hdir => absurd hdir hdirectory,
      fun _ _ _ hstored => absurd hstored.directory hdirectory⟩

/-- **A lookup** makes the item of what the name finds. The entries may be
those of the root directory or of an item, as long as they are where the
directory has them. -/
theorem Finds.isItemOfFound {directory : FatDirectory}
    {entries : List FatDirectoryItem} {str : List Byte}
    {found : Option FatDirectoryItem} (h : Finds entries str found)
    (hs : InService k pd items) (hentries : DirectoryItems k directory entries)
    {name p : Ptr} (hname : RequestedName k name str)
    (hrun : findItemInDirectory DiskRef.primary directory name k
      = Except.ok (p, k')) :
    IsItemOfFound k.sectors pd k' p found := by
  rw [h.lookup hentries hname] at hrun
  cases found with
  | none =>
    obtain ⟨rfl, -⟩ := Prod.mk.inj (Except.ok.inj hrun)
    rfl
  | some item => exact newItem_isItemOf hs hrun

end Make

/-! ## The walk

The loop of `get_item`, with the names to go on one side and the parts of the
path on the other. -/

/-- A part keeps its name. -/
theorem namedPart_volumeFrame {k k' : Kernel} (h : VolumeFrame k k')
    {name : List Byte} {part : PathPart} (hpart : NamedPart k name part) :
    NamedPart k' name part where
  ne_null := hpart.ne_null
  allocated := Nat.lt_of_lt_of_le hpart.allocated h.nextId
  string := (h.strings _ hpart.allocated).trans hpart.string

/-- **The loop of `get_item`** at an item: it is that of what was found, and its
allocations are its own. -/
structure AtItem (sectors : ℤ → ℕ → Byte) (pd : FatPrivate)
    (items : List FatDirectoryItem) (k : Kernel) (p : Ptr)
    (found : Option FatDirectoryItem) : Prop where
  service : InService k pd items
  disk : k.sectors = sectors
  item : IsItemOfFound sectors pd k p found
  live : p.addr ≠ 0 → ∃ lo, LiveItem lo k.nextId k p
  heap : ∃ own base, (p.addr ≠ 0 → OwnsItem k p own) ∧ k.Holds (own ++ base)

/-- **The walk of `get_item`**: the names to go are those of the parts. It is
the invariant of the loop, together with the item that the loop is at. -/
structure Walking (sectors : ℤ → ℕ → Byte) (pd : FatPrivate)
    (items : List FatDirectoryItem) (k : Kernel) (p : Ptr)
    (found : Option FatDirectoryItem) (names : List (List Byte))
    (parts : List PathPart) :
    Prop extends AtItem sectors pd items k p found where
  parts : List.Forall₂ (NamedPart k) names parts

section Walk

variable {sectors : ℤ → ℕ → Byte} {pd : FatPrivate}
  {items entries : List FatDirectoryItem} {k k' : Kernel} {p q : Ptr}
  {name : List Byte} {names : List (List Byte)} {part : PathPart}
  {parts : List PathPart} {found : Option FatDirectoryItem}

/-- The entries of an item for a directory are read. -/
theorem directoryItems_of_array {dir : Ptr} (hdir : dir.addr ≠ 0)
    (harray : k.itemArrays dir.id = some entries) :
    DirectoryItems k ⟨dir, entries.length, 0, 0⟩ entries where
  total := rfl
  item i hi := by
    rw [readItem, if_neg hdir, Machine.bind_ok (deref_ok hdir harray),
      List.getElem?_eq_getElem hi]
    rfl

/-- A name that is looked up next. -/
theorem requestedName_of_named (hpart : NamedPart k name part) :
    RequestedName k part.partName name :=
  ⟨hpart.ne_null, hpart.string⟩

/-- The first lookup is at what it has found. -/
theorem AtItem.of_lookup (hs : InService k pd items) {directory : FatDirectory}
    {partName : Ptr}
    (hlookup : findItemInDirectory DiskRef.primary directory partName k
      = Except.ok (p, k'))
    (hmade : IsItemOfFound k.sectors pd k' p found) :
    AtItem k.sectors pd items k' p found := by
  have hfound := findItemInDirectory_spec hlookup
  have hframe := VolumeFrame.stepFrame.findItemInDirectory _ _ _ _ _ _ hlookup
  obtain ⟨hwf, es, hinv⟩ := hs.mounted.heap
  obtain ⟨own, lost, howns, hholds⟩ := hfound.heap es ⟨hwf, hinv⟩
  exact ⟨hs.volumeFrame hframe hholds.heapOk, hframe.sectors, hmade,
    fun hne => ⟨k.nextId, hfound.live hne⟩, own, lost ++ es, howns, hholds⟩

/-- **From an item to the next**: the lookup leaves the item alone, and freeing
the item what is not its own. -/
theorem AtItem.next {item : Option FatDirectoryItem}
    (h : AtItem sectors pd items k p item) (hp : p.addr ≠ 0)
    {directory : FatDirectory} {partName tmp : Ptr} {k₁ k₂ : Kernel}
    (hlookup : findItemInDirectory DiskRef.primary directory partName k
      = Except.ok (tmp, k₁))
    (hmade : IsItemOfFound k.sectors pd k₁ tmp found)
    (hfree : itemFree p k₁ = Except.ok ((), k₂)) :
    AtItem sectors pd items k₂ tmp found ∧ VolumeFrame k k₂ := by
  obtain ⟨lo, hlive⟩ := h.live hp
  obtain ⟨own, base, howns, hholds⟩ := h.heap
  have hfound := findItemInDirectory_spec hlookup
  have hsame : SameItems (fun id => lo ≤ id ∧ id < k.nextId) k k₁ :=
    hfound.old.mono fun id hid => hid.2
  obtain ⟨k₃, hfree', hsame'⟩ := itemFree_ok (hlive.congr hsame) hp
  obtain ⟨-, rfl⟩ := Prod.mk.inj (Except.ok.inj (hfree'.symm.trans hfree))
  have hnew : SameItems (fun id => k.nextId ≤ id ∧ id < k₁.nextId) k₁ k₃ :=
    hsame'.mono fun id hid => Or.inr hid.1
  have hframe : VolumeFrame k k₃ := IsTrans.trans _ _ _
    (VolumeFrame.stepFrame.findItemInDirectory _ _ _ _ _ _ hlookup)
    (VolumeFrame.stepFrame.itemFree _ _ _ _ hfree)
  have hfreed := OpenFrame.itemFree _ _ _ _ hfree
  -- what the item owned has been given back
  obtain ⟨own', lost, howns', hholds₁⟩ := hfound.heap _ hholds
  have hholds₁ : k₁.Holds (own ++ (own' ++ (lost ++ base))) := hholds₁.perm
    (((List.perm_append_comm_assoc lost own base).append_left own').trans
      (List.perm_append_comm_assoc own' own _))
  obtain ⟨lost', hholds₂⟩ := itemFree_heap
    ((howns hp).congr hlive hsame hfound.frame.heap) hholds₁ hfree
  refine ⟨⟨h.service.volumeFrame hframe hholds₂.heapOk,
    hframe.sectors.trans h.disk, ?_, fun hne => ?_, ?_⟩, hframe⟩
  · rw [h.disk] at hmade
    exact hmade.congr hfound.live hnew
  · exact ⟨k.nextId,
      ((hfound.live hne).congr hnew).mono (Nat.le_refl _) hfreed.nextId⟩
  · exact ⟨own', lost' ++ (lost ++ base),
      fun hne => (howns' hne).congr (hfound.live hne) hnew hfreed.heap,
      hholds₂.perm (List.perm_append_comm_assoc lost' own' _)⟩

/-- **A step of the walk**, from a directory: the next name is looked up, the
item of the directory is freed, and the walk is at what was found. -/
theorem Walking.step {item : Option FatDirectoryItem}
    (h : Walking sectors pd items k p item (name :: names) (part :: parts))
    (hp : p.addr ≠ 0) (hdir : IsDirectoryItem k p entries)
    (hfinds : Finds entries name found)
    (hrun : walkPath (findItemInDirectory DiskRef.primary) p (part :: parts) k
      = Except.ok (q, k')) :
    ∃ tmp k₁, Walking sectors pd items k₁ tmp found names parts
      ∧ walkPath (findItemInDirectory DiskRef.primary) tmp parts k₁ = Except.ok
        (q, k') := by
  obtain ⟨hpart, hparts⟩ := List.forall₂_cons.mp h.parts
  obtain ⟨entry, dir, hitem, hentry, hdirs, hdirne, harray⟩ := hdir
  rw [walkPath, Machine.bind_ok (deref_ok hp hitem), if_neg (not_not.mpr rfl),
    Machine.bind_ok (deref_ok hentry hdirs)] at hrun
  obtain ⟨tmp, k₁, hlookup, h₁⟩ := Machine.bind_eq_ok.mp hrun
  obtain ⟨u, k₂, hfree, h₂⟩ := Machine.bind_eq_ok.mp h₁
  have hmade := hfinds.isItemOfFound h.service
    (directoryItems_of_array hdirne harray)
    (requestedName_of_named hpart) hlookup
  obtain ⟨hat, hframe⟩ := h.toAtItem.next hp hlookup hmade hfree
  exact ⟨tmp, k₂, ⟨hat, hparts.imp fun _ _ => namedPart_volumeFrame hframe⟩, h₂⟩

/-- The first name of a path that denotes something, or nothing, finds an entry,
or none. -/
theorem Denotes.finds (h : Denotes sectors pd entries (name :: names) found) :
    Finds entries name
      (entries.find? fun item =>
        decide (EqIgnoringCase (getFilename item) name)) := by
  cases h with
  | missing h => exact ⟨h.1, rfl⟩
  | last h => exact ⟨h.1, rfl⟩
  | file h => exact ⟨h.1, rfl⟩
  | inside h => exact ⟨h.1, rfl⟩

/-- **The loop of `get_item`**, at what the first name has found: it ends at
what the path denotes. -/
theorem walkPath_denotes {path : List (List Byte)}
    (h : Denotes sectors pd entries path found) (hpath : path = name :: names)
    (hw : Walking sectors pd items k p (entries.find? fun item =>
      decide (EqIgnoringCase (getFilename item) name)) names parts)
    (hrun : walkPath (findItemInDirectory DiskRef.primary) p parts k
      = Except.ok (q, k')) :
    IsItemOfFound sectors pd k' q found := by
  induction h generalizing k p name names parts with
  | @missing entries name' rest hfinds =>
    obtain ⟨rfl, rfl⟩ := List.cons.inj hpath
    have hnull : p.addr = 0 := by
      have := hw.item
      rwa [hfinds.2] at this
    cases parts with
    | nil =>
      obtain ⟨rfl, rfl⟩ := Prod.mk.inj (Except.ok.inj hrun)
      exact hnull
    | cons part parts =>
      -- the next name would be looked up through the null pointer
      rw [walkPath, Machine.bind_error (deref_null hnull)] at hrun
      cases hrun
  | @last entries name' item hfinds =>
    obtain ⟨rfl, rfl⟩ := List.cons.inj hpath
    obtain rfl := List.forall₂_nil_left_iff.mp hw.parts
    obtain ⟨rfl, rfl⟩ := Prod.mk.inj (Except.ok.inj hrun)
    have hitem := hw.item
    rwa [hfinds.2] at hitem
  | @file entries name' next rest item hfinds hfile =>
    obtain ⟨rfl, rfl⟩ := List.cons.inj hpath
    have hitem := hw.item
    rw [hfinds.2] at hitem
    obtain ⟨part, parts, -, -, rfl⟩ := List.forall₂_cons_left_iff.mp hw.parts
    obtain ⟨entry, hfat, -⟩ := IsItemOf.file hitem hfile
    rw [walkPath, Machine.bind_ok (deref_ok (IsItemOf.ne_null hitem) hfat),
      if_pos (show FatItemType.file ≠ FatItemType.directory by decide)] at hrun
    obtain ⟨rfl, rfl⟩ := Prod.mk.inj (Except.ok.inj hrun)
    rfl
  | @inside entries name' next rest item len c inner found hfinds hstored
      hinner ih =>
        obtain ⟨rfl, rfl⟩ := List.cons.inj hpath
        have hitem := hw.item
        rw [hfinds.2] at hitem
        obtain ⟨part, parts, -, -, rfl⟩ :=
          List.forall₂_cons_left_iff.mp hw.parts
        obtain ⟨tmp, k₁, hw₁, hrun₁⟩ := hw.step (IsItemOf.ne_null hitem)
          (IsItemOf.stored hitem len c inner hstored) hinner.finds hrun
        exact ih rfl hw₁ hrun₁

/-- **`get_item` finds what the path denotes**, whenever it returns: on every
volume in service, for every path. The item that is returned is that of the
entry, with what is on the disk for it, and it is null exactly when there is
none. -/
theorem getItem_denotes (hs : InService k pd items)
    (hden : Denotes k.sectors pd items names found)
    (hparts : List.Forall₂ (NamedPart k) names parts)
    (hrun : getItem DiskRef.primary parts k = Except.ok (q, k')) :
    IsItemOfFound k.sectors pd k' q found := by
  cases hparts with
  | nil => cases hrun
  | @cons name part names parts hpart hparts =>
    rw [getItem, getItemWith,
      Machine.bind_ok (privateData_ok hs.mounted)] at hrun
    obtain ⟨rootItem, k₁, hlookup, h₁⟩ := Machine.bind_eq_ok.mp hrun
    have hmade := hden.finds.isItemOfFound hs hs.directoryItems
      (requestedName_of_named hpart) hlookup
    have hframe := VolumeFrame.stepFrame.findItemInDirectory _ _ _ _ _ _ hlookup
    have hw : Walking k.sectors pd items k₁ rootItem
        (items.find? fun item =>
          decide (EqIgnoringCase (getFilename item) name)) names parts :=
      ⟨AtItem.of_lookup hs hlookup hmade, hparts.imp fun _ _ =>
        namedPart_volumeFrame hframe⟩
    by_cases hnull : rootItem.addr = 0
    · -- nothing was found, and nothing is denoted
      rw [if_pos hnull] at h₁
      obtain ⟨rfl, rfl⟩ := Prod.mk.inj (Except.ok.inj h₁)
      cases hden with
      | missing => rfl
      | last h =>
        rw [h.2] at hmade
        exact absurd hnull (IsItemOf.ne_null hmade)
      | file h => rfl
      | inside h =>
        rw [h.2] at hmade
        exact absurd hnull (IsItemOf.ne_null hmade)
    · rw [if_neg hnull] at h₁
      exact walkPath_denotes hden rfl hw h₁

/-! ### Any path

For paths that the disk says nothing of: if anything is found, it is the item
of some entry. -/

/-- **A lookup makes the item of an entry**, whatever the directory is and
whatever the name finds in it. -/
theorem findItemInDirectory_isItemOf (hs : InService k pd items)
    {directory : FatDirectory} {partName : Ptr}
    (hrun : findItemInDirectory DiskRef.primary directory partName k
      = Except.ok (p, k')) :
    ∃ found, IsItemOfFound k.sectors pd k' p found := by
  rw [findItemInDirectory] at hrun
  generalize directory.total.toNat = left at hrun
  generalize 0 = idx at hrun
  induction left generalizing idx with
  | zero =>
    obtain ⟨rfl, rfl⟩ := Prod.mk.inj (Except.ok.inj hrun)
    exact ⟨none, rfl⟩
  | succ left ih =>
    rw [findFromItem] at hrun
    obtain ⟨item, k₁, hitem, h₁⟩ := Machine.bind_eq_ok.mp hrun
    obtain rfl : k = k₁ := StepFrame.readItem (R := Eq) _ _ _ _ _ hitem
    obtain ⟨str, k₂, hname, h₂⟩ := Machine.bind_eq_ok.mp h₁
    obtain ⟨-, -, rfl⟩ := deref_eq_ok hname
    split at h₂
    · exact ⟨some item, newItem_isItemOf hs h₂⟩
    · exact ih _ h₂

/-- The loop of `get_item` ends at the item of an entry, or at null. -/
theorem walkPath_isItemOf (h : AtItem sectors pd items k p found)
    (hrun : walkPath (findItemInDirectory DiskRef.primary) p parts k
      = Except.ok (q, k')) :
    ∃ found', IsItemOfFound sectors pd k' q found' := by
  induction parts generalizing k p found with
  | nil =>
    obtain ⟨rfl, rfl⟩ := Prod.mk.inj (Except.ok.inj hrun)
    exact ⟨found, h.item⟩
  | cons part parts ih =>
    rw [walkPath] at hrun
    obtain ⟨current, k₁, hcurrent, h₁⟩ := Machine.bind_eq_ok.mp hrun
    obtain ⟨hp, -, rfl⟩ := deref_eq_ok hcurrent
    split at h₁
    · obtain ⟨rfl, rfl⟩ := Prod.mk.inj (Except.ok.inj h₁)
      exact ⟨none, rfl⟩
    obtain ⟨directory, k₂, hdirectory, h₂⟩ := Machine.bind_eq_ok.mp h₁
    obtain ⟨-, -, rfl⟩ := deref_eq_ok hdirectory
    obtain ⟨tmp, k₃, hlookup, h₃⟩ := Machine.bind_eq_ok.mp h₂
    obtain ⟨u, k₄, hfree, h₄⟩ := Machine.bind_eq_ok.mp h₃
    obtain ⟨found₁, hmade⟩ := findItemInDirectory_isItemOf h.service hlookup
    exact ih (h.next hp hlookup hmade hfree).1 h₄

/-- **`get_item` makes the item of an entry**, or none, for every path. Which
entry that is, this does not say. -/
theorem getItem_isItemOf (hs : InService k pd items)
    (hrun : getItem DiskRef.primary parts k = Except.ok (q, k')) :
    ∃ found, IsItemOfFound k.sectors pd k' q found := by
  cases parts with
  | nil => cases hrun
  | cons part parts =>
    rw [getItem, getItemWith,
      Machine.bind_ok (privateData_ok hs.mounted)] at hrun
    obtain ⟨rootItem, k₁, hlookup, h₁⟩ := Machine.bind_eq_ok.mp hrun
    obtain ⟨found, hmade⟩ := findItemInDirectory_isItemOf hs hlookup
    split at h₁
    · obtain ⟨rfl, rfl⟩ := Prod.mk.inj (Except.ok.inj h₁)
      exact ⟨none, rfl⟩
    · exact walkPath_isItemOf (AtItem.of_lookup hs hlookup hmade) h₁

end Walk

end Fat16

end N00bOS
