import N00bOS.PathMeaning

/-!
# Opening what a path names

`fopen` parses a path, looks it up, and puts what it finds in a slot of the
descriptor table. On a volume in service a run of it that returns has opened
the entry that the path denotes on the disk, at its start, in the first slot
that is free; and it returns `-EIO` exactly when the path denotes none
(`fopen_denotes`). A path of one name returns if there are seven free blocks
for it (`fopen_returns`).

A run is cut at the two places where something is handed on: the parts of the
path, which are the names in it (`PathOf.parse_of_fopen`), and the private data
that `fat16_open` has made for the item (`fat16Open_denotes`). What is left is
the end of `fopen`, about which only that private data has to be known
(`finishOpen_spec`).

The private data of a descriptor is told from an error by the sign of its
address, so all of this is about heaps below `2 ^ 31`.
-/

namespace N00bOS

open KernelM Fat16 PathParser

/-- **The heap lies below `2 ^ 31`**, where no address is an error. Above it
the address of private data would be taken for an error number, and negative.
-/
def Kernel.HeapBelow (k : Kernel) : Prop :=
  k.heap.startAddress.toNat + k.heap.total * 4096 ≤ 2 ^ 31

/-- An allocation there is no error. -/
theorem allocate_not_isErr {k k' : Kernel} (hk : k.HeapOk)
    (hbelow : k.HeapBelow) {size : Word} {p : Ptr}
    (h : allocate size k = Except.ok (p, k'))
    (hsize : 0 < Heap.blocksFor size) :
    ¬ p.isErr = true := by
  obtain ⟨hw, es, hinv⟩ := hk
  obtain ⟨-, ⟨m, rfl⟩, hholds⟩ := allocate_spec h
  obtain ⟨i, haddr, hes⟩ := hholds es ⟨hw, hinv⟩
  have hstop : i + Heap.blocksFor size ≤ k.heap.total :=
    hes.2.packed.stop_le _ List.mem_cons_self
  have hlt : i < k.heap.total := by omega
  have hnat := Heap.blockAddress_toNat hw.toWf hlt
  have hle : k.heap.startAddress.toNat + k.heap.total * 4096 ≤ 2 ^ 31 := hbelow
  have hint : p.addr.toInt = p.addr.toNat :=
    BitVec.toInt_eq_toNat_of_lt (by rw [haddr, hnat]; omega)
  rw [Ptr.isErr, decide_eq_true_iff, hint]
  omega

namespace Fat16.InService

/-- Descriptors are not the volume's. -/
theorem of_eq {k k' : Kernel} {pd : FatPrivate} {items : List FatDirectoryItem}
    (h : InService k pd items) (hk : k' = { k with
      fileDescriptors := k'.fileDescriptors, fileDescriptorStructs :=
        k'.fileDescriptorStructs
      fatItemDescriptors := k'.fatItemDescriptors }) : InService k'
          pd items := by
  rw [hk]
  exact { h with mounted := { h.mounted with } }

end Fat16.InService

namespace File

/-! ## Paths

A path that is made of a drive and names, and what parsing it leaves. -/

/-- **A path of names** on drive `0`. There is at least one name, and each is
one that a path can have; a slash may stand at the end. -/
structure PathOf (path : List Byte) (names : List (List Byte)) : Prop where
  ne_nil : names ≠ []
  proper : ∀ name ∈ names, name ≠ [] ∧ slash ∉ name
  rendered : path = render 0 names ∨ path = render 0 names ++ [slash]
  short : path.length ≤ maxPathLength

/-- Such a path is the prefix of the drive, and then its names are read. -/
theorem PathOf.reads {path : List Byte} {names : List (List Byte)}
    (h : PathOf path names) :
    ∃ rest, path = BitVec.ofNat 8 (0x30 + 0) :: colon :: slash :: rest
      ∧ Separated.Names slash rest names := by
  obtain ⟨h₁, h₂⟩ := Separated.Names.of_intercalate h.ne_nil h.proper
  rcases h.rendered with rfl | rfl
  · exact ⟨_, rfl, h₁⟩
  · exact ⟨_, rfl, h₂⟩

/-- A path has one list of names. -/
theorem PathOf.unique {path : List Byte} {names names' : List (List Byte)}
    (h : PathOf path names) (h' : PathOf path names') : names = names' := by
  obtain ⟨rest, hpath, hread⟩ := h.reads
  obtain ⟨rest', hpath', hread'⟩ := h'.reads
  obtain rfl : rest = rest' := congrArg (List.drop 3) (hpath.symm.trans hpath')
  exact hread.unique hread'

/-- Such a path is not rejected. -/
theorem PathOf.not_rejected {path : List Byte} {names : List (List Byte)}
    (h : PathOf path names) : ¬ Rejected path := by
  obtain ⟨rest, hsplit, -⟩ := h.reads
  rintro (hlong | hinvalid)
  · have := h.short
    omega
  · rw [hsplit, show validatePath
      (BitVec.ofNat 8 (0x30 + 0) :: colon :: slash :: rest) = true
      from rfl] at hinvalid
    cases hinvalid

/-- Such a path is parsed to a part for each name. -/
theorem PathOf.parse {path : List Byte} {names : List (List Byte)}
    (h : PathOf path names) {k : Kernel} (hk : k.HeapOk) :
    Machine.Spends Kernel.freeBlocks Fault.outOfMemory (1 + 2 * names.length)
      (PathParser.parse path) k fun root k' =>
        root.addr ≠ 0 ∧ ∃ parts, k'.pathRoots root.id = some ⟨0, parts⟩
          ∧ List.Forall₂ (NamedPart k') names parts := by
  obtain ⟨rest, hsplit, hread⟩ := h.reads
  have hdrop : path.drop 3 = rest := by rw [hsplit]; rfl
  have hrest : path.drop 3 ≠ [] := fun hnil =>
    h.ne_nil (hread.eq_nil (hdrop ▸ hnil))
  have hdrive : atoi (path.take 1) = 0 := by
    rw [hsplit]
    rfl
  refine (parse_spec h.not_rejected hrest (hdrop ▸ hread) hk).conseq ?_
  rintro root k' ⟨hroot, -, parts, hparts, hall⟩
  rw [hdrive] at hparts
  exact ⟨hroot, parts, hparts, hall⟩

/-- What `fopen` answers in a mode that is not to read. -/
def modeStatus (mode : FileMode) : ℤ :=
  if mode = FileMode.invalid then -einval else -erofs

/-! ## The end of `fopen`

What `fopen` does after the parser, as a function of the path that was
parsed. -/

/-- What `fopen` does with the private data that the file system has made. -/
def finishOpen (fs : FilesystemRef) (disk : DiskRef)
    (descriptorPrivateData : Ptr) : KernelM ℤ := do
  if descriptorPrivateData.isErr then
    return descriptorPrivateData.errorI
  match ← newFileDescriptor with
  | Except.error result => return result
  | Except.ok descriptor =>
    let desc ← deref Kernel.fileDescriptorStructs descriptor
    modify fun k => k.setFileDescriptor descriptor.id
      (some ⟨desc.index, fs, descriptorPrivateData, disk⟩)
    return desc.index

section Parsed

variable {path mode : List Byte} {k k₁ : Kernel} {root : Ptr}
  {parts : List PathPart}
  (hparse : PathParser.parse path k = Except.ok (root, k₁))
  (hroot : root.addr ≠ 0) (hparts : k₁.pathRoots root.id = some ⟨0, parts⟩)
  (hne : parts ≠ []) (hfs : k₁.disk.fs = FilesystemRef.fat16)

include hparse hroot hparts hne hfs

/-- **`fopen`** of a path that has been parsed, on a mounted volume. The disk
is there and so is its filesystem, so what is left to look at is the mode. -/
theorem fopen_parsed_mode : fopen path mode k
    = (if str2Filemode mode = FileMode.invalid then pure (-einval)
      else fat16Open DiskRef.primary parts (str2Filemode mode) >>=
        finishOpen FilesystemRef.fat16 DiskRef.primary) k₁ := by
  have hprimary : diskGet 0 = DiskRef.primary := rfl
  rw [fopen, Machine.bind_ok hparse, if_neg hroot,
    Machine.bind_ok (deref_ok hroot hparts), if_neg hne]
  simp only [hprimary]
  rw [if_neg (show DiskRef.primary ≠ DiskRef.null by decide),
    Machine.bind_ok (show derefDisk DiskRef.primary k₁
      = Except.ok (k₁.disk, k₁) from rfl),
    if_neg (show ¬ k₁.disk.fs = FilesystemRef.null by rw [hfs]; decide), hfs]
  split <;> rfl

/-- To read, it is opened. -/
theorem fopen_parsed (hmode : str2Filemode mode = FileMode.read) :
    fopen path mode k = (fat16Open DiskRef.primary parts FileMode.read >>=
      finishOpen FilesystemRef.fat16 DiskRef.primary) k₁ := by
  rw [fopen_parsed_mode hparse hroot hparts hne hfs, hmode, if_neg (by decide)]

/-- In any other mode it is turned away. -/
theorem fopen_parsed_of_mode (hmode : str2Filemode mode ≠ FileMode.read) :
    fopen path mode k = Except.ok (modeStatus (str2Filemode mode), k₁) := by
  rw [fopen_parsed_mode hparse hroot hparts hne hfs, modeStatus]
  by_cases hinvalid : str2Filemode mode = FileMode.invalid
  · rw [if_pos hinvalid, if_pos hinvalid]
    rfl
  · rw [if_neg hinvalid, if_neg hinvalid, Machine.bind_ok
      (show fat16Open DiskRef.primary parts (str2Filemode mode) k₁
        = Except.ok (Ptr.error (-erofs),
          k₁) by rw [fat16Open, if_pos hmode]; rfl)]
    rfl

end Parsed

/-! ## What is opened

From the item that was looked up to the slot of the descriptor. -/

/-- The type of the item of an entry. -/
def itemType (item : FatDirectoryItem) : FatItemType :=
  if item.attributeByte &&& fatFileSubdirectory = 0 then FatItemType.file
  else FatItemType.directory

/-- **A descriptor is open on an entry**, at its start: the slot leads to a
descriptor, that to private data, and that to the item of the entry. -/
def OpenOn (k : Kernel) (fd : ℤ) (item : FatDirectoryItem) : Prop :=
  ∃ o : OpenInfo, OpenFd k fd o 0 ∧ o.fatItem.type = itemType item
    ∧ o.directoryItem = item

/-- **What `fopen` returns** for what a path denotes. The three ways are that
there is nothing, that no slot is free, and that the file is open. -/
inductive OpenResult (k k' : Kernel) (r : ℤ) :
    Option FatDirectoryItem → Prop where
  /-- There is no entry. -/
  | missing : r = -eio → OpenResult k k' r none
  /-- No slot is free. -/
  | full {item : FatDirectoryItem} : freeSlot k.fileDescriptors = none →
      r = -enomem →
      OpenResult k k' r (some item)
  /-- The first free slot is open on the entry. -/
  | opened {item : FatDirectoryItem} {idx : ℕ} : freeSlot k.fileDescriptors
      = some idx → r = idx →
      OpenOn k' idx item → OpenResult k k' r (some item)

/-- The slots are all that is looked at of the first state. -/
theorem OpenResult.congr {k k₁ k' : Kernel} {r : ℤ}
    {found : Option FatDirectoryItem} (h : OpenResult k₁ k' r found)
    (hslots : k₁.fileDescriptors = k.fileDescriptors) :
    OpenResult k k' r found := by
  cases h with
  | missing hr => exact OpenResult.missing hr
  | full hslot hr => exact OpenResult.full (hslots ▸ hslot) hr
  | opened hslot hr hopen => exact OpenResult.opened (hslots ▸ hslot) hr hopen

/-- With a slot that is free, it is open on the entry. -/
theorem OpenResult.of_slot {k k' : Kernel} {r : ℤ} {item : FatDirectoryItem}
    {idx : ℕ} (h : OpenResult k k' r (some item))
    (hslot : freeSlot k.fileDescriptors = some idx) :
    r = idx ∧ OpenOn k' idx item := by
  cases h with
  | full hnone => exact absurd (hnone.symm.trans hslot) (nomatch ·)
  | opened hslot' hr hopen =>
    obtain rfl := Option.some.inj (hslot'.symm.trans hslot)
    exact ⟨hr, hopen⟩

section Open

variable {k k' : Kernel} {pd : FatPrivate} {items : List FatDirectoryItem}
  {names : List (List Byte)} {parts : List PathPart}
  {found : Option FatDirectoryItem} {p : Ptr} {path mode : List Byte}

/-- **What `fat16_open` leaves**: an error if nothing was found, or private
data that leads to the item of what was. Which of the two it is, `fopen` tells
from the sign of the address. -/
def OpenedData (sectors : ℤ → ℕ → Byte) (pd : FatPrivate)
    (k : Kernel) (p : Ptr) :
    Option FatDirectoryItem → Prop
  | none => p = Ptr.error (-eio)
  | some item =>
    ¬ p.isErr = true ∧ p.addr ≠ 0 ∧ ∃ q, IsItemOf sectors pd k q item
    ∧ k.fatItemDescriptors p.id = some ⟨q, 0⟩

/-- **`fat16_open`** looks up what the path denotes. Its private data is
allocated before the lookup; the item of what is found is put in it, and when
nothing is found it stays behind. -/
theorem fat16Open_denotes (hs : InService k pd items) (hbelow : k.HeapBelow)
    (hden : Denotes k.sectors pd items names found)
    (hparts : List.Forall₂ (NamedPart k) names parts)
    (hrun : fat16Open DiskRef.primary parts FileMode.read k
      = Except.ok (p, k')) :
    OpenedData k.sectors pd k' p found ∧ InService k' pd items
      ∧ k'.sectors = k.sectors
      ∧ k'.heap = k.heap ∧ k'.fileDescriptors = k.fileDescriptors := by
  rw [fat16Open, if_neg (not_not.mpr rfl)] at hrun
  obtain ⟨descriptor, k₁, halloc, h₁⟩ := Machine.bind_eq_ok.mp hrun
  rw [Machine.modify_bind] at h₁
  obtain ⟨item, k₂, hitem, h₂⟩ := Machine.bind_eq_ok.mp h₁
  rw [Machine.modify_bind] at h₂
  have hne := allocate_ne_null hs.mounted.heap halloc
  have herr := allocate_not_isErr hs.mounted.heap hbelow halloc (by decide)
  have hframe := VolumeFrame.allocate _ _ _ _ halloc
  have hs₁ :=
    (hs.volumeFrame hframe
      (hs.mounted.allocate halloc).heap).setFatItemDescriptor
    descriptor.id (some ⟨Ptr.null, 0⟩)
  have hparts₁ : List.Forall₂ (NamedPart (k₁.setFatItemDescriptor descriptor.id
      (some ⟨Ptr.null, 0⟩))) names parts := hparts.imp fun _ _ hpart =>
    have h := namedPart_volumeFrame hframe hpart
    ⟨h.ne_null, h.allocated, h.string⟩
  have hmade := getItem_denotes hs₁ (by
    show Denotes k₁.sectors pd items names found
    rw [hframe.sectors]
    exact hden) hparts₁ hitem
  have hframe₂ := VolumeFrame.stepFrame.getItem _ _ _ _ _ hitem
  have hgrows := Kernel.Grows.getItem _ _ _ _ _ hitem
  have hs₂ :=
    (hs₁.volumeFrame hframe₂
      (hgrows.heapOk hs₁.mounted.heap)).setFatItemDescriptor
    descriptor.id (some ⟨item, 0⟩)
  have hsectors : k₂.sectors = k.sectors := hframe₂.sectors.trans hframe.sectors
  have hkept : k₂.heap = k.heap ∧ k₂.fileDescriptors = k.fileDescriptors :=
    ⟨hframe₂.heap.trans hframe.heap,
      hframe₂.fileDescriptors.trans hframe.fileDescriptors⟩
  rw [show (k₁.setFatItemDescriptor descriptor.id (some ⟨Ptr.null, 0⟩)).sectors
    = k.sectors
    from hframe.sectors] at hmade
  cases found with
  | none =>
    rw [if_pos (show item.addr = 0 from hmade)] at h₂
    obtain ⟨rfl, rfl⟩ := Prod.mk.inj (Except.ok.inj h₂)
    exact ⟨rfl, hs₂, hsectors, hkept⟩
  | some entry =>
    rw [if_neg (IsItemOf.ne_null hmade)] at h₂
    obtain ⟨rfl, rfl⟩ := Prod.mk.inj (Except.ok.inj h₂)
    refine ⟨⟨herr, hne, item, ?_, Function.update_self _ _ _⟩, hs₂,
      hsectors, hkept⟩
    exact ⟨hmade.ne_null, hmade.file, hmade.directory, hmade.stored⟩

/-- Private data that is no error leads to the item of an entry. -/
theorem fat16Open_opens (hs : InService k pd items) {mode : FileMode}
    (hrun : fat16Open DiskRef.primary parts mode k = Except.ok (p, k'))
    (hp : ¬ p.isErr = true) :
    ∃ item, OpenedData k.sectors pd k' p (some item) := by
  obtain ⟨k₁, q, k₂, halloc, hitem, hq, rfl⟩ := fat16Open_eq_ok hrun hp
  have hframe := VolumeFrame.allocate _ _ _ _ halloc
  have hs₁ :=
    (hs.volumeFrame hframe
      (hs.mounted.allocate halloc).heap).setFatItemDescriptor p.id
    (some ⟨Ptr.null, 0⟩)
  obtain ⟨found, hmade⟩ := getItem_isItemOf hs₁ hitem
  rw [show (k₁.setFatItemDescriptor p.id (some ⟨Ptr.null, 0⟩)).sectors
    = k.sectors
    from hframe.sectors] at hmade
  cases found with
  | none => exact absurd hmade hq
  | some item =>
    exact ⟨item, hp, allocate_ne_null hs.mounted.heap halloc, q,
      ⟨hmade.ne_null, hmade.file, hmade.directory, hmade.stored⟩,
      Function.update_self _ _ _⟩

/-- **A slot with such private data** is a descriptor open on the entry, at its
start. -/
theorem OpenedData.openFd {sectors : ℤ → ℕ → Byte} {item : FatDirectoryItem}
    (h : OpenedData sectors pd k p (some item)) {idx : ℕ}
    (hlt : idx < fsMaxFileDescriptors) {descriptor : Ptr}
    (hptr : descriptor.addr ≠ 0) (hslot : k'.fileDescriptors idx = descriptor)
    (hstruct : k'.fileDescriptorStructs descriptor.id
      = some ⟨idx, FilesystemRef.fat16, p, DiskRef.primary⟩)
    (hdescriptors : k'.fatItemDescriptors = k.fatItemDescriptors)
    (hitems : k'.fatItems = k.fatItems)
    (harrays : k'.itemArrays = k.itemArrays) :
    ∃ q fatItem, k.fatItemDescriptors p.id = some ⟨q, 0⟩
      ∧ fatItem.type = itemType item
      ∧ OpenFd k' idx ⟨p, q, fatItem, item⟩ 0 := by
  obtain ⟨-, hne, q, hitem, hdescriptor⟩ := h
  have hmade : ∃ entry, k.fatItems q.id = some ⟨entry, itemType item⟩
      ∧ (itemType item = FatItemType.file → entry.addr ≠ 0
        ∧ k.itemArrays entry.id = some [item]) := by
    by_cases hfile : item.attributeByte &&& fatFileSubdirectory = 0
    · obtain ⟨entry, hfat, hentry, harray⟩ := hitem.file hfile
      rw [itemType, if_pos hfile]
      exact ⟨entry, hfat, fun _ => ⟨hentry, harray⟩⟩
    · obtain ⟨entry, hfat⟩ := hitem.directory hfile
      rw [itemType, if_neg hfile]
      exact ⟨entry, hfat, (nomatch ·)⟩
  obtain ⟨entry, hfat, hentry⟩ := hmade
  have hself : k'.fileDescriptors ((idx : ℤ).toNat) = descriptor := hslot
  refine ⟨q, ⟨entry, itemType item⟩, hdescriptor, rfl, ?_⟩
  exact {
    nonneg := Int.natCast_nonneg _
    lt := by exact_mod_cast hlt
    slot := by
      rw [hself]
      exact hptr
    struct := ⟨idx, by
      rw [hself]
      exact hstruct⟩
    privateData_ne_null := hne
    descriptor := by
      rw [hdescriptors]
      exact hdescriptor
    item_ne_null := hitem.ne_null
    item := by
      rw [hitems]
      exact hfat
    entry := fun hfile => by
      rw [harrays]
      exact ⟨(hentry hfile).1, [], (hentry hfile).2⟩ }

/-- **The end of `fopen`** puts the private data in the first slot that is
free. With no slot free the private data is not given back, but that is nothing
that the volume or a descriptor sees. -/
theorem finishOpen_spec (hs : InService k pd items)
    (hdata : OpenedData k.sectors pd k p found) {r : ℤ}
    (hrun : finishOpen FilesystemRef.fat16 DiskRef.primary p k
      = Except.ok (r, k')) :
    InService k' pd items ∧ k'.sectors = k.sectors
      ∧ OpenResult k k' r found := by
  rw [finishOpen] at hrun
  cases found with
  | none =>
    obtain rfl : p = Ptr.error (-eio) := hdata
    rw [if_pos (by decide)] at hrun
    obtain ⟨rfl, rfl⟩ := Prod.mk.inj (Except.ok.inj hrun)
    exact ⟨hs, rfl, OpenResult.missing (by decide)⟩
  | some item =>
    rw [if_neg hdata.1] at hrun
    obtain ⟨result, k₁, hnew, h₁⟩ := Machine.bind_eq_ok.mp hrun
    cases hslot : freeSlot k.fileDescriptors with
    | none =>
      rw [newFileDescriptor, Machine.get_bind, hslot] at hnew
      obtain ⟨rfl, rfl⟩ := Prod.mk.inj (Except.ok.inj hnew)
      obtain ⟨rfl, rfl⟩ := Prod.mk.inj (Except.ok.inj h₁)
      exact ⟨hs, rfl, OpenResult.full hslot rfl⟩
    | some idx =>
      rw [newFileDescriptor, Machine.get_bind, hslot] at hnew
      obtain ⟨descriptor, k₂, halloc, h₂⟩ := Machine.bind_eq_ok.mp hnew
      have hframe := VolumeFrame.allocate _ _ _ _ halloc
      have hs₂ := hs.volumeFrame hframe (hs.mounted.allocate halloc).heap
      have hptr := allocate_ne_null hs.mounted.heap halloc
      obtain ⟨m, -, -, rfl⟩ := allocate_run halloc
      rw [Machine.modify_bind, Machine.modify_bind] at h₂
      obtain ⟨rfl, rfl⟩ := Prod.mk.inj (Except.ok.inj h₂)
      -- the structure read back is the one just stored
      simp only at h₁
      rw [Machine.bind_ok (deref_ok hptr (Function.update_self _ _ _)),
        Machine.modify_bind] at h₁
      obtain ⟨rfl, hk'⟩ := Prod.mk.inj (Except.ok.inj h₁)
      obtain ⟨q, fatItem, -, htype, hopen⟩ :=
        hdata.openFd (freeSlot_spec hslot).1 hptr
        (show k'.fileDescriptors idx
          = descriptor by rw [← hk']; exact Function.update_self _ _ _)
        (by rw [← hk']; exact Function.update_self _ _ _)
        (by rw [← hk']; rfl) (by rw [← hk']; rfl) (by rw [← hk']; rfl)
      exact ⟨hs₂.of_eq (by rw [← hk']; rfl), by rw [← hk']; rfl,
        OpenResult.opened hslot rfl ⟨_, hopen, htype, rfl⟩⟩

/-- **A run of `fopen`** on a path of names parses it first. The parts have the
names of the path, and the volume is in service as before, with the strings
that it needs in their place. -/
theorem PathOf.parse_of_fopen (h : PathOf path names)
    (hs : InService k pd items) {r : ℤ}
    (hrun : fopen path mode k = Except.ok (r, k')) :
    ∃ root k₁ parts, PathParser.parse path k = Except.ok (root, k₁)
      ∧ root.addr ≠ 0
      ∧ k₁.pathRoots root.id = some ⟨0, parts⟩ ∧ parts ≠ []
      ∧ List.Forall₂ (NamedPart k₁) names parts ∧ VolumeFrame k k₁
      ∧ InService k₁ pd items := by
  obtain ⟨root, k₁, hparse, -⟩ := Machine.bind_eq_ok.mp hrun
  obtain ⟨hroot, parts, hparts, hall⟩ :=
    ((h.parse hs.mounted.heap).of_ok hparse).2
  have hframe := VolumeFrame.parse _ _ _ _ hparse
  obtain ⟨hwf, es, hinv⟩ := hs.mounted.heap
  obtain ⟨new, hholds⟩ := parse_holds hparse ⟨hwf, hinv⟩
  refine ⟨root, k₁, parts, hparse, hroot, hparts, ?_, hall, hframe,
    hs.volumeFrame hframe hholds.heapOk⟩
  rintro rfl
  exact h.ne_nil (List.forall₂_nil_right_iff.mp hall)

/-- **In a mode that is not to read**, a path of names is turned away, with one
of two errors: a mode that there is not, or one that would write. -/
theorem fopen_mode (hs : InService k pd items) (hpath : PathOf path names)
    (hmode : str2Filemode mode ≠ FileMode.read) {r : ℤ}
    (hrun : fopen path mode k = Except.ok (r, k')) :
    r = modeStatus (str2Filemode mode) := by
  obtain ⟨root, k₁, parts, hparse, hroot, hparts, hne, -, -, hs₁⟩ :=
    hpath.parse_of_fopen hs hrun
  rw [fopen_parsed_of_mode hparse hroot hparts hne hs₁.mounted.fs hmode] at hrun
  exact (Prod.mk.inj (Except.ok.inj hrun)).1.symm

/-- **`fopen` opens what the path denotes.** On a volume in service, for every
path of names, of any depth, whose directories are stored on the disk so that
they can be loaded: every run that returns gives `-EIO` if the path denotes no
entry; otherwise `-ENOMEM` if no slot is free, and the first free slot if one
is, which is then a descriptor open at the start of the entry that the path
denotes. The volume is in service as before. -/
theorem fopen_denotes (hs : InService k pd items) (hbelow : k.HeapBelow)
    (hpath : PathOf path names) (hden : Denotes k.sectors pd items names found)
    (hmode : str2Filemode mode = FileMode.read) {r : ℤ}
    (hrun : fopen path mode k = Except.ok (r, k')) :
    InService k' pd items ∧ k'.sectors = k.sectors
      ∧ OpenResult k k' r found := by
  obtain ⟨root, k₁, parts, hparse, hroot, hparts, hne, hall, hframe, hs₁⟩ :=
    hpath.parse_of_fopen hs hrun
  rw [fopen_parsed hparse hroot hparts hne hs₁.mounted.fs hmode] at hrun
  obtain ⟨p, k₂, hopen, hfinish⟩ := Machine.bind_eq_ok.mp hrun
  have hbelow₁ : k₁.HeapBelow := by
    unfold Kernel.HeapBelow
    rw [hframe.heap]
    exact hbelow
  rw [← hframe.sectors] at hden
  obtain ⟨hdata, hs₂, hsectors, -, hslots⟩ :=
    fat16Open_denotes hs₁ hbelow₁ hden hall hopen
  rw [← hsectors] at hdata
  obtain ⟨hs', hsectors', hresult⟩ := finishOpen_spec hs₂ hdata hfinish
  have hslots₁ : k₂.fileDescriptors = k.fileDescriptors :=
    hslots.trans hframe.fileDescriptors
  exact ⟨hs', (hsectors'.trans hsectors).trans hframe.sectors,
    hresult.congr hslots₁⟩

/-! ## A path of one name

The same run forwards: the blocks that it takes are counted, so that it is
known to return. -/

/-- **An item for a file** takes two blocks: one for the item, and one for the
copy of its entry. -/
theorem newItem_file_spends (hk : k.HeapOk) {item : FatDirectoryItem}
    (hfile : item.attributeByte &&& fatFileSubdirectory = 0) :
    Machine.Spends Kernel.freeBlocks Fault.outOfMemory 2
      (newItem DiskRef.primary item) k
      fun p k' => p.addr ≠ 0 ∧ k'.HeapOk ∧ k'.heap = k.heap := by
  rw [newItem]
  refine Machine.Spends.bind (n := 1) (m := 1) (allocate_one hk (by decide)) ?_
  rintro p k₁ ⟨-, hp, hk₁, m, rfl⟩
  refine Machine.Spends.modify_bind rfl ?_
  rw [if_neg (not_not.mpr hfile)]
  refine Machine.Spends.bind (n := 1) (m := 0)
    (Q := fun _ k' => k'.HeapOk ∧ k'.heap = k.heap) ?_ ?_
  · refine Machine.Spends.bind (n := 1) (m := 0)
      (allocate_one (by exact hk₁) (by decide)) ?_
    rintro copy k₂ ⟨-, -, hk₂, m', rfl⟩
    exact Machine.Spends.modify_bind rfl (Machine.Spends.pure ⟨hk₂, rfl⟩)
  · rintro copy k₂ ⟨hk₂, hheap⟩
    exact Machine.Spends.modify_bind rfl (Machine.Spends.pure ⟨hp, hk₂, hheap⟩)

/-- **A lookup of one name in the root directory** returns: it takes two blocks
for a file, and none if there is nothing. -/
theorem getItem_one_returns (hs : InService k pd items) {name : List Byte}
    {part : PathPart} (hpart : NamedPart k name part)
    (hfinds : Finds items name found)
    (hfile : ∀ item ∈ found, item.attributeByte &&& fatFileSubdirectory = 0)
    (hroom : 2 ≤ k.freeBlocks) :
    ∃ p k', getItem DiskRef.primary [part] k = Except.ok (p, k') ∧ k'.HeapOk
      ∧ k'.heap = k.heap ∧ k.freeBlocks ≤ k'.freeBlocks + 2 := by
  rw [getItem, getItemWith, Machine.bind_ok (privateData_ok hs.mounted)]
  have hlookup := hfinds.lookup hs.directoryItems (requestedName_of_named hpart)
    DiskRef.primary
  cases found with
  | none =>
    rw [Machine.bind_ok (hlookup.trans rfl),
      if_pos (show Ptr.null.addr = 0 from rfl)]
    exact ⟨Ptr.null, k, rfl, hs.mounted.heap, rfl, by omega⟩
  | some item =>
    obtain ⟨p, k', hok, hspent, hp, hk', hheap⟩ :=
      (newItem_file_spends hs.mounted.heap (hfile item rfl)).returns hroom
    rw [Machine.bind_ok (hlookup.trans hok), if_neg hp]
    exact ⟨p, k', rfl, hk', hheap, by omega⟩

/-- `new_file_descriptor`, and what `fopen` does after it, take a block at
most. -/
theorem finishOpen_returns (hk : k.HeapOk) (fs : FilesystemRef) (disk : DiskRef)
    (p : Ptr) (hroom : 1 ≤ k.freeBlocks) :
    ∃ r k', finishOpen fs disk p k = Except.ok (r, k')
      ∧ k.freeBlocks ≤ k'.freeBlocks + 1 := by
  rw [finishOpen]
  by_cases herr : p.isErr = true
  · rw [if_pos herr]
    exact ⟨p.errorI, k, rfl, by omega⟩
  rw [if_neg herr]
  cases hslot : freeSlot k.fileDescriptors with
  | none =>
    have hnew : newFileDescriptor k
        = Except.ok (Except.error (-enomem), k) := by
      rw [newFileDescriptor, Machine.get_bind, hslot]
      rfl
    rw [Machine.bind_ok hnew]
    exact ⟨-enomem, k, rfl, by omega⟩
  | some idx =>
    obtain ⟨descriptor, k₁, halloc, hspent, -, hp, -⟩ :=
      (allocate_one hk (show (16 : Word).toNat < 4096 by decide)).returns hroom
    obtain ⟨k₂, hnew, hdesc, hspent₂⟩ : ∃ k₂,
        newFileDescriptor k = Except.ok (Except.ok descriptor, k₂)
          ∧ k₂.fileDescriptorStructs descriptor.id
            = some ⟨idx, FilesystemRef.null, Ptr.null, DiskRef.null⟩
          ∧ k₂.freeBlocks = k₁.freeBlocks := by
      rw [newFileDescriptor, Machine.get_bind, hslot]
      exact ⟨_, Machine.bind_ok halloc, Function.update_self _ _ _, rfl⟩
    rw [Machine.bind_ok hnew]
    simp only
    rw [Machine.bind_ok (deref_ok hp hdesc), Machine.modify_bind]
    refine ⟨idx, _, rfl, ?_⟩
    show k.freeBlocks ≤ k₂.freeBlocks + 1
    omega

/-- **`fopen` of one name returns**, if there are seven free blocks: three for
the path, three for the item and what points to it, and one for the
descriptor. -/
theorem fopen_returns (hs : InService k pd items) {name : List Byte}
    (hpath : PathOf path [name]) (hfinds : Finds items name found)
    (hfile : ∀ item ∈ found, item.attributeByte &&& fatFileSubdirectory = 0)
    (hmode : str2Filemode mode = FileMode.read) (hroom : 7 ≤ k.freeBlocks) :
    ∃ r k', fopen path mode k = Except.ok (r, k')
      ∧ k.freeBlocks ≤ k'.freeBlocks + 7 := by
  obtain ⟨root, k₁, hparse, hspent, hroot, parts, hparts, hall⟩ :=
    (hpath.parse hs.mounted.heap).returns (show 3 ≤ k.freeBlocks by omega)
  obtain ⟨part, parts, hpart, hnil, rfl⟩ := List.forall₂_cons_left_iff.mp hall
  obtain rfl := List.forall₂_nil_left_iff.mp hnil
  have hframe := VolumeFrame.parse _ _ _ _ hparse
  obtain ⟨hwf, es, hinv⟩ := hs.mounted.heap
  obtain ⟨new, hholds⟩ := parse_holds hparse ⟨hwf, hinv⟩
  have hs₁ := hs.volumeFrame hframe hholds.heapOk
  rw [fopen_parsed hparse hroot hparts (List.cons_ne_nil _ _) hs₁.mounted.fs
    hmode]
  -- `fat16_open`
  have hspent : k₁.freeBlocks + 3 = k.freeBlocks := hspent
  obtain ⟨descriptor, k₂, halloc, hspent₂, -, -, hk₂, -⟩ :=
    (allocate_one hs₁.mounted.heap
      (show (8 : Word).toNat < 4096 by decide)).returns (by omega)
  have hframe₂ := VolumeFrame.allocate _ _ _ _ halloc
  have hs₂ := (hs₁.volumeFrame hframe₂ hk₂).setFatItemDescriptor descriptor.id
    (some ⟨Ptr.null, 0⟩)
  have hpart₂ := namedPart_volumeFrame hframe₂ hpart
  obtain ⟨item, k₃, hitem, hk₃, -, hspent₃⟩ := getItem_one_returns hs₂
    ⟨hpart₂.ne_null, hpart₂.allocated, hpart₂.string⟩ hfinds hfile
    (show 2 ≤ k₂.freeBlocks by omega)
  have hspent₃ : k₂.freeBlocks ≤ k₃.freeBlocks + 2 := hspent₃
  obtain ⟨p, hopen⟩ : ∃ p, fat16Open DiskRef.primary [part] FileMode.read k₁
      = Except.ok (p,
        k₃.setFatItemDescriptor descriptor.id (some ⟨item, 0⟩)) := by
    rw [fat16Open, if_neg (not_not.mpr rfl), Machine.bind_ok halloc,
      Machine.modify_bind, Machine.bind_ok hitem, Machine.modify_bind]
    split
    · exact ⟨_, rfl⟩
    · exact ⟨_, rfl⟩
  rw [Machine.bind_ok hopen]
  obtain ⟨r, k', hfinish, hspent'⟩ := finishOpen_returns
    (show (k₃.setFatItemDescriptor descriptor.id (some ⟨item, 0⟩)).HeapOk from
      hk₃)
    FilesystemRef.fat16 DiskRef.primary p (show 1 ≤ k₃.freeBlocks by omega)
  have hspent' : k₃.freeBlocks ≤ k'.freeBlocks + 1 := hspent'
  exact ⟨r, k', hfinish, by omega⟩

end Open

end File

end N00bOS
