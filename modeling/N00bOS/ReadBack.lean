import N00bOS.Mounting

/-!
# A file, from the disk to the caller

The whole way of a file: the disk is mounted, the file is opened by its path,
and what a caller reads are the bytes that its chain of clusters holds
(`mounted_file_reads_back`). All that is assumed is about the disk (`RootFile`)
and the room on the heap.

`fat16_read` does not go on into the next cluster, and it does not move the
position. So the caller here seeks before each read, and asks for a part of the
file that lies in one cluster (`InCluster`); any part can be asked for so, and
any number of times.

The proof is in three parts, one for each call. Mounting leaves the volume of
the disk in service (`fat16Resolve_serves`); on that, `fopen` opens the entry
that the name finds (`fopen_denotes`), which is the entry of a file whose chain
is on the disk (`StoredFile.regularFile`); and of such a descriptor every part
is read, one after the other, since reading changes nothing of what the next
one looks at (`RegularFile.readParts_spec`). That each call returns is a matter
of free blocks, and these are counted.
-/

namespace N00bOS

open KernelM Listing Fat16

namespace File

/-! ## Reading a part

One `fread` at a position of a file: what it returns, and that the file is as
before. -/

/-- A part of a file that lies in one of its clusters: where it starts, and how
long it is. -/
structure InCluster (size clusterBytes first count : ℕ) : Prop where
  pos : 0 < count
  inside : first + count ≤ size
  cluster : first % clusterBytes + count ≤ clusterBytes

/-- **What a read answers**: its bytes are those of some content from a position
on, as far as they lie in the cluster of that position, and nothing is written
after them. -/
structure ReadsBytes (content : ℕ → Byte) (clusterBytes first count : ℕ)
    (data out : Output Byte) : Prop where
  bytes : ∀ i, i < count → first % clusterBytes + i < clusterBytes →
    out i = Fetched.sector (content (first + i))
  after : ∀ i, count ≤ i → out i = data i

/-- A read of some bytes asks for blocks of some size. -/
theorem ne_zero_of_bytes {blockSize numBlocks : Word}
    (h : 0 < blockSize.toNat * numBlocks.toNat) :
    blockSize ≠ 0 ∧ numBlocks ≠ 0 := by
  constructor
  · rintro rfl
    exact absurd (Nat.pos_of_mul_pos_right h) (by decide)
  · rintro rfl
    exact absurd (Nat.pos_of_mul_pos_left h) (by decide)

namespace RegularFile

variable {k k' : Kernel} {pd : FatPrivate} {fd : ℤ} {o : OpenInfo} {pos : Word}
  {len : ℕ} {c : ℕ → ℤ}

/-- A quiet change leaves the file as it is. -/
theorem quiet (h : RegularFile k pd fd o pos len c) (hq : Quiet k k') :
    RegularFile k' pd fd o pos len c where
  mounted := h.mounted.quiet hq
  cluster_ne_zero := h.cluster_ne_zero
  openFd := h.openFd.quiet hq
  file := h.file
  chain := by
    rw [hq.eq]
    exact h.chain
  long := h.long
  small := h.small
  root_nonneg := h.root_nonneg
  below := h.below

/-- A seek moves the position. -/
theorem setPos (h : RegularFile k pd fd o pos len c) (pos' : Word) :
    RegularFile (k.setFatItemDescriptor o.privateData.id (some ⟨o.item, pos'⟩))
      pd fd o pos' len c :=
  { h with
    mounted := h.mounted.setFatItemDescriptor _ _, openFd :=
      h.openFd.setPos pos' }

/-- A byte of the file is where the cluster of an earlier one puts it. -/
theorem diskAt_filePos_add (h : RegularFile k pd fd o pos len c) {i : ℕ}
    (hin : pos.toNat % clusterSize pd + i < clusterSize pd)
    (hend : pos.toNat + i < o.directoryItem.filesize.toNat) :
    diskAt k.sectors (wrap32 (filePos pd c pos.toNat + i))
      = fileByte k.sectors pd c (pos.toNat + i) := by
  have hbelow := h.below _ (h.div_lt hend)
  have hadd := RegularFile.filePos_add pd c hin
  have hmod := Nat.mod_lt (pos.toNat + i) (show 0 < clusterSize pd by omega)
  have hlast : filePos pd c (pos.toNat + i) < 2 ^ 31 := by
    rw [← RegularFile.clusterSize_cast] at hbelow
    rw [filePos]
    omega
  obtain ⟨-, hnn, -⟩ := h.readPos_eq (show pos.toNat < _ by omega)
  rw [fileByte, ← hadd, wrap32_of_isInt32 (by unfold IsInt32; omega)]

/-- **A read inside the file** returns its bytes, as far as they lie in the
cluster of the position. -/
theorem fread_inFile (h : RegularFile k pd fd o pos len c)
    {blockSize numBlocks : Word} {count : ℕ}
    (hn : blockSize.toNat * numBlocks.toNat = count) (hpos : 0 < count)
    (hend : pos.toNat + count ≤ o.directoryItem.filesize.toNat)
    (data : Output Byte) :
    ∃ out k', Quiet k k'
      ∧ fread k.sectors data blockSize numBlocks fd k = Except.ok ((0, out), k')
      ∧ ReadsBytes (fileByte k.sectors pd c) (clusterSize pd) pos.toNat count
        data out := by
  obtain ⟨hbs, hnb⟩ := ne_zero_of_bytes (hn ▸ hpos)
  obtain ⟨k', hq, hread⟩ := fread_spec k.sectors h.mounted
    (show clusterSizeBytes pd ≠ 0 from h.clusterSizeBytes_pos.ne')
      h.openFd blockSize
    numBlocks data
  obtain ⟨k₁, hbytes⟩ := h.read hn hpos hend data
  rw [← h.openFd.fread_eq k.sectors hbs hnb, hread] at hbytes
  obtain ⟨hresult, -⟩ := Prod.mk.inj (Except.ok.inj hbytes)
  rw [hresult] at hread
  refine ⟨_, k', hq, hread, fun i hi hin => ?_, fun i hi => if_neg (by omega)⟩
  rw [if_pos (by omega), h.diskAt_filePos_add hin (by omega)]

end RegularFile

/-! ## Reading part after part

The induction over the parts, with the descriptor as what stays. -/

/-- A caller that seeks and reads, part after part: the two results, and what
was read. -/
def readParts (fd : ℤ) : List (ℕ × ℕ) → KernelM (List (ℤ × ℤ × Output Byte))
  | [] => return []
  | (first, count) :: rest => do
    let sought ← fseek fd first seekSet
    let k ← get
    let (result, data) ← fread k.sectors zeroOutput 1 (BitVec.ofNat 32 count) fd
    let more ← readParts fd rest
    return (sought, result, data) :: more

/-- A reply with the bytes of a part. -/
def PartOf (content : ℕ → Byte) (part : ℕ × ℕ)
    (reply : ℤ × ℤ × Output Byte) : Prop :=
  reply.1 = 0 ∧ reply.2.1 = 0
    ∧ ∀ i, i < part.2 → reply.2.2 i = Fetched.sector (content (part.1 + i))

/-- **Part after part is read**, each with its bytes of the file. The seek
before each read is what makes the parts independent of one another; the
invariant is the descriptor, at some position. -/
theorem RegularFile.readParts_spec {pd : FatPrivate} {fd : ℤ} {o : OpenInfo}
    {len : ℕ} {c : ℕ → ℤ} {sectors : ℤ → ℕ → Byte} (parts : List (ℕ × ℕ))
    {k : Kernel} {pos : Word} (h : RegularFile k pd fd o pos len c)
    (hsectors : k.sectors = sectors)
    (hparts : ∀ part ∈ parts,
      InCluster o.directoryItem.filesize.toNat (clusterSize pd) part.1 part.2) :
    ∃ replies k', readParts fd parts k = Except.ok (replies, k')
      ∧ List.Forall₂ (PartOf (fileByte sectors pd c)) parts replies := by
  induction parts generalizing k pos with
  | nil => exact ⟨[], k, rfl, List.Forall₂.nil⟩
  | cons part parts ih =>
    obtain ⟨first, count⟩ := part
    obtain ⟨hpart, hrest⟩ := List.forall_mem_cons.mp hparts
    have hsmall := h.small
    have hinside := hpart.inside
    have hseek := fseek_spec h.openFd first seekSet
    have hfirst : (BitVec.ofInt 32 first).toNat = first := by
      rw [BitVec.ofInt_natCast, BitVec.toNat_ofNat, Nat.mod_eq_of_lt]
      have := hpart.pos
      omega
    have hpos : seekPos o.fatItem.type seekSet first pos
        = BitVec.ofInt 32 first := by
      rw [seekPos, if_pos h.file, if_pos rfl]
    have hzero : seekStatus o.fatItem.type seekSet = 0 :=
      if_pos ⟨h.file, Or.inl rfl⟩
    rw [hpos, hzero] at hseek
    have h₁ := h.setPos (BitVec.ofInt 32 first)
    have hcount : (1 : Word).toNat * (BitVec.ofNat 32 count).toNat = count := by
      rw [BitVec.toNat_ofNat, Nat.mod_eq_of_lt (by omega)]
      exact Nat.one_mul _
    have hend : (BitVec.ofInt 32 first).toNat + count
        ≤ o.directoryItem.filesize.toNat := by
      rw [hfirst]
      exact hinside
    obtain ⟨out, k₂, hq, hread, hbytes⟩ :=
      h₁.fread_inFile hcount hpart.pos hend zeroOutput
    obtain ⟨replies, k', hmore, hall⟩ := ih (h₁.quiet hq)
      (by rw [hq.eq]; exact hsectors) hrest
    refine ⟨(0, 0, out) :: replies, k', ?_,
      List.Forall₂.cons ⟨rfl, rfl, fun i hi => ?_⟩ hall⟩
    · rw [readParts, Machine.bind_ok hseek, Machine.get_bind,
        Machine.bind_ok hread]
      exact Machine.bind_ok hmore
    · have hcluster : first % clusterSize pd + count ≤ clusterSize pd :=
        hpart.cluster
      have hi : i < count := hi
      have hbyte := hbytes.bytes i hi (by rw [hfirst]; omega)
      rw [hfirst] at hbyte
      exact hbyte.trans (congrArg
        (fun s => Fetched.sector (fileByte s pd c (first + i))) hsectors)

/-! ## A file on the disk

What a disk must have on it, without a kernel. -/

/-- **A file that is stored on the disk**: its chain of clusters is long enough
for it, and lies below `2 ^ 31`. -/
structure StoredFile (sectors : ℤ → ℕ → Byte) (pd : FatPrivate)
    (item : FatDirectoryItem) (len : ℕ) (c : ℕ → ℤ) : Prop where
  file : item.attributeByte &&& fatFileSubdirectory = 0
  chain : FatChain (fatEntry sectors pd) (getFirstCluster item).toInt len c
  long : item.filesize.toNat ≤ len * clusterSize pd
  small : item.filesize.toNat < 2 ^ 31
  below : ∀ j, j < len → clusterPos pd (c j) + clusterSizeBytes pd ≤ 2 ^ 31

/-- How many items the root directory has, and which streams there are, does not
matter. -/
theorem StoredFile.withStreams {sectors : ℤ → ℕ → Byte}
    {item : FatDirectoryItem} {len : ℕ} {c : ℕ → ℤ}
    (h : StoredFile sectors (volumeOf sectors 0) item len c) (total : ℕ)
    (cluster fat directory : Ptr) :
    StoredFile sectors (FatPrivate.withStreams (volumeOf sectors total) cluster
      fat directory) item
      len c :=
  ⟨h.file, h.chain, h.long, h.small, h.below⟩

/-- A descriptor that is open on such a file is one of a regular file. -/
theorem StoredFile.regularFile {k : Kernel} {sectors : ℤ → ℕ → Byte}
    {pd : FatPrivate} {items : List FatDirectoryItem} {item : FatDirectoryItem}
    {len : ℕ} {c : ℕ → ℤ} (h : StoredFile sectors pd item len c)
    (hsectors : k.sectors = sectors) (hs : InService k pd items) {fd : ℤ}
    {o : OpenInfo} {pos : Word} (hopen : OpenFd k fd o pos)
    (htype : o.fatItem.type = itemType item) (hitem : o.directoryItem = item) :
    RegularFile k pd fd o pos len c where
  mounted := hs.mounted
  cluster_ne_zero := hs.cluster_ne_zero
  openFd := hopen
  file := by rw [htype, itemType, if_pos h.file]
  chain := by
    rw [firstCluster, hitem, hsectors]
    exact h.chain
  long := by
    rw [hitem]
    exact h.long
  small := by
    rw [hitem]
    exact h.small
  root_nonneg := hs.root_nonneg
  below := h.below

/-- **A file in the root directory of a disk**, by its name: the disk has the
signature and clusters with sectors, its root directory ends and has at most
`quietItems` live entries, and the name finds the entry of a file that is
stored on the disk. That it finds this entry says that no entry before it is
mistaken for it. -/
structure RootFile (sectors : ℤ → ℕ → Byte) (entries : List FatDirectoryItem)
    (name : List Byte) (item : FatDirectoryItem) (len : ℕ)
    (c : ℕ → ℤ) : Prop where
  signature : (fatHeaderOf (sectors 0)).signature = fat16Signature
  cluster_ne_zero : (fatHeaderOf (sectors 0)).sectorsPerCluster ≠ 0
  listing : Entries IsFree (scanned sectors (rootStart sectors)) entries
  low : (liveItems entries).length ≤ quietItems
  finds : Finds (liveItems entries) name (some item)
  stored : StoredFile sectors (volumeOf sectors 0) item len c

/-- **Byte `t` of the file**, as its chain of clusters has it on the disk. The
volume is the one that sector `0` describes, so this is said of sectors only.
-/
def contentByte (sectors : ℤ → ℕ → Byte) (c : ℕ → ℤ) (t : ℕ) : Byte :=
  fileByte sectors (volumeOf sectors 0) c t

/-- A descriptor that is open on the file is one of a regular file. -/
theorem RootFile.regularFile {k k₁ k₂ : Kernel} {pd : FatPrivate}
    {entries : List FatDirectoryItem} {name : List Byte}
    {item : FatDirectoryItem} {len : ℕ} {c : ℕ → ℤ} {idx : ℕ}
    (h : RootFile k.sectors entries name item len c)
    (hdisk : ServesDisk k k₁ pd entries)
    (hs : InService k₂ pd (liveItems entries))
    (hsectors : k₂.sectors = k.sectors) (hopen : OpenOn k₂ idx item) :
    ∃ o, o.directoryItem = item ∧ RegularFile k₂ pd idx o 0 len c := by
  obtain ⟨o, hfd, htype, hitem⟩ := hopen
  obtain ⟨cluster, fat, directory, rfl⟩ := hdisk.volume
  exact ⟨o, hitem, (h.stored.withStreams _ cluster fat directory).regularFile
    hsectors hs hfd htype
    hitem⟩

/-- **A file reads back**, from the disk. For every disk with a file in its
root directory, and every heap in use below `2 ^ 31` with eleven free blocks
and one for each entry of the root directory: mounting the disk returns `0`;
opening the path of the file then returns the first free slot; and every list
of parts of the file that lie in one cluster each is then read, with the bytes
that the chain of clusters holds on the disk. The parts may be in any order and
may overlap. -/
theorem mounted_file_reads_back {k : Kernel} (hk : k.HeapOk)
    (hbelow : k.HeapBelow) {idx : ℕ}
    (hslot : freeSlot k.fileDescriptors = some idx)
    {entries : List FatDirectoryItem} {name : List Byte}
    {item : FatDirectoryItem} {len : ℕ} {c : ℕ → ℤ}
    (hfile : RootFile k.sectors entries name item len c)
    (hroom : (liveItems entries).length + 11 ≤ k.freeBlocks)
    {path mode : List Byte} (hpath : PathOf path [name])
    (hmode : str2Filemode mode = FileMode.read) {parts : List (ℕ × ℕ)}
    (hparts : ∀ part ∈ parts,
      InCluster item.filesize.toNat (clusterSize (volumeOf k.sectors 0))
        part.1 part.2) :
    ∃ k₁ k₂ k₃ replies, fat16Resolve DiskRef.primary k = Except.ok (0, k₁)
      ∧ fopen path mode k₁ = Except.ok ((idx : ℤ), k₂)
      ∧ readParts idx parts k₂ = Except.ok (replies, k₃)
      ∧ List.Forall₂ (PartOf (contentByte k.sectors c)) parts replies := by
  -- mounting
  obtain ⟨k₁, hmount⟩ := fat16Resolve_returns hk (by omega)
    (show (volumeOf k.sectors 0).header = fatHeaderOf (k.sectors 0) from rfl)
      hfile.signature
    hfile.listing (spareTable_of_quiet hk.1 hfile.low)
  obtain ⟨pd, hdisk⟩ := fat16Resolve_serves hk (by omega) hfile.cluster_ne_zero
    hfile.listing
    hfile.low hmount
  have hspent := hdisk.spent
  -- opening
  obtain ⟨r, k₂, hopen, hspent₂⟩ :=
    fopen_returns hdisk.service hpath hfile.finds
    (fun item' hitem' => by
      obtain rfl := Option.some.inj hitem'
      exact hfile.stored.file) hmode (show 7 ≤ k₁.freeBlocks by omega)
  have hbelow₁ : k₁.HeapBelow := by
    unfold Kernel.HeapBelow
    rw [hdisk.heap]
    exact hbelow
  obtain ⟨hs₂, hsectors₂, hresult⟩ := fopen_denotes hdisk.service hbelow₁ hpath
    (Denotes.last hfile.finds) hmode hopen
  have hslot₁ : freeSlot k₁.fileDescriptors = some idx := by
    rw [hdisk.fileDescriptors, hslot]
  obtain ⟨rfl, hon⟩ := hresult.of_slot hslot₁
  obtain ⟨o, hitem, hregular⟩ :=
    hfile.regularFile hdisk hs₂ (hsectors₂.trans hdisk.sectors) hon
  -- reading
  have hvolume := hdisk.volume
  obtain ⟨replies, k₃, hread, hall⟩ := hregular.readParts_spec parts
    (hsectors₂.trans hdisk.sectors) (by
      obtain ⟨cluster, fat, directory, rfl⟩ := hvolume
      rw [hitem]
      exact hparts)
  refine ⟨k₁, k₂, k₃, replies, hmount, hopen, hread, ?_⟩
  obtain ⟨cluster, fat, directory, rfl⟩ := hvolume
  exact hall

/-! ### The file of two clusters

A path of one name, and a part of the file in each of its clusters. -/

theorem fileDisk_storedFile :
    StoredFile fileDisk (volumeOf fileDisk 0) twoClusterItem 2
      twoClusterChain where
  file := rfl
  chain := ⟨by decide, by decide, fun j hj => by
    obtain rfl : j = 0 := by omega
    decide, by decide, by decide⟩
  long := by decide
  small := by decide
  below := by decide

theorem fileDisk_finds :
    Finds (liveItems [twoClusterItem]) [0x61#8] (some twoClusterItem) := by
  rw [liveItems_fileDisk]
  exact ⟨(find?_eq_find?_iff (fun _ => EqIgnoringCase.nowhereBelow) _).mp
    rfl, by decide +kernel⟩

theorem fileDisk_rootFile :
    RootFile fileDiskKernel.sectors [twoClusterItem] [0x61#8] twoClusterItem 2
      twoClusterChain where
  signature := rfl
  cluster_ne_zero := by decide
  listing := fileDisk_listing
  low := by
    rw [liveItems_fileDisk]
    decide
  finds := fileDisk_finds
  stored := fileDisk_storedFile

theorem samplePath_pathOf : PathOf samplePath [[0x61#8]] :=
  ⟨by decide, by decide, Or.inl (by decide), by decide⟩

theorem fileDiskKernel_heapBelow : fileDiskKernel.HeapBelow := by
  unfold Kernel.HeapBelow
  decide

theorem fileDisk_inCluster (first : ℕ) (hfirst : first = 0 ∨ first = 512) :
    InCluster twoClusterItem.filesize.toNat (clusterSize (volumeOf fileDisk 0))
      first 512 := by
  have hsize : clusterSize (volumeOf fileDisk 0) = 512 := by decide
  have hfile : twoClusterItem.filesize.toNat = 1024 := by decide
  rw [hsize, hfile]
  exact ⟨by decide, by omega, by omega⟩

/-- The theorem on the file of two clusters: both of them are read. -/
theorem mounted_file_reads_back_two_clusters :
    ∃ k₁ k₂ k₃ replies, fat16Resolve DiskRef.primary fileDiskKernel
      = Except.ok (0, k₁)
      ∧ fopen samplePath readMode k₁ = Except.ok (((0 : ℕ) : ℤ), k₂)
      ∧ readParts ((0 : ℕ) : ℤ) [(0, 512),
        (512, 512)] k₂ = Except.ok (replies, k₃)
      ∧ List.Forall₂ (PartOf (contentByte fileDisk twoClusterChain)) [(0, 512),
        (512, 512)]
        replies := by
  have hslot : freeSlot fileDiskKernel.fileDescriptors = some 0 := by
    decide +kernel
  have hroom : (liveItems [twoClusterItem]).length + 11
      ≤ fileDiskKernel.freeBlocks := by
    rw [liveItems_fileDisk, fileDiskKernel_freeBlocks, List.length_singleton]
    omega
  have hparts : ∀ part ∈ [(0, 512), (512, 512)],
    InCluster twoClusterItem.filesize.toNat
      (clusterSize (volumeOf fileDiskKernel.sectors 0)) part.1 part.2 :=
    List.forall_mem_cons.mpr ⟨fileDisk_inCluster 0 (Or.inl rfl),
      List.forall_mem_cons.mpr ⟨fileDisk_inCluster 512 (Or.inr rfl),
        fun _ h => nomatch h⟩⟩
  exact mounted_file_reads_back (k :=
    fileDiskKernel) PathParser.bootedKernel_heapOk
    fileDiskKernel_heapBelow hslot fileDisk_rootFile hroom samplePath_pathOf
      (by decide) hparts

end File

end N00bOS
