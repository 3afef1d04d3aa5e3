import N00bOS.Frames

/-!
# The descriptor table

What each of the five file calls does to the descriptor table and to the
private data behind it. A slot that is taken keeps its pointer and its
structure for good (`CallFrame`): `fopen` fills a free slot, and no call
empties one. So the private data of different slots are different (`TableInv`),
and a descriptor that has been closed stays what it is, a slot that points to
freed data (`Stale`).

Each call gets one theorem with all its outcomes (`fopen_cases`, `fseek_cases`,
`fclose_cases`), from which everything later is derived: what the outcomes have
in common is a frame, and what they do to the table is a step of its invariant.
A run is a sequence of calls that return, with their replies (`Run`), and
`Run.tableInv` is the induction over it.

The calls are made with arguments of their own – the buffers they fill, the
sizes they ask for – so that a run is what a program of the kernel can do.
-/

namespace N00bOS

open KernelM Fat16

namespace File

/-! ## What calls leave alone

The relation that every call keeps to. It is about the slots that are taken,
and about private data that is gone: numbers of allocations are not used
again. -/

/-- **What every call leaves alone**: the slots that are taken, the structures
there are, and the private data that is gone. It is a preorder, so what a run
leaves alone is this as well. -/
structure CallFrame (k k' : Kernel) : Prop where
  nextId : k.nextId ≤ k'.nextId
  slots : ∀ i, (k.fileDescriptors i).addr ≠ 0 →
    k'.fileDescriptors i = k.fileDescriptors i
  structs : ∀ id, id < k.nextId →
    k'.fileDescriptorStructs id = k.fileDescriptorStructs id
  dead : ∀ id, id < k.nextId → k.fatItemDescriptors id = none →
    k'.fatItemDescriptors id = none

instance : IsPreorder Kernel CallFrame where
  refl _ := ⟨Nat.le_refl _, fun _ _ => rfl, fun _ _ => rfl, fun _ _ h => h⟩
  trans k k' k'' h₁ h₂ := by
    refine ⟨h₁.nextId.trans h₂.nextId, fun i hi => ?_, fun id hid => ?_,
      fun id hid hdead => ?_⟩
    · rw [h₂.slots i (by rw [h₁.slots i hi]; exact hi), h₁.slots i hi]
    · rw [h₂.structs id (Nat.lt_of_lt_of_le hid h₁.nextId), h₁.structs id hid]
    · exact h₂.dead id (Nat.lt_of_lt_of_le hid h₁.nextId) (h₁.dead id hid hdead)

theorem CallFrame.of_openFrame {k k' : Kernel} (h : OpenFrame k k') :
    CallFrame k k' :=
  ⟨h.nextId, fun i _ => by rw [h.fileDescriptors],
    fun id _ => by rw [h.fileDescriptorStructs],
    fun id _ hdead => by rw [h.fatItemDescriptors]; exact hdead⟩

/-! ## `fopen`

The run of `fopen` either stops early, with a negative result, or goes to its
end (`FopenRun`), and then there is a state for each of its steps. -/

/-- The table after `fopen` has filled slot `idx`. -/
structure Opened (k k' : Kernel) (idx : ℕ) : Prop where
  lt : idx < fsMaxFileDescriptors
  free : (k.fileDescriptors idx).addr = 0
  nextId : k.nextId ≤ k'.nextId
  table : ∃ slot desc, k.nextId ≤ slot.id ∧ slot.id < k'.nextId
    ∧ k.nextId ≤ desc.privateData.id ∧ desc.privateData.id < k'.nextId
    ∧ k'.fileDescriptors = Function.update k.fileDescriptors idx slot
    ∧ k'.fileDescriptorStructs = Function.update k.fileDescriptorStructs
      slot.id (some desc)
  old : ∀ id, id < k.nextId → k'.fatItemDescriptors id = k.fatItemDescriptors id

/-- The table after `fopen` has failed. -/
structure NotOpened (k k' : Kernel) : Prop where
  nextId : k.nextId ≤ k'.nextId
  fileDescriptors : k'.fileDescriptors = k.fileDescriptors
  fileDescriptorStructs : k'.fileDescriptorStructs = k.fileDescriptorStructs
  old : ∀ id, id < k.nextId → k'.fatItemDescriptors id = k.fatItemDescriptors id

theorem NotOpened.of_openFrame {k k' : Kernel} (h : OpenFrame k k') :
    NotOpened k k' :=
  ⟨h.nextId, h.fileDescriptors,
    h.fileDescriptorStructs, fun id _ => by rw [h.fatItemDescriptors]⟩

theorem NotOpened.trans {k k' k'' : Kernel} (h₁ : NotOpened k k')
    (h₂ : NotOpened k' k'') :
    NotOpened k k'' :=
  ⟨h₁.nextId.trans h₂.nextId, h₂.fileDescriptors.trans h₁.fileDescriptors,
    h₂.fileDescriptorStructs.trans h₁.fileDescriptorStructs,
    fun id hid => (h₂.old id (Nat.lt_of_lt_of_le hid h₁.nextId)).trans
      (h₁.old id hid)⟩

theorem NotOpened.callFrame {k k' : Kernel} (h : NotOpened k k') :
    CallFrame k k' :=
  ⟨h.nextId, fun i _ => by rw [h.fileDescriptors],
    fun id _ => by rw [h.fileDescriptorStructs],
    fun id hid hdead => by rw [h.old id hid]; exact hdead⟩

theorem Opened.callFrame {k k' : Kernel} {idx : ℕ} (h : Opened k k' idx) :
    CallFrame k k' := by
  obtain ⟨slot, desc, hslot, -, -, -, htable, hstructs⟩ := h.table
  refine ⟨h.nextId, fun i hi => ?_, fun id hid => ?_, fun id hid hdead => ?_⟩
  · rw [htable, Function.update_of_ne]
    rintro rfl
    exact hi h.free
  · rw [hstructs, Function.update_of_ne (by omega)]
  · rw [h.old id hid]
    exact hdead

/-- The number of a new allocation. -/
theorem allocate_eq_ok {k k' : Kernel} {size : Word} {p : Ptr}
    (h : allocate size k = Except.ok (p, k')) :
    p.id = k.nextId ∧ k'.nextId = k.nextId + 1 := by
  obtain ⟨m, -, hid, rfl⟩ := allocate_run h
  exact ⟨hid, rfl⟩

/-- Private data that is new changes nothing old. -/
theorem NotOpened.setFatItemDescriptor {k k' : Kernel} (h : NotOpened k k')
    {id : ℕ} (hid : k.nextId ≤ id) (v : Option FatItemDescriptor) :
    NotOpened k (k'.setFatItemDescriptor id v) :=
  ⟨h.nextId, h.fileDescriptors, h.fileDescriptorStructs, fun id' hid' =>
    (Function.update_of_ne (by omega) _ _).trans (h.old id' hid')⟩

/-- **`fat16_open`** returns an error, or private data of its own: it has a
number that was not in use before. In either case no descriptor has been
touched. -/
theorem fat16Open_cases {k k' : Kernel} {d : DiskRef} {path : List PathPart}
    {mode : FileMode} {p : Ptr}
    (h : fat16Open d path mode k = Except.ok (p, k')) :
    NotOpened k k' ∧ (p.isErr = true ∨ k.nextId ≤ p.id ∧ p.id < k'.nextId) := by
  rw [fat16Open] at h
  by_cases hmode : mode ≠ FileMode.read
  · rw [if_pos hmode] at h
    obtain ⟨rfl, rfl⟩ := Prod.mk.inj (Except.ok.inj h)
    exact ⟨NotOpened.of_openFrame (Std.Refl.refl _), Or.inl (by decide)⟩
  rw [if_neg hmode] at h
  obtain ⟨descriptor, k₁, halloc, h₁⟩ := Machine.bind_eq_ok.mp h
  obtain ⟨hid, hnext⟩ := allocate_eq_ok halloc
  have hk₁ := NotOpened.of_openFrame (OpenFrame.allocate _ _ _ _ halloc)
  rw [Machine.modify_bind] at h₁
  have hk₂ := hk₁.setFatItemDescriptor hid.ge (some ⟨Ptr.null, 0⟩)
  obtain ⟨item, k₃, hitem, h₂⟩ := Machine.bind_eq_ok.mp h₁
  have hframe := OpenFrame.getItem _ _ _ _ _ hitem
  rw [Machine.modify_bind] at h₂
  have hk₃ :=
    (hk₂.trans (NotOpened.of_openFrame hframe)).setFatItemDescriptor hid.ge
    (some ⟨item, 0⟩)
  by_cases hnull : item.addr = 0
  · rw [if_pos hnull] at h₂
    obtain ⟨rfl, rfl⟩ := Prod.mk.inj (Except.ok.inj h₂)
    exact ⟨hk₃, Or.inl (by decide)⟩
  · rw [if_neg hnull] at h₂
    obtain ⟨rfl, rfl⟩ := Prod.mk.inj (Except.ok.inj h₂)
    have hle : k₁.nextId ≤ k₃.nextId := hframe.nextId
    refine ⟨hk₃, Or.inr ⟨hid.ge, ?_⟩⟩
    show descriptor.id < k₃.nextId
    omega

/-- **Private data that is not an error** has the item that the path was looked
up to. -/
theorem fat16Open_eq_ok {k k' : Kernel} {d : DiskRef} {path : List PathPart}
    {mode : FileMode} {p : Ptr}
    (h : fat16Open d path mode k = Except.ok (p, k')) (hp : ¬ p.isErr = true) :
    ∃ k₁ item k₂, allocate 8 k = Except.ok (p, k₁)
      ∧ getItem d path (k₁.setFatItemDescriptor p.id (some ⟨Ptr.null, 0⟩))
        = Except.ok (item, k₂)
      ∧ item.addr ≠ 0 ∧ k' = k₂.setFatItemDescriptor p.id (some ⟨item, 0⟩) := by
  rw [fat16Open] at h
  by_cases hmode : mode ≠ FileMode.read
  · rw [if_pos hmode] at h
    obtain ⟨rfl, rfl⟩ := Prod.mk.inj (Except.ok.inj h)
    exact absurd (by decide) hp
  rw [if_neg hmode] at h
  obtain ⟨descriptor, k₁, halloc, h₁⟩ := Machine.bind_eq_ok.mp h
  rw [Machine.modify_bind] at h₁
  obtain ⟨item, k₂, hitem, h₂⟩ := Machine.bind_eq_ok.mp h₁
  rw [Machine.modify_bind] at h₂
  by_cases hnull : item.addr = 0
  · rw [if_pos hnull] at h₂
    obtain ⟨rfl, rfl⟩ := Prod.mk.inj (Except.ok.inj h₂)
    exact absurd (by decide) hp
  · rw [if_neg hnull] at h₂
    obtain ⟨rfl, rfl⟩ := Prod.mk.inj (Except.ok.inj h₂)
    exact ⟨k₁, item, k₂, halloc, hitem, hnull, rfl⟩

/-- A slot that is found is free. -/
theorem freeSlot_spec {table : ℕ → Ptr} {idx : ℕ}
    (h : freeSlot table = some idx) :
    idx < fsMaxFileDescriptors ∧ (table idx).addr = 0 := by
  have hmem := List.mem_of_find?_eq_some h
  have hfree := List.find?_some h
  exact ⟨List.mem_range.mp hmem, of_decide_eq_true hfree⟩

/-! ### A run to its end

The steps of a run that has opened a file: the path, the disk and its
filesystem, the private data, and the slot. -/

/-- A path that was opened: it was looked up in the state `k₁` after it was
parsed, which made the private data `p`, and the structure `descriptor` was put
in the slot `idx`. -/
structure FopenRun (filename mode : List Byte) (k k' : Kernel) (idx : ℕ)
    (root : PathRoot) (fs : FilesystemRef) (p descriptor : Ptr)
    (k₁ k₂ k₃ : Kernel) : Prop where
  parse : ∃ rootPath, PathParser.parse filename k = Except.ok (rootPath, k₁)
    ∧ k₁.pathRoots rootPath.id = some root
  fs_ne_null : fs ≠ FilesystemRef.null
  lookup : fat16Open (diskGet root.driveNumber) root.path (str2Filemode mode) k₁
    = Except.ok (p, k₂)
  not_error : ¬ p.isErr = true
  slot : freeSlot k₂.fileDescriptors = some idx
  allocate : allocate 16 k₂ = Except.ok (descriptor, k₃)
  result : k' = { k₃ with
    fileDescriptors := Function.update k₃.fileDescriptors idx descriptor
    fileDescriptorStructs := Function.update k₃.fileDescriptorStructs
      descriptor.id
      (some ⟨idx, fs, p, diskGet root.driveNumber⟩) }

/-- **`new_file_descriptor`** finds no slot that is free, or fills one with a
structure that only knows its index. -/
theorem newFileDescriptor_cases {k k' : Kernel} {result : Except ℤ Ptr}
    (h : newFileDescriptor k = Except.ok (result, k')) :
    (result = Except.error (-enomem) ∧ k' = k)
      ∨ ∃ (idx : ℕ) (descriptor : Ptr) (k₁ : Kernel),
        result = Except.ok descriptor ∧ freeSlot k.fileDescriptors = some idx
        ∧ allocate 16 k = Except.ok (descriptor, k₁)
        ∧ k' = { k₁.setFileDescriptor descriptor.id
            (some ⟨idx, FilesystemRef.null, Ptr.null, DiskRef.null⟩) with
          fileDescriptors :=
            Function.update k₁.fileDescriptors idx descriptor } := by
  rw [newFileDescriptor, Machine.get_bind] at h
  cases hslot : freeSlot k.fileDescriptors with
  | none =>
    rw [hslot] at h
    obtain ⟨rfl, rfl⟩ := Prod.mk.inj (Except.ok.inj h)
    exact Or.inl ⟨rfl, rfl⟩
  | some idx =>
    rw [hslot] at h
    obtain ⟨descriptor, k₁, halloc, hset⟩ := Machine.bind_eq_ok.mp h
    rw [Machine.modify_bind, Machine.modify_bind] at hset
    obtain ⟨rfl, rfl⟩ := Prod.mk.inj (Except.ok.inj hset)
    exact Or.inr ⟨idx, descriptor, k₁, rfl, rfl, halloc, rfl⟩

/-- **The run of `fopen`**: it stops early with a negative result, or goes to
its end. -/
theorem fopen_run {k k' : Kernel} {filename mode : List Byte} {r : ℤ}
    (h : fopen filename mode k = Except.ok (r, k')) :
    (r < 0 ∧ NotOpened k k')
      ∨ ∃ (idx : ℕ) (root : PathRoot) (fs : FilesystemRef)
      (p descriptor : Ptr) (k₁ k₂ k₃ : Kernel),
        r = idx
          ∧ FopenRun filename mode k k' idx root fs p descriptor k₁ k₂ k₃ := by
  rw [fopen] at h
  obtain ⟨rootPath, k₁, hparse, h₁⟩ := Machine.bind_eq_ok.mp h
  have hk₁ := NotOpened.of_openFrame (OpenFrame.parse _ _ _ _ hparse)
  -- every early return leaves the state as it is
  have hstop : ∀ {e : ℤ} {k₂ : Kernel}, e < 0 → NotOpened k k₂ →
      (pure e : KernelM ℤ) k₂ = Except.ok (r, k') → r < 0 ∧ NotOpened k k' := by
    intro e k₂ he hk₂ hrun
    obtain ⟨rfl, rfl⟩ := Prod.mk.inj (Except.ok.inj hrun)
    exact ⟨he, hk₂⟩
  by_cases hnull : rootPath.addr = 0
  · rw [if_pos hnull] at h₁
    exact Or.inl (hstop (by decide) hk₁ h₁)
  rw [if_neg hnull] at h₁
  obtain ⟨root, k₂, hderef, h₂⟩ := Machine.bind_eq_ok.mp h₁
  obtain ⟨-, hroot, rfl⟩ := deref_eq_ok hderef
  by_cases hpath : root.path = []
  · rw [if_pos hpath] at h₂
    exact Or.inl (hstop (by decide) hk₁ h₂)
  rw [if_neg hpath] at h₂
  by_cases hdisk : diskGet root.driveNumber = DiskRef.null
  · simp only [if_pos hdisk] at h₂
    exact Or.inl (hstop (by decide) hk₁ h₂)
  simp only [if_neg hdisk] at h₂
  obtain ⟨d, k₃, hd, h₃⟩ := Machine.bind_eq_ok.mp h₂
  obtain rfl : k₃ = k₂ := by
    cases hprimary : diskGet root.driveNumber with
    | null => exact absurd hprimary hdisk
    | primary =>
      rw [hprimary] at hd
      exact (Prod.mk.inj (Except.ok.inj hd)).2.symm
  by_cases hfs : d.fs = FilesystemRef.null
  · rw [if_pos hfs] at h₃
    exact Or.inl (hstop (by decide) hk₁ h₃)
  rw [if_neg hfs] at h₃
  by_cases hmode : str2Filemode mode = FileMode.invalid
  · rw [if_pos hmode] at h₃
    exact Or.inl (hstop (by decide) hk₁ h₃)
  rw [if_neg hmode] at h₃
  obtain ⟨p, k₄, hopen, h₄⟩ := Machine.bind_eq_ok.mp h₃
  have hk₄ := hk₁.trans (fat16Open_cases hopen).1
  by_cases herr : p.isErr = true
  · rw [if_pos herr] at h₄
    exact Or.inl (hstop (of_decide_eq_true herr) hk₄ h₄)
  rw [if_neg herr] at h₄
  obtain ⟨result, k₅, hnew, h₅⟩ := Machine.bind_eq_ok.mp h₄
  obtain ⟨rfl, rfl⟩ | ⟨idx, descriptor, k₆, rfl, hslot, halloc, rfl⟩ :=
    newFileDescriptor_cases hnew
  · exact Or.inl (hstop (by decide) hk₄ h₅)
  obtain ⟨desc, k₇, hderef', h₆⟩ := Machine.bind_eq_ok.mp h₅
  obtain ⟨-, hdesc, rfl⟩ := deref_eq_ok hderef'
  -- the structure read back is the one just stored
  have hself : Function.update k₆.fileDescriptorStructs descriptor.id
      (some ⟨idx, FilesystemRef.null, Ptr.null, DiskRef.null⟩) descriptor.id
      = some ⟨idx, FilesystemRef.null, Ptr.null, DiskRef.null⟩ :=
        Function.update_self _ _ _
  obtain rfl := Option.some.inj (hself.symm.trans hdesc)
  rw [Machine.modify_bind] at h₆
  obtain ⟨rfl, rfl⟩ := Prod.mk.inj (Except.ok.inj h₆)
  refine Or.inr ⟨idx, root, d.fs, p, descriptor, k₃, k₄, k₆, rfl,
    ⟨rootPath, hparse, hroot⟩, hfs, hopen, herr, hslot, halloc, ?_⟩
  unfold Kernel.setFileDescriptor
  rw [Function.update_idem]

/-- A run to the end has filled a slot. -/
theorem FopenRun.opened {filename mode : List Byte} {k k' : Kernel} {idx : ℕ}
    {root : PathRoot} {fs : FilesystemRef} {p descriptor : Ptr}
    {k₁ k₂ k₃ : Kernel}
    (h : FopenRun filename mode k k' idx root fs p descriptor k₁ k₂ k₃) :
    Opened k k' idx := by
  obtain ⟨rootPath, hparse, -⟩ := h.parse
  have hk₁ := NotOpened.of_openFrame (OpenFrame.parse _ _ _ _ hparse)
  obtain ⟨hopened, hp⟩ := fat16Open_cases h.lookup
  have hk₂ := hk₁.trans hopened
  obtain ⟨hpid, hplt⟩ := hp.resolve_left h.not_error
  obtain ⟨hid, hnext⟩ := allocate_eq_ok h.allocate
  have hk₃ := OpenFrame.allocate _ _ _ _ h.allocate
  obtain ⟨hlt, hfree⟩ := freeSlot_spec h.slot
  have hnext₁ := hk₁.nextId
  have hnext₂ := hk₂.nextId
  rw [h.result]
  refine ⟨hlt, ?_, ?_, ?_, fun id hid' => ?_⟩
  · rw [← hk₂.fileDescriptors]
    exact hfree
  · show k.nextId ≤ k₃.nextId
    omega
  · refine ⟨descriptor, ⟨idx, fs, p, diskGet root.driveNumber⟩, by omega, ?_,
      ?_, ?_, ?_, ?_⟩
    · show descriptor.id < k₃.nextId
      omega
    · show k.nextId ≤ p.id
      omega
    · show p.id < k₃.nextId
      omega
    · show Function.update k₃.fileDescriptors idx descriptor = _
      rw [hk₃.fileDescriptors, hk₂.fileDescriptors]
    · show Function.update k₃.fileDescriptorStructs descriptor.id _ = _
      rw [hk₃.fileDescriptorStructs, hk₂.fileDescriptorStructs]
  · show k₃.fatItemDescriptors id = _
    rw [hk₃.fatItemDescriptors, hk₂.old id hid']

/-- **`fopen`** fails, with a negative result, or fills a slot and returns
its index. -/
theorem fopen_cases {k k' : Kernel} {filename mode : List Byte} {r : ℤ}
    (h : fopen filename mode k = Except.ok (r, k')) :
    (r < 0 ∧ NotOpened k k') ∨ ∃ idx : ℕ, r = idx ∧ Opened k k' idx := by
  rcases fopen_run h with hfails | ⟨idx, root, fs, p, descriptor, k₁, k₂,
    k₃, hr, hrun⟩
  · exact Or.inl hfails
  · exact Or.inr ⟨idx, hr, hrun.opened⟩

/-! ## `fseek` and `fclose`

Calls on a descriptor start with the same lookup (`call_cases`), and differ in
what they do with the structure. -/

/-- The slot a descriptor is in. -/
structure InSlot (k : Kernel) (fd : ℤ) (desc : FileDescriptor) : Prop where
  nonneg : 0 ≤ fd
  lt : fd < fsMaxFileDescriptors
  slot : (k.fileDescriptors fd.toNat).addr ≠ 0
  struct : k.fileDescriptorStructs (k.fileDescriptors fd.toNat).id = some desc

/-- A slot is found by its number. -/
theorem getFileDescriptor_eq {k : Kernel} {fd : ℤ} (h₀ : 0 ≤ fd)
    (h₁ : fd < fsMaxFileDescriptors) :
    getFileDescriptor fd k = Except.ok (k.fileDescriptors fd.toNat, k) := by
  rw [getFileDescriptor, if_neg (by omega), Machine.get_bind]
  rfl

/-- **What the calls on a descriptor have in common**: they return
`-EINVAL`, or find a structure in the slot and go on. -/
theorem call_cases {α : Type} {k k' : Kernel} {fd : ℤ} {invalid : α}
    {f : FileDescriptor → KernelM α}
    {r : α}
    (h : (if fd < 0 then pure invalid else do
      let fileDesc ← getFileDescriptor fd
      if fileDesc.addr = 0 then
        return invalid
      let desc ← deref Kernel.fileDescriptorStructs fileDesc
      filesystemOf desc
      f desc : KernelM α) k = Except.ok (r, k')) :
    (r = invalid ∧ k' = k ∧ ∀ desc, ¬ InSlot k fd desc)
      ∨ ∃ desc, InSlot k fd desc ∧ f desc k = Except.ok (r, k') := by
  by_cases hneg : fd < 0
  · rw [if_pos hneg] at h
    obtain ⟨rfl, rfl⟩ := Prod.mk.inj (Except.ok.inj h)
    exact Or.inl ⟨rfl, rfl, fun desc hin => absurd hin.nonneg (by omega)⟩
  rw [if_neg hneg] at h
  by_cases hge : fd ≥ fsMaxFileDescriptors
  · -- out of range: the pointer is null
    have hnull : getFileDescriptor fd k = Except.ok (Ptr.null, k) := by
      rw [getFileDescriptor, if_pos (Or.inr hge)]
      rfl
    rw [Machine.bind_ok hnull, if_pos (show Ptr.null.addr = 0 from rfl)] at h
    obtain ⟨rfl, rfl⟩ := Prod.mk.inj (Except.ok.inj h)
    exact Or.inl ⟨rfl, rfl, fun desc hin => absurd hin.lt (by omega)⟩
  rw [Machine.bind_ok (getFileDescriptor_eq (by omega) (by omega))] at h
  by_cases hslot : (k.fileDescriptors fd.toNat).addr = 0
  · rw [if_pos hslot] at h
    obtain ⟨rfl, rfl⟩ := Prod.mk.inj (Except.ok.inj h)
    exact Or.inl ⟨rfl, rfl, fun desc hin => hin.slot hslot⟩
  rw [if_neg hslot] at h
  obtain ⟨desc, k₁, hderef, h₁⟩ := Machine.bind_eq_ok.mp h
  obtain ⟨-, hdesc, rfl⟩ := deref_eq_ok hderef
  refine Or.inr ⟨desc, ⟨by omega, by omega, hslot, hdesc⟩, ?_⟩
  rw [filesystemOf] at h₁
  by_cases hfs : desc.fs = FilesystemRef.null
  · rw [if_pos hfs] at h₁
    cases h₁
  · rwa [if_neg hfs] at h₁

/-- **`fseek`** changes no data but the live private data of its
descriptor. -/
theorem fseek_cases {k k' : Kernel} {fd offset r : ℤ} {whence : FileSeekMode}
    (h : fseek fd offset whence k = Except.ok (r, k')) :
    k' = k ∨ ∃ id v w, k.fatItemDescriptors id = some v
      ∧ k' = k.setFatItemDescriptor id (some w) := by
  rcases call_cases h with ⟨-, rfl, -⟩ | ⟨desc, -, hseek⟩
  · exact Or.inl rfl
  rw [fat16Seek] at hseek
  obtain ⟨data, k₁, hdata, h₁⟩ := Machine.bind_eq_ok.mp hseek
  obtain ⟨-, hlive, rfl⟩ := deref_eq_ok hdata
  obtain ⟨item, k₂, hitem, h₂⟩ := Machine.bind_eq_ok.mp h₁
  obtain ⟨-, -, rfl⟩ := deref_eq_ok hitem
  split at h₂
  · exact Or.inl (Prod.mk.inj (Except.ok.inj h₂)).2.symm
  split at h₂
  · exact Or.inr ⟨_, data, _, hlive, (Prod.mk.inj (Except.ok.inj h₂)).2.symm⟩
  split at h₂
  · exact Or.inl (Prod.mk.inj (Except.ok.inj h₂)).2.symm
  split at h₂
  · exact Or.inr ⟨_, data, _, hlive, (Prod.mk.inj (Except.ok.inj h₂)).2.symm⟩
  · exact Or.inl (Prod.mk.inj (Except.ok.inj h₂)).2.symm

/-- **`fclose`** returns `-EINVAL`, or frees the private data of its
descriptor – and leaves the slot as it is. -/
theorem fclose_cases {k k' : Kernel} {fd r : ℤ}
    (h : fclose fd k = Except.ok (r, k')) :
    (r = -einval ∧ k' = k) ∨ r = 0 ∧ ∃ desc k₁, InSlot k fd desc
      ∧ OpenFrame k k₁
      ∧ k' = k₁.setFatItemDescriptor desc.privateData.id none := by
  rcases call_cases h with ⟨rfl, rfl, -⟩ | ⟨desc, hslot, hclose⟩
  · exact Or.inl ⟨rfl, rfl⟩
  rw [fat16Close] at hclose
  obtain ⟨data, k₁, hdata, h₁⟩ := Machine.bind_eq_ok.mp hclose
  obtain ⟨-, -, rfl⟩ := deref_eq_ok hdata
  obtain ⟨item, k₂, hitem, h₂⟩ := Machine.bind_eq_ok.mp h₁
  obtain ⟨-, -, rfl⟩ := deref_eq_ok hitem
  split at h₂
  · obtain ⟨rfl, rfl⟩ := Prod.mk.inj (Except.ok.inj h₂)
    exact Or.inl ⟨rfl, rfl⟩
  obtain ⟨u, k₃, hfree, h₃⟩ := Machine.bind_eq_ok.mp h₂
  obtain ⟨rfl, rfl⟩ := Prod.mk.inj (Except.ok.inj h₃)
  rw [itemDescriptorFree] at hfree
  obtain ⟨data', k₄, hdata', h₄⟩ := Machine.bind_eq_ok.mp hfree
  obtain ⟨-, -, rfl⟩ := deref_eq_ok hdata'
  obtain ⟨u', k₅, hitemFree, h₅⟩ := Machine.bind_eq_ok.mp h₄
  obtain ⟨u'', k₆, hkfree, h₆⟩ := Machine.bind_eq_ok.mp h₅
  have hframe := IsTrans.trans _ _ _ (OpenFrame.itemFree _ _ _ _ hitemFree)
    (OpenFrame.kfree _ _ _ _ hkfree)
  exact Or.inr ⟨rfl, desc, k₆, hslot, hframe,
    (Prod.mk.inj (Except.ok.inj h₆)).2.symm⟩

/-! ## Runs of calls

Calls, their replies, and the sequences of them that return. -/

/-- A call of the file interface, with its arguments and the buffers it
fills. -/
inductive Call where
  | fopen (filename mode : List Byte)
  | fread (data : Output Byte) (blockSize numBlocks : Word) (fd : ℤ)
  | fseek (fd offset : ℤ) (whence : FileSeekMode)
  | fstat (fd : ℤ) (stat : FileStat)
  | fclose (fd : ℤ)

/-- What a call returns: its result, and the buffers it was given. -/
inductive Reply where
  | result (r : ℤ)
  | data (r : ℤ) (out : Output Byte)
  | stat (r : ℤ) (stat : FileStat)

/-- The result of a call. -/
def Reply.status : Reply → ℤ
  | result r => r
  | data r _ => r
  | stat r _ => r

namespace Call

/-- A call, made. -/
def run : Call → KernelM Reply
  | fopen filename mode => do
    let r ← File.fopen filename mode
    return Reply.result r
  | fread data blockSize numBlocks fd => do
    let k ← get
    let r ← File.fread k.sectors data blockSize numBlocks fd
    return Reply.data r.1 r.2
  | fseek fd offset whence => do
    let r ← File.fseek fd offset whence
    return Reply.result r
  | fstat fd stat => do
    let r ← File.fstat fd stat
    return Reply.stat r.1 r.2
  | fclose fd => do
    let r ← File.fclose fd
    return Reply.result r

/-- The descriptor a call is on. -/
def fd : Call → Option ℤ
  | fopen _ _ => none
  | fread _ _ _ fd => some fd
  | fseek fd _ _ => some fd
  | fstat fd _ => some fd
  | fclose fd => some fd

/-- A read that asks for nothing. -/
def AsksNothing : Call → Prop
  | fread _ blockSize numBlocks _ => blockSize = 0 ∨ numBlocks = 0
  | _ => False

end Call

/-- **A run of calls**, with the replies, the latest first. A call that does
not return is no step of a run, and ends it. -/
inductive Run (k₀ : Kernel) : List (Call × Reply) → Kernel → Prop where
  | start : Run k₀ [] k₀
  | call {history : List (Call × Reply)} {k k' : Kernel} {c : Call}
      {reply : Reply} :
      Run k₀ history k → c.run k = Except.ok (reply, k') →
      Run k₀ ((c, reply) :: history) k'

/-! ### The table in order

The invariant of the slots, kept by each call. -/

/-- **What the slots of the table are**: each that is taken has a structure,
and no two have the same private data. A slot that was closed keeps its
structure; only the private data that it leads to is gone. -/
structure TableInv (k : Kernel) : Prop where
  slots : ∀ i, i < fsMaxFileDescriptors → (k.fileDescriptors i).addr ≠ 0 →
    (k.fileDescriptors i).id < k.nextId ∧ ∃ desc,
      k.fileDescriptorStructs (k.fileDescriptors i).id = some desc
        ∧ desc.privateData.id < k.nextId
  apart : ∀ i j desc desc', i < fsMaxFileDescriptors →
    j < fsMaxFileDescriptors → i ≠ j →
    (k.fileDescriptors i).addr ≠ 0 → (k.fileDescriptors j).addr ≠ 0 →
    k.fileDescriptorStructs (k.fileDescriptors i).id = some desc →
    k.fileDescriptorStructs (k.fileDescriptors j).id = some desc' →
    desc.privateData.id ≠ desc'.privateData.id

namespace TableInv

variable {k k' : Kernel}

/-- A table without files, as it is after `fs::init`. -/
theorem of_empty
    (h : ∀ i, i < fsMaxFileDescriptors → (k.fileDescriptors i).addr = 0) :
    TableInv k :=
  ⟨fun i hi hne => absurd (h i hi) hne, fun i _ _ _ hi _ _ hne =>
    absurd (h i hi) hne⟩

/-- The table and its structures are all it is about. -/
theorem congr (h : TableInv k) (hnext : k.nextId ≤ k'.nextId)
    (htable : k'.fileDescriptors = k.fileDescriptors)
    (hstructs : k'.fileDescriptorStructs = k.fileDescriptorStructs) :
    TableInv k' := by
  refine ⟨fun i hi hne => ?_, ?_⟩
  · rw [htable] at hne ⊢
    obtain ⟨hid, desc, hdesc, hdata⟩ := h.slots i hi hne
    rw [hstructs]
    exact ⟨Nat.lt_of_lt_of_le hid hnext, desc, hdesc,
      Nat.lt_of_lt_of_le hdata hnext⟩
  · rw [htable, hstructs]
    exact h.apart

/-- A slot that is filled has data of its own. -/
theorem opened {idx : ℕ} (h : TableInv k) (ho : Opened k k' idx) :
    TableInv k' := by
  obtain ⟨slot, desc, hslot, hslot', hdata, hdata', htable, hstructs⟩ :=
    ho.table
  have hnext := ho.nextId
  -- the structure in slot `i`: the new one in slot `idx`, else the old one
  have hget : ∀ i, i < fsMaxFileDescriptors → (k'.fileDescriptors i).addr ≠ 0 →
      (i = idx ∧ k'.fileDescriptors i = slot
        ∧ k'.fileDescriptorStructs slot.id = some desc)
      ∨ (i ≠ idx ∧ (k.fileDescriptors i).addr ≠ 0
        ∧ k'.fileDescriptors i = k.fileDescriptors i
        ∧ k'.fileDescriptorStructs (k.fileDescriptors i).id
          = k.fileDescriptorStructs (k.fileDescriptors i).id) := by
    intro i hi hne
    by_cases hidx : i = idx
    · left
      rw [htable, hstructs, hidx, Function.update_self, Function.update_self]
      exact ⟨rfl, rfl, rfl⟩
    · right
      rw [htable, Function.update_of_ne hidx] at hne ⊢
      have hid := (h.slots i hi hne).1
      rw [hstructs, Function.update_of_ne (by omega)]
      exact ⟨hidx, hne, rfl, rfl⟩
  refine ⟨fun i hi hne => ?_, fun i j d d' hi hj hij hnei hnej hd hd' => ?_⟩
  · rcases hget i hi hne with ⟨-, hs, hdesc⟩ | ⟨-, hne', hs, hst⟩
    · rw [hs]
      exact ⟨hslot', desc, hdesc, hdata'⟩
    · obtain ⟨hid, desc', hdesc', hold⟩ := h.slots i hi hne'
      rw [hs, hst]
      exact ⟨by omega, desc', hdesc', by omega⟩
  · rcases hget i hi hnei with ⟨hi', hs, hdesc⟩ | ⟨hi', hne', hs, hst⟩
    · rcases hget j hj hnej with ⟨hj', -, -⟩ | ⟨-, hne'', hs', hst'⟩
      · exact absurd (hi'.trans hj'.symm) hij
      · rw [hs, hdesc] at hd
        rw [hs', hst'] at hd'
        obtain ⟨-, d'', hd'', hold⟩ := h.slots j hj hne''
        rw [hd'] at hd''
        rw [← Option.some.inj hd, Option.some.inj hd'']
        omega
    · rcases hget j hj hnej with ⟨-, hs', hdesc⟩ | ⟨hj', hne'', hs', hst'⟩
      · rw [hs', hdesc] at hd'
        rw [hs, hst] at hd
        obtain ⟨-, d'', hd'', hold⟩ := h.slots i hi hne'
        rw [hd] at hd''
        rw [← Option.some.inj hd', Option.some.inj hd'']
        omega
      · rw [hs, hst] at hd
        rw [hs', hst'] at hd'
        exact h.apart i j d d' hi hj hij hne' hne'' hd hd'

end TableInv

/-- A call that returned, without the reply around its result. -/
theorem Call.run_ok {α : Type} {x : KernelM α} {f : α → Reply} {k k' : Kernel}
    {reply : Reply}
    (h : (do let r ← x; return f r : KernelM Reply) k = Except.ok (reply, k')) :
    ∃ r, x k = Except.ok (r, k') ∧ reply = f r := by
  obtain ⟨r, k₁, hx, hr⟩ := Machine.bind_eq_ok.mp h
  obtain ⟨rfl, rfl⟩ := Prod.mk.inj (Except.ok.inj hr)
  exact ⟨r, hx, rfl⟩

/-- **One call** keeps the table in order, and what it must leave alone. The
cases are the calls, and for each of them what it may do has been said above.
-/
theorem Call.run_inv {k k' : Kernel} {c : Call} {reply : Reply} (h : TableInv k)
    (hrun : c.run k = Except.ok (reply, k')) :
    TableInv k' ∧ CallFrame k k' := by
  cases c with
  | fopen filename mode =>
    obtain ⟨r, hopen, -⟩ := Call.run_ok hrun
    rcases fopen_cases hopen with ⟨-, hno⟩ | ⟨idx, -, ho⟩
    · exact ⟨h.congr hno.nextId hno.fileDescriptors hno.fileDescriptorStructs,
        hno.callFrame⟩
    · exact ⟨h.opened ho, ho.callFrame⟩
  | fread data blockSize numBlocks fd =>
    obtain ⟨r, hread, -⟩ :=
      Call.run_ok (f := fun r : ℤ × Output Byte => Reply.data r.1 r.2) hrun
    have hframe := OpenFrame.of_reads (ReadFrame.fread _ _ _ _ _) _ _ _ hread
    exact ⟨h.congr hframe.nextId hframe.fileDescriptors
      hframe.fileDescriptorStructs, CallFrame.of_openFrame hframe⟩
  | fseek fd offset whence =>
    obtain ⟨r, hseek, -⟩ := Call.run_ok hrun
    rcases fseek_cases hseek with rfl | ⟨id, v, w, hlive, rfl⟩
    · exact ⟨h, Std.Refl.refl _⟩
    · refine ⟨h.congr (Nat.le_refl _) rfl rfl,
        Nat.le_refl _, fun _ _ => rfl, fun _ _ => rfl, ?_⟩
      intro id' _ hdead
      rw [Kernel.fatItemDescriptors_setFatItemDescriptor, Function.update_of_ne]
      · exact hdead
      · rintro rfl
        rw [hlive] at hdead
        cases hdead
  | fstat fd stat =>
    obtain ⟨r, hstat, -⟩ :=
      Call.run_ok (f := fun r : ℤ × FileStat => Reply.stat r.1 r.2) hrun
    have hframe := OpenFrame.of_reads (ReadFrame.fstat _ _) _ _ _ hstat
    exact ⟨h.congr hframe.nextId hframe.fileDescriptors
      hframe.fileDescriptorStructs, CallFrame.of_openFrame hframe⟩
  | fclose fd =>
    obtain ⟨r, hclose, -⟩ := Call.run_ok hrun
    rcases fclose_cases hclose with ⟨-, rfl⟩ | ⟨-, desc, k₁, -, hframe, rfl⟩
    · exact ⟨h, Std.Refl.refl _⟩
    · refine ⟨h.congr hframe.nextId hframe.fileDescriptors
        hframe.fileDescriptorStructs, hframe.nextId, fun i _ =>
          congrFun hframe.fileDescriptors i,
        fun id _ => congrFun hframe.fileDescriptorStructs id,
        fun id _ hdead => ?_⟩
      rw [Kernel.fatItemDescriptors_setFatItemDescriptor]
      by_cases hid : id = desc.privateData.id
      · rw [hid]
        exact Function.update_self _ _ _
      · rw [Function.update_of_ne hid, hframe.fatItemDescriptors]
        exact hdead

/-- **A run of calls** keeps the table in order. After boot the table is empty,
which is in order, so this holds of every state that callers can bring about.
-/
theorem Run.tableInv {k₀ k : Kernel} {history : List (Call × Reply)}
    (h₀ : TableInv k₀) (hrun : Run k₀ history k) : TableInv k := by
  induction hrun with
  | start => exact h₀
  | call _ hcall ih => exact (Call.run_inv ih hcall).1

end File

end N00bOS
