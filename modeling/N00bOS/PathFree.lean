import N00bOS.PathSyntax

/-!
# Giving a path back

`parse` allocates a root, and for each part a node and mostly a name; `free`
gives them back in the order of the parts, each name before its node. A part
owns one or two extents (`OwnsPart`), so a path owns as many as its parts do,
and after `free` the table is what it was before `parse`
(`parse_free_balanced`). A null name is an address in front of the heap, whose
index lies behind the table.

The theorem is about the strings on which `parse` returns, whatever it returns,
and about every heap in use: `parse` may find no part, or one without a name.
Both directions of the run are inductions over the parts, with the extents that
are owned as the invariant.
-/

namespace N00bOS

open KernelM Machine Separated

/-- **An address outside the heap** has an index behind the table: its `kfree`
does nothing. -/
theorem Heap.kfree_of_outside {h : Heap} (hw : h.Wf) (m : Memory) {ptr : Word}
    (hout : ptr.toNat < h.startAddress.toNat
      ∨ h.startAddress.toNat + h.total * 4096 ≤ ptr.toNat) :
    h.kfree m ptr = m := by
  have hle := hw.data_le
  have hstart := h.startAddress.isLt
  have hptr := ptr.isLt
  apply Heap.kfree_of_total_le
  rw [Heap.blockAddress2BlockIdx, BitVec.toNat_udiv, BitVec.toNat_sub,
    show heapBlockSize.toNat = 4096 from rfl]
  omega

namespace PathParser

/-- **What a part owns**: the extent of its node, and that of its name if it
has one. -/
inductive OwnsPart (h : Heap) (part : PathPart) : List Extent → Prop where
  | named (name self : Extent) : part.partName.addr
      = h.blockAddress name.first →
      part.self.addr = h.blockAddress self.first → OwnsPart h part [name, self]
  | unnamed (self : Extent) : part.partName = Ptr.null →
      part.self.addr = h.blockAddress self.first → OwnsPart h part [self]

/-! ## Parsing

What is allocated, as a list of extents that belong to the parts. -/

section Parse

variable {k k' : Kernel} {path : List Byte} {es : List Extent}

/-- A part that is parsed owns what was allocated for it. -/
theorem parsePathPart_owns {r : PathPart × List Byte}
    (h : parsePathPart path k = Except.ok (r, k')) (hes : k.Holds es) :
    k'.heap = k.heap ∧ ∃ own, OwnsPart k.heap r.1 own
      ∧ k'.Holds (own ++ es) := by
  obtain ⟨⟨str, rest⟩, k₁, hstr, h₁⟩ := bind_eq_ok.mp h
  obtain ⟨part, k₂, hpart, h₂⟩ := bind_eq_ok.mp h₁
  obtain ⟨rfl, rfl⟩ := Prod.mk.inj (Except.ok.inj h₂)
  obtain ⟨-, ⟨m, rfl⟩, hholds⟩ := allocate_spec hpart
  rw [getPathPartStr] at hstr
  split at hstr
  · obtain ⟨heq, rfl⟩ := Prod.mk.inj (Except.ok.inj hstr)
    obtain ⟨i, haddr, hself⟩ := hholds es hes
    exact ⟨rfl, _, OwnsPart.unnamed ⟨i, _⟩ (Prod.mk.inj heq).1.symm haddr,
      hself⟩
  · obtain ⟨str', k₃, hname, h₃⟩ := bind_eq_ok.mp hstr
    rw [modify_bind] at h₃
    obtain ⟨heq, rfl⟩ := Prod.mk.inj (Except.ok.inj h₃)
    obtain ⟨-, ⟨m', rfl⟩, hholds'⟩ := allocate_spec hname
    obtain ⟨j, haddr', hes'⟩ := hholds' es hes
    obtain ⟨i, haddr, hself⟩ := hholds _ hes'
    refine ⟨rfl, _, OwnsPart.named ⟨j, _⟩ ⟨i, _⟩ ?_ haddr,
      hself.perm (List.Perm.swap _ _ es)⟩
    rw [← (Prod.mk.inj heq).1]
    exact haddr'

/-- The loop: what the parts own, one after the other. -/
theorem parseLoop_owns (rounds : ℕ) :
    ∀ {parts parts' : List PathPart} {path : List Byte} {k k' : Kernel}
      {owns : List (List Extent)},
      parseLoop rounds parts path k = Except.ok (parts', k') →
      List.Forall₂ (OwnsPart k.heap) parts owns → k.Holds (owns.flatten ++ es) →
      k'.heap = k.heap ∧ ∃ owns', List.Forall₂ (OwnsPart k.heap) parts' owns'
        ∧ k'.Holds (owns'.flatten ++ es) := by
  induction rounds with
  | zero => intro parts parts' path k k' owns h; cases h
  | succ rounds ih =>
    intro parts parts' path k k' owns h howns hes
    rw [parseLoop] at h
    split at h
    · obtain ⟨rfl, rfl⟩ := Prod.mk.inj (Except.ok.inj h)
      exact ⟨rfl, owns, howns, hes⟩
    · obtain ⟨⟨part, rest⟩, k₁, hpart, h₁⟩ := bind_eq_ok.mp h
      obtain ⟨hheap, own, hown, hes₁⟩ := parsePathPart_owns hpart hes
      rw [← hheap] at howns hown ⊢
      refine ih h₁ (List.rel_append howns
        (List.Forall₂.cons hown List.Forall₂.nil)) ?_
      refine hes₁.perm ?_
      rw [List.flatten_append, List.flatten_singleton, ← List.append_assoc]
      exact List.perm_append_comm.append_right es

/-- **What `parse` leaves behind**: a root, and its parts. They are listed with
what each of them owns, in the order in which `free` goes through them. -/
theorem parse_owns {p : Ptr} (hpath : ¬ Rejected path)
    (h : parse path k = Except.ok (p, k')) (hes : k.Holds es) :
    k'.heap = k.heap ∧ ∃ r root owns, k'.pathRoots p.id = some r
      ∧ p.addr = k.heap.blockAddress root.first
      ∧ List.Forall₂ (OwnsPart k.heap) r.path owns
      ∧ k'.Holds (owns.flatten ++ root :: es) := by
  obtain ⟨drive, k₁, k₂, r, k₃, parts, k₄, hread, halloc, hpart, hloop, rfl⟩ :=
    parse_run hpath h
  obtain ⟨-, ⟨m, hk₂⟩, hholds⟩ := allocate_spec halloc
  obtain ⟨i, haddr, hes₂⟩ := hholds es (hes.readFrame hread)
  have hheap₂ : k₂.heap = k.heap := by
    rw [hk₂, ← hread.heap]
  obtain ⟨hheap₃, own, hown, hes₃⟩ := parsePathPart_owns hpart hes₂
  have hheap₃ : k₃.heap = k.heap := hheap₃.trans hheap₂
  have hown : OwnsPart k₃.heap r.1 own := by
    rw [hheap₃, ← hheap₂]
    exact hown
  obtain ⟨hheap₄, owns, howns, hes₄⟩ := parseLoop_owns _ hloop
    (List.Forall₂.cons hown List.Forall₂.nil) (by rwa [List.flatten_singleton])
  rw [hheap₃] at howns
  rw [hread.heap] at haddr
  exact ⟨hheap₄.trans hheap₃, _, ⟨i, _⟩, owns, Function.update_self _ _ _,
    haddr, howns, hes₄⟩

end Parse

/-! ## Freeing

The same list, from the front: each part gives its extents back. -/

section Free

variable {k : Kernel} {es : List Extent}

/-- A part gives back what it owns. -/
theorem freed_part {part : PathPart} {own : List Extent}
    (hown : OwnsPart k.heap part own) (hes : k.Holds (own ++ es)) :
    ((k.freed part.partName.addr).freed part.self.addr).Holds es := by
  cases hown with
  | named name self hname hself =>
    exact (Kernel.Holds.freed hes hname).freed hself
  | unnamed self hname hself =>
    have hnull : k.freed part.partName.addr = k := by
      rw [hname, Kernel.freed, Heap.kfree_of_outside hes.1.toWf]
      exact Or.inl (Nat.pos_of_ne_zero fun hzero =>
        hes.1.start_ne_zero (BitVec.eq_of_toNat_eq hzero))
    rw [hnull]
    exact Kernel.Holds.freed hes hself

/-- The node is freed with the same memory, whether a string was there or
not. -/
theorem freed_part_string {part : PathPart} {own : List Extent}
    (hown : OwnsPart k.heap part own) (hes : k.Holds (own ++ es)) {k' : Kernel}
    (hk' : k' = if part.partName.addr = 0 then k.freed part.partName.addr
      else (k.freed part.partName.addr).setString part.partName.id none) :
    (k'.freed part.self.addr).heap = k.heap
      ∧ (k'.freed part.self.addr).Holds es := by
  have hfreed := freed_part hown hes
  rw [hk']
  split_ifs
  · exact ⟨rfl, hfreed⟩
  · exact ⟨rfl, hfreed⟩

/-- **The loop of `free`** gives back what the parts own. The induction is on
the parts; a name that is null is an address outside the heap, and freeing it
does nothing. -/
theorem freeParts_holds {h : Heap} {parts : List PathPart}
    {owns : List (List Extent)} (howns : List.Forall₂ (OwnsPart h) parts owns) :
    ∀ {k : Kernel}, k.heap = h → k.Holds (owns.flatten ++ es) →
      ∃ k', freeParts parts k = Except.ok ((), k') ∧ k'.heap = h
        ∧ k'.Holds es := by
  induction howns with
  | nil => exact fun {k} hheap hes => ⟨k, rfl, hheap, hes⟩
  | @cons part own parts owns hown _ ih =>
    intro k hheap hes
    rw [List.flatten_cons, List.append_assoc] at hes
    obtain ⟨hheap₁, hes₁⟩ := freed_part_string (hheap ▸ hown) hes rfl
    obtain ⟨k', hrun, hheap', hes'⟩ := ih (hheap₁.trans hheap) hes₁
    refine ⟨k', ?_, hheap', hes'⟩
    rw [freeParts, kfree_bind, modify_bind, kfree_bind]
    exact hrun

end Free

/-- **`parse` and `free` are balanced.** For every heap in use and every string
on which `parse` returns, the table after `parse`, and after `free` of what it
returned when that is not null, is the table before; and a `kfree` of an
address outside the heap changes nothing. That is what happens to the name of a
part which has none. The parts are freed from the first one on, and the proof
follows the list of them and what each has allocated. -/
theorem parse_free_balanced {k k₁ : Kernel} (hk : k.HeapOk) {path : List Byte}
    {p : Ptr} (h : parse path k = Except.ok (p, k₁)) :
    (p.addr = 0 → SameTable k.heap k.mem k₁.mem)
      ∧ (p.addr ≠ 0 → ∃ k₂, free p k₁ = Except.ok ((), k₂) ∧ k₂.heap = k.heap
        ∧ SameTable k.heap k.mem k₂.mem)
      ∧ ∀ m ptr, ptr.toNat < k.heap.startAddress.toNat
          ∨ k.heap.startAddress.toNat + k.heap.total * 4096 ≤ ptr.toNat →
        k.heap.kfree m ptr = m := by
  obtain ⟨hp, es, hinv⟩ := hk
  refine ⟨fun hnull => ?_, fun hne => ?_, fun m ptr =>
    Heap.kfree_of_outside hp.toWf m⟩
  · by_cases hpath : Rejected path
    · obtain ⟨-, rfl⟩ :=
        Prod.mk.inj (Except.ok.inj ((parse_of_rejected hpath k).symm.trans h))
      exact SameTable.refl _ _
    · -- a root is no null pointer
      obtain ⟨hheap, r, root, owns, -, haddr, -, hes⟩ :=
        parse_owns hpath h ⟨hp, hinv⟩
      have hroot : root ∈ owns.flatten ++ root :: es := by simp
      have hstop := hes.2.packed.stop_le root hroot
      have hpos := hes.2.packed.pos root hroot
      rw [hheap] at hstop
      refine absurd (haddr.symm.trans hnull)
        (blockAddress_ne_zero hp.toWf hp.start_ne_zero ?_)
      exact Nat.lt_of_lt_of_le (Extent.covers_first hpos).2 hstop
  · have hpath : ¬ Rejected path := fun hrejected => by
      rw [parse_of_rejected hrejected] at h
      obtain ⟨rfl, -⟩ := Prod.mk.inj (Except.ok.inj h)
      exact hne rfl
    obtain ⟨hheap, r, root, owns, hr, haddr, howns, hes⟩ :=
      parse_owns hpath h ⟨hp, hinv⟩
    obtain ⟨k₂, hrun, hheap₂, hes₂⟩ := freeParts_holds howns hheap hes
    have hes₃ := hes₂.freed (show p.addr = k₂.heap.blockAddress root.first by
      rw [hheap₂]
      exact haddr)
    refine ⟨(k₂.freed p.addr).setPathRoot p.id none, ?_, hheap₂, fun i hi => ?_⟩
    · rw [free, bind_ok (deref_ok hne hr), bind_ok hrun, kfree_bind]
      rfl
    · have hinv₃ := hes₃.2
      rw [show (k₂.freed p.addr).heap = k.heap from hheap₂] at hinv₃
      exact hinv₃.entry_eq hinv (fun _ => Iff.rfl) hi

/-- The theorem for `0:/`, whose part has no name, and for `0:/a/bc/`, which
has two names. -/
theorem parse_free_balanced_bare_and_named :
    (∃ p k₁ k₂, parse [0x30#8, colon, slash] bootedKernel = Except.ok (p, k₁)
        ∧ free p k₁ = Except.ok ((), k₂)
        ∧ SameTable bootedKernel.heap bootedKernel.mem k₂.mem)
      ∧ ∃ p k₁ k₂,
        parse (render 0 [[0x61#8], [0x62#8, 0x63#8]] ++ [slash]) bootedKernel
          = Except.ok (p, k₁) ∧ free p k₁ = Except.ok ((), k₂)
        ∧ SameTable bootedKernel.heap bootedKernel.mem k₂.mem := by
  have hblocks := bootedKernel_freeBlocks
  constructor
  · have hpath : ¬ Rejected [0x30#8, colon, slash] := by
      unfold Rejected
      decide
    obtain ⟨p, k₁, hok, -, hne, -⟩ :=
      (parse_bare hpath rfl bootedKernel_heapOk).returns (by omega)
    obtain ⟨-, hfree, -⟩ := parse_free_balanced bootedKernel_heapOk hok
    obtain ⟨k₂, hrun, -, hsame⟩ := hfree hne
    exact ⟨p, k₁, k₂, hok, hrun, hsame⟩
  · have hpath : ¬ Rejected
        (render 0 [[0x61#8], [0x62#8, 0x63#8]] ++ [slash]) := by
      unfold Rejected
      decide
    have hread : Names slash
      ([slash].intercalate [[0x61#8], [0x62#8, 0x63#8]] ++ [slash])
        [[0x61#8], [0x62#8, 0x63#8]] :=
          (Names.of_intercalate (by decide) (by decide)).2
    obtain ⟨p, k₁, hok, -, hne, -⟩ :=
      (parse_spec hpath (by decide) hread bootedKernel_heapOk).returns (by
        rw [hblocks]
        decide)
    obtain ⟨-, hfree, -⟩ := parse_free_balanced bootedKernel_heapOk hok
    obtain ⟨k₂, hrun, -, hsame⟩ := hfree hne
    exact ⟨p, k₁, k₂, hok, hrun, hsame⟩

end PathParser

end N00bOS
