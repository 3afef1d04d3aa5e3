import N00bOS.Gdt

/-!
# The descriptors of the processor

A descriptor scatters the base and the limit of a segment over its eight bytes,
and a limit of more than 16 bits is counted in pages of 4 KB. `descriptor` is
the processor's reading of eight bytes. What `structured_gdt_to_gdt` writes for
an entry is read back as that entry (`descriptor_round_trip`).

The reading is that of the processor, whose fields `gdt_t` of the source has
under their names, and it is not taken from the encoder, so that the round trip
compares two definitions. One entry is `encodeGdtEntry_spec`: its bytes are
computed, and put together again as words. The table is the induction over its
entries, each of which is written to bytes of its own.
-/

namespace N00bOS

namespace Gdt

/-- **How the processor reads a descriptor.** The base and the limit are put
together from their bytes, and a limit that is counted in pages is extended to
the last byte of its last page. -/
def descriptor (entry : ℕ → Byte) : StructuredGdt where
  base := entry 7 ++ entry 4 ++ entry 3 ++ entry 2
  limit :=
    let limit : Word :=
      ((entry 6).extractLsb' 0 4 ++ entry 1 ++ entry 0).setWidth 32
    -- the granularity bit
    if (entry 6).getLsbD 7 then limit <<< 12 ||| 0xFFF#32 else limit
  access := entry 5

/-- The limits that a descriptor can hold. -/
def AdmissibleLimit (limit : Word) : Prop :=
  limit ≤ 0xFFFF#32 ∨ limit &&& 0xFFF#32 = 0xFFF#32

instance (limit : Word) : Decidable (AdmissibleLimit limit) :=
  inferInstanceAs (Decidable (_ ∨ _))

/-! ## Bytes of a word

How a word is taken apart into bytes, by shifts and masks, and put together
again. -/

/-- The mask of a byte is no more than the assignment to one. -/
theorem uint8_and_mask (v : Word) : uint8 (v &&& 0xFF#32) = uint8 v := by
  apply BitVec.eq_of_toNat_eq
  simp only [uint8, BitVec.toNat_setWidth, BitVec.toNat_and]
  rw [show (0xFF#32).toNat = 2 ^ 8 - 1 from rfl, Nat.and_two_pow_sub_one_eq_mod]
  omega

/-- **A word is its four bytes.** It is what the encoder takes apart with
shifts, and the processor puts together again. -/
theorem uint8_append (v : Word) :
    uint8 (v >>> 24) ++ uint8 (v >>> 16) ++ uint8 (v >>> 8) ++ uint8 v = v := by
  ext i hi
  simp only [uint8, BitVec.getElem_append, BitVec.getElem_setWidth,
    BitVec.getLsbD_ushiftRight]
  split_ifs
  · rw [BitVec.getLsbD_eq_getElem]
  · rw [show 8 + (i - 8) = i by omega, BitVec.getLsbD_eq_getElem]
  · rw [show 16 + (i - 8 - 8) = i by omega, BitVec.getLsbD_eq_getElem]
  · rw [show 24 + (i - 8 - 8 - 8) = i by omega, BitVec.getLsbD_eq_getElem]

/-- The low half of the byte of the flags, with flags in its high half. -/
theorem extractLsb_flags {flags : Byte} (hflags : flags.extractLsb' 0 4 = 0#4)
    (v : Word) :
    (flags ||| uint8 (v &&& 0x0F#32)).extractLsb' 0 4 = v.setWidth 4 := by
  rw [BitVec.extractLsb'_or, hflags, BitVec.zero_or]
  apply BitVec.eq_of_toNat_eq
  rw [BitVec.extractLsb'_toNat, uint8, BitVec.toNat_setWidth, BitVec.toNat_and,
    show (0x0F#32).toNat = 2 ^ 4 - 1 from rfl, Nat.and_two_pow_sub_one_eq_mod,
    BitVec.toNat_setWidth, Nat.shiftRight_zero]
  omega

/-- The flags are above the limit. -/
theorem getLsbD_flags (flags : Byte) (v : Word) :
    (flags ||| uint8 (v &&& 0x0F#32)).getLsbD 7 = flags.getLsbD 7 := by
  have hmask : (0x0F#32).getLsbD 7 = false := rfl
  rw [BitVec.getLsbD_or, uint8, BitVec.getLsbD_setWidth,
    BitVec.getLsbD_and, hmask, Bool.and_false, Bool.and_false, Bool.or_false]

/-- The three parts of a limit of 20 bits. -/
theorem limit_append (v : Word) :
    (v >>> 16).setWidth 4 ++ uint8 (v >>> 8) ++ uint8 v = v.setWidth 20 := by
  ext i hi
  simp only [uint8, BitVec.getElem_append, BitVec.getElem_setWidth,
    BitVec.getLsbD_ushiftRight]
  split_ifs
  · rfl
  · rw [show 8 + (i - 8) = i by omega]
  · rw [show 16 + (i - 8 - 8) = i by omega]

/-- A limit of 16 bits is kept. -/
theorem limit_of_le {limit : Word} (h : limit ≤ 0xFFFF#32) :
    (limit.setWidth 20).setWidth 32 = limit := by
  apply BitVec.eq_of_toNat_eq
  have hle : limit.toNat ≤ 0xFFFF := h
  rw [BitVec.toNat_setWidth, BitVec.toNat_setWidth]
  omega

/-- A limit that ends a page is kept as the number of the page. -/
theorem limit_of_pages {limit : Word} (h : limit &&& 0xFFF#32 = 0xFFF#32) :
    ((limit >>> 12).setWidth 20).setWidth 32 <<< 12 ||| 0xFFF#32 = limit := by
  have hmod : limit.toNat % 4096 = 4095 := by
    have hnum := congrArg BitVec.toNat h
    rwa [BitVec.toNat_and, show (0xFFF#32).toNat = 2 ^ 12 - 1 from rfl,
      Nat.and_two_pow_sub_one_eq_mod] at hnum
  have hlt := limit.isLt
  apply BitVec.eq_of_toNat_eq
  rw [BitVec.toNat_or, BitVec.toNat_shiftLeft, BitVec.toNat_setWidth,
    BitVec.toNat_setWidth, BitVec.toNat_ushiftRight, Nat.shiftRight_eq_div_pow]
  have hpages : limit.toNat / 2 ^ 12 % 2 ^ 20 % 2 ^ 32
    = limit.toNat / 4096 := by omega
  have hshift : (limit.toNat / 4096) <<< 12 % 2 ^ 32
      = (limit.toNat / 4096) <<< 12 := by
    rw [Nat.shiftLeft_eq]
    omega
  rw [hpages, hshift, show (0xFFF#32).toNat = 4095 from rfl,
    ← Nat.shiftLeft_add_eq_or_of_lt (by decide), Nat.shiftLeft_eq]
  omega

/-! ## The table

Entry by entry, and nothing outside them. -/

/-- Two bytes of an entry are two bytes. -/
theorem update_entry (gdt : GdtBytes) (target i j : ℕ) (v : Byte) :
    Function.update gdt (target + i) v (target + j) = if j = i then v
      else gdt (target + j) := by
  rw [Function.update_apply]
  exact if_congr (Nat.add_right_inj) rfl rfl

/-- The limit as it is written: in bytes, or in pages. -/
def encodedLimit (limit : Word) : Word :=
  if limit > 0xFFFF#32 then limit >>> 12 else limit

/-- The flags that say which. -/
def encodedFlags (limit : Word) : Byte :=
  if limit > 0xFFFF#32 then 0xC0#8 else 0x40#8

theorem encodedFlags_low (limit : Word) :
    (encodedFlags limit).extractLsb' 0 4 = 0#4 := by
  unfold encodedFlags
  split_ifs
  · decide
  · decide

theorem encodedFlags_granular (limit : Word) :
    (encodedFlags limit).getLsbD 7 = decide (limit > 0xFFFF#32) := by
  unfold encodedFlags
  split_ifs with hlarge
  · exact (decide_eq_true hlarge).symm
  · exact (decide_eq_false hlarge).symm

/-- **The eight bytes of an entry**, and no other. A limit that a descriptor
can hold is below `0x10000`, or ends a page; it is encoded without a panic. -/
theorem encodeGdtEntry_bytes (targetEntry : ℕ) {source : StructuredGdt}
    (hlimit : AdmissibleLimit source.limit) (gdt : GdtBytes) :
    ∃ gdt', encodeGdtEntry targetEntry source gdt = some gdt'
      ∧ gdt' (targetEntry + 0) = uint8 (encodedLimit source.limit)
      ∧ gdt' (targetEntry + 1) = uint8 (encodedLimit source.limit >>> 8)
      ∧ gdt' (targetEntry + 2) = uint8 source.base
      ∧ gdt' (targetEntry + 3) = uint8 (source.base >>> 8)
      ∧ gdt' (targetEntry + 4) = uint8 (source.base >>> 16)
      ∧ gdt' (targetEntry + 5) = source.access
      ∧ gdt' (targetEntry + 6)
        = encodedFlags source.limit ||| uint8
          (encodedLimit source.limit >>> 16 &&& 0x0F#32)
      ∧ gdt' (targetEntry + 7) = uint8 (source.base >>> 24)
      ∧ ∀ x, x < targetEntry ∨ targetEntry + gdtSize ≤ x → gdt' x = gdt x := by
  have hgood : ¬ (source.limit > 0xFFFF#32
      ∧ source.limit &&& 0xFFF#32 ≠ 0xFFF#32) := by
    rintro ⟨hlarge, hbits⟩
    rcases hlimit with hle | heq
    · exact absurd hlarge (BitVec.not_lt.mpr hle)
    · exact hbits heq
  have houtside : ∀ x, x < targetEntry ∨ targetEntry + gdtSize ≤ x →
    ∀ (gdt : GdtBytes) (i : ℕ)
      (v : Byte), i < gdtSize →
      Function.update gdt (targetEntry + i) v x = gdt x :=
    fun x hx gdt i v hi => Function.update_of_ne (by omega) _ _
  unfold encodeGdtEntry encodedLimit encodedFlags
  dsimp only
  rw [if_neg hgood]
  split_ifs with hlarge
  all_goals
    refine ⟨_, rfl, ?_, ?_, ?_, ?_, ?_, ?_, ?_, ?_, fun x hx => ?_⟩
    on_goal 9 => simp (disch := decide) only [houtside x hx]
    all_goals
      simp only [update_entry, uint8_and_mask]
      rfl

/-- **An entry is read back** from what is encoded. Base, limit and access are
taken one by one, each of them from the bytes that hold it. -/
theorem encodeGdtEntry_spec (targetEntry : ℕ) {source : StructuredGdt}
    (hlimit : AdmissibleLimit source.limit) (gdt : GdtBytes) :
    ∃ gdt', encodeGdtEntry targetEntry source gdt = some gdt'
      ∧ descriptor (fun j => gdt' (targetEntry + j)) = source
      ∧ ∀ x, x < targetEntry ∨ targetEntry + gdtSize ≤ x → gdt' x = gdt x := by
  obtain ⟨gdt', hrun, h0, h1, h2, h3, h4, h5, h6, h7, hothers⟩ :=
    encodeGdtEntry_bytes targetEntry hlimit gdt
  refine ⟨gdt', hrun, StructuredGdt.ext ?_ ?_ h5, hothers⟩
  · simp only [descriptor, h2, h3, h4, h7]
    exact uint8_append source.base
  · simp only [descriptor, h0, h1, h6, getLsbD_flags,
      extractLsb_flags (encodedFlags_low _), limit_append,
      encodedFlags_granular, decide_eq_true_eq]
    unfold encodedLimit
    split_ifs with hlarge
    · exact limit_of_pages (hlimit.resolve_left (BitVec.not_le.mpr hlarge))
    · exact limit_of_le (BitVec.not_lt.mp hlarge)

/-- A descriptor is its eight bytes. -/
theorem descriptor_congr {entry entry' : ℕ → Byte}
    (h : ∀ j < 8, entry j = entry' j) :
    descriptor entry = descriptor entry' := by
  simp only [descriptor, h 0 (by decide), h 1 (by decide), h 2 (by decide),
    h 3 (by decide), h 4 (by decide), h 5 (by decide), h 6 (by decide),
    h 7 (by decide)]

/-- The loop, from an entry on. -/
theorem structuredGdtToGdtFrom_spec (table : List StructuredGdt) :
    ∀ (entry : ℕ) (gdt : GdtBytes),
    (∀ source ∈ table, AdmissibleLimit source.limit) →
      ∃ gdt', structuredGdtToGdtFrom table entry gdt = some gdt'
        ∧ (∀ i (hi : i < table.length),
          descriptor (fun j => gdt' (gdtSize * (entry + i) + j)) = table[i])
        ∧ ∀ x, x < gdtSize * entry ∨ gdtSize * (entry + table.length) ≤ x →
          gdt' x = gdt x := by
  induction table with
  | nil =>
    exact fun _ gdt _ => ⟨gdt, rfl, fun i hi => absurd hi (Nat.not_lt_zero i),
      fun _ _ => rfl⟩
  | cons source table ih =>
    intro entry gdt hlimits
    obtain ⟨gdt₁, hrun₁, hentry, hothers₁⟩ :=
      encodeGdtEntry_spec (gdtSize * entry)
        (hlimits source List.mem_cons_self) gdt
    obtain ⟨gdt₂, hrun₂, htable, hothers₂⟩ :=
      ih (entry + 1) gdt₁ fun s hs => hlimits s (List.mem_cons_of_mem _ hs)
    unfold gdtSize at hentry hothers₁ htable hothers₂ ⊢
    refine ⟨gdt₂, ?_, fun i hi => ?_, fun x hx => ?_⟩
    · rw [structuredGdtToGdtFrom]
      exact (congrArg (· >>= _) hrun₁).trans hrun₂
    · cases i with
      | zero =>
        -- the later entries leave this one alone
        rw [List.getElem_cons_zero, ← hentry]
        exact descriptor_congr fun j hj => hothers₂ _ (by omega)
      | succ i =>
        rw [List.getElem_cons_succ, ← htable i (by simpa using hi)]
        congr 1
        funext j
        congr 1
        omega
    · rw [List.length_cons] at hx
      rw [hothers₂ x (by omega), hothers₁ x (by omega)]

/-- **What is encoded is read back.** For every table of entries with limits
that a descriptor can hold, `structured_gdt_to_gdt` does not panic, each of its
descriptors is read as its entry, and no byte behind the table is touched. The
induction is on the table: an entry is encoded in its eight bytes, and the loop
goes on behind them. -/
theorem descriptor_round_trip (table : List StructuredGdt) (gdt : GdtBytes)
    (hlimits : ∀ source ∈ table, AdmissibleLimit source.limit) :
    ∃ gdt', structuredGdtToGdt table gdt = some gdt'
      ∧ (∀ i (hi : i < table.length),
        descriptor (fun j => gdt' (gdtSize * i + j)) = table[i])
      ∧ ∀ x, gdtSize * table.length ≤ x → gdt' x = gdt x := by
  obtain ⟨gdt', hrun, htable, hothers⟩ :=
    structuredGdtToGdtFrom_spec table 0 gdt hlimits
  refine ⟨gdt', hrun, fun i hi => ?_, fun x hx =>
    hothers x (Or.inr (by rwa [Nat.zero_add]))⟩
  have hentry := htable i hi
  rwa [Nat.zero_add] at hentry

/-- The theorem for a code segment of 4 GB and a segment of 104 bytes. -/
theorem descriptor_round_trip_code_and_tss :
    ∃ gdt', structuredGdtToGdt [⟨0, 0xFFFFFFFF#32, 0x9A#8⟩,
      ⟨0x105000#32, 104#32, 0xE9#8⟩]
        (fun _ => 0) = some gdt'
      ∧ descriptor (fun j => gdt' (8 + j)) = ⟨0x105000#32, 104#32, 0xE9#8⟩ := by
  obtain ⟨gdt', hrun, htable, -⟩ := descriptor_round_trip
    [⟨0, 0xFFFFFFFF#32, 0x9A#8⟩, ⟨0x105000#32, 104#32, 0xE9#8⟩]
      (fun _ => 0) (by decide)
  exact ⟨gdt', hrun, htable 1 (by decide)⟩

end Gdt

end N00bOS
