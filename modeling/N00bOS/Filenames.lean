import Mathlib.Data.List.TakeWhile
import N00bOS.Fat16

/-!
# The name of a directory entry

`get_filename` writes into a buffer of the caller: the two fields of the entry
one after the other, each up to its first space, with a cursor that the copies
share. A field without a space has no end but its length, and nothing is
written after the last character. What makes the buffer a string is that all of
it is zeroed first, so that the name is a function of the entry alone
(`getFilename_holdsString`), which is how a lookup reads it.

A name in 8.3 form is padded with spaces on disk. It comes back as it was, and
no other name comes back the same (`short_names_decode`). The first part is the
copying of a padded field (`getSpaceTerminatedString_padded`), done for both
fields; the second is about strings only: base and extension can be told from
the text, since neither has a dot (`ShortName.text_inj`).
-/

namespace N00bOS

namespace Fat16

open Memory Libc

namespace Buffer

/-- The loop of `get_space_terminated_string`: the cursor `*out` and the
memory. -/
def getSpaceTerminatedStringFrom : List Byte → Word → Memory → Word × Memory
  | [], out, m => (out, m)
  | c :: str, out, m =>
    if c ≠ 0x00#8 ∧ c ≠ 0x20#8 then
      getSpaceTerminatedStringFrom str (out + 1#32) (m.store8 out c)
    else (out, m)

/-- `get_space_terminated_string`. -/
def getSpaceTerminatedString (out : Word) (str : List Byte) (m : Memory) :
    Word × Memory :=
  let (out, m) := getSpaceTerminatedStringFrom str out m
  if m out = 0x20#8 then
    -- truncate as NULL terminated
    (out, m.store8 out 0x00#8)
  else (out, m)

/-- `get_filename`. The entry is an object of its own, apart from the buffer. -/
def getFilename (directoryItem : FatDirectoryItem) (out maxLength : Word)
    (m : Memory) : Memory :=
  let m := memset m out 0x00#8 maxLength
  let (outTmp, m) := getSpaceTerminatedString out directoryItem.filename m
  if directoryItem 8 ≠ 0x00#8 ∧ directoryItem 8 ≠ 0x20#8 then
    let m := m.store8 outTmp 0x2E#8
    (getSpaceTerminatedString (outTmp + 1#32) directoryItem.ext m).2
  else m

end Buffer

/-! ## What is in the buffer

The copies are followed with what they have written so far and the cursor they
share. The buffer was zeroed before, so what is written is a string at every
point. -/

/-- The characters of a field are neither terminators nor spaces. -/
theorem mem_getSpaceTerminatedString {str : List Byte} {c : Byte}
    (hc : c ∈ getSpaceTerminatedString str) : c ≠ 0x00#8 ∧ c ≠ 0x20#8 :=
  of_decide_eq_true (List.mem_takeWhile_imp (p := fun c => c ≠ 0x00#8
    ∧ c ≠ 0x20#8) hc)

theorem length_filename (item : FatDirectoryItem) :
    item.filename.length = 8 := by
  simp [FatDirectoryItem.filename]

theorem length_ext (item : FatDirectoryItem) : item.ext.length = 3 := by
  simp [FatDirectoryItem.ext]

theorem length_getSpaceTerminatedString_le (str : List Byte) :
    (getSpaceTerminatedString str).length ≤ str.length :=
  (List.takeWhile_prefix _).length_le

theorem getSpaceTerminatedString_cons {c : Byte} (str : List Byte)
    (hc : c ≠ 0x00#8 ∧ c ≠ 0x20#8) :
    getSpaceTerminatedString (c :: str) = c :: getSpaceTerminatedString str :=
  List.takeWhile_cons_of_pos (decide_eq_true hc)

theorem getSpaceTerminatedString_cons_of_not {c : Byte} (str : List Byte)
    (hc : ¬ (c ≠ 0x00#8 ∧ c ≠ 0x20#8)) :
    getSpaceTerminatedString (c :: str) = [] :=
  List.takeWhile_cons_of_neg fun h => hc (of_decide_eq_true h)

/-- No character of a name is a terminator. -/
theorem ne_zero_of_mem_getFilename {item : FatDirectoryItem} {c : Byte}
    (hc : c ∈ getFilename item) :
    c ≠ 0 := by
  rcases List.mem_append.mp hc with hbase | hrest
  · exact (mem_getSpaceTerminatedString hbase).1
  · split_ifs at hrest with hext
    · rcases List.mem_cons.mp hrest with rfl | hmem
      · decide
      · exact (mem_getSpaceTerminatedString hmem).1
    · cases hrest

/-- A name with its terminator has 13 characters at most. -/
theorem length_getFilename_le (item : FatDirectoryItem) :
    (getFilename item).length ≤ 12 := by
  have hbase := length_getSpaceTerminatedString_le item.filename
  have hext := length_getSpaceTerminatedString_le item.ext
  have hbaseLength := length_filename item
  have hextLength := length_ext item
  rw [getFilename, List.length_append]
  split_ifs
  · rw [List.length_cons]
    omega
  · rw [List.length_nil]
    omega

section Run

variable {m₀ : Memory} {out : Word}

/-- The loop appends the field, up to its first space, to what is written. -/
theorem getSpaceTerminatedStringFrom_written (str : List Byte) :
    ∀ {s : List Byte} {m : Memory}, s.length + str.length < 2 ^ 32 →
    WrittenList m₀ m out s →
      ∃ m', Buffer.getSpaceTerminatedStringFrom str (offset out s.length) m
          = (offset out (s ++ getSpaceTerminatedString str).length, m')
        ∧ WrittenList m₀ m' out (s ++ getSpaceTerminatedString str) := by
  induction str with
  | nil =>
    intro s m _ h
    rw [show getSpaceTerminatedString [] = [] from rfl, List.append_nil]
    exact ⟨m, rfl, h⟩
  | cons c str ih =>
    intro s m hfit h
    rw [List.length_cons] at hfit
    rw [Buffer.getSpaceTerminatedStringFrom]
    by_cases hc : c ≠ 0x00#8 ∧ c ≠ 0x20#8
    · have hlength : (s ++ [c]).length = s.length + 1 := List.length_append
      have hrest := ih (by omega) (h.store_end (by omega) c)
      rw [hlength, List.append_assoc, List.singleton_append] at hrest
      rwa [if_pos hc, offset_add_one, getSpaceTerminatedString_cons str hc]
    · rw [if_neg hc, getSpaceTerminatedString_cons_of_not str hc,
        List.append_nil]
      exact ⟨m, rfl, h⟩

/-- **A field is appended**, and nothing is truncated where the buffer was
zeroed. -/
theorem getSpaceTerminatedString_written (str : List Byte) {s : List Byte}
    {m : Memory} (hfit : s.length + str.length < 2 ^ 32)
    (hzero : ∀ i ≤ s.length + str.length, m₀ (offset out i) = 0)
    (h : WrittenList m₀ m out s) :
    ∃ m', Buffer.getSpaceTerminatedString (offset out s.length) str m
        = (offset out (s ++ getSpaceTerminatedString str).length, m')
      ∧ WrittenList m₀ m' out (s ++ getSpaceTerminatedString str) := by
  obtain ⟨m', hcopy, hwritten⟩ :=
    getSpaceTerminatedStringFrom_written str hfit h
  have hle := length_getSpaceTerminatedString_le str
  have hlength : (s ++ getSpaceTerminatedString str).length
      = s.length + (getSpaceTerminatedString str).length := List.length_append
  -- the byte at the cursor is still the one that was zeroed
  have hend : m' (offset out (s ++ getSpaceTerminatedString str).length) = 0 :=
    (hwritten.apply_of_le le_rfl (by omega)).trans (hzero _ (by omega))
  refine ⟨m', ?_, hwritten⟩
  rw [Buffer.getSpaceTerminatedString, hcopy]
  exact if_neg (by rw [hend]; decide)

end Run

/-- **What `get_filename` writes**: the name, over the zeroed buffer. Both
fields are appended at the cursor, with a dot between them if there is an
extension. -/
theorem getFilename_written (item : FatDirectoryItem) (out : Word)
    {maxLength : Word} (hroom : 13 ≤ maxLength.toNat) (m : Memory) :
    WrittenList (memset m out 0x00#8 maxLength)
      (Buffer.getFilename item out maxLength m) out
      (getFilename item) := by
  have hmax := maxLength.isLt
  have hbaseLength := length_filename item
  have hextLength := length_ext item
  have hzero : ∀ i < 13, memset m out 0x00#8 maxLength (offset out i)
    = 0 := fun i hi =>
      fill_of_mem ((offset_mem_region (by omega)).mpr (by omega))
  have hbaseLe := length_getSpaceTerminatedString_le item.filename
  obtain ⟨m₁, hbase, hwritten⟩ := getSpaceTerminatedString_written item.filename
    (by rw [List.length_nil]; omega)
      (fun i hi => hzero i (by rw [List.length_nil] at hi; omega))
    (WrittenList.nil (memset m out 0x00#8 maxLength) out)
  rw [List.length_nil, offset_zero, List.nil_append] at hbase
  rw [List.nil_append] at hwritten
  unfold Buffer.getFilename getFilename
  simp only [hbase]
  by_cases hext : item 8 ≠ 0x00#8 ∧ item 8 ≠ 0x20#8
  · have hdot := hwritten.store_end (by omega) 0x2E#8
    have hlength : (getSpaceTerminatedString item.filename ++ [0x2E#8]).length
        = (getSpaceTerminatedString item.filename).length + 1 :=
          List.length_append
    obtain ⟨m₂, hrun, hall⟩ :=
      getSpaceTerminatedString_written item.ext (by omega)
      (fun i hi => hzero i (by omega)) hdot
    rw [hlength] at hrun
    rw [if_pos hext, if_pos hext, offset_add_one, hrun]
    rwa [List.append_assoc, List.singleton_append] at hall
  · rw [if_neg hext, if_neg hext, List.append_nil]
    exact hwritten

/-- **The buffer holds the name** that a lookup compares, whatever was in it
before. -/
theorem getFilename_holdsString (item : FatDirectoryItem) (out : Word)
    {maxLength : Word} (hroom : 13 ≤ maxLength.toNat) (m : Memory) :
    HoldsString (Buffer.getFilename item out maxLength m) out
      (getFilename item) := by
  have hmax := maxLength.isLt
  have hlength := length_getFilename_le item
  have hwritten := getFilename_written item out hroom m
  refine ⟨fun c hc => ne_zero_of_mem_getFilename hc, fun i hi =>
    hwritten.apply hi, ?_⟩
  have hzero : memset m out 0x00#8 maxLength
      (offset out (getFilename item).length) = 0 :=
    fill_of_mem ((offset_mem_region (by omega)).mpr (by omega))
  exact (hwritten.apply_of_le le_rfl (by omega)).trans hzero

-- the buffer of `find_item_in_directory` is large enough
example : 13 ≤ (BitVec.ofNat 32 fsMaxPathSize).toNat := by decide

/-- Nothing outside the buffer is written. -/
theorem getFilename_eqOn (item : FatDirectoryItem) (out : Word)
    {maxLength : Word} (hroom : 13 ≤ maxLength.toNat) (m : Memory) :
    Set.EqOn (Buffer.getFilename item out maxLength m) m
      (region out maxLength.toNat)ᶜ := by
  have hmax := maxLength.isLt
  have hlength := length_getFilename_le item
  have hname := (getFilename_written item out hroom m).eqOn (by omega)
  have hshorter : region out (getFilename item).length
      ⊆ region out maxLength.toNat :=
    region_subset (by omega)
  exact (hname.mono (Set.compl_subset_compl.mpr hshorter)).trans
    (eqOn_fill m out _ _)

/-! ## Names in 8.3 form

What a name is before it is padded and stored, and that nothing of it is
lost. -/

/-- **A name in 8.3 form.** It has a base, and an extension that may be empty;
what a directory entry could not hold, or a path could not name, is excluded.
-/
structure ShortName where
  /-- What stands before the dot. -/
  base : List Byte
  /-- What stands after the dot. -/
  ext : List Byte
  base_ne_nil : base ≠ []
  length_base_le : base.length ≤ 8
  length_ext_le : ext.length ≤ 3
  /-- No space, no terminator and no dot. -/
  plain : ∀ c ∈ base ++ ext, c ≠ 0x20#8 ∧ c ≠ 0x00#8 ∧ c ≠ 0x2E#8

/-- A field of `n` bytes, padded with spaces. -/
def padded (n : ℕ) (field : List Byte) : List Byte :=
  field ++ List.replicate (n - field.length) 0x20#8

theorem length_padded {n : ℕ} {field : List Byte} (h : field.length ≤ n) :
    (padded n field).length = n := by
  rw [padded, List.length_append, List.length_replicate]
  omega

/-- A padded field is read up to the padding. -/
theorem getSpaceTerminatedString_padded {field : List Byte} (n : ℕ)
    (h : ∀ c ∈ field, c ≠ 0x00#8 ∧ c ≠ 0x20#8) :
    getSpaceTerminatedString (padded n field) = field := by
  have hspaces : (List.replicate (n - field.length) 0x20#8).takeWhile
      (fun c => c ≠ 0x00#8 ∧ c ≠ 0x20#8) = [] := by
    cases n - field.length with
    | zero => rfl
    | succ k => rfl
  rw [padded, getSpaceTerminatedString,
    List.takeWhile_append_of_pos fun c hc => decide_eq_true (h c hc), hspaces,
    List.append_nil]

namespace ShortName

/-- The name as a path has it. -/
def text (name : ShortName) : List Byte :=
  name.base ++ if name.ext = [] then [] else 0x2E#8 :: name.ext

/-- **An entry of a name**: both fields padded with spaces. The other bytes of
the entry may be any. -/
def StoredIn (name : ShortName) (item : FatDirectoryItem) : Prop :=
  item.filename = padded 8 name.base ∧ item.ext = padded 3 name.ext

/-- An entry that is empty but for its name. -/
def item (name : ShortName) : FatDirectoryItem := fun i =>
  (padded 8 name.base ++ padded 3 name.ext).getD i 0

variable {name : ShortName}

/-- Every name has an entry. -/
theorem storedIn_item (name : ShortName) : name.StoredIn name.item := by
  have hbase := length_padded name.length_base_le
  have hext := length_padded name.length_ext_le
  constructor
  · refine List.ext_getElem ((length_filename _).trans hbase.symm)
      fun i hi hi' => ?_
    simp only [FatDirectoryItem.filename, item, List.getElem_map,
      List.getElem_finRange, Fin.val_cast, Fin.val_castLE]
    rw [List.getD_append _ _ _ _ hi', List.getD_eq_getElem _ _ hi']
  · refine List.ext_getElem ((length_ext _).trans hext.symm) fun i hi hi' => ?_
    simp only [FatDirectoryItem.ext, item, List.getElem_map,
      List.getElem_finRange, Fin.val_cast, Fin.val_castLE, Fin.val_natAdd]
    rw [List.getD_append_right _ _ _ _ (by omega), hbase,
      Nat.add_sub_cancel_left, List.getD_eq_getElem _ _ hi']

theorem dot_notMem_base (name : ShortName) : 0x2E#8 ∉ name.base := fun h =>
  (name.plain _ (List.mem_append_left _ h)).2.2 rfl

theorem dot_notMem_ext (name : ShortName) : 0x2E#8 ∉ name.ext := fun h =>
  (name.plain _ (List.mem_append_right _ h)).2.2 rfl

/-- **The name of an entry is the name that is stored in it.** Neither part has
a space, so that each ends where its padding begins, or with its field. -/
theorem StoredIn.getFilename_eq {item : FatDirectoryItem}
    (h : name.StoredIn item) :
    getFilename item = name.text := by
  have hbase := getSpaceTerminatedString_padded 8 fun c (hc : c ∈ name.base) =>
    have hplain := name.plain c (List.mem_append_left _ hc)
    ⟨hplain.2.1, hplain.1⟩
  have hext := getSpaceTerminatedString_padded 3 fun c (hc : c ∈ name.ext) =>
    have hplain := name.plain c (List.mem_append_right _ hc)
    ⟨hplain.2.1, hplain.1⟩
  have hfirst : item.ext.head? = some (item 8) := rfl
  rw [h.2] at hfirst
  rw [getFilename, h.1, h.2, hbase, hext, text]
  congr 1
  cases hcases : name.ext with
  | nil =>
    rw [hcases] at hfirst
    have hspace : item 8 = 0x20#8 := (Option.some.inj hfirst).symm
    rw [if_neg fun hne => hne.2 hspace, if_pos rfl]
  | cons c ext =>
    rw [hcases] at hfirst
    have hc : item 8 = c := (Option.some.inj hfirst).symm
    have hplain :=
      name.plain c
        (by rw [hcases]; exact List.mem_append_right _ List.mem_cons_self)
    rw [if_pos (hc ▸ ⟨hplain.2.1, hplain.1⟩), if_neg (List.cons_ne_nil c ext)]

/-- **Two names with the same text have the same base and extension**: the dot
is the only one. A name without an extension has no dot, and neither base nor
extension may contain one. -/
theorem text_inj {name other : ShortName} (h : name.text = other.text) :
    name.base = other.base ∧ name.ext = other.ext := by
  unfold text at h
  by_cases hext : name.ext = [] <;> by_cases hother : other.ext = []
  · rw [if_pos hext, if_pos hother, List.append_nil, List.append_nil] at h
    exact ⟨h, hext.trans hother.symm⟩
  · rw [if_pos hext, if_neg hother, List.append_nil] at h
    exact absurd (h ▸ List.mem_append_right _ List.mem_cons_self)
      name.dot_notMem_base
  · rw [if_neg hext, if_pos hother, List.append_nil] at h
    exact absurd (h ▸ List.mem_append_right _ List.mem_cons_self)
      other.dot_notMem_base
  · rw [if_neg hext, if_neg hother] at h
    obtain ⟨hbase, -, hrest⟩ :=
      (List.append_cons_inj_of_notMem other.dot_notMem_base
        other.dot_notMem_ext).mp h.symm
    exact ⟨hbase.symm, hrest.symm⟩

end ShortName

/-- **8.3 names decode to what was encoded.** The buffer holds the name that is
stored in the entry, whatever was in it before, and the name of an entry with
another base or another extension is another string. Thirteen bytes are enough
for any name: eight, a dot, three and the terminator. -/
theorem short_names_decode {name : ShortName} {item : FatDirectoryItem}
    (hstored : name.StoredIn item) (out : Word) {maxLength : Word}
    (hroom : 13 ≤ maxLength.toNat) (m : Memory) :
    HoldsString (Buffer.getFilename item out maxLength m) out name.text
      ∧ ∀ (other : ShortName) (item' : FatDirectoryItem)
        (out' maxLength' : Word) (m' : Memory)
          (s : List Byte), other.StoredIn item' →
          (other.base, other.ext) ≠ (name.base, name.ext) →
        13 ≤ maxLength'.toNat →
        HoldsString (Buffer.getFilename item' out' maxLength' m') out' s →
        s ≠ name.text := by
  constructor
  · rw [← hstored.getFilename_eq]
    exact getFilename_holdsString item out hroom m
  · intro other item' out' maxLength' m' s hstored' hne hroom' hs heq
    have hother := hs.unique (getFilename_holdsString item' out' hroom' m')
    rw [hstored'.getFilename_eq, heq] at hother
    obtain ⟨hbase, hext⟩ := ShortName.text_inj hother
    exact hne (by rw [hbase, hext])

/-- A name that fills both fields. -/
def fullName : ShortName where
  base := [0x4B#8, 0x45#8, 0x52#8, 0x4E#8, 0x45#8, 0x4C#8, 0x33#8, 0x32#8]
  ext := [0x42#8, 0x49#8, 0x4E#8]
  base_ne_nil := by decide
  length_base_le := by decide
  length_ext_le := by decide
  plain := by decide

/-- The theorem for a name without padding, in a buffer of 13 spaces. -/
theorem short_names_decode_full :
    HoldsString (Buffer.getFilename fullName.item 0x1000#32 13#32 fun _ =>
      0x20#8) 0x1000#32
      fullName.text :=
  (short_names_decode fullName.storedIn_item 0x1000#32 (by decide) _).1

end Fat16

end N00bOS
