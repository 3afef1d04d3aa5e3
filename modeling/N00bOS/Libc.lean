import N00bOS.FlatMemory

/-!
# The C library

The functions of `libc` that the kernel calls. A string that is only read is
the list of its characters before the terminator, and a `char` is signed. The
functions that write work on the flat memory, with the addresses they are
given, and so do the loops that read what they have written.

Each loop of the source is a recursion of its own, on the characters or on the
rounds that its counter leaves, with the same variables. Where the source
compares the same two values twice, so does the model (`strcasecmp`,
`strncmp`), and where a loop does not move its cursor the model's does not
either (`strncpyPad`).
-/

namespace N00bOS

/-- `isdigit`. -/
def isdigit (c : Byte) : Bool := 0x30#8 ≤ c && c ≤ 0x39#8

/-- `tolower`, on a character promoted to `int`. -/
def tolower (c : Byte) : ℤ :=
  if 0x40#8 < c ∧ c < 0x5B#8 then (c.toNat : ℤ) + 0x20 else c.toInt

/-- `strcasecmp`. The last comparison has its arguments the same way round
as the one before. -/
def strcasecmp : List Byte → List Byte → ℤ
  | [], [] => 0
  | [], _ :: _ => -1
  | _ :: _, [] => 1
  | c₁ :: str₁, c₂ :: str₂ =>
    if tolower c₁ < tolower c₂ then -1
    else if tolower c₂ > tolower c₁ then 1
    else strcasecmp str₁ str₂

/-- `strncmp`. The last comparison has its arguments the same way round as
the one before. -/
def strncmp : List Byte → List Byte → ℕ → ℤ
  | _, _, 0 => 0
  | [], [], _ + 1 => 0
  | [], _ :: _, _ + 1 => -1
  | _ :: _, [], _ + 1 => 1
  | c₁ :: str₁, c₂ :: str₂, n + 1 =>
    if c₁.toInt < c₂.toInt then -1
    else if c₂.toInt > c₁.toInt then 1
    else strncmp str₁ str₂ n

/-- The loop of `atoi`, over the characters from the last to the first. -/
def atoiFrom : List Byte → ℤ → ℤ → ℤ
  | [], _, result => result
  | c :: str, base10Multiplier, result =>
    atoiFrom str ((base10Multiplier * 10).bmod (2 ^ 32))
      ((result + base10Multiplier * (c.toInt - 0x30)).bmod (2 ^ 32))

/-- `atoi`. -/
def atoi (str : List Byte) : ℤ := atoiFrom str.reverse 1 0

namespace Libc

open Memory

/-- The loop of `memmove` that starts from the end. -/
def memmoveFromEnd (dst src : Word) : ℕ → Memory → Memory
  | 0, m => m
  | idx + 1, m =>
    memmoveFromEnd dst src idx (m.store8 (offset dst idx) (m (offset src idx)))

/-- The loop that starts from the beginning, with `left` bytes to go. -/
def memmoveFromStart (dst src : Word) : ℕ → ℕ → Memory → Memory
  | 0, _, m => m
  | left + 1, idx, m =>
    memmoveFromStart dst src left (idx + 1)
      (m.store8 (offset dst idx) (m (offset src idx)))

/-- `memmove`. -/
def memmove (dst src n : Word) (m : Memory) : Word × Memory :=
  if src < dst then (dst, memmoveFromEnd dst src n.toNat m)
  else (dst, memmoveFromStart dst src n.toNat 0 m)

/-- The loop of `strncpy` that copies: the number of bytes that are left, the
cursor `dst`, and the memory. -/
def strncpyCopy : List Byte → ℕ → Word → Memory → ℕ × Word × Memory
  | c :: src, left + 1, dst, m =>
    strncpyCopy src left (dst + 1#32) (m.store8 dst c)
  | _, left, dst, m => (left, dst, m)

/-- The loop that pads. It does not move the cursor, so that every round of it
writes to the same byte. -/
def strncpyPad (dst : Word) : ℕ → Memory → Memory
  | 0, m => m
  | left + 1, m => strncpyPad dst left (m.store8 dst 0x00#8)

/-- `strncpy`. -/
def strncpy (dst : Word) (src : List Byte) (n : Word) (m : Memory) :
    Word × Memory :=
  let dstStart := dst
  let (left, dst, m) := strncpyCopy src n.toNat dst m
  (dstStart, strncpyPad dst left m)

/-- The loop of `itoa` that populates the buffer, least significant digit
first: the index after the last digit, and the memory. The value is at least
divided by the base in each round, so that the value itself is fuel enough. -/
def itoaPopulate (str : Word) (base : ℤ) : ℕ → ℤ → ℕ → Memory → ℕ × Memory
  | 0, _, populateIdx, m => (populateIdx, m)
  | fuel + 1, value, populateIdx, m =>
    if value > 0 then
      let remainder := value.tmod base
      itoaPopulate str base fuel (value.tdiv base) (populateIdx + 1)
        (m.store8 (offset str populateIdx) (BitVec.ofInt 8 (0x30 + remainder)))
    else (populateIdx, m)

/-- The loop that reverses the digits, with `left` rounds to go. -/
def itoaReverse (str : Word) (populateIdx : ℕ) : ℕ → ℕ → Memory → Memory
  | 0, _, m => m
  | left + 1, reverseIdx, m =>
    let tmp := m (offset str reverseIdx)
    let m := m.store8 (offset str reverseIdx)
      (m (offset str (populateIdx - reverseIdx - 1)))
    let m := m.store8 (offset str (populateIdx - reverseIdx - 1)) tmp
    itoaReverse str populateIdx left (reverseIdx + 1) m

/-- `itoa`. The negation of the least `int` is itself. -/
def itoa (value : ℤ) (str : Word) (base : ℤ) (m : Memory) : Word × Memory :=
  -- TODO in the source: support other bases
  if base ≠ 10 then (str, m)
  else if value = 0 then (str, m.store8 str 0x30#8)
  else
    let isNegative : Bool := value < 0
    let (value, m, startIdx) :=
      if isNegative then ((-value).bmod (2 ^ 32), m.store8 str 0x2D#8, 1)
        else (value, m, 0)
    let (populateIdx, m) := itoaPopulate str base value.toNat value startIdx m
    let m := itoaReverse str populateIdx (populateIdx / 2) startIdx m
    (str, m.store8 (offset str populateIdx) 0x00#8)

/-! ## Strings in memory

A string that a function has written is found in the memory: its characters,
and a terminator after them, none of them being one. -/

/-- **A string in memory**: its characters, and a terminator. A terminator
among the characters is not excluded here. -/
def StringAt (m : Memory) (str : Word) (s : List Byte) : Prop :=
  (∀ i (hi : i < s.length), m (offset str i) = s[i])
    ∧ m (offset str s.length) = 0

/-- **The string at an address**: the characters up to the first terminator. It
is what a function that reads a `char*` reads. -/
def HoldsString (m : Memory) (str : Word) (s : List Byte) : Prop :=
  (∀ c ∈ s, c ≠ 0) ∧ StringAt m str s

/-- A string does not go on after the terminator of another. -/
theorem HoldsString.length_le {m : Memory} {str : Word} {s t : List Byte}
    (hs : HoldsString m str s) (ht : StringAt m str t) :
    s.length ≤ t.length := by
  by_contra hlt
  have hlt := Nat.not_le.mp hlt
  exact hs.1 _ (List.getElem_mem hlt) ((hs.2.1 t.length hlt).symm.trans ht.2)

/-- **There is one string at an address.** Both end at the first terminator, so
they have the same length, and then the same characters. -/
theorem HoldsString.unique {m : Memory} {str : Word} {s t : List Byte}
    (hs : HoldsString m str s) (ht : HoldsString m str t) : s = t :=
  List.ext_getElem (Nat.le_antisymm (hs.length_le ht.2) (ht.length_le hs.2))
    fun i hi hi' =>
      (hs.2.1 i hi).symm.trans (ht.2.1 i hi')

end Libc

end N00bOS
