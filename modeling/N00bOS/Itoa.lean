import Mathlib.Data.List.GetD
import Mathlib.Data.Nat.Digits.Lemmas
import N00bOS.Libc
import N00bOS.Reflections

/-!
# Decimal numbers

`itoa` writes the digits of a number least significant first, and then reverses
them. A positive number comes out right (`itoa_of_pos`). Zero is written
without its terminator. For a negative number the reversal counts from the sign
and not from the first digit: its mirror is off by one, and the result is right
when that cannot be seen (`itoa_renders_iff`).

The first loop is described by what it has written after each digit
(`itoaPopulate_written`), and the second is a reversal by swaps in the sense of
`N00bOS.Reflections` (`itoaReverse_apply`). What is right is Mathlib's list of
digits (`decimal`). Behind a sign the second loop makes one swap more than it
should, about a middle that lies between two digits: it shows unless the digits
are the same, as they stand there (`SameDigits`).
-/

namespace N00bOS

namespace Libc

open Memory

/-! ## The representation

The right string, and the digits by their number from the least significant. -/

/-- The character of a digit. -/
def digitChar (d : ℕ) : Byte := BitVec.ofNat 8 (0x30 + d)

/-- The digits of a number, most significant first. -/
def decimalDigits (n : ℕ) : List Byte :=
  if n = 0 then [digitChar 0] else (Nat.digits 10 n).reverse.map digitChar

/-- **The decimal representation** of an `int`: its digits, with a sign in
front if it is negative, and no zero in front of any other digit. -/
def decimal (v : ℤ) : List Byte :=
  if v < 0 then 0x2D#8 :: decimalDigits v.natAbs else decimalDigits v.natAbs

/-- The number of digits of a number that is not zero. -/
def numDigits (n : ℕ) : ℕ := (Nat.digits 10 n).length

/-- Digit `j` of a number, counted from the least significant. -/
def digit (n j : ℕ) : ℕ := (Nat.digits 10 n).getD j 0

/-- All digits are the same, the middle one of an odd number of them aside. -/
def SameDigits (n : ℕ) : Prop :=
  2 ≤ numDigits n ∧ ∀ i < numDigits n, 2 * i + 1 ≠ numDigits n →
    digit n i = digit n 0

theorem digit_lt (n j : ℕ) : digit n j < 10 := by
  rw [digit, List.getD_eq_getElem?_getD]
  rcases Nat.lt_or_ge j (Nat.digits 10 n).length with hj | hj
  · rw [List.getElem?_eq_getElem hj]
    exact Nat.digits_lt_base (by decide) (List.getElem_mem hj)
  · rw [List.getElem?_eq_none hj]
    exact Nat.succ_pos 9

theorem digitChar_inj {a b : ℕ} (ha : a < 10) (hb : b < 10) :
    digitChar a = digitChar b ↔ a = b := by
  refine ⟨fun h => ?_, congrArg _⟩
  have hnum := congrArg BitVec.toNat h
  rw [digitChar, digitChar, BitVec.toNat_ofNat, BitVec.toNat_ofNat] at hnum
  omega

/-- A digit is not a sign. -/
theorem digitChar_ne_sign {d : ℕ} (hd : d < 10) : digitChar d ≠ 0x2D#8 := by
  intro h
  have hnum := congrArg BitVec.toNat h
  rw [digitChar, BitVec.toNat_ofNat, BitVec.toNat_ofNat] at hnum
  omega

theorem digits_of_pos {n : ℕ} (hn : 0 < n) :
    Nat.digits 10 n = n % 10 :: Nat.digits 10 (n / 10) :=
  Nat.digits_def' (by decide) hn

theorem numDigits_of_pos {n : ℕ} (hn : 0 < n) :
    numDigits n = numDigits (n / 10) + 1 := by
  rw [numDigits, digits_of_pos hn, List.length_cons, numDigits]

theorem digit_succ {n : ℕ} (hn : 0 < n) (j : ℕ) :
    digit n (j + 1) = digit (n / 10) j := by
  rw [digit, digits_of_pos hn, List.getD_cons_succ, digit]

theorem digit_zero {n : ℕ} (hn : 0 < n) : digit n 0 = n % 10 := by
  rw [digit, digits_of_pos hn, List.getD_cons_zero]

/-- A number of 32 bits has few digits. -/
theorem numDigits_le {n : ℕ} (hn : n < 2 ^ 32) : numDigits n ≤ 10 :=
  (Nat.digits_length_le_iff (by decide) n).mpr (by omega)

theorem length_decimalDigits {n : ℕ} (hn : 0 < n) :
    (decimalDigits n).length = numDigits n := by
  rw [decimalDigits, if_neg (Nat.ne_of_gt hn), List.length_map,
    List.length_reverse, numDigits]

theorem getElem_decimalDigits {n : ℕ} (hn : 0 < n) {i : ℕ}
    (hi : i < (decimalDigits n).length) :
    (decimalDigits n)[i] = digitChar (digit n (numDigits n - 1 - i)) := by
  have hlen := length_decimalDigits hn
  simp only [decimalDigits, if_neg (Nat.ne_of_gt hn), List.getElem_map,
    List.getElem_reverse]
  rw [digit, List.getD_eq_getElem _ _ (show numDigits n - 1 - i < _ from ?_)]
  · rfl
  · rw [← numDigits]
    omega

/-! ## The digits

The two loops, wherever the digits start. -/

/-- **What the first loop writes**: with the value as fuel, the digits from the
least significant on. A value has no more digits than it is large, so that much
fuel is enough. -/
theorem itoaPopulate_written {str : Word} {m₀ : Memory} {f : ℕ → Byte} {lo : ℕ}
    (fuel : ℕ) :
    ∀ {n idx : ℕ} {m : Memory}, n ≤ fuel → lo ≤ idx →
    idx + numDigits n ≤ 2 ^ 32 →
      (∀ j < numDigits n, f (idx + j) = digitChar (digit n j)) →
      Written m₀ m str f lo idx →
      ∃ m', itoaPopulate str 10 fuel n idx m = (idx + numDigits n, m')
        ∧ Written m₀ m' str f lo (idx + numDigits n) := by
  induction fuel with
  | zero =>
    intro n idx m hn _ _ _ h
    obtain rfl := Nat.le_zero.mp hn
    exact ⟨m, rfl, h⟩
  | succ fuel ih =>
    intro n idx m hn hlo hfit hf h
    rcases Nat.eq_zero_or_pos n with rfl | hpos
    · exact ⟨m, rfl, h⟩
    have hlen := numDigits_of_pos hpos
    have hchar : f idx = BitVec.ofInt 8 (0x30 + (n : ℤ).tmod 10) := by
      have hmod : (0x30 + (n : ℤ).tmod 10) = ((0x30 + n % 10 : ℕ) : ℤ) := by
        rw [Int.tmod_eq_emod_of_nonneg (Int.natCast_nonneg n)]
        omega
      rw [hmod, BitVec.ofInt_natCast, ← digit_zero hpos]
      exact hf 0 (by omega)
    have hdiv : (n : ℤ).tdiv 10 = ((n / 10 : ℕ) : ℤ) := by
      rw [Int.tdiv_eq_ediv_of_nonneg (Int.natCast_nonneg n)]
      omega
    have hnext := h.store_end hlo (by omega)
    rw [hchar] at hnext
    rw [itoaPopulate, if_pos (Int.natCast_pos.mpr hpos), hdiv, hlen,
      show idx + (numDigits (n / 10) + 1)
        = idx + 1 + numDigits (n / 10) by omega]
    refine ih (by omega) (by omega) (by omega) (fun j hj => ?_) hnext
    rw [show idx + 1 + j = idx + (j + 1) by omega, ← digit_succ hpos]
    exact hf (j + 1) (by omega)

/-- **The second loop is a reversal by swaps** of the first `N` bytes. Each
round swaps one place with its mirror image, and the mirror is where
`populate_idx` says. -/
theorem itoaReverse_apply {str : Word} {N populateIdx : ℕ} (hN : N ≤ 2 ^ 32)
    (hpop : populateIdx ≤ N) (left : ℕ) :
    ∀ {r : ℕ} {m : Memory} {f : ℕ → Byte}, r + left ≤ populateIdx →
      (∀ i < N, m (offset str i) = f i) → ∀ i < N,
      itoaReverse str populateIdx left r m (offset str i)
        = reflectFrom (populateIdx - 1) left r f i := by
  induction left with
  | zero => exact fun _ h => h
  | succ left ih =>
    intro r m f hr h
    rw [itoaReverse, reflectFrom]
    refine ih (by omega) fun i hi => ?_
    rw [Function.comp_apply, Nat.sub_right_comm]
    rcases eq_or_ne i (populateIdx - 1 - r) with rfl | hlast
    · rw [store8_self, Equiv.swap_apply_right]
      exact h r (by omega)
    rw [store8_of_ne fun heq => hlast
      ((offset_inj (by omega) (by omega)).mp heq)]
    rcases eq_or_ne i r with rfl | hfirst
    · rw [store8_self, Equiv.swap_apply_left]
      exact h _ (by omega)
    · rw [store8_of_ne fun heq =>
        hfirst ((offset_inj (by omega) (by omega)).mp heq),
          Equiv.swap_apply_of_ne_of_ne hfirst hlast]
      exact h i hi

/-- **The bytes after both loops and the terminator**, when the digits start at
`start`: the digits, reversed by the swaps of the second loop. -/
theorem itoa_loops {str : Word} {m₀ m : Memory} {f : ℕ → Byte} (start : ℕ)
    {n : ℕ} (hn : 0 < n) (hlt : n < 2 ^ 32) (hstart : start ≤ 1)
    (hf : ∀ j < numDigits n, f (start + j) = digitChar (digit n j))
    (h : Written m₀ m str f 0 start) :
    ∃ m', itoaPopulate str 10 n n start m = (start + numDigits n, m')
      ∧ (∀ i < start + numDigits n,
        ((itoaReverse str (start + numDigits n) ((start + numDigits n) / 2)
          start m').store8
          (offset str (start + numDigits n)) 0) (offset str i)
          = reflectFrom (start + numDigits n - 1) ((start + numDigits n) / 2)
            start f i) := by
  have hfew := numDigits_le hlt
  have hlen := numDigits_of_pos hn
  obtain ⟨m', hpopulate, hwritten⟩ :=
    itoaPopulate_written n le_rfl (Nat.zero_le start) (by omega) hf h
  refine ⟨m', hpopulate, fun i hi => ?_⟩
  rw [store8_of_ne fun heq => absurd ((offset_inj (by omega) (by omega)).mp heq)
    (by omega)]
  exact itoaReverse_apply (show start + numDigits n ≤ 2 ^ 32 by omega) le_rfl
    _ (by omega)
    (fun i hi => hwritten.inside i (Nat.zero_le i) hi) i hi

/-- **A positive number is rendered.** Its digits are reversed about their
middle, and the terminator is written behind them. -/
theorem itoa_of_pos {n : ℕ} (hn : 0 < n) (hlt : n < 2 ^ 32) (str : Word)
    (m : Memory) :
    StringAt (itoa n str 10 m).2 str (decimal n) := by
  obtain ⟨m', hpopulate, hbytes⟩ := itoa_loops 0 hn hlt (Nat.zero_le 1)
    (fun j hj => by rw [Nat.zero_add])
      (Written.nil m str (fun j => digitChar (digit n j)) 0)
  rw [Nat.zero_add] at hpopulate hbytes
  have hdecimal : decimal n = decimalDigits n := by
    rw [decimal, if_neg (Int.not_lt.mpr (Int.natCast_nonneg n)),
      Int.natAbs_natCast]
  have hrun : (itoa n str 10 m).2
    = (itoaReverse str (numDigits n) (numDigits n / 2) 0 m').store8
      (offset str (numDigits n)) 0 := by
    rw [itoa, if_neg (by decide), if_neg (by omega)]
    simp only [decide_eq_false (Int.not_lt.mpr (Int.natCast_nonneg n)),
      Bool.false_eq_true, if_false, Int.toNat_natCast, hpopulate]
    rfl
  rw [hdecimal, hrun]
  refine ⟨fun i hi => ?_, ?_⟩
  · have hi' := hi
    rw [length_decimalDigits hn] at hi'
    rw [hbytes i hi', getElem_decimalDigits hn hi,
      reflectFrom_apply fun j hj => by omega]
    split_ifs with hin
    · rfl
    · -- the middle of an odd number of digits
      congr 2
      omega
  · rw [length_decimalDigits hn]
    exact store8_self _ _ _

/-! ## Negative numbers

The sign is in place `0`, and the digits start behind it. -/

/-- The buffer of a negative number before the second loop: the sign, and the
digits from the least significant on. -/
def signedDigits (n i : ℕ) : Byte :=
  if i = 0 then 0x2D#8 else digitChar (digit n (i - 1))

/-- **What the second loop does behind a sign.** It moves each digit to the
mirror image of the place before its own. The last digit stays, and so do the
two places about the middle of an odd number of digits, which the last round
swaps back. -/
theorem reflectFrom_one {L : ℕ} (hL : 2 ≤ L) (f : ℕ → Byte) {i : ℕ}
    (hi : i < 1 + L) :
    reflectFrom L ((1 + L) / 2) 1 f i
      = if 1 ≤ i ∧ i < L ∧ 2 * i + 1 ≠ L ∧ 2 * i ≠ L + 1 then f (L - i)
        else f i := by
  rcases Nat.even_or_odd' L with ⟨h, rfl | rfl⟩
  · rw [show (1 + 2 * h) / 2 = h by omega,
      reflectFrom_apply fun j hj => by omega]
    exact if_congr (by omega) rfl rfl
  · rw [show (1 + (2 * h + 1)) / 2 = h + 1 by omega, reflectFrom_succ_last,
      Function.comp_apply, reflectFrom_apply fun j hj => by omega,
      show 2 * h + 1 - (1 + h) = h by omega]
    rcases eq_or_ne i h with rfl | hne
    · rw [Equiv.swap_apply_right, if_pos (by omega), if_neg (by omega)]
      congr 1
      omega
    rcases eq_or_ne i (1 + h) with rfl | hne'
    · rw [Equiv.swap_apply_left, if_pos (by omega), if_neg (by omega)]
      congr 1
      omega
    · rw [Equiv.swap_apply_of_ne_of_ne hne' hne]
      exact if_congr (by omega) rfl rfl

/-- The digits that stand where digits with one more to their right should
stand are the same. -/
theorem sameDigits_of_steps {n : ℕ} (hL : 2 ≤ numDigits n)
    (hstep : ∀ j, j + 1 < numDigits n → 2 * j + 1 ≠ numDigits n →
      2 * j + 3 ≠ numDigits n → digit n j = digit n (j + 1))
    (hmid : ∀ j, 2 * j + 3 = numDigits n → digit n j = digit n (j + 2)) :
    SameDigits n := by
  refine ⟨hL, fun i => ?_⟩
  induction i using Nat.strong_induction_on with
  | _ i ih =>
    intro hi hodd
    rcases Nat.eq_zero_or_pos i with rfl | hpos
    · rfl
    obtain ⟨j, rfl⟩ : ∃ j, i = j + 1 := ⟨i - 1, by omega⟩
    by_cases hj : 2 * j + 1 = numDigits n
    · -- over the middle
      obtain ⟨l, rfl⟩ : ∃ l, j = l + 1 := ⟨j - 1, by omega⟩
      rw [← hmid l (by omega)]
      exact ih l (by omega) (by omega) (by omega)
    · rw [← hstep j hi hj (by omega)]
      exact ih j (by omega) (by omega) hj

/-- **The reversal does not show** exactly when the digits are the same. Place
by place, the digit that is there is to be the digit that should be; the chain
of these equalities goes through all the digits but the middle one. -/
theorem reflect_signedDigits_iff {n : ℕ} (hn : 0 < n) :
    (∀ i < 1 + numDigits n,
      reflectFrom (numDigits n) ((1 + numDigits n) / 2) 1 (signedDigits n) i
        = if i = 0 then 0x2D#8 else digitChar (digit n (numDigits n - i)))
      ↔ SameDigits n := by
  have hlen := numDigits_of_pos hn
  have hdigit : ∀ i,
    1 ≤ i → signedDigits n i = digitChar (digit n (i - 1)) := fun i hi =>
      if_neg (by omega)
  have hinj : ∀ a b, digitChar (digit n a) = digitChar (digit n b)
      ↔ digit n a = digit n b :=
    fun a b => digitChar_inj (digit_lt n a) (digit_lt n b)
  rcases Nat.lt_or_ge (numDigits n) 2 with hone | hL
  · -- the only digit goes before the sign
    refine iff_of_false (fun h => ?_) fun h => absurd h.1 (by omega)
    have hL : numDigits n = 1 := by omega
    have hfirst := h 0 (by omega)
    rw [hL, if_pos rfl] at hfirst
    exact digitChar_ne_sign (digit_lt n 0) hfirst
  constructor
  · intro h
    refine sameDigits_of_steps hL (fun j hj hodd hodd' => ?_) fun j hj => ?_
    · have hat := h (numDigits n - (j + 1)) (by omega)
      rw [reflectFrom_one hL _ (by omega), if_pos (by omega), if_neg (by omega),
        hdigit _ (by omega), hinj] at hat
      rwa [show numDigits n - (numDigits n - (j + 1)) = j + 1 by omega,
        Nat.add_sub_cancel] at hat
    · have hat := h (j + 1) (by omega)
      rw [reflectFrom_one hL _ (by omega), if_neg (by omega), if_neg (by omega),
        hdigit _ (by omega), hinj] at hat
      rwa [Nat.add_sub_cancel,
        show numDigits n - (j + 1) = j + 2 by omega] at hat
  · rintro ⟨-, hsame⟩ i hi
    rw [reflectFrom_one hL _ hi]
    rcases Nat.eq_zero_or_pos i with rfl | hpos
    · rw [if_neg (by omega), if_pos rfl]
      rfl
    rw [if_neg (show i ≠ 0 by omega)]
    split_ifs with hin
    · rw [hdigit _ (by omega), hinj]
      exact (hsame _ (by omega) (by omega)).trans
        (hsame _ (by omega) (by omega)).symm
    · rw [hdigit _ hpos, hinj]
      by_cases hmid : 2 * i = numDigits n + 1
      · congr 1
        omega
      · exact (hsame _ (by omega) (by omega)).trans
          (hsame _ (by omega) (by omega)).symm

/-- **A negative number is rendered when the reversal does not show.** The
least `int` is not one of these: it is its own negative, and has no digits
written at all. -/
theorem itoa_of_neg_iff {n : ℕ} (hn : 0 < n) (hlt : n < 2 ^ 31) (str : Word)
    (m : Memory) :
    StringAt (itoa (-(n : ℤ)) str 10 m).2 str (decimal (-(n : ℤ)))
      ↔ SameDigits n := by
  have hsign : Written m (m.store8 str 0x2D#8) str (signedDigits n) 0 1 := by
    have h := (Written.nil m str (signedDigits n) 0).store_end
      le_rfl (by decide)
    rwa [offset_zero] at h
  obtain ⟨m', hpopulate, hbytes⟩ := itoa_loops 1 hn (by omega) le_rfl
    (fun j
      _ => by rw [signedDigits, if_neg (by omega), Nat.add_sub_cancel_left])
        hsign
  have hdecimal : decimal (-(n : ℤ)) = 0x2D#8 :: decimalDigits n := by
    rw [decimal, if_pos (by omega), Int.natAbs_neg, Int.natAbs_natCast]
  have hneg : (-(-(n : ℤ))).bmod (2 ^ 32) = n := by
    rw [Int.neg_neg]
    exact Int.bmod_eq_of_le (by omega) (by omega)
  have hrun : (itoa (-(n : ℤ)) str 10 m).2
      = (itoaReverse str (1 + numDigits n) ((1 + numDigits n) / 2) 1 m').store8
        (offset str (1 + numDigits n)) 0 := by
    rw [itoa, if_neg (by decide), if_neg (by omega)]
    simp only [decide_eq_true (show -(n : ℤ) < 0 by omega), if_true, hneg,
      Int.toNat_natCast, hpopulate]
    rfl
  have hlen : (0x2D#8 :: decimalDigits n).length = 1 + numDigits n := by
    rw [List.length_cons, length_decimalDigits hn, Nat.add_comm]
  have hchar : ∀ i (hi : i < (0x2D#8 :: decimalDigits n).length),
    (0x2D#8 :: decimalDigits n)[i]
      = if i = 0 then 0x2D#8 else digitChar (digit n (numDigits n - i)) := by
    intro i hi
    rcases Nat.eq_zero_or_pos i with rfl | hpos
    · rfl
    · obtain ⟨j, rfl⟩ : ∃ j, i = j + 1 := ⟨i - 1, by omega⟩
      rw [if_neg (Nat.succ_ne_zero j), List.getElem_cons_succ,
        getElem_decimalDigits hn,
        show numDigits n - 1 - j = numDigits n - (j + 1) by omega]
  rw [Nat.add_sub_cancel_left] at hbytes
  rw [hdecimal, hrun, ← reflect_signedDigits_iff hn]
  constructor
  · rintro ⟨hchars, -⟩ i hi
    rw [← hbytes i hi, hchars i (by omega), hchar]
  · refine fun h => ⟨fun i hi => ?_, ?_⟩
    · rw [hbytes i (by omega), h i (by omega), hchar]
    · rw [hlen]
      exact store8_self _ _ _

/-! ## Every `int`

Three cases by the sign, and the least `int`, which has no positive
counterpart. -/

/-- The least `int` has no positive counterpart: its sign is all that is
written. -/
theorem itoa_least (str : Word) (m : Memory) :
    ¬ StringAt (itoa (-2 ^ 31) str 10 m).2 str (decimal (-2 ^ 31)) := by
  intro h
  have hrun : (itoa (-2 ^ 31) str 10 m).2
      = (m.store8 str 0x2D#8).store8 (offset str 1) 0 := rfl
  have hdigit : (decimal (-2 ^ 31))[1]? = some (digitChar 2) := by
    decide +kernel
  obtain ⟨hlt, hget⟩ := List.getElem?_eq_some_iff.mp hdigit
  have hend := h.1 1 hlt
  rw [hrun, store8_self, hget] at hend
  exact absurd hend (by decide)

/-- The least `int` does not have the same digits. -/
theorem not_sameDigits_least : ¬ SameDigits (2 ^ 31) := fun h =>
  absurd (h.2 1 (by decide +kernel) (by decide +kernel)) (by decide +kernel)

/-- **`itoa` renders an `int` exactly** when it is positive; when it is zero
and the byte after the first is zero already; and when it is negative, and its
digits are the same, the middle one of an odd number of digits aside. Of zero
no terminator is written. The digits of a negative number are reversed about a
middle that is half a place too low, so that the wrong pairs are swapped, and a
single digit with the sign. -/
theorem itoa_renders_iff (v str : Word) (m : Memory) :
    StringAt (itoa v.toInt str 10 m).2 str (decimal v.toInt)
      ↔ 0 < v.toInt ∨ (v.toInt = 0 ∧ m (str + 1#32) = 0)
        ∨ (v.toInt < 0 ∧ SameDigits v.toInt.natAbs) := by
  have hbounds := BitVec.toInt_lt (x := v)
  have hbounds' := BitVec.le_toInt v
  rcases lt_trichotomy v.toInt 0 with hneg | hzero | hpos
  · obtain ⟨n, hn⟩ : ∃ n : ℕ, v.toInt = -(n : ℤ) := ⟨v.toInt.natAbs, by omega⟩
    rw [hn, Int.natAbs_neg, Int.natAbs_natCast]
    have hiff : StringAt (itoa (-(n : ℤ)) str 10 m).2 str (decimal (-(n : ℤ)))
        ↔ SameDigits n := by
      rcases Nat.lt_or_ge n (2 ^ 31) with hlt | hge
      · exact itoa_of_neg_iff (by omega) hlt str m
      · obtain rfl : n = 2 ^ 31 := by omega
        exact iff_of_false (itoa_least str m) not_sameDigits_least
    rw [hiff]
    refine ⟨fun h => Or.inr (Or.inr ⟨by omega, h⟩), ?_⟩
    rintro (h | ⟨h, -⟩ | ⟨-, h⟩)
    · omega
    · omega
    · exact h
  · rw [hzero]
    have hrun : (itoa 0 str 10 m).2 = m.store8 str 0x30#8 := rfl
    have hafter : m.store8 str 0x30#8 (offset str 1) = m (str + 1#32) :=
      store8_of_ne fun heq =>
        absurd ((offset_inj (j := 0) (by decide) (by decide)).mp
        (heq.trans (offset_zero str).symm)) (by decide)
    rw [hrun]
    constructor
    · rintro ⟨-, hend⟩
      exact Or.inr (Or.inl ⟨rfl, hafter.symm.trans hend⟩)
    · rintro (h | ⟨-, h⟩ | ⟨h, -⟩)
      · exact absurd h (lt_irrefl _)
      · refine ⟨fun i hi => ?_, hafter.trans h⟩
        obtain rfl : i = 0 := Nat.lt_one_iff.mp hi
        rw [offset_zero]
        exact store8_self _ _ _
      · exact absurd h (lt_irrefl _)
  · obtain ⟨n, hn⟩ : ∃ n : ℕ, v.toInt = n := ⟨v.toInt.toNat, by omega⟩
    rw [hn]
    exact iff_of_true (itoa_of_pos (by omega) (by omega) str m)
      (Or.inl (by omega))

/-- `-1` is written with its sign behind. -/
theorem minus_one_not_rendered :
    ¬ StringAt (itoa (-1) 0x1000#32 10 fun _ => 0).2 0x1000#32
      (decimal (-1)) := by
  intro h
  have hbyte : (itoa (-1) 0x1000#32 10 fun _ => 0).2 (offset 0x1000#32 0)
      = digitChar 1 := by
    decide
  have hsign : (decimal (-1))[0]? = some 0x2D#8 := by decide
  obtain ⟨hlt, hget⟩ := List.getElem?_eq_some_iff.mp hsign
  have hfirst := h.1 0 hlt
  rw [hbyte, hget] at hfirst
  exact absurd hfirst (by decide)

end Libc

end N00bOS
