import N00bOS.Itoa

/-!
# Reading a decimal number back

`atoi` goes through the digits from the last one on, with a multiplier that
leaves the range of an `int` after the tenth digit. What it adds up is the
value of the digits modulo `2 ^ 32`, which `itoa` took from the number
(`atoi_itoa`).

The value of a list of digits is Mathlib's `Nat.ofDigits`. The loop is shown to
compute it, least significant digit first (`atoiFrom_digits`), and the string
that `itoa` writes has `Nat.digits` of the number (`N00bOS.Itoa`), so that the
two functions meet in one library fact.
-/

namespace N00bOS

namespace Libc

open Memory

/-- The value of the character of a digit. -/
theorem digitChar_toInt {d : ℕ} (hd : d < 10) :
    (digitChar d).toInt - 0x30 = d := by
  have hnum : (digitChar d).toNat = 0x30 + d := by
    rw [digitChar, BitVec.toNat_ofNat, Nat.mod_eq_of_lt (by omega)]
  rw [BitVec.toInt_eq_toNat_of_lt (by omega), hnum]
  omega

/-- **The loop of `atoi`** adds up the value of the digits, least significant
first, with the multiplier and the result modulo `2 ^ 32`. -/
theorem atoiFrom_digits (digits : List ℕ) :
    ∀ {base10Multiplier result : ℤ}, (∀ d ∈ digits, d < 10) →
    result.bmod (2 ^ 32) = result →
      atoiFrom (digits.map digitChar) base10Multiplier result
        = (result + base10Multiplier * (Nat.ofDigits 10 digits : ℕ)).bmod
          (2 ^ 32) := by
  induction digits with
  | nil =>
    intro base10Multiplier result _ hresult
    rw [List.map_nil, atoiFrom, Nat.ofDigits_nil, Nat.cast_zero, mul_zero,
      add_zero, hresult]
  | cons d digits ih =>
    intro base10Multiplier result hdigits _
    have hrest : ∀ d ∈ digits, d < 10 := fun d hd =>
      hdigits d (List.mem_cons_of_mem _ hd)
    have hvalue : result + base10Multiplier
      * ((Nat.ofDigits 10 (d :: digits) : ℕ) : ℤ)
        = result + base10Multiplier * d
          + base10Multiplier * 10 * ((Nat.ofDigits 10 digits : ℕ) : ℤ) := by
      rw [Nat.ofDigits_cons]
      push_cast
      ring
    rw [List.map_cons, atoiFrom, ih hrest (Int.bmod_bmod ..),
      digitChar_toInt (hdigits d List.mem_cons_self), hvalue, Int.bmod_add_bmod,
      Int.add_bmod, Int.bmod_mul_bmod, ← Int.add_bmod]

/-- **`atoi` reads a decimal number**, modulo `2 ^ 32`. For a number that is an
`int` that is the number itself; `decimal` has no sign here, since it is
positive. -/
theorem atoi_decimal {n : ℕ} (hn : 0 < n) :
    atoi (decimal n) = (n : ℤ).bmod (2 ^ 32) := by
  have hdecimal : (decimal n).reverse = (Nat.digits 10 n).map digitChar := by
    rw [decimal, if_neg (Int.not_lt.mpr (Int.natCast_nonneg n)),
      Int.natAbs_natCast, decimalDigits, if_neg (Nat.ne_of_gt hn),
      ← List.map_reverse, List.reverse_reverse]
  have hdigits : ∀ d ∈ Nat.digits 10 n, d < 10 := fun d hd =>
    Nat.digits_lt_base (by decide) hd
  rw [atoi, hdecimal, atoiFrom_digits _ hdigits (by decide), zero_add, one_mul,
    Nat.ofDigits_digits]

/-- No character of a decimal number is a terminator. -/
theorem ne_zero_of_mem_decimal {n : ℕ} (hn : 0 < n) {c : Byte}
    (hc : c ∈ decimal n) : c ≠ 0 := by
  rw [decimal, if_neg (Int.not_lt.mpr (Int.natCast_nonneg n)),
    Int.natAbs_natCast, decimalDigits, if_neg (Nat.ne_of_gt hn)] at hc
  obtain ⟨d, hd, rfl⟩ := List.mem_map.mp hc
  have hlt := Nat.digits_lt_base (by decide) (List.mem_reverse.mp hd)
  intro hzero
  have hnum := congrArg BitVec.toNat hzero
  rw [digitChar, BitVec.toNat_ofNat, Nat.mod_eq_of_lt (by omega)] at hnum
  exact absurd hnum (by simp)

/-- The string that `itoa` writes for a positive `int`, at the address that it
returns. -/
theorem itoa_holdsString {n : ℕ} (hpos : 0 < n) (hlt : n < 2 ^ 32) (str : Word)
    (m : Memory) :
    HoldsString (itoa n str 10 m).2 (itoa n str 10 m).1 (decimal n) := by
  have hreturned : (itoa n str 10 m).1 = str := by
    rw [itoa, if_neg (by decide), if_neg (by omega)]
  rw [hreturned]
  exact ⟨fun c hc => ne_zero_of_mem_decimal hpos hc, itoa_of_pos hpos hlt str m⟩

/-- **What `itoa` writes, `atoi` reads.** For every positive `int`, there is
one string at the address that `itoa` returns, and `atoi` of it is the number.
The number may have ten digits; the multiplier wraps around only after the last
of them. -/
theorem atoi_itoa {v : Word} (hv : 0 < v.toInt) (str : Word) (m : Memory) :
    (∃ s, HoldsString (itoa v.toInt str 10 m).2 (itoa v.toInt str 10 m).1 s)
      ∧ ∀ s, HoldsString (itoa v.toInt str 10 m).2 (itoa v.toInt str 10 m).1 s →
        atoi s = v.toInt := by
  have hlt := BitVec.toInt_lt (x := v)
  obtain ⟨n, hn⟩ : ∃ n : ℕ, v.toInt = n := ⟨v.toInt.toNat, by omega⟩
  rw [hn] at hv hlt ⊢
  have hholds := itoa_holdsString (n := n) (by omega) (by omega) str m
  refine ⟨⟨_, hholds⟩, fun s hs => ?_⟩
  rw [hs.unique hholds, atoi_decimal (by omega)]
  exact Int.bmod_eq_of_le (by omega) (by omega)

/-- The theorem for the greatest `int`, which has ten digits. -/
theorem atoi_itoa_greatest :
    (∃ s, HoldsString (itoa 2147483647 0x1000#32 10 fun _ => 0xFF#8).2
        (itoa 2147483647 0x1000#32 10 fun _ => 0xFF#8).1 s)
      ∧ ∀ s, HoldsString (itoa 2147483647 0x1000#32 10 fun _ => 0xFF#8).2
        (itoa 2147483647 0x1000#32 10 fun _ => 0xFF#8).1 s →
        atoi s = 2147483647 :=
  atoi_itoa (v := 0x7FFFFFFF#32) (by decide) 0x1000#32 fun _ => 0xFF#8

end Libc

end N00bOS
