import N00bOS.Comparisons
import N00bOS.NameLookup

/-!
# The comparisons of strings

`strncmp` and `strcasecmp` compare as `string.h` says when the first character
that differs is less in the first string. Their test for the opposite has its
arguments the other way round, and so asks the same question again: a greater
character is passed over. They also compare characters as signed ones.

Both are the loop of `N00bOS.Comparisons` that looks one way, with their own
notion of below and on their own part of the strings. What the header says is a
comparison by a key, the characters as unsigned ones, and the general theorem
about that loop gives the sets of strings on which they are one.
-/

namespace N00bOS

/-- Characters as unsigned ones, in the order of strings. -/
def unsignedChars (s : List Byte) : List ℕ := s.map BitVec.toNat

theorem unsignedChars_inj {s t : List Byte}
    (h : unsignedChars s = unsignedChars t) : s = t :=
  List.map_injective_iff.mpr (fun _ _ => BitVec.eq_of_toNat_eq) h

/-- A character is less than another, as a signed one. -/
def SignedBelow (c d : Byte) : Prop := c.toInt < d.toInt

instance :
    DecidableRel SignedBelow := fun c d =>
      inferInstanceAs (Decidable (c.toInt < d.toInt))

/-- `strncmp` is the loop that looks one way, on the first `n` characters. -/
theorem strncmp_eq_compareLoop (a b : List Byte) (n : ℕ) :
    strncmp a b n = compareLoop SignedBelow (a.take n) (b.take n) := by
  induction n generalizing a b with
  | zero =>
    rw [List.take_zero, List.take_zero, strncmp]
    rfl
  | succ n ih =>
    cases a with
    | nil => cases b <;> rfl
    | cons c a =>
      cases b with
      | nil => rfl
      | cons d b =>
        rw [strncmp, List.take_succ_cons, List.take_succ_cons, compareLoop, ih]
        by_cases hlt : SignedBelow c d
        · rw [if_pos hlt, if_pos (show c.toInt < d.toInt from hlt)]
        · -- the second test asks the same
          have hnot : ¬ c.toInt < d.toInt := hlt
          rw [if_neg hlt, if_neg hnot, if_neg hnot]

/-- `strcasecmp` is the loop that looks one way, on the lower-case strings. -/
theorem strcasecmp_eq_compareLoop (a b : List Byte) :
    strcasecmp a b = compareLoop SignedBelow (a.map asciiLower)
      (b.map asciiLower) := by
  induction a generalizing b with
  | nil => cases b <;> rfl
  | cons c a ih =>
    cases b with
    | nil => rfl
    | cons d b =>
      rw [strcasecmp, List.map_cons, List.map_cons, compareLoop, ih,
        tolower_eq, tolower_eq]
      by_cases hlt : SignedBelow (asciiLower c) (asciiLower d)
      · rw [if_pos hlt,
          if_pos (show (asciiLower c).toInt < (asciiLower d).toInt from hlt)]
      · have hnot : ¬ (asciiLower c).toInt < (asciiLower d).toInt := hlt
        rw [if_neg hlt, if_neg hnot, if_neg hnot]

/-- **The comparisons are orders on a set of strings** exactly when, of any two
that differ, the lesser is shorter, and has no character that is greater, as a
signed one, than the other's in the same place. For a first string that is
above the second one is never noticed: `strncmp` has no test for it, and
`strcasecmp` has the other test twice. What tells two strings apart is then
only a place where the first is below, or a length. -/
theorem string_comparisons_order_iff (S : Set (List Byte)) (n : ℕ) :
    (ComparesOn S (fun a b => strncmp a b n) (fun a => unsignedChars (a.take n))
      ↔ ∀ a ∈ S, ∀ b ∈ S, unsignedChars (a.take n) < unsignedChars (b.take n) →
        BelowPrefix (fun c d => ¬ SignedBelow d c) (a.take n) (b.take n))
    ∧ (ComparesOn S strcasecmp (fun a => unsignedChars (a.map asciiLower))
      ↔ ∀ a ∈ S, ∀ b ∈ S,
        unsignedChars (a.map asciiLower) < unsignedChars (b.map asciiLower) →
        BelowPrefix (fun c d => ¬ SignedBelow d c) (a.map asciiLower)
          (b.map asciiLower)) := by
  have hirrefl : ∀ c, ¬ SignedBelow c c := fun c => Int.lt_irrefl _
  constructor
  · rw [show (fun a b => strncmp a b n)
        = fun a b => compareLoop SignedBelow (a.take n) (b.take n) from
      funext fun a => funext fun b => strncmp_eq_compareLoop a b n]
    exact compareLoop_comparesOn_iff hirrefl fun _ _ => unsignedChars_inj
  · rw [show strcasecmp
        = fun a b =>
          compareLoop SignedBelow (a.map asciiLower) (b.map asciiLower) from
      funext fun a => funext fun b => strcasecmp_eq_compareLoop a b]
    exact compareLoop_comparesOn_iff hirrefl fun _ _ => unsignedChars_inj

/-- `"b"` and `"a"` compare as equal strings. -/
theorem greater_string_compares_equal :
    strncmp [0x62#8] [0x61#8] 1 = 0 ∧ strcasecmp [0x62#8] [0x61#8] = 0
      ∧ ¬ ComparesOn Set.univ (fun a b => strncmp a b 1) (fun a =>
        unsignedChars (a.take 1))
      ∧ ¬ ComparesOn Set.univ strcasecmp (fun a =>
        unsignedChars (a.map asciiLower)) := by
  refine ⟨by decide, by decide, fun h => ?_, fun h => ?_⟩
  · have hequal :=
      (h.eq_zero_iff [0x62#8] trivial [0x61#8] trivial).mp (by decide)
    exact absurd hequal (by decide)
  · have hequal :=
      (h.eq_zero_iff [0x62#8] trivial [0x61#8] trivial).mp (by decide)
    exact absurd hequal (by decide)

end N00bOS
