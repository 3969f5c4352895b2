import Mathlib

/-!
# Bit fields of natural numbers as quotients and remainders

Masks and shifts are rewritten to `/`, `%` and `+` by literals, where `omega` decides them.
-/

namespace OmniORB.Library

/-- A mask of `w` low bits is a remainder. -/
lemma and_mask (n w : ℕ) : n &&& (2 ^ w - 1) = n % 2 ^ w :=
  Nat.and_two_pow_sub_one_eq_mod n w

/-- Masking a field of `w` bits at offset `k` and shifting it down extracts the field. -/
lemma shiftRight_and_field (n w k : ℕ) :
    (n &&& ((2 ^ w - 1) <<< k)) >>> k = n / 2 ^ k % 2 ^ w := by
  rw [Nat.shiftRight_and_distrib, Nat.shiftLeft_shiftRight, and_mask, Nat.shiftRight_eq_div_pow]

/-- Appending a field below: the fields do not overlap, so `|||` is addition. -/
lemma shiftLeft_or (n w m : ℕ) (h : m < 2 ^ w) : (n <<< w) ||| m = n * 2 ^ w + m := by
  rw [← Nat.shiftLeft_add_eq_or_of_lt h, Nat.shiftLeft_eq]

end OmniORB.Library
