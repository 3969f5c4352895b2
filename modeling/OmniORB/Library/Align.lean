import Mathlib

/-!
# Rounding a position up to an alignment

`alignTo p a` is the least multiple of `a` that is not below `p`.
-/

namespace OmniORB.Library

/-- The least multiple of `a` that is at least `p` (for `0 < a`). -/
def alignTo (p a : ℕ) : ℕ := (p + (a - 1)) / a * a

lemma dvd_alignTo (p a : ℕ) : a ∣ alignTo p a := Dvd.intro_left _ rfl

lemma le_alignTo {a : ℕ} (p : ℕ) (ha : 0 < a) : p ≤ alignTo p a := by
  unfold alignTo
  have h := Nat.div_add_mod (p + (a - 1)) a
  have hlt := Nat.mod_lt (p + (a - 1)) ha
  rw [Nat.mul_comm] at h
  omega

lemma alignTo_lt {a : ℕ} (p : ℕ) (ha : 0 < a) : alignTo p a < p + a := by
  unfold alignTo
  have h := Nat.div_mul_le_self (p + (a - 1)) a
  omega

/-- `alignTo` is the least aligned position. -/
lemma alignTo_le {p q a : ℕ} (ha : 0 < a) (hpq : p ≤ q) (hq : a ∣ q) : alignTo p a ≤ q := by
  obtain ⟨k, rfl⟩ := hq
  have hlt := alignTo_lt p ha
  obtain ⟨m, hm⟩ := dvd_alignTo p a
  rw [hm] at hlt ⊢
  have : a * m < a * (k + 1) := by
    rw [Nat.mul_add]; omega
  exact Nat.mul_le_mul_left a (Nat.lt_succ_iff.mp (Nat.lt_of_mul_lt_mul_left this))

lemma alignTo_of_dvd {p a : ℕ} (ha : 0 < a) (hp : a ∣ p) : alignTo p a = p :=
  le_antisymm (alignTo_le ha le_rfl hp) (le_alignTo p ha)

@[simp] lemma alignTo_one (p : ℕ) : alignTo p 1 = p := by simp [alignTo]

lemma alignTo_idem {a : ℕ} (p : ℕ) (ha : 0 < a) : alignTo (alignTo p a) a = alignTo p a :=
  alignTo_of_dvd ha (dvd_alignTo p a)

lemma alignTo_mono {p q a : ℕ} (ha : 0 < a) (h : p ≤ q) : alignTo p a ≤ alignTo q a :=
  alignTo_le ha (h.trans (le_alignTo q ha)) (dvd_alignTo q a)

/-- Shifting by a multiple of the alignment shifts the aligned position. -/
lemma alignTo_add_of_dvd {a d : ℕ} (p : ℕ) (ha : 0 < a) (hd : a ∣ d) :
    alignTo (p + d) a = alignTo p a + d := by
  obtain ⟨k, rfl⟩ := hd
  unfold alignTo
  rw [show p + a * k + (a - 1) = p + (a - 1) + a * k by omega, Nat.add_mul_div_left _ _ ha,
    Nat.add_mul, Nat.mul_comm k a]

end OmniORB.Library
