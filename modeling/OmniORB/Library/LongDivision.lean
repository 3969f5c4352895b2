import Mathlib

/-!
# Long division

Digits of a quotient are found one after the other, from the most significant on, until nothing
remains or there are enough of them. What is found is the quotient, cut off at a position.
-/

namespace OmniORB.Library

variable {β : ℕ}

/-! ### Positions -/

/-- A number is cut off at a position: `n` is what stands above it. -/
def Cut (β : ℕ) (x : ℚ) (n : ℕ) (e : ℤ) : Prop :=
  (n : ℚ) * (β : ℚ) ^ e ≤ x ∧ x < (n + 1) * (β : ℚ) ^ e

namespace Cut

variable {x : ℚ} {n : ℕ} {e : ℤ}

/-- Cut off again, further up. -/
lemma coarser (hβ : 0 < β) (h : Cut β x n e) (m : ℕ) : Cut β x (n / β ^ m) (e + m) := by
  have hpos : (0 : ℚ) < (β : ℚ) ^ e := zpow_pos (by exact_mod_cast hβ) e
  have hne : (β : ℚ) ≠ 0 := by exact_mod_cast hβ.ne'
  have hlow : n / β ^ m * β ^ m ≤ n := Nat.div_mul_le_self n (β ^ m)
  have hhigh : n + 1 ≤ (n / β ^ m + 1) * β ^ m := by
    have hlt := Nat.lt_mul_div_succ n (pow_pos hβ m)
    rw [Nat.mul_comm] at hlt
    exact hlt
  have hlow' : ((n / β ^ m : ℕ) : ℚ) * (β : ℚ) ^ m ≤ n := by exact_mod_cast hlow
  have hhigh' : (n : ℚ) + 1 ≤ (((n / β ^ m : ℕ) : ℚ) + 1) * (β : ℚ) ^ m := by
    exact_mod_cast hhigh
  constructor
  · calc ((n / β ^ m : ℕ) : ℚ) * (β : ℚ) ^ (e + m)
        = ((n / β ^ m : ℕ) : ℚ) * (β : ℚ) ^ m * (β : ℚ) ^ e := by
          rw [zpow_add₀ hne, zpow_natCast]
          ring
      _ ≤ n * (β : ℚ) ^ e := mul_le_mul_of_nonneg_right hlow' hpos.le
      _ ≤ x := h.1
  · calc x < (n + 1) * (β : ℚ) ^ e := h.2
      _ ≤ (((n / β ^ m : ℕ) : ℚ) + 1) * (β : ℚ) ^ m * (β : ℚ) ^ e :=
          mul_le_mul_of_nonneg_right hhigh' hpos.le
      _ = (((n / β ^ m : ℕ) : ℚ) + 1) * (β : ℚ) ^ (e + m) := by
          rw [zpow_add₀ hne, zpow_natCast]
          ring

/-- The point is moved. -/
lemma shift (hβ : 0 < β) (h : Cut β x n e) (t : ℤ) : Cut β (x * (β : ℚ) ^ t) n (e + t) := by
  have hpos : (0 : ℚ) < (β : ℚ) ^ t := zpow_pos (by exact_mod_cast hβ) t
  have hne : (β : ℚ) ≠ 0 := by exact_mod_cast hβ.ne'
  rw [Cut, zpow_add₀ hne, ← mul_assoc, ← mul_assoc]
  exact ⟨mul_le_mul_of_nonneg_right h.1 hpos.le, mul_lt_mul_of_pos_right h.2 hpos⟩

/-- Below the point, the cut is a floor. -/
lemma floor_eq (hβ : 0 < β) {places : ℕ} (h : Cut β x n (-places)) :
    ⌊x * (β : ℚ) ^ places⌋₊ = n := by
  have hpos : (0 : ℚ) < (β : ℚ) ^ places := pow_pos (by exact_mod_cast hβ) places
  obtain ⟨hlow, hhigh⟩ := h
  rw [zpow_neg, zpow_natCast, ← div_eq_mul_inv] at hlow hhigh
  rw [div_le_iff₀ hpos] at hlow
  rw [lt_div_iff₀ hpos] at hhigh
  exact (Nat.floor_eq_iff (le_trans (Nat.cast_nonneg n) hlow)).mpr ⟨hlow, hhigh⟩

end Cut

/-! ### Digits of a quotient -/

/-- `q` are the digits of the quotient of `r` by `d`, from the most significant on and down to
position `e`; something remained when the last of them was found. -/
structure LongDivision (β r d : ℕ) (q : List ℕ) (e : ℕ) : Prop where
  quotient : Nat.ofDigits β q.reverse = r / (d * β ^ e)
  needed : q ≠ [] → r % (d * β ^ (e + 1)) ≠ 0

namespace LongDivision

variable {r d e : ℕ} {q : List ℕ}

lemma nil (h : r < d * β ^ e) : LongDivision β r d [] e where
  quotient := by rw [Nat.div_eq_of_lt h, List.reverse_nil, Nat.ofDigits_nil]
  needed hne := absurd rfl hne

/-- The first digit is the quotient at its position; the others are those of what remains. -/
lemma cons (hβ : 0 < β) (hd : 0 < d) (hr : r ≠ 0) (hlt : r < d * β ^ (e + q.length + 1))
    (h : LongDivision β (r % (d * β ^ (e + q.length))) d q e) :
    LongDivision β r d (r / (d * β ^ (e + q.length)) :: q) e where
  quotient := by
    have hpos : 0 < d * β ^ e := Nat.mul_pos hd (pow_pos hβ e)
    have hsplit : d * β ^ (e + q.length) = β ^ q.length * (d * β ^ e) := by ring
    rw [List.reverse_cons, Nat.ofDigits_append, Nat.ofDigits_singleton, h.quotient,
      List.length_reverse]
    conv_rhs => rw [← Nat.mod_add_div r (d * β ^ (e + q.length))]
    rw [hsplit, Nat.mul_right_comm, Nat.add_mul_div_right _ _ hpos]
  needed _ := by
    cases q with
    | nil =>
      rw [List.length_nil, Nat.add_zero] at hlt
      rw [Nat.mod_eq_of_lt hlt]
      exact hr
    | cons x l =>
      have hneeded := h.needed (List.cons_ne_nil x l)
      have hdvd : d * β ^ (e + 1) ∣ d * β ^ (e + (x :: l).length) :=
        Nat.mul_dvd_mul_left d (pow_dvd_pow β (by rw [List.length_cons]; omega))
      rwa [Nat.mod_mod_of_dvd _ hdvd] at hneeded

/-- The rational quotient, cut off at the position of the last digit. -/
lemma cut (hβ : 0 < β) (hd : 0 < d) (h : LongDivision β r d q e) :
    Cut β ((r : ℚ) / d) (Nat.ofDigits β q.reverse) e := by
  have hdq : (0 : ℚ) < d := by exact_mod_cast hd
  have hpos : 0 < d * β ^ e := Nat.mul_pos hd (pow_pos hβ e)
  rw [h.quotient, Cut, zpow_natCast]
  constructor
  · rw [le_div_iff₀ hdq]
    exact_mod_cast (by
      calc r / (d * β ^ e) * β ^ e * d = r / (d * β ^ e) * (d * β ^ e) := by ring
        _ ≤ r := Nat.div_mul_le_self r _)
  · rw [div_lt_iff₀ hdq]
    exact_mod_cast (by
      calc r < d * β ^ e * (r / (d * β ^ e) + 1) := Nat.lt_mul_div_succ r hpos
        _ = (r / (d * β ^ e) + 1) * β ^ e * d := by ring)

/-- Nothing remains: the quotient is exact. -/
lemma exact (hd : 0 < d) (h : LongDivision β r d q e) (hrest : r % (d * β ^ e) = 0) :
    (r : ℚ) / d = (Nat.ofDigits β q.reverse : ℕ) * (β : ℚ) ^ e := by
  have hdq : (d : ℚ) ≠ 0 := by exact_mod_cast hd.ne'
  have hmul : d * β ^ e * (r / (d * β ^ e)) = r := Nat.mul_div_cancel' (Nat.dvd_of_mod_eq_zero hrest)
  rw [h.quotient, div_eq_iff hdq]
  exact_mod_cast (by
    calc r = d * β ^ e * (r / (d * β ^ e)) := hmul.symm
      _ = r / (d * β ^ e) * β ^ e * d := by ring)

/-- One digit less was not enough. -/
lemma not_exact (hd : 0 < d) (h : LongDivision β r d q e) (hq : q ≠ []) (m : ℕ) :
    (r : ℚ) / d ≠ m * (β : ℚ) ^ (e + 1) := by
  intro heq
  have hdq : (d : ℚ) ≠ 0 := by exact_mod_cast hd.ne'
  rw [div_eq_iff hdq] at heq
  have hr : r = m * (d * β ^ (e + 1)) := by
    have hcast : r = m * β ^ (e + 1) * d := by exact_mod_cast heq
    rw [hcast]
    ring
  exact h.needed hq (by rw [hr, Nat.mul_mod_left])

end LongDivision

end OmniORB.Library
