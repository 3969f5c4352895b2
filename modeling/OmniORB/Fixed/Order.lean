import OmniORB.Fixed.Canonical

/-!
# Comparison of fixed point numbers

On numbers in canonical form `NP_cmp` is the order of the rational numbers they stand for.
-/

namespace OmniORB

open Library

/-- The sign of a comparison tells how the two are ordered. -/
def Compares (c : ℤ) (x y : ℚ) : Prop := (c < 0 ↔ x < y) ∧ (c = 0 ↔ x = y) ∧ (0 < c ↔ y < x)

namespace Compares

variable {c : ℤ} {x y : ℚ}

lemma of_lt (hc : c < 0) (h : x < y) : Compares c x y :=
  ⟨iff_of_true hc h, iff_of_false hc.ne h.ne, iff_of_false hc.not_gt h.not_gt⟩

lemma of_gt (hc : 0 < c) (h : y < x) : Compares c x y :=
  ⟨iff_of_false hc.not_gt h.not_gt, iff_of_false hc.ne' h.ne', iff_of_true hc h⟩

lemma refl (x : ℚ) : Compares 0 x x :=
  ⟨iff_of_false (lt_irrefl 0) (lt_irrefl x), iff_of_true rfl rfl,
    iff_of_false (lt_irrefl 0) (lt_irrefl x)⟩

/-- Comparing negations turns the order around. -/
lemma neg (h : Compares c y x) : Compares c (-x) (-y) := by
  obtain ⟨h1, h2, h3⟩ := h
  refine ⟨?_, ?_, ?_⟩
  · rw [h1, neg_lt_neg_iff]
  · rw [h2, neg_inj, eq_comm]
  · rw [h3, neg_lt_neg_iff]

lemma sign (h : Compares c x y) : Compares c.sign x y := by
  obtain ⟨h1, h2, h3⟩ := h
  refine ⟨?_, ?_, ?_⟩
  · rw [Int.sign_neg_iff, h1]
  · rw [Int.sign_eq_zero_iff_zero, h2]
  · rw [Int.sign_pos_iff, h3]

end Compares

namespace Fixed

/-- The number without its sign. -/
def magnitude (f : Fixed) : ℚ := ((Nat.ofDigits 10 f.val : ℕ) : ℚ) / 10 ^ f.scale

/-- The rational number that a fixed point number stands for. -/
def value (f : Fixed) : ℚ := if f.negative then -f.magnitude else f.magnitude

lemma magnitude_nonneg (f : Fixed) : 0 ≤ f.magnitude := by
  unfold magnitude
  positivity

/-! ### Digits -/

/-- From the first digit on the difference decides. A longer number is the greater one, as it does
not end in a zero. -/
lemma absCmpDigits_compares {k l : List ℕ} (hk : Digits k) (hl : Digits l)
    (hkz : l.length < k.length → k.getLast? ≠ some 0)
    (hlz : k.length < l.length → l.getLast? ≠ some 0) :
    Compares (absCmpDigits k l) (fraction k) (fraction l) := by
  fun_induction absCmpDigits k l with
  | case1 x k y l h =>
    rcases lt_trichotomy x y with hxy | rfl | hxy
    · exact .of_lt (by omega) (fraction_lt_of_head_lt (digits_cons.mp hk).2 hxy)
    · exact absurd (sub_self _) h
    · exact .of_gt (by omega) (fraction_lt_of_head_lt (digits_cons.mp hl).2 hxy)
  | case2 x k y l h ih =>
    obtain rfl : x = y := by omega
    have hih := ih (digits_cons.mp hk).2 (digits_cons.mp hl).2 ?_ ?_
    · unfold Compares
      rw [fraction_cons_lt_cons, fraction_cons_lt_cons, fraction_cons_eq_cons]
      exact hih
    · intro hlen h0
      refine hkz (by simpa using hlen) ?_
      cases k with
      | nil => exact absurd hlen (Nat.not_lt_zero _)
      | cons z k => rwa [List.getLast?_cons_cons]
    · intro hlen h0
      refine hlz (by simpa using hlen) ?_
      cases l with
      | nil => exact absurd hlen (Nat.not_lt_zero _)
      | cons z l => rwa [List.getLast?_cons_cons]
  | case3 x k =>
    exact .of_gt Int.one_pos (fraction_pos (List.cons_ne_nil x k) (hkz (Nat.succ_pos _)))
  | case4 y l =>
    exact .of_lt (by decide) (fraction_pos (List.cons_ne_nil y l) (hlz (Nat.succ_pos _)))
  | case5 => exact .refl _

/-! ### Numbers -/

namespace Canonical

variable {f g : Fixed}

/-- The digits before the decimal point shift those after it. -/
lemma magnitude_eq (hf : f.Canonical) :
    f.magnitude = 10 ^ (f.digits - f.scale) * fraction f.val.reverse := by
  have hs : f.digits = f.scale + (f.digits - f.scale) := (Nat.add_sub_cancel' hf.scale_le).symm
  have hlen : f.val.length = f.scale + (f.digits - f.scale) := hs
  rw [fraction_reverse, magnitude, hlen, pow_add]
  field_simp

lemma magnitude_lt (hf : f.Canonical) : f.magnitude < 10 ^ (f.digits - f.scale) := by
  have h := fraction_lt_one (digits_reverse.mpr hf.digits_val)
  rw [hf.magnitude_eq]
  calc (10 : ℚ) ^ (f.digits - f.scale) * fraction f.val.reverse
      < 10 ^ (f.digits - f.scale) * 1 := by gcongr
    _ = 10 ^ (f.digits - f.scale) := mul_one _

/-- There is no leading zero before the decimal point. -/
lemma le_magnitude (hf : f.Canonical) (h : f.scale < f.digits) :
    10 ^ (f.digits - f.scale - 1) ≤ f.magnitude := by
  have hlast := hf.leading h
  rw [← List.head?_reverse] at hlast
  obtain ⟨x, l, hxl⟩ : ∃ x l, f.val.reverse = x :: l := by
    refine List.exists_cons_of_length_pos ?_
    rw [List.length_reverse]
    exact Nat.zero_lt_of_lt h
  rw [hxl] at hlast
  have hx : x ≠ 0 := by simpa using hlast
  have hfr := one_le_ten_mul_fraction (l := l) hx
  obtain ⟨k, hk⟩ : ∃ k, f.digits - f.scale = k + 1 := ⟨f.digits - f.scale - 1, by omega⟩
  rw [hf.magnitude_eq, hxl, hk, Nat.add_sub_cancel, pow_succ, mul_assoc]
  exact le_mul_of_one_le_right (by positivity) hfr

/-- More digits before the decimal point make the greater number. -/
lemma magnitude_lt_magnitude (hf : f.Canonical) (hg : g.Canonical)
    (h : f.digits - f.scale < g.digits - g.scale) : f.magnitude < g.magnitude :=
  calc f.magnitude < 10 ^ (f.digits - f.scale) := hf.magnitude_lt
    _ ≤ 10 ^ (g.digits - g.scale - 1) := pow_le_pow_right₀ (by norm_num) (by omega)
    _ ≤ g.magnitude := hg.le_magnitude (by omega)

/-- Of as many digits before the decimal point, a longer number does not end in a zero. -/
lemma reverse_getLast? (hf : f.Canonical) (hg : g.Canonical)
    (h : f.digits - f.scale = g.digits - g.scale) (hlen : g.digits < f.digits) :
    f.val.reverse.getLast? ≠ some 0 := by
  rw [List.getLast?_reverse]
  have h1 := hf.scale_le
  have h2 := hg.scale_le
  exact hf.trailing (by omega)

lemma absCmp_compares (hf : f.Canonical) (hg : g.Canonical) :
    Compares (absCmp f g) f.magnitude g.magnitude := by
  have h1 := hf.scale_le
  have h2 := hg.scale_le
  unfold absCmp
  dsimp only
  split_ifs with h
  · rcases lt_or_gt_of_ne h with hlt | hgt
    · exact .of_lt hlt (hf.magnitude_lt_magnitude hg (by omega))
    · exact .of_gt hgt (hg.magnitude_lt_magnitude hf (by omega))
  · have heq : f.digits - f.scale = g.digits - g.scale := by omega
    have hc := absCmpDigits_compares (digits_reverse.mpr hf.digits_val)
      (digits_reverse.mpr hg.digits_val) ?_ ?_
    · have hpos : (0 : ℚ) < 10 ^ (g.digits - g.scale) := by positivity
      unfold Compares
      rw [hf.magnitude_eq, hg.magnitude_eq, heq, mul_lt_mul_iff_right₀ hpos,
        mul_lt_mul_iff_right₀ hpos, mul_right_inj' hpos.ne']
      exact hc
    · rw [List.length_reverse, List.length_reverse]
      exact hf.reverse_getLast? hg heq
    · rw [List.length_reverse, List.length_reverse]
      exact hg.reverse_getLast? hf heq.symm

/-- Only the number without digits is zero. -/
lemma magnitude_pos (hf : f.Canonical) (h : f.val ≠ []) : 0 < f.magnitude := by
  rcases Nat.lt_or_ge f.scale f.digits with hs | hs
  · exact lt_of_lt_of_le (by positivity) (hf.le_magnitude hs)
  · have hlen : 0 < f.val.length := List.length_pos_of_ne_nil h
    have hscale : 0 < f.scale := lt_of_lt_of_le hlen hs
    have hfr : 0 < fraction f.val.reverse := by
      refine fraction_pos (by simpa using h) ?_
      rw [List.getLast?_reverse]
      exact hf.trailing hscale
    rw [hf.magnitude_eq]
    positivity

end Canonical

end Fixed

end OmniORB
