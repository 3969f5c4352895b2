import Mathlib

/-!
# Multiples of a unit

Which of the multiples of a unit is the nearest to a number, and which the nearest towards zero.
-/

namespace OmniORB.Library

variable {u x y z : ℚ}

def MultipleOf (u y : ℚ) : Prop := ∃ m : ℤ, y = m * u

lemma MultipleOf.neg (h : MultipleOf u y) : MultipleOf u (-y) := by
  obtain ⟨m, rfl⟩ := h
  exact ⟨-m, by push_cast; ring⟩

/-- The nearest multiple. Of two that are as near, it is the one away from zero. -/
structure Nearest (u x y : ℚ) : Prop where
  multiple : MultipleOf u y
  le : ∀ z, MultipleOf u z → |x - y| ≤ |x - z|
  away : ∀ z, MultipleOf u z → |x - z| = |x - y| → |z| ≤ |y|

/-- Of the multiples between zero and a number, the nearest to it. -/
structure NearestToZero (u x y : ℚ) : Prop where
  multiple : MultipleOf u y
  abs_le : |y| ≤ |x|
  sign : 0 ≤ x * y
  le : ∀ z, MultipleOf u z → |z| ≤ |x| → 0 ≤ x * z → |z| ≤ |y|

lemma abs_neg_sub_neg (x y : ℚ) : |-x - -y| = |x - y| := by
  rw [neg_sub_neg, abs_sub_comm]

lemma Nearest.neg (h : Nearest u x y) : Nearest u (-x) (-y) where
  multiple := h.multiple.neg
  le z hz := by
    have hle := h.le (-z) hz.neg
    rwa [← abs_neg_sub_neg x (-z), neg_neg, ← abs_neg_sub_neg x y] at hle
  away z hz heq := by
    rw [abs_neg, ← abs_neg z]
    refine h.away (-z) hz.neg ?_
    rwa [← abs_neg_sub_neg x (-z), neg_neg, ← abs_neg_sub_neg x y]

lemma NearestToZero.neg (h : NearestToZero u x y) : NearestToZero u (-x) (-y) where
  multiple := h.multiple.neg
  abs_le := by
    rw [abs_neg, abs_neg]
    exact h.abs_le
  sign := by
    rw [neg_mul_neg]
    exact h.sign
  le z hz hle hsign := by
    rw [abs_neg] at hle ⊢
    rw [← abs_neg z] at hle ⊢
    refine h.le (-z) hz.neg hle ?_
    rwa [mul_neg, ← neg_mul]

/-- A multiple is the nearest to itself. -/
lemma Nearest.refl (h : MultipleOf u x) : Nearest u x x where
  multiple := h
  le z _ := by
    rw [sub_self, abs_zero]
    exact abs_nonneg _
  away z _ heq := by
    rw [sub_self, abs_zero, abs_eq_zero, sub_eq_zero] at heq
    rw [heq]

lemma NearestToZero.refl (h : MultipleOf u x) : NearestToZero u x x where
  multiple := h
  abs_le := le_rfl
  sign := mul_self_nonneg x
  le _ _ hle _ := hle

/-! ### Numbers between two multiples -/

section

variable {q : ℕ} (hu : 0 < u) (hlow : q * u ≤ x) (hhigh : x < (q + 1) * u)

include hu

/-- A multiple is not between the two. -/
lemma le_or_le_of_multiple (q : ℕ) (m : ℤ) : (m : ℚ) * u ≤ q * u ∨ ((q : ℚ) + 1) * u ≤ m * u := by
  rcases le_or_gt m q with h | h
  · left
    have hm : (m : ℚ) ≤ q := by exact_mod_cast h
    gcongr
  · right
    have hm : (q : ℚ) + 1 ≤ m := by exact_mod_cast h
    gcongr

include hlow hhigh

lemma nearestToZero_of_between : NearestToZero u x (q * u) := by
  have hq : 0 ≤ (q : ℚ) * u := by positivity
  refine ⟨⟨q, by push_cast; rfl⟩, ?_, mul_nonneg (hq.trans hlow) hq, ?_⟩
  · rw [abs_of_nonneg hq, abs_of_nonneg (hq.trans hlow)]
    exact hlow
  · rintro z ⟨m, rfl⟩ hle hsign
    rw [abs_of_nonneg (hq.trans hlow)] at hle
    rw [abs_of_nonneg hq]
    rcases le_or_gt 0 ((m : ℚ) * u) with hpos | hneg
    · rw [abs_of_nonneg hpos] at hle ⊢
      rcases le_or_le_of_multiple hu q m with h | h
      · exact h
      · linarith
    · -- then the number is zero
      have hx : x = 0 := by
        by_contra hne
        have hxpos : 0 < x := lt_of_le_of_ne (hq.trans hlow) (Ne.symm hne)
        exact absurd hsign (not_le.mpr (mul_neg_of_pos_of_neg hxpos hneg))
      rw [hx] at hle
      exact hle.trans hq

/-- Less than half of the unit is left. -/
lemma nearest_of_lt (hhalf : 2 * (x - q * u) < u) : Nearest u x (q * u) := by
  have habs : |x - q * u| = x - q * u := abs_of_nonneg (sub_nonneg.mpr hlow)
  have hother : ∀ m : ℤ, (m : ℚ) * u = q * u ∨ |x - q * u| < |x - m * u| := by
    intro m
    rcases le_or_le_of_multiple hu q m with h | h
    · rcases h.eq_or_lt with heq | hlt
      · exact .inl heq
      · right
        rw [habs, abs_of_nonneg (by linarith)]
        linarith
    · right
      rw [habs, abs_of_nonpos (by linarith)]
      linarith
  refine ⟨⟨q, by push_cast; rfl⟩, ?_, ?_⟩
  · rintro z ⟨m, rfl⟩
    rcases hother m with h | h
    · rw [h]
    · exact h.le
  · rintro z ⟨m, rfl⟩ heq
    rcases hother m with h | h
    · rw [h]
    · exact absurd heq h.ne'

omit hlow in
/-- Half of the unit is left, or more. -/
lemma nearest_of_le (hhalf : u ≤ 2 * (x - q * u)) : Nearest u x ((q + 1) * u) := by
  have hq : 0 ≤ (q : ℚ) * u := by positivity
  have habs : |x - (q + 1) * u| = (q + 1) * u - x := by
    rw [abs_of_nonpos (by linarith)]
    ring
  refine ⟨⟨q + 1, by push_cast; rfl⟩, ?_, ?_⟩
  · rintro z ⟨m, rfl⟩
    rw [habs]
    rcases le_or_le_of_multiple hu q m with h | h
    · rw [abs_of_nonneg (by linarith)]
      linarith
    · rw [abs_of_nonpos (by linarith)]
      linarith
  · rintro z ⟨m, rfl⟩ heq
    rw [habs] at heq
    rw [abs_of_nonneg (show (0 : ℚ) ≤ (q + 1) * u by linarith), abs_le]
    rcases le_or_le_of_multiple hu q m with h | h
    · rw [abs_of_nonneg (by linarith)] at heq
      constructor <;> linarith
    · rw [abs_of_nonpos (by linarith)] at heq
      constructor <;> linarith

end

end OmniORB.Library
