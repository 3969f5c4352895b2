import Mathlib

/-!
# Decimal digits

Lists of decimal digits with the least significant first, as `Nat.ofDigits` reads them. The digits
from position `m` on are those before the decimal point.
-/

namespace OmniORB.Library

/-- Every entry is a digit. -/
def Digits (l : List ℕ) : Prop := ∀ d ∈ l, d ≤ 9

/-- The digits from position `m` on do not end in a zero. -/
def NoLeadingZero (m : ℕ) (l : List ℕ) : Prop := m < l.length → l.getLast? ≠ some 0

instance : DecidablePred Digits := fun l => inferInstanceAs (Decidable (∀ d ∈ l, d ≤ 9))

instance (m : ℕ) (l : List ℕ) : Decidable (NoLeadingZero m l) :=
  inferInstanceAs (Decidable (m < l.length → l.getLast? ≠ some 0))

/-! ### Digits -/

@[simp] lemma digits_nil : Digits [] := List.forall_mem_nil _

@[simp] lemma digits_cons {x : ℕ} {l : List ℕ} : Digits (x :: l) ↔ x ≤ 9 ∧ Digits l :=
  List.forall_mem_cons

@[simp] lemma digits_append {k l : List ℕ} : Digits (k ++ l) ↔ Digits k ∧ Digits l :=
  List.forall_mem_append

@[simp] lemma digits_reverse {l : List ℕ} : Digits l.reverse ↔ Digits l := by
  simp [Digits]

lemma digits_replicate_zero (n : ℕ) : Digits (List.replicate n 0) := by
  intro d hd
  rw [List.eq_of_mem_replicate hd]
  exact Nat.zero_le 9

namespace Digits

variable {l : List ℕ}

lemma of_sublist {k : List ℕ} (hl : Digits l) (h : k.Sublist l) : Digits k :=
  fun d hd => hl d (h.subset hd)

lemma drop (hl : Digits l) (n : ℕ) : Digits (l.drop n) := hl.of_sublist (List.drop_sublist n l)

lemma take (hl : Digits l) (n : ℕ) : Digits (l.take n) := hl.of_sublist (List.take_sublist n l)

lemma set (hl : Digits l) (n : ℕ) {x : ℕ} (hx : x ≤ 9) : Digits (l.set n x) := by
  intro d hd
  rcases List.mem_or_eq_of_mem_set hd with h | h
  · exact hl d h
  · rw [h]
    exact hx

lemma getD (hl : Digits l) (n : ℕ) : l.getD n 0 ≤ 9 := by
  rw [List.getD_eq_getElem?_getD]
  rcases h : l[n]? with - | d
  · exact Nat.zero_le 9
  · exact hl d (List.mem_of_getElem? h)

lemma headD (hl : Digits l) : l.headD 0 ≤ 9 := by
  cases l with
  | nil => exact Nat.zero_le 9
  | cons x l => exact (digits_cons.mp hl).1

end Digits

/-! ### Leading zeros -/

namespace NoLeadingZero

variable {m : ℕ} {l : List ℕ}

lemma of_length_le (h : l.length ≤ m) : NoLeadingZero m l := fun h1 => absurd h1 (not_lt.mpr h)

@[simp] lemma nil : NoLeadingZero m [] := of_length_le (Nat.zero_le m)

lemma of_getLast {k : List ℕ} {x : ℕ} (hx : x ≠ 0) : NoLeadingZero m (k ++ [x]) := by
  intro _
  simpa using hx

/-- The digits after the decimal point do not count. -/
lemma append_iff {k : List ℕ} : NoLeadingZero (k.length + m) (k ++ l) ↔ NoLeadingZero m l := by
  unfold NoLeadingZero
  rw [List.length_append, Nat.add_lt_add_iff_left]
  rcases List.eq_nil_or_concat l with rfl | ⟨l, x, rfl⟩
  · simp
  · simp

lemma cons_succ {x : ℕ} : NoLeadingZero (m + 1) (x :: l) ↔ NoLeadingZero m l := by
  have h := append_iff (m := m) (l := l) (k := [x])
  rwa [List.length_singleton, Nat.add_comm 1 m] at h

lemma cons (h : NoLeadingZero (m - 1) l) (hx : m = 0 → l = [] → x ≠ 0) :
    NoLeadingZero m (x :: l) := by
  cases m with
  | succ m => exact cons_succ.mpr h
  | zero =>
    cases l with
    | nil => exact of_getLast (k := []) (hx rfl rfl)
    | cons y l =>
      intro _
      rw [List.getLast?_cons_cons]
      exact h (by simp)

lemma of_cons {x : ℕ} (h : NoLeadingZero m (x :: l)) : NoLeadingZero (m - 1) l := by
  cases m with
  | succ m => exact cons_succ.mp h
  | zero =>
    cases l with
    | nil => exact nil
    | cons y l =>
      intro _
      have h1 := h (by simp)
      rwa [List.getLast?_cons_cons] at h1

lemma head_ne_zero {x : ℕ} (h : NoLeadingZero 0 [x]) : x ≠ 0 := by simpa [NoLeadingZero] using h

lemma drop {n : ℕ} (hn : n ≤ l.length) (h : NoLeadingZero (n + m) l) :
    NoLeadingZero m (l.drop n) := by
  have h1 := append_iff (m := m) (l := l.drop n) (k := l.take n)
  rw [List.take_append_drop, List.length_take_of_le hn] at h1
  exact h1.mp h

/-- Dropping zeros at the end leaves no leading zero. -/
lemma rdropWhile (l : List ℕ) : NoLeadingZero m (l.rdropWhile (· = 0)) := by
  intro hm h0
  have hne : l.rdropWhile (· = 0) ≠ [] := by
    intro hnil
    rw [hnil] at hm
    exact absurd hm (Nat.not_lt_zero m)
  have hlast := List.rdropWhile_last_not (p := fun d : ℕ => decide (d = 0)) l hne
  rw [List.getLast?_eq_some_getLast hne, Option.some.injEq] at h0
  exact hlast (by simpa using h0)

end NoLeadingZero

/-! ### Digits after the decimal point -/

/-- The value of the digits after a decimal point, the most significant first. -/
def fraction : List ℕ → ℚ
  | [] => 0
  | d :: l => (d + fraction l) / 10

lemma fraction_nil : fraction [] = 0 := rfl

lemma fraction_cons (d : ℕ) (l : List ℕ) : fraction (d :: l) = (d + fraction l) / 10 := rfl

lemma fraction_nonneg (l : List ℕ) : 0 ≤ fraction l := by
  induction l with
  | nil => exact le_rfl
  | cons d l ih =>
    rw [fraction_cons]
    positivity

lemma fraction_lt_one {l : List ℕ} (hl : Digits l) : fraction l < 1 := by
  induction l with
  | nil => exact zero_lt_one
  | cons d l ih =>
    obtain ⟨hd, hl⟩ := digits_cons.mp hl
    have hd : (d : ℚ) ≤ 9 := by exact_mod_cast hd
    have hf := ih hl
    rw [fraction_cons, div_lt_one (by norm_num)]
    linarith

/-- A number whose last digit is not zero is positive. -/
lemma fraction_pos {l : List ℕ} (hl : l ≠ []) (hlast : l.getLast? ≠ some 0) : 0 < fraction l := by
  induction l with
  | nil => exact absurd rfl hl
  | cons d l ih =>
    have hf := fraction_nonneg l
    rw [fraction_cons]
    cases l with
    | nil =>
      have hd : 0 < d := Nat.pos_of_ne_zero (by simpa using hlast)
      have hd : (0 : ℚ) < d := by exact_mod_cast hd
      positivity
    | cons e l =>
      rw [List.getLast?_cons_cons] at hlast
      have hpos := ih (List.cons_ne_nil e l) hlast
      positivity

lemma fraction_append (k l : List ℕ) :
    fraction (k ++ l) = fraction k + fraction l / 10 ^ k.length := by
  induction k with
  | nil => simp [fraction_nil]
  | cons d k ih =>
    rw [List.cons_append, fraction_cons, fraction_cons, ih, List.length_cons, pow_succ]
    field_simp
    ring

/-- The digits of a whole number after a decimal point. -/
lemma fraction_reverse (l : List ℕ) :
    fraction l.reverse = ((Nat.ofDigits 10 l : ℕ) : ℚ) / 10 ^ l.length := by
  induction l with
  | nil => simp [fraction_nil]
  | cons d l ih =>
    rw [List.reverse_cons, fraction_append, ih, List.length_reverse, List.length_cons,
      Nat.ofDigits_cons, fraction_cons, fraction_nil]
    push_cast
    field_simp
    ring

/-- The first digit that differs decides. -/
lemma fraction_lt_of_head_lt {x y : ℕ} {k l : List ℕ} (hk : Digits k) (h : x < y) :
    fraction (x :: k) < fraction (y :: l) := by
  have hx : (x : ℚ) + 1 ≤ y := by exact_mod_cast h
  have hk := fraction_lt_one hk
  have hl := fraction_nonneg l
  rw [fraction_cons, fraction_cons, div_lt_div_iff_of_pos_right (by norm_num)]
  linarith

lemma fraction_cons_lt_cons {x : ℕ} {k l : List ℕ} :
    fraction (x :: k) < fraction (x :: l) ↔ fraction k < fraction l := by
  rw [fraction_cons, fraction_cons, div_lt_div_iff_of_pos_right (by norm_num), add_lt_add_iff_left]

lemma fraction_cons_eq_cons {x : ℕ} {k l : List ℕ} :
    fraction (x :: k) = fraction (x :: l) ↔ fraction k = fraction l := by
  rw [fraction_cons, fraction_cons, div_left_inj' (by norm_num), add_right_inj]

/-- A leading digit that is not zero bounds the number from below. -/
lemma one_le_ten_mul_fraction {x : ℕ} {l : List ℕ} (hx : x ≠ 0) : 1 ≤ 10 * fraction (x :: l) := by
  have hx : (1 : ℚ) ≤ x := by exact_mod_cast Nat.one_le_iff_ne_zero.mpr hx
  have hl := fraction_nonneg l
  rw [fraction_cons]
  linarith

end OmniORB.Library
