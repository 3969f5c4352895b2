import Mathlib

/-!
# Halving a sorted list

A binary search that stops at any of the elements that are equal to what is looked for, and the range
of these elements around it. A comparison function tells on which side of an element the thing that is
looked for lies: before it if negative, after it if positive.
-/

namespace OmniORB.Library

variable {α : Type*} {c : α → ℤ} {l a b d : List α}

/-- The loop `while (bottom < top)`, at most `n` times: whether an element was found, and where it is or
where it would be. -/
def halve (c : α → ℤ) (l : List α) : ℕ → ℕ → ℕ → Bool × ℕ
  | 0, bottom, _ => (false, bottom)
  | n + 1, bottom, top =>
    let i := (bottom + top) / 2
    if bottom < top then
      (l[i]?).elim (false, bottom) fun x =>
        if c x < 0 then halve c l n bottom i
        else if 0 < c x then halve c l n (if bottom = i then i + 1 else i) top
        else (true, i)
    else (false, bottom)

/-- The loop `while (bottom > 0 && p(bottom - 1)) bottom--`. -/
def extendDown (p : α → Bool) (l : List α) : ℕ → ℕ
  | 0 => 0
  | k + 1 => if (l[k]?).any p then extendDown p l k else k + 1

/-- The loop `while (top < count && p(top)) top++`, at most `n` times. -/
def extendUp (p : α → Bool) (l : List α) : ℕ → ℕ → ℕ
  | 0, k => k
  | n + 1, k => if (l[k]?).any p then extendUp p l n (k + 1) else k

/-- First come the elements that are too small, then those that are equal, then those that are too big. -/
structure Parted (c : α → ℤ) (l a b d : List α) : Prop where
  eq : l = a ++ b ++ d
  before : ∀ x ∈ a, 0 < c x
  among : ∀ x ∈ b, c x = 0
  after : ∀ x ∈ d, c x < 0

/-- What is looked for is never on the left of an element and on the right of a later one. -/
def Descending (c : α → ℤ) (l : List α) : Prop :=
  l.Pairwise fun x y => (0 < c y → 0 < c x) ∧ (c x < 0 → c y < 0)

lemma Descending.parted (h : Descending c l) :
    Parted c l (l.filter (0 < c ·)) (l.filter (c · = 0)) (l.filter (c · < 0)) := by
  refine ⟨?_, by simp, by simp, by simp⟩
  induction l with
  | nil => rfl
  | cons x l ih =>
    obtain ⟨hx, hl⟩ := List.pairwise_cons.mp h
    have ih := ih hl
    rcases lt_trichotomy (c x) 0 with hneg | hzero | hpos
    · have hall : ∀ y ∈ l, c y < 0 := fun y hy => (hx y hy).2 hneg
      have h1 : l.filter (0 < c ·) = [] := List.filter_eq_nil_iff.mpr fun y hy => by
        simpa using (hall y hy).le
      have h2 : l.filter (c · = 0) = [] := List.filter_eq_nil_iff.mpr fun y hy => by
        simpa using (hall y hy).ne
      rw [h1, h2] at ih
      rw [List.filter_cons_of_neg (by simpa using hneg.le), List.filter_cons_of_neg (by simpa using hneg.ne),
        List.filter_cons_of_pos (by simpa using hneg), h1, h2]
      exact congrArg (x :: ·) ih
    · have hall : ∀ y ∈ l, ¬ 0 < c y := fun y hy hy0 => absurd ((hx y hy).1 hy0) (by omega)
      have h1 : l.filter (0 < c ·) = [] := List.filter_eq_nil_iff.mpr fun y hy => by
        simpa using hall y hy
      rw [h1] at ih
      rw [List.filter_cons_of_neg (by simp [hzero]), List.filter_cons_of_pos (by simp [hzero]),
        List.filter_cons_of_neg (by simp [hzero]), h1]
      exact congrArg (x :: ·) ih
    · rw [List.filter_cons_of_pos (by simpa using hpos), List.filter_cons_of_neg (by simp; omega),
        List.filter_cons_of_neg (by simp; omega)]
      exact congrArg (x :: ·) ih

lemma insertIdx_append (a d : List α) (x : α) : (a ++ d).insertIdx a.length x = a ++ x :: d := by
  induction a with
  | nil => simp
  | cons y a ih => simpa using ih

namespace Parted

lemma length_eq (h : Parted c l a b d) : l.length = a.length + b.length + d.length := by
  rw [h.eq, List.length_append, List.length_append]

lemma get_before (h : Parted c l a b d) {i : ℕ} (hi : i < a.length) :
    ∃ x, l[i]? = some x ∧ 0 < c x := by
  refine ⟨a[i], ?_, h.before _ (List.getElem_mem hi)⟩
  rw [h.eq, List.append_assoc, List.getElem?_append_left hi, List.getElem?_eq_getElem hi]

lemma get_among (h : Parted c l a b d) {i : ℕ} (hle : a.length ≤ i) (hlt : i < a.length + b.length) :
    ∃ x, l[i]? = some x ∧ c x = 0 := by
  have hi : i - a.length < b.length := by omega
  refine ⟨b[i - a.length], ?_, h.among _ (List.getElem_mem hi)⟩
  rw [h.eq, List.append_assoc, List.getElem?_append_right hle, List.getElem?_append_left hi,
    List.getElem?_eq_getElem hi]

lemma get_after (h : Parted c l a b d) {i : ℕ} (hle : a.length + b.length ≤ i) (hlt : i < l.length) :
    ∃ x, l[i]? = some x ∧ c x < 0 := by
  rw [h.length_eq] at hlt
  have hi : i - (a ++ b).length < d.length := by
    rw [List.length_append]
    omega
  refine ⟨d[i - (a ++ b).length], ?_, h.after _ (List.getElem_mem hi)⟩
  rw [h.eq, List.getElem?_append_right (by rwa [List.length_append]), List.getElem?_eq_getElem hi]

/-- The search finds one of the equal elements, or the place between the others. -/
lemma halve (h : Parted c l a b d) (n : ℕ) {bottom top : ℕ} (hbottom : bottom ≤ a.length)
    (htop : a.length + b.length ≤ top) (hlen : top ≤ l.length) (hn : top - bottom ≤ n) :
    if b = [] then Library.halve c l n bottom top = (false, a.length)
    else ∃ i, Library.halve c l n bottom top = (true, i) ∧ a.length ≤ i ∧ i < a.length + b.length := by
  induction n generalizing bottom top with
  | zero =>
    have hb : b = [] := List.eq_nil_of_length_eq_zero (by omega)
    rw [if_pos hb, Library.halve, show bottom = a.length by omega]
  | succ n ih =>
    rw [Library.halve]
    by_cases hlt : bottom < top
    · rw [if_pos hlt]
      rcases Nat.lt_or_ge ((bottom + top) / 2) a.length with hi | hi
      · obtain ⟨x, hx, hpos⟩ := h.get_before hi
        rw [hx, Option.elim_some, if_neg (not_lt.mpr hpos.le), if_pos hpos]
        by_cases hmid : bottom = (bottom + top) / 2
        · rw [if_pos hmid]
          exact ih hi htop hlen (by omega)
        · rw [if_neg hmid]
          exact ih hi.le htop hlen (by omega)
      · rcases Nat.lt_or_ge ((bottom + top) / 2) (a.length + b.length) with hi' | hi'
        · obtain ⟨x, hx, hzero⟩ := h.get_among hi hi'
          have hb : b ≠ [] := by
            rintro rfl
            rw [List.length_nil] at hi'
            omega
          rw [hx, Option.elim_some, hzero, if_neg (lt_irrefl 0), if_neg (lt_irrefl 0), if_neg hb]
          exact ⟨_, rfl, hi, hi'⟩
        · obtain ⟨x, hx, hneg⟩ := h.get_after hi' (by omega)
          rw [hx, Option.elim_some, if_pos hneg]
          exact ih hbottom hi' (by omega) (by omega)
    · rw [if_neg hlt]
      have hb : b = [] := List.eq_nil_of_length_eq_zero (by omega)
      rw [if_pos hb, show bottom = a.length by omega]

variable {p : α → Bool}

lemma extendDown (h : Parted c l a b d) (hp : ∀ x, p x = true ↔ c x = 0) {k : ℕ} (hle : a.length ≤ k)
    (hlt : k ≤ a.length + b.length) : Library.extendDown p l k = a.length := by
  induction k with
  | zero =>
    rw [Library.extendDown]
    omega
  | succ k ih =>
    rw [Library.extendDown]
    rcases Nat.lt_or_ge k a.length with hk | hk
    · obtain ⟨x, hx, hpos⟩ := h.get_before hk
      have hpx : p x = false := by
        rw [Bool.eq_false_iff, Ne, hp]
        omega
      rw [hx, Option.any_some, hpx, if_neg (by simp)]
      omega
    · obtain ⟨x, hx, hzero⟩ := h.get_among hk (by omega)
      rw [hx, Option.any_some, (hp x).mpr hzero, if_pos rfl]
      exact ih hk (by omega)

lemma extendUp (h : Parted c l a b d) (hp : ∀ x, p x = true ↔ c x = 0) (n : ℕ) {k : ℕ} (hle : a.length ≤ k)
    (hlt : k ≤ a.length + b.length) (hn : l.length - k ≤ n) :
    Library.extendUp p l n k = a.length + b.length := by
  induction n generalizing k with
  | zero =>
    rw [Library.extendUp]
    have := h.length_eq
    omega
  | succ n ih =>
    rw [Library.extendUp]
    rcases Nat.lt_or_ge k (a.length + b.length) with hk | hk
    · obtain ⟨x, hx, hzero⟩ := h.get_among hle hk
      rw [hx, Option.any_some, (hp x).mpr hzero, if_pos rfl]
      exact ih (by omega) (by omega) (by omega)
    · have hnot : (l[k]?).any p = false := by
        rcases Nat.lt_or_ge k l.length with hkl | hkl
        · obtain ⟨x, hx, hneg⟩ := h.get_after hk hkl
          have hpx : p x = false := by
            rw [Bool.eq_false_iff, Ne, hp]
            omega
          rw [hx, Option.any_some, hpx]
        · rw [List.getElem?_eq_none hkl]
          rfl
      rw [hnot, if_neg (by simp)]
      omega

end Parted

end OmniORB.Library
