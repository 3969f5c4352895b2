import Mathlib

/-!
# Arrays with back pointers

An array of which the first `n` places hold things or nothing, where each thing knows its place.
-/

namespace OmniORB.Library

variable {κ : Type*} {slots slots' : ℕ → Option κ} {index : κ → Option ℕ} {n i : ℕ} {s : κ}

/-- A thing has a place just if it is there. -/
def Linked (slots : ℕ → Option κ) (index : κ → Option ℕ) (n : ℕ) : Prop :=
  ∀ s i, index s = some i ↔ i < n ∧ slots i = some s

lemma Linked.nil (slots : ℕ → Option κ) : Linked slots (fun _ => none) 0 := by
  intro s i
  simp

/-- What is not among the first `n` places does not matter. -/
lemma Linked.congr (h : Linked slots index n) (hslots : ∀ i < n, slots' i = slots i) : Linked slots' index n := by
  intro s i
  rw [h s i]
  exact and_congr_right fun hi => by rw [hslots i hi]

/-- A thing that is taken out of the last place leaves one place less. -/
lemma Linked.pop (h : Linked slots index (n + 1)) (hn : slots n = none) : Linked slots index n := by
  intro t j
  rw [h t j]
  refine and_congr_left fun hj => ?_
  have hne : j ≠ n := by
    rintro rfl
    rw [hn] at hj
    cases hj
  omega

variable [DecidableEq κ]

lemma Linked.append (h : Linked slots index n) (hs : index s = none) :
    Linked (Function.update slots n (some s)) (Function.update index s (some n)) (n + 1) := by
  intro t i
  by_cases ht : t = s
  · subst ht
    rw [Function.update_self]
    by_cases hi : i = n
    · subst hi
      simp
    · rw [Function.update_of_ne hi]
      have hnot := (h t i).not.mp (by simp [hs])
      refine iff_of_false (fun heq => hi (Option.some.inj heq).symm) fun hboth => hnot ⟨?_, hboth.2⟩
      omega
  · rw [Function.update_of_ne ht, h t i]
    by_cases hi : i = n
    · subst hi
      simp [Ne.symm ht]
    · rw [Function.update_of_ne hi]
      exact and_congr_left fun _ => by omega

lemma Linked.clear (h : Linked slots index n) (hs : index s = some i) :
    Linked (Function.update slots i none) (Function.update index s none) n := by
  intro t j
  have hi := (h s i).mp hs
  by_cases ht : t = s
  · subst ht
    rw [Function.update_self]
    refine iff_of_false (by simp) fun hboth => ?_
    by_cases hj : j = i
    · subst hj
      simp at hboth
    · rw [Function.update_of_ne hj] at hboth
      exact hj (Option.some.inj (((h t j).mpr hboth).symm.trans hs))
  · rw [Function.update_of_ne ht, h t j]
    by_cases hj : j = i
    · subst hj
      simp [hi.2, Ne.symm ht]
    · rw [Function.update_of_ne hj]

/-- The index after the thing in the last place has moved to `i`. -/
def reindex (index : κ → Option ℕ) (last : Option κ) (i : ℕ) : κ → Option ℕ :=
  last.elim index fun t => Function.update index t (some i)

/-- What is in the last place moves to one where nothing is. -/
lemma Linked.moveLast (h : Linked slots index (n + 1)) (hi : i < n + 1) (hnone : slots i = none) :
    Linked (Function.update slots i (slots n)) (reindex index (slots n) i) n := by
  cases hn : slots n with
  | none =>
    have hsame : Function.update slots i none = slots := by
      rw [← hnone, Function.update_eq_self]
    rw [hsame]
    exact h.pop hn
  | some t =>
    have hne : i ≠ n := by
      rintro rfl
      rw [hnone] at hn
      cases hn
    intro u j
    change Function.update index t (some i) u = some j ↔ _
    by_cases hu : u = t
    · subst hu
      rw [Function.update_self]
      by_cases hj : j = i
      · subst hj
        simp only [Function.update_self, and_true, true_iff]
        omega
      · rw [Function.update_of_ne hj]
        refine iff_of_false (fun heq => hj (Option.some.inj heq).symm) fun hboth => ?_
        have h1 := (h u j).mpr ⟨by omega, hboth.2⟩
        have h2 := (h u n).mpr ⟨by omega, hn⟩
        have := Option.some.inj (h1.symm.trans h2)
        omega
    · rw [Function.update_of_ne hu, h u j]
      by_cases hj : j = i
      · subst hj
        simp [hnone, Ne.symm hu]
      · rw [Function.update_of_ne hj]
        refine and_congr_left fun hboth => ?_
        have hjn : j ≠ n := by
          rintro rfl
          rw [hn] at hboth
          exact hu (Option.some.inj hboth).symm
        omega

end OmniORB.Library
