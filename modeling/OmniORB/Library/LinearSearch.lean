import Mathlib

/-!
# Searching upwards

The first number from a start on that has a property, among so many numbers.
-/

namespace OmniORB.Library

variable {p : ℤ → Prop} [DecidablePred p] {a c m : ℤ} {n : ℕ}

/-- The first of the `n` numbers from `c` on that has the property. -/
def firstFrom (p : ℤ → Prop) [DecidablePred p] (c : ℤ) : ℕ → Option ℤ
  | 0 => none
  | n + 1 => if p c then some c else firstFrom p (c + 1) n

lemma firstFrom_of_holds (h : p c) (n : ℕ) : firstFrom p c (n + 1) = some c := by
  rw [firstFrom, if_pos h]

lemma firstFrom_of_not (h : ¬ p c) (n : ℕ) : firstFrom p c (n + 1) = firstFrom p (c + 1) n := by
  rw [firstFrom, if_neg h]

lemma firstFrom_holds (h : firstFrom p c n = some a) : p a := by
  induction n generalizing c with
  | zero => cases h
  | succ n ih =>
    by_cases hc : p c
    · rw [firstFrom_of_holds hc] at h
      exact Option.some.inj h ▸ hc
    · rw [firstFrom_of_not hc] at h
      exact ih h

lemma le_firstFrom (h : firstFrom p c n = some a) : c ≤ a := by
  induction n generalizing c with
  | zero => cases h
  | succ n ih =>
    by_cases hc : p c
    · rw [firstFrom_of_holds hc] at h
      exact (Option.some.inj h).le
    · rw [firstFrom_of_not hc] at h
      have := ih h
      omega

lemma firstFrom_lt (h : firstFrom p c n = some a) : a < c + n := by
  induction n generalizing c with
  | zero => cases h
  | succ n ih =>
    by_cases hc : p c
    · rw [firstFrom_of_holds hc] at h
      have := Option.some.inj h
      omega
    · rw [firstFrom_of_not hc] at h
      have := ih h
      omega

/-- A search is not longer than the way to any number that has the property. -/
lemma firstFrom_le (ha : p a) (hc : c ≤ a) (hn : a < c + n) :
    ∃ b, firstFrom p c n = some b ∧ b ≤ a := by
  induction n generalizing c with
  | zero => omega
  | succ n ih =>
    by_cases hpc : p c
    · exact ⟨c, firstFrom_of_holds hpc n, hc⟩
    · have hne : c ≠ a := fun h => hpc (h ▸ ha)
      rw [firstFrom_of_not hpc]
      apply ih
      · omega
      · push_cast at hn
        omega

/-- A search ends below a bound if and only if there is something to be found below it. -/
lemma firstFrom_lt_iff (hm : m ≤ c + n) :
    (∃ a, firstFrom p c n = some a ∧ a < m) ↔ ∃ a, c ≤ a ∧ a < m ∧ p a := by
  constructor
  · rintro ⟨a, ha, hlt⟩
    exact ⟨a, le_firstFrom ha, hlt, firstFrom_holds ha⟩
  · rintro ⟨a, hc, hlt, ha⟩
    obtain ⟨b, hb, hle⟩ := firstFrom_le ha hc (hlt.trans_le hm)
    exact ⟨b, hb, hle.trans_lt hlt⟩

/-- A list shorter than `n` leaves out one of `n` different things. -/
lemma exists_lt_notMem {α : Type*} [DecidableEq α] {f : ℕ → α} {n : ℕ} {used : List α}
    (hf : ∀ i j, i < n → j < n → f i = f j → i = j) (h : used.length < n) :
    ∃ k, k < n ∧ f k ∉ used := by
  have hcard : ((Finset.range n).image f).card = n := by
    rw [Finset.card_image_of_injOn, Finset.card_range]
    intro i hi j hj
    exact hf i j (Finset.mem_range.mp hi) (Finset.mem_range.mp hj)
  have hlt : used.toFinset.card < ((Finset.range n).image f).card := by
    rw [hcard]
    exact (List.toFinset_card_le used).trans_lt h
  obtain ⟨x, hx, hused⟩ := Finset.exists_mem_notMem_of_card_lt_card hlt
  obtain ⟨k, hk, rfl⟩ := Finset.mem_image.mp hx
  exact ⟨k, Finset.mem_range.mp hk, fun hmem => hused (List.mem_toFinset.mpr hmem)⟩

end OmniORB.Library
