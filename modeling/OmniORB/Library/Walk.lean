import OmniORB.Library.LinearSearch

/-!
# Walks over finite sets of values

A walk goes through a finite set of values, each of them once, until it meets one that is not taken.
-/

namespace OmniORB.Library

variable {β : Type*} {start b : β} {isLast taken : β → Bool} {next : β → β} {value : ℕ → β}
variable {n i fuel : ℕ} {found : Bool}

/-- From `start` on, `next` goes through the values `value 0` to `value n`; `isLast` tells the last one. -/
structure Walk (start : β) (isLast : β → Bool) (next : β → β) (n : ℕ) (value : ℕ → β) : Prop where
  start : value 0 = start
  last : ∀ i ≤ n, isLast (value i) = true ↔ i = n
  next : ∀ i < n, next (value i) = value (i + 1)
  injective : ∀ i j, i ≤ n → j ≤ n → value i = value j → i = j

/-- The first value from `b` on that is not taken, or the last value if there is none; in so many steps. -/
def walk (taken isLast : β → Bool) (next : β → β) : ℕ → β → Option (β × Bool)
  | 0, _ => none
  | fuel + 1, b =>
    if taken b then
      if isLast b then some (b, false) else walk taken isLast next fuel (next b)
    else some (b, true)

namespace Walk

/-- Where a walk ends: before the end only at a value that is not taken. -/
lemma ends (h : Walk start isLast next n value) (hi : i ≤ n)
    (hw : walk taken isLast next fuel (value i) = some (b, found)) :
    ∃ j, i ≤ j ∧ j ≤ n ∧ b = value j ∧ (∀ k, i ≤ k → k < j → taken (value k) = true) ∧
      taken b = !found ∧ (found = false → j = n) := by
  induction fuel generalizing i with
  | zero => cases hw
  | succ fuel ih =>
    rw [walk] at hw
    split_ifs at hw with htaken hlast
    · obtain ⟨rfl, rfl⟩ : value i = b ∧ false = found := by simpa using hw
      exact ⟨i, le_rfl, hi, rfl, fun k hk hlt => absurd hk (by omega), htaken, fun _ => (h.last i hi).mp hlast⟩
    · have hlt : i < n := lt_of_le_of_ne hi fun heq => hlast ((h.last i hi).mpr heq)
      rw [h.next i hlt] at hw
      obtain ⟨j, hij, hj, hb, hbefore, htb, hfound⟩ := ih hlt hw
      refine ⟨j, by omega, hj, hb, fun k hk hkj => ?_, htb, hfound⟩
      rcases Nat.eq_or_lt_of_le hk with rfl | hlt'
      · exact htaken
      · exact hbefore k hlt' hkj
    · obtain ⟨rfl, rfl⟩ : value i = b ∧ true = found := by simpa using hw
      refine ⟨i, le_rfl, hi, rfl, fun k hk hlt => absurd hk (by omega), ?_, fun hf => by cases hf⟩
      exact Bool.eq_false_iff.mpr htaken

/-- A walk ends at the latest at the end, or at a value that is not taken. -/
lemma exists_ends (h : Walk start isLast next n value) {j : ℕ} (hij : i ≤ j) (hj : j ≤ n)
    (hend : taken (value j) = false ∨ j = n) (hfuel : j - i < fuel) :
    ∃ r, walk taken isLast next fuel (value i) = some r := by
  induction fuel generalizing i with
  | zero => omega
  | succ fuel ih =>
    rw [walk]
    split_ifs with htaken hlast
    · exact ⟨_, rfl⟩
    · have hlt : i < n := lt_of_le_of_ne (hij.trans hj) fun heq => hlast ((h.last i (hij.trans hj)).mpr heq)
      have hne : i ≠ j := by
        rintro rfl
        rcases hend with hnot | rfl
        · exact Bool.false_ne_true (hnot.symm.trans htaken)
        · exact lt_irrefl _ hlt
      rw [h.next i hlt]
      exact ih (by omega) (by omega)
    · exact ⟨_, rfl⟩

/-- A walk takes at most one step more than there are values that are taken. -/
lemma exists_walk [DecidableEq β] (h : Walk start isLast next n value) {used : List β}
    (hused : ∀ b, taken b = true → b ∈ used) (hfuel : used.length < fuel) :
    ∃ r, walk taken isLast next fuel start = some r := by
  rw [← h.start]
  rcases Nat.lt_or_ge used.length n with hlt | hge
  · -- there are more values than are taken
    have hdifferent : ∀ i j, i < used.length + 1 → j < used.length + 1 → value i = value j → i = j :=
      fun i j hi hj => h.injective i j (by omega) (by omega)
    obtain ⟨j, hj, hnot⟩ := exists_lt_notMem hdifferent (Nat.lt_succ_self used.length)
    refine h.exists_ends (Nat.zero_le j) (by omega) (.inl ?_) (by omega)
    exact Bool.eq_false_iff.mpr fun ht => hnot (hused _ ht)
  · exact h.exists_ends (Nat.zero_le n) le_rfl (.inr rfl) (by omega)

/-- What a walk finds: a value that is not taken, unless all are. -/
lemma outcome (h : Walk start isLast next n value) (hw : walk taken isLast next fuel start = some (b, found)) :
    (∃ j ≤ n, b = value j) ∧ taken b = (!found) ∧ (found = false ↔ ∀ j ≤ n, taken (value j) = true) := by
  rw [← h.start] at hw
  obtain ⟨j, -, hj, hb, hbefore, htb, hfound⟩ := h.ends (Nat.zero_le n) hw
  refine ⟨⟨j, hj, hb⟩, htb, fun hf => ?_, fun hall => ?_⟩
  · obtain rfl := hfound hf
    intro k hk
    rcases Nat.lt_or_eq_of_le hk with hlt | rfl
    · exact hbefore k (Nat.zero_le k) hlt
    · rw [← hb, htb, hf]
      rfl
  · have htrue := hall j hj
    rw [← hb, htb] at htrue
    simpa using htrue

end Walk

/-! ### Walks over the integers -/

variable {lo hi : ℤ}

lemma walk_up (h : lo ≤ hi) :
    Walk lo (fun z => decide (z = hi)) (fun z => z + 1) (hi - lo).toNat fun i => lo + i := by
  refine ⟨by simp, fun i hi' => ?_, fun i _ => by push_cast; ring, fun i j _ _ hij => by omega⟩
  rw [decide_eq_true_eq]
  omega

lemma walk_down (h : lo ≤ hi) :
    Walk hi (fun z => decide (z = lo)) (fun z => z - 1) (hi - lo).toNat fun i => hi - i := by
  refine ⟨by simp, fun i hi' => ?_, fun i _ => by push_cast; ring, fun i j _ _ hij => by omega⟩
  rw [decide_eq_true_eq]
  omega

end OmniORB.Library
