import Mathlib

/-!
# Binary search with a comparison function

A comparison function tells on which side of an element the thing that is looked for lies: before it
if negative, after it if positive. What is found with a comparison function that is wrong about some
elements is told by the elements that a search with the right one looks at.
-/

namespace OmniORB.Library

variable {α : Type*}

/-- The loop `while (bottom < top)`, at most `n` times. -/
def search (c : α → ℤ) (l : List α) : ℕ → ℕ → ℕ → Option α
  | 0, _, _ => none
  | n + 1, bottom, top =>
    if bottom < top then
      l[(bottom + top) / 2]?.bind fun x =>
        if c x < 0 then search c l n bottom ((bottom + top) / 2)
        else if 0 < c x then search c l n ((bottom + top) / 2 + 1) top
        else some x
    else none

/-- The elements that a search looks at. -/
def probes (c : α → ℤ) (l : List α) : ℕ → ℕ → ℕ → List α
  | 0, _, _ => []
  | n + 1, bottom, top =>
    if bottom < top then
      (l[(bottom + top) / 2]?).elim [] fun x =>
        x :: if c x < 0 then probes c l n bottom ((bottom + top) / 2)
          else if 0 < c x then probes c l n ((bottom + top) / 2 + 1) top
          else []
    else []

/-- The place for a new element, unless there is one that is equal to it. -/
def insertionPoint (c : α → ℤ) (l : List α) : ℕ → ℕ → ℕ → Option ℕ
  | 0, bottom, top => if bottom < top then none else some bottom
  | n + 1, bottom, top =>
    if bottom < top then
      l[(bottom + top) / 2]?.bind fun x =>
        if c x < 0 then insertionPoint c l n bottom ((bottom + top) / 2)
        else if 0 < c x then insertionPoint c l n ((bottom + top) / 2 + 1) top
        else none
    else some bottom

/-- The place that a search looks at last; `middle` if it looks at none. -/
def lastPlace (c : α → ℤ) (l : List α) : ℕ → ℕ → ℕ → Option ℕ → Option ℕ
  | 0, _, _, middle => middle
  | n + 1, bottom, top, middle =>
    if bottom < top then
      l[(bottom + top) / 2]?.bind fun x =>
        if c x < 0 then lastPlace c l n bottom ((bottom + top) / 2) (some ((bottom + top) / 2))
        else if 0 < c x then
          lastPlace c l n ((bottom + top) / 2 + 1) top (some ((bottom + top) / 2))
        else some ((bottom + top) / 2)
    else middle

/-- What is looked for is at `k`, and the comparison function is right about all the others. -/
structure TargetAt (c : α → ℤ) (l : List α) (k : ℕ) (x : α) : Prop where
  get : l[k]? = some x
  eq : c x = 0
  before : ∀ (i : ℕ) y, i < k → l[i]? = some y → 0 < c y
  after : ∀ (i : ℕ) y, k < i → l[i]? = some y → c y < 0

/-- In a list that is sorted by keys an element is the target for its key. -/
lemma TargetAt.of_sorted {key : α → ℕ} {l : List α} {k : ℕ} {x : α}
    (h : (l.map key).Pairwise (· < ·)) (hk : l[k]? = some x) :
    TargetAt (fun y => (key x : ℤ) - key y) l k x := by
  have hlt : ∀ (i j : ℕ) y z, i < j → l[i]? = some y → l[j]? = some z → key y < key z := by
    intro i j y z hij hy hz
    obtain ⟨hi, rfl⟩ := List.getElem?_eq_some_iff.mp hy
    obtain ⟨hj, rfl⟩ := List.getElem?_eq_some_iff.mp hz
    have hp := List.pairwise_iff_getElem.mp h i j (by simpa using hi) (by simpa using hj) hij
    simpa using hp
  refine ⟨hk, by simp, fun i y hi hy => ?_, fun i y hi hy => ?_⟩
  · have h1 := hlt i k y x hi hy hk
    omega
  · have h1 := hlt k i x y hi hk hy
    omega

/-- What comes before something that is looked for, does so with all that comes before it. -/
structure Ordered (c : α → ℤ) (l : List α) : Prop where
  neg : ∀ (i j : ℕ) x y, i < j → l[i]? = some x → l[j]? = some y → c x < 0 → c y < 0
  pos : ∀ (i j : ℕ) x y, i < j → l[i]? = some x → l[j]? = some y → 0 < c y → 0 < c x

variable {c d : α → ℤ} {l : List α} {n bottom top k : ℕ} {x : α}

/-- What is found is in the range, and is equal to what is looked for. -/
lemma of_search (h : search c l n bottom top = some x) :
    c x = 0 ∧ ∃ i : ℕ, bottom ≤ i ∧ i < top ∧ l[i]? = some x := by
  induction n generalizing bottom top with
  | zero => cases h
  | succ n ih =>
    rw [search] at h
    split_ifs at h with hlt
    obtain ⟨y, hy, h⟩ := Option.bind_eq_some_iff.mp h
    split_ifs at h with hneg hpos
    · obtain ⟨h0, i, hi1, hi2, hi⟩ := ih h
      exact ⟨h0, i, hi1, by omega, hi⟩
    · obtain ⟨h0, i, hi1, hi2, hi⟩ := ih h
      exact ⟨h0, i, by omega, hi2, hi⟩
    · obtain rfl := Option.some.inj h
      exact ⟨by omega, _, by omega, by omega, hy⟩

/-- Searches with functions that agree on what the one looks at are the same. -/
lemma search_congr (h : ∀ y ∈ probes d l n bottom top, (c y).sign = (d y).sign) :
    search c l n bottom top = search d l n bottom top := by
  induction n generalizing bottom top with
  | zero => rfl
  | succ n ih =>
    rw [probes] at h
    rw [search, search]
    split_ifs with hlt
    · rw [if_pos hlt] at h
      rcases hy : l[(bottom + top) / 2]? with - | y
      · rfl
      · rw [hy, Option.elim_some, List.forall_mem_cons] at h
        obtain ⟨hsign, h⟩ := h
        have hneg : c y < 0 ↔ d y < 0 := by rw [← Int.sign_neg_iff, hsign, Int.sign_neg_iff]
        have hpos : 0 < c y ↔ 0 < d y := by rw [← Int.sign_pos_iff, hsign, Int.sign_pos_iff]
        rw [Option.bind_some, Option.bind_some, if_congr hneg rfl (if_congr hpos rfl rfl)]
        split_ifs at h ⊢ with h1 h2
        · exact ih h
        · exact ih h
        · rfl
    · rfl

/-- Where an element lies that is compared. -/
lemma TargetAt.lt_of_neg (ht : TargetAt c l k x) {i : ℕ} {y : α} (hi : l[i]? = some y)
    (hy : c y < 0) : k < i := by
  by_contra hk
  rcases Nat.lt_or_eq_of_le (not_lt.mp hk) with h | rfl
  · exact absurd (ht.before i y h hi) hy.not_gt
  · rw [ht.get, Option.some.injEq] at hi
    rw [← hi, ht.eq] at hy
    exact lt_irrefl 0 hy

lemma TargetAt.lt_of_pos (ht : TargetAt c l k x) {i : ℕ} {y : α} (hi : l[i]? = some y)
    (hy : 0 < c y) : i < k := by
  by_contra hk
  rcases Nat.lt_or_eq_of_le (not_lt.mp hk) with h | rfl
  · exact absurd (ht.after i y h hi) hy.not_gt
  · rw [ht.get, Option.some.injEq] at hi
    rw [← hi, ht.eq] at hy
    exact lt_irrefl 0 hy

lemma TargetAt.eq_of_eq_zero (ht : TargetAt c l k x) {i : ℕ} {y : α} (hi : l[i]? = some y)
    (hy : c y = 0) : i = k := by
  rcases lt_trichotomy i k with h | h | h
  · exact absurd hy (ht.before i y h hi).ne'
  · exact h
  · exact absurd hy (ht.after i y h hi).ne

/-- A search with the right function finds what is there. -/
lemma search_eq_some (ht : TargetAt c l k x) (hn : top - bottom ≤ n) (htop : top ≤ l.length)
    (hb : bottom ≤ k) (hk : k < top) : search c l n bottom top = some x := by
  induction n generalizing bottom top with
  | zero => omega
  | succ n ih =>
    obtain ⟨y, hy⟩ : ∃ y, l[(bottom + top) / 2]? = some y :=
      ⟨_, List.getElem?_eq_getElem (by omega)⟩
    rw [search, if_pos (by omega), hy, Option.bind_some]
    split_ifs with hneg hpos
    · have := ht.lt_of_neg hy hneg
      exact ih (by omega) (by omega) hb this
    · have := ht.lt_of_pos hy hpos
      exact ih (by omega) htop this hk
    · have := ht.eq_of_eq_zero hy (by omega)
      rw [this, ht.get] at hy
      exact hy.symm

/-- It looks last at what is there. -/
lemma lastPlace_eq_some (ht : TargetAt c l k x) (hn : top - bottom ≤ n) (htop : top ≤ l.length)
    (hb : bottom ≤ k) (hk : k < top) (middle : Option ℕ) :
    lastPlace c l n bottom top middle = some k := by
  induction n generalizing bottom top middle with
  | zero => omega
  | succ n ih =>
    obtain ⟨y, hy⟩ : ∃ y, l[(bottom + top) / 2]? = some y :=
      ⟨_, List.getElem?_eq_getElem (by omega)⟩
    rw [lastPlace, if_pos (by omega), hy, Option.bind_some]
    split_ifs with hneg hpos
    · have := ht.lt_of_neg hy hneg
      exact ih (by omega) (by omega) hb this _
    · have := ht.lt_of_pos hy hpos
      exact ih (by omega) htop this hk _
    · exact congrArg some (ht.eq_of_eq_zero hy (by omega))

/-- A search with another function, that knows what is looked for, finds it only if it agrees with
the right one on all that is looked at. -/
lemma sign_eq_of_search (ht : TargetAt d l k x) (hcd : ∀ y, c y = 0 → d y = 0) {y : α}
    (h : search c l n bottom top = some y) :
    ∀ z ∈ probes d l n bottom top, (c z).sign = (d z).sign := by
  induction n generalizing bottom top with
  | zero => cases h
  | succ n ih =>
    rw [search] at h
    split_ifs at h with hlt
    obtain ⟨z, hz, h⟩ := Option.bind_eq_some_iff.mp h
    rw [probes, if_pos hlt, hz, Option.elim_some, List.forall_mem_cons]
    split_ifs at h with hneg hpos
    · obtain ⟨h0, i, hi1, hi2, hi⟩ := of_search h
      have hik := ht.eq_of_eq_zero hi (hcd y h0)
      have hd : d z < 0 := ht.after _ z (by omega) hz
      rw [if_pos hd, Int.sign_eq_neg_one_of_neg hneg, Int.sign_eq_neg_one_of_neg hd]
      exact ⟨rfl, ih h⟩
    · obtain ⟨h0, i, hi1, hi2, hi⟩ := of_search h
      have hik := ht.eq_of_eq_zero hi (hcd y h0)
      have hd : 0 < d z := ht.before _ z (by omega) hz
      rw [if_neg hd.not_gt, if_pos hd, Int.sign_eq_one_of_pos hpos, Int.sign_eq_one_of_pos hd]
      exact ⟨rfl, ih h⟩
    · have hc : c z = 0 := by omega
      have hd := hcd z hc
      rw [hc, hd, if_neg (lt_irrefl 0), if_neg (lt_irrefl 0)]
      exact ⟨rfl, by simp⟩

/-- What is there is found exactly if the function is right about all that is looked at. -/
lemma search_eq_some_iff (ht : TargetAt d l k x) (hcd : ∀ y, c y = 0 → d y = 0) :
    search c l l.length 0 l.length = some x ↔
      ∀ z ∈ probes d l l.length 0 l.length, (c z).sign = (d z).sign := by
  constructor
  · exact fun h => sign_eq_of_search ht hcd h
  · intro h
    rw [search_congr h]
    have hlen := (List.getElem?_eq_some_iff.mp ht.get).1
    exact search_eq_some ht (by omega) le_rfl (Nat.zero_le k) hlen

/-- What is not there is not found. -/
lemma search_eq_none (h : ∀ y ∈ l, c y ≠ 0) : search c l n bottom top = none := by
  rw [Option.eq_none_iff_forall_ne_some]
  intro y hy
  obtain ⟨h0, i, -, -, hi⟩ := of_search hy
  exact h y (List.mem_of_getElem? hi) h0

/-- There is a place for a new element. -/
lemma exists_insertionPoint (h : ∀ y ∈ l, c y ≠ 0) (hn : top - bottom ≤ n) (htop : top ≤ l.length) :
    ∃ k, insertionPoint c l n bottom top = some k := by
  induction n generalizing bottom top with
  | zero => exact ⟨bottom, by rw [insertionPoint, if_neg (by omega)]⟩
  | succ n ih =>
    rw [insertionPoint]
    split_ifs with hlt
    · obtain ⟨y, hy⟩ : ∃ y, l[(bottom + top) / 2]? = some y :=
        ⟨_, List.getElem?_eq_getElem (by omega)⟩
      rw [hy, Option.bind_some]
      split_ifs with hneg hpos
      · exact ih (by omega) (by omega)
      · exact ih (by omega) htop
      · have := h y (List.mem_of_getElem? hy)
        omega
    · exact ⟨bottom, rfl⟩

/-- At the place for a new element those before it are less and those after it are greater. -/
lemma insertionPoint_spec (ho : Ordered c l) (htop : top ≤ l.length) (hbt : bottom ≤ top)
    (hbefore : ∀ (i : ℕ) y, i < bottom → l[i]? = some y → 0 < c y)
    (hafter : ∀ (i : ℕ) y, top ≤ i → l[i]? = some y → c y < 0)
    (h : insertionPoint c l n bottom top = some k) :
    k ≤ l.length ∧ (∀ (i : ℕ) y, i < k → l[i]? = some y → 0 < c y) ∧
      ∀ (i : ℕ) y, k ≤ i → l[i]? = some y → c y < 0 := by
  induction n generalizing bottom top with
  | zero =>
    rw [insertionPoint] at h
    split_ifs at h with hlt
    obtain rfl := Option.some.inj h
    obtain rfl : bottom = top := by omega
    exact ⟨htop, hbefore, hafter⟩
  | succ n ih =>
    rw [insertionPoint] at h
    split_ifs at h with hlt
    · obtain ⟨y, hy, h⟩ := Option.bind_eq_some_iff.mp h
      split_ifs at h with hneg hpos
      · refine ih (by omega) (by omega) hbefore (fun i z hi hz => ?_) h
        rcases Nat.lt_or_eq_of_le hi with hi | rfl
        · exact ho.neg _ i y z hi hy hz hneg
        · rw [hy, Option.some.injEq] at hz
          rwa [← hz]
      · refine ih htop (by omega) (fun i z hi hz => ?_) hafter h
        rcases Nat.lt_or_eq_of_le (Nat.le_of_lt_succ hi) with hi | rfl
        · exact ho.pos i _ z y hi hz hy hpos
        · rw [hy, Option.some.injEq] at hz
          rwa [← hz]
    · obtain rfl := Option.some.inj h
      obtain rfl : bottom = top := by omega
      exact ⟨htop, hbefore, hafter⟩

end OmniORB.Library
