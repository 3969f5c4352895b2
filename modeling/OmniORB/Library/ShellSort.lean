import Mathlib

/-!
# Shell sort

A sort of the first `n` elements of a sequence by a key, which exchanges elements at a distance that
is halved from pass to pass. The last pass, at distance 1, sorts whatever it is given.
-/

namespace OmniORB.Library

variable {α β : Type*} [LinearOrder β] {key : α → β} {f : ℕ → α} {n i j c gap : ℕ}

def exchange (i j : ℕ) (f : ℕ → α) : ℕ → α := fun k => f (if k = i then j else if k = j then i else k)

/-- Exchange the elements at `j` and `j + gap` if their keys are not in order. -/
def compareAt (key : α → β) (gap j : ℕ) (f : ℕ → α) : ℕ → α :=
  if key (f (j + gap)) < key (f j) then exchange j (j + gap) f else f

/-- The innermost loop: from `i - gap` downwards, as far as there are elements. -/
def sink (key : α → β) (gap i : ℕ) (f : ℕ → α) : ℕ → α :=
  (List.range (i / gap)).foldl (fun f t => compareAt key gap (i - gap * (t + 1)) f) f

/-- One pass: each element from `gap` on. -/
def pass (key : α → β) (n gap : ℕ) (f : ℕ → α) : ℕ → α :=
  (List.range' gap (n - gap)).foldl (fun f i => sink key gap i f) f

/-- The distances, with enough fuel to come to 0. -/
def gaps : ℕ → ℕ → List ℕ
  | 0, _ => []
  | fuel + 1, gap => if gap = 0 then [] else gap :: gaps fuel (gap / 2)

def shellSort (key : α → β) (n : ℕ) (f : ℕ → α) : ℕ → α :=
  (gaps n (n / 2)).foldl (fun f gap => pass key n gap f) f

/-! ### The same elements -/

lemma exchange_perm (hi : i < n) (hj : j < n) :
    ((List.range n).map (exchange i j f)).Perm ((List.range n).map f) := by
  let swap := fun k => if k = i then j else if k = j then i else k
  have hswap : ∀ k, swap (swap k) = k := by
    intro k
    simp only [swap]
    split_ifs <;> simp_all
  have hperm : ((List.range n).map swap).Perm (List.range n) := by
    refine (List.perm_ext_iff_of_nodup ?_ List.nodup_range).mpr fun k => ?_
    · exact List.nodup_range.map (Function.LeftInverse.injective hswap)
    · rw [List.mem_map, List.mem_range]
      have hlt : ∀ k, k < n → swap k < n := by
        intro k hk
        simp only [swap]
        split_ifs <;> assumption
      constructor
      · rintro ⟨k', hk', rfl⟩
        exact hlt k' (List.mem_range.mp hk')
      · exact fun hk => ⟨swap k, List.mem_range.mpr (hlt k hk), hswap k⟩
  have hmap := hperm.map f
  rwa [List.map_map] at hmap

lemma foldl_perm {ι : Type*} {l : List ι} {step : (ℕ → α) → ι → ℕ → α}
    (h : ∀ a ∈ l, ∀ f, ((List.range n).map (step f a)).Perm ((List.range n).map f)) (f : ℕ → α) :
    ((List.range n).map (l.foldl step f)).Perm ((List.range n).map f) := by
  induction l generalizing f with
  | nil => exact List.Perm.refl _
  | cons a l ih =>
    have hrest := ih (fun b hb => h b (List.mem_cons_of_mem _ hb)) (step f a)
    exact hrest.trans (h a List.mem_cons_self f)

lemma sink_perm (hi : i < n) : ((List.range n).map (sink key gap i f)).Perm
    ((List.range n).map f) := by
  refine foldl_perm (fun t ht f => ?_) f
  have ht' := List.mem_range.mp ht
  have hle : gap * (t + 1) ≤ i :=
    (Nat.mul_le_mul_left gap ht').trans (Nat.mul_div_le i gap)
  have hgap : gap ≤ gap * (t + 1) := Nat.le_mul_of_pos_right gap (Nat.succ_pos t)
  rw [compareAt]
  split_ifs
  · exact exchange_perm (by omega) (by omega)
  · exact List.Perm.refl _

/-- The elements are those that there were. -/
theorem shellSort_perm (key : α → β) (n : ℕ) (f : ℕ → α) :
    ((List.range n).map (shellSort key n f)).Perm ((List.range n).map f) := by
  refine foldl_perm (fun gap _ f => foldl_perm (fun i hi f => sink_perm ?_) f) f
  have hmem := List.mem_range'_1.mp hi
  omega

/-! ### In order -/

/-- The elements up to `i` are in order, but for those before the one at `c`. -/
def SortedBut (key : α → β) (c i : ℕ) (f : ℕ → α) : Prop :=
  ∀ p q, p < q → q ≤ i → q ≠ c → key (f p) ≤ key (f q)

lemma SortedBut.compareAt (h : SortedBut key (c + 1) i f) (hc : c + 1 ≤ i) :
    SortedBut key c i (compareAt key 1 c f) := by
  intro p q hpq hq hne
  rw [Library.compareAt]
  split_ifs with hlt
  · have hat : ∀ k, exchange c (c + 1) f k = f (if k = c then c + 1 else if k = c + 1 then c else k) :=
      fun _ => rfl
    rw [hat, hat, if_neg hne]
    rcases eq_or_ne q (c + 1) with rfl | hq'
    · rw [if_pos rfl]
      rcases eq_or_ne p c with rfl | hp
      · rw [if_pos rfl]
        exact hlt.le
      · rw [if_neg hp, if_neg (by omega)]
        exact h p c (by omega) (by omega) (by omega)
    · rw [if_neg hq']
      rcases eq_or_ne p c with rfl | hp
      · rw [if_pos rfl]
        exact h (p + 1) q (by omega) hq hq'
      · rw [if_neg hp]
        split_ifs with hp'
        · exact h c q (by omega) hq hq'
        · exact h p q hpq hq hq'
  · rcases eq_or_ne q (c + 1) with rfl | hq'
    · rcases eq_or_ne p c with rfl | hp
      · exact not_lt.mp hlt
      · exact (h p c (by omega) (by omega) (by omega)).trans (not_lt.mp hlt)
    · exact h p q hpq hq hq'

lemma SortedBut.sink (h : SortedBut key i i f) : SortedBut key 0 i (sink key 1 i f) := by
  have hrun : ∀ m ≤ i, SortedBut key (i - m) i
      ((List.range m).foldl (fun f t => Library.compareAt key 1 (i - 1 * (t + 1)) f) f) := by
    intro m
    induction m with
    | zero => exact fun _ => h
    | succ m ih =>
      intro hm
      rw [List.range_succ, List.foldl_append, List.foldl_cons, List.foldl_nil]
      have hc : i - m = i - 1 * (m + 1) + 1 := by omega
      have hprev := ih (by omega)
      rw [hc] at hprev
      rw [one_mul] at hprev ⊢
      exact hprev.compareAt (by omega)
  have hall := hrun i le_rfl
  rw [Nat.sub_self] at hall
  rw [Library.sink, Nat.div_one]
  exact hall

lemma pass_sorted (f : ℕ → α) {p q : ℕ} (hpq : p < q) (hq : q < n) :
    key (pass key n 1 f p) ≤ key (pass key n 1 f q) := by
  have hrun : ∀ m f, SortedBut key 0 m
      ((List.range' 1 m).foldl (fun f i => Library.sink key 1 i f) f) := by
    intro m
    induction m with
    | zero =>
      intro f p q hpq hq hne
      omega
    | succ m ih =>
      intro f
      rw [List.range'_concat, List.foldl_append, List.foldl_cons, List.foldl_nil]
      have hprev := ih f
      rw [one_mul, add_comm 1 m]
      refine SortedBut.sink fun p q hpq hq hne => ?_
      exact hprev p q hpq (by omega) (by omega)
  exact hrun (n - 1) f p q hpq (by omega) (by omega)

/-- The last distance is 1. -/
lemma gaps_last : ∀ fuel gap : ℕ, 0 < gap → gap < fuel → ∃ l, gaps fuel gap = l ++ [1] := by
  intro fuel
  induction fuel with
  | zero =>
    intro gap _ hlt
    omega
  | succ fuel ih =>
    intro gap hpos hlt
    rw [gaps, if_neg hpos.ne']
    rcases Nat.lt_or_ge gap 2 with hone | htwo
    · obtain rfl : gap = 1 := by omega
      refine ⟨[], ?_⟩
      cases fuel with
      | zero => rfl
      | succ fuel => rfl
    · obtain ⟨l, hl⟩ := ih (gap / 2) (by omega) (by omega)
      exact ⟨gap :: l, by rw [hl]; rfl⟩

/-- The elements are in the order of their keys. -/
theorem shellSort_sorted (key : α → β) (n : ℕ) (f : ℕ → α) {p q : ℕ} (hpq : p < q) (hq : q < n) :
    key (shellSort key n f p) ≤ key (shellSort key n f q) := by
  obtain ⟨l, hl⟩ := gaps_last n (n / 2) (by omega) (by omega)
  rw [shellSort, hl, List.foldl_append, List.foldl_cons, List.foldl_nil]
  exact pass_sorted _ hpq hq

end OmniORB.Library
