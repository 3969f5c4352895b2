import Mathlib

/-!
# Lists of things that each have a number

What is counted in a list when one of its members changes, or one is added. Those that are not there
are as the `blank` one.
-/

namespace OmniORB.Library

variable {α ι : Type*} {blank : α}

/-- The member `w` becomes `x`, and perhaps it was added for that. -/
structure MovesTo (blank : α) (l l' : List α) (w : ℕ) (x : α) : Prop where
  self : l'.getD w blank = x
  others : ∀ v ≠ w, l'.getD v blank = l.getD v blank
  count : ∀ f : α → Bool, f blank = false →
    l'.countP f + (if f (l.getD w blank) then 1 else 0) = l.countP f + if f x then 1 else 0

lemma lt_length_of_getD {l : List α} {w : ℕ} (h : l.getD w blank ≠ blank) : w < l.length := by
  by_contra hw
  exact h (List.getD_eq_default _ _ (Nat.le_of_not_lt hw))

lemma movesTo_set_of_lt {l : List α} {w : ℕ} (hw : w < l.length) (x : α) :
    MovesTo blank l (l.set w x) w x := by
  refine ⟨?_, ?_, ?_⟩
  · simp [List.getD_eq_getElem?_getD, hw]
  · intro v hv
    simp [List.getD_eq_getElem?_getD, List.getElem?_set_ne hv.symm]
  · intro f _
    rw [List.countP_set hw, List.getD_eq_getElem _ _ hw]
    by_cases hf : f l[w] = true
    · have hpos : 0 < l.countP f := List.countP_pos_iff.mpr ⟨_, List.getElem_mem hw, hf⟩
      simp only [hf, if_true]
      omega
    · simp [hf]

lemma movesTo_set {l : List α} {w : ℕ} (h : l.getD w blank ≠ blank) (x : α) :
    MovesTo blank l (l.set w x) w x :=
  movesTo_set_of_lt (lt_length_of_getD h) x

lemma movesTo_append (l : List α) (x : α) : MovesTo blank l (l ++ [x]) l.length x := by
  refine ⟨by simp, ?_, ?_⟩
  · intro v hv
    rcases Nat.lt_or_gt_of_ne hv with hlt | hgt
    · rw [List.getD_append _ _ _ _ hlt]
    · rw [List.getD_eq_default _ _ (by simpa using hgt), List.getD_eq_default _ _ hgt.le]
  · intro f hf
    simp [hf, List.countP_append, List.countP_cons]

lemma MovesTo.trans {l l' l'' : List α} {w : ℕ} {x y : α} (h : MovesTo blank l l' w x)
    (h' : MovesTo blank l' l'' w y) : MovesTo blank l l'' w y := by
  refine ⟨h'.self, fun v hv => (h'.others v hv).trans (h.others v hv), fun f hf => ?_⟩
  have hcount := h.count f hf
  have hcount' := h'.count f hf
  rw [h.self] at hcount'
  omega

/-- A member stays as it is. -/
lemma movesTo_refl (l : List α) (w : ℕ) : MovesTo blank l l w (l.getD w blank) :=
  ⟨rfl, fun _ _ => rfl, fun _ _ => rfl⟩

/-- Nothing changes. -/
lemma movesTo_self (l : List α) : MovesTo blank l l l.length blank :=
  ⟨by simp, fun _ _ => rfl, fun _ _ => by simp⟩

lemma countP_pos_of_getD {l : List α} {w : ℕ} {f : α → Bool} (hf : f (l.getD w blank) = true)
    (hblank : f blank = false) : 0 < l.countP f := by
  refine List.countP_pos_iff.mpr ⟨_, ?_, hf⟩
  rcases Nat.lt_or_ge w l.length with hlt | hge
  · rw [List.getD_eq_getElem _ _ hlt]
    exact List.getElem_mem hlt
  · rw [List.getD_eq_default _ _ hge, hblank] at hf
    exact absurd hf Bool.false_ne_true

/-- At most one member is such. -/
lemma index_eq_of_countP_le_one {l : List α} {v w : ℕ} {f : α → Bool} (hcount : l.countP f ≤ 1)
    (hblank : f blank = false) (hv : f (l.getD v blank) = true) (hw : f (l.getD w blank) = true) : v = w := by
  have hlt : v < l.length := by
    refine lt_length_of_getD (fun heq : l.getD v blank = blank => ?_)
    rw [heq, hblank] at hv
    cases hv
  by_contra hne
  -- without the one, the other is left
  have hm : MovesTo blank l (l.set v blank) v blank := movesTo_set_of_lt hlt blank
  have hrest := hm.count f hblank
  rw [← hm.others w (Ne.symm hne)] at hw
  have hpos := countP_pos_of_getD hw hblank
  simp only [hv, hblank, if_true, Bool.false_eq_true, if_false] at hrest
  omega

lemma exists_getD {l : List α} {x : α} (hx : x ∈ l) : ∃ w, l.getD w blank = x := by
  obtain ⟨w, hw, rfl⟩ := List.getElem_of_mem hx
  exact ⟨w, List.getD_eq_getElem _ _ hw⟩

/-- A table of the things that are named in a list without duplicates. One of them changes. -/
lemma countP_update [DecidableEq ι] {l : List ι} (hl : l.Nodup) {k : ι} (hk : k ∈ l) (g : ι → α)
    (x : α) (f : α → Bool) :
    l.countP (fun i => f (Function.update g k x i)) + (if f (g k) then 1 else 0)
      = l.countP (fun i => f (g i)) + if f x then 1 else 0 := by
  induction l with
  | nil => exact absurd hk List.not_mem_nil
  | cons i l ih =>
    obtain ⟨hi, hl⟩ := List.nodup_cons.mp hl
    rw [List.countP_cons, List.countP_cons]
    rcases List.mem_cons.mp hk with rfl | hk
    · have hrest : l.countP (fun i => f (Function.update g k x i)) = l.countP (fun i => f (g i)) := by
        refine List.countP_congr fun j hj => ?_
        rw [Function.update_of_ne]
        exact fun heq => hi (heq ▸ hj)
      rw [hrest, Function.update_self]
      omega
    · have hne : i ≠ k := fun heq => hi (heq ▸ hk)
      have := ih hl hk
      rw [Function.update_of_ne hne]
      omega

/-- What is not named in the list may change. -/
lemma countP_update_of_notMem [DecidableEq ι] {l : List ι} {k : ι} (hk : k ∉ l) (g : ι → α) (x : α)
    (f : α → Bool) :
    l.countP (fun i => f (Function.update g k x i)) = l.countP (fun i => f (g i)) := by
  refine List.countP_congr fun j hj => ?_
  rw [Function.update_of_ne]
  exact fun heq => hk (heq ▸ hj)

end OmniORB.Library
