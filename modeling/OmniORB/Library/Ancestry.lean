import Mathlib

/-!
# Tables of nodes that refer to earlier ones

A table gives for each node the nodes that it refers to. It grows at its end, and what is new refers
to what was there, so that nothing changes for the old nodes.
-/

namespace OmniORB.Library

open Relation

variable {t : List (List ℕ)} {ps : List ℕ} {v w : ℕ}

/-- The node `v` refers to `w`. -/
def Parent (t : List (List ℕ)) (v w : ℕ) : Prop := ∃ ps, t[v]? = some ps ∧ w ∈ ps

/-- The node `w` is `v`, or is reached from `v`. -/
def Ancestor (t : List (List ℕ)) : ℕ → ℕ → Prop := ReflTransGen (Parent t)

/-- Every node refers to earlier ones. -/
def Backward (t : List (List ℕ)) : Prop := ∀ v w, Parent t v w → w < v

lemma Ancestor.refl (v : ℕ) : Ancestor t v v := ReflTransGen.refl

lemma Parent.lt_length (h : Parent t v w) : v < t.length := by
  obtain ⟨ps, hps, -⟩ := h
  exact (List.getElem?_eq_some_iff.mp hps).1

lemma Ancestor.le (h : Backward t) (ha : Ancestor t v w) : w ≤ v := by
  induction ha with
  | refl => exact le_rfl
  | tail _ hp ih => exact le_trans (le_of_lt (h _ _ hp)) ih

lemma parent_append_of_lt (hv : v < t.length) : Parent (t ++ [ps]) v w ↔ Parent t v w := by
  rw [Parent, Parent, List.getElem?_append_left hv]

lemma parent_append_length : Parent (t ++ [ps]) t.length w ↔ w ∈ ps := by
  rw [Parent, List.getElem?_concat_length]
  simp

lemma Backward.append (h : Backward t) (hps : ∀ p ∈ ps, p < t.length) :
    Backward (t ++ [ps]) := by
  intro v w hp
  have hv := hp.lt_length
  rw [List.length_append, List.length_singleton] at hv
  by_cases hlt : v < t.length
  · exact h v w ((parent_append_of_lt hlt).mp hp)
  · obtain rfl : v = t.length := by omega
    exact hps w (parent_append_length.mp hp)

/-- Nothing is new above an old node. -/
lemma ancestor_append_of_lt (h : Backward t) (hv : v < t.length) :
    Ancestor (t ++ [ps]) v w ↔ Ancestor t v w := by
  constructor
  · intro ha
    induction ha with
    | refl => exact .refl v
    | tail hb hp ih =>
      have hlt := lt_of_le_of_lt (ih.le h) hv
      exact ih.tail ((parent_append_of_lt hlt).mp hp)
  · intro ha
    induction ha with
    | refl => exact .refl v
    | tail hb hp ih => exact ih.tail ((parent_append_of_lt hp.lt_length).mpr hp)

/-- What is above the new node is above one of those that it refers to. -/
lemma ancestor_append_length (h : Backward t) (hps : ∀ p ∈ ps, p < t.length) :
    Ancestor (t ++ [ps]) t.length w ↔ w = t.length ∨ ∃ p ∈ ps, Ancestor t p w := by
  constructor
  · intro ha
    rcases ReflTransGen.cases_head ha with rfl | ⟨p, hp, ha⟩
    · exact .inl rfl
    · have hmem := parent_append_length.mp hp
      exact .inr ⟨p, hmem, (ancestor_append_of_lt h (hps p hmem)).mp ha⟩
  · rintro (rfl | ⟨p, hp, ha⟩)
    · exact .refl _
    · exact ReflTransGen.head (parent_append_length.mpr hp)
        ((ancestor_append_of_lt h (hps p hp)).mpr ha)

end OmniORB.Library
