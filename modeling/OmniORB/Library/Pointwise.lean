import Mathlib

/-!
# Lists related place by place

Two lists of which one describes the other: what is read at a place of them, and how both change at
a place.
-/

namespace OmniORB.Library

open List

variable {α β : Type} {R : α → β → Prop} {l : List α} {l' : List β} {k : ℕ} {a : α}

lemma exists_getElem?_of_forall₂ (h : Forall₂ R l l') {b : β} (hb : l'[k]? = some b) :
    ∃ a, l[k]? = some a ∧ R a b := by
  induction h generalizing k with
  | nil => cases hb
  | cons hab h ih =>
    cases k with
    | zero =>
      cases hb
      exact ⟨_, rfl, hab⟩
    | succ k => exact ih hb

lemma getElem?_eq_none_of_forall₂ (h : Forall₂ R l l') (hk : l'[k]? = none) : l[k]? = none := by
  rw [List.getElem?_eq_none_iff, h.length_eq]
  exact List.getElem?_eq_none_iff.mp hk

lemma forall₂_set_modify (h : Forall₂ R l l') {f : β → β}
    (hk : ∀ b, l'[k]? = some b → R a (f b)) : Forall₂ R (l.set k a) (l'.modify k f) := by
  induction h generalizing k with
  | nil => simp
  | cons hab h ih =>
    cases k with
    | zero => exact .cons (hk _ rfl) h
    | succ k => exact .cons hab (ih fun b hb => hk b hb)

lemma forall₂_append_singleton (h : Forall₂ R l l') {b : β} (hab : R a b) :
    Forall₂ R (l ++ [a]) (l' ++ [b]) :=
  List.rel_append h (.cons hab .nil)

lemma modify_of_getElem?_eq {b : β} {f : β → β} (hb : l'[k]? = some b) (hf : f b = b) :
    l'.modify k f = l' := by
  apply List.ext_getElem?
  intro i
  rw [List.getElem?_modify]
  split_ifs with hi
  · rw [← hi, hb]
    simp [hf]
  · simp

end OmniORB.Library
