import Mathlib

/-!
# Loops that a pass can end

Each pass of the loop takes an input, tells something of what it did, and goes on from a new state or
ends the loop. What holds of each pass, and of a pass and the next, holds of what a whole run tells.
-/

namespace OmniORB.Library

variable {σ α β ε : Type*} {pass : σ → α → β × (σ ⊕ ε)} {s s' : σ} {a : α} {l : List α} {e : ε}

/-- What the passes tell, and what ended the loop, if the inputs did not run out before. -/
def passes (pass : σ → α → β × (σ ⊕ ε)) : σ → List α → List β × Option ε
  | _, [] => ([], none)
  | s, a :: l =>
    (pass s a).2.elim
      (fun s' => ((pass s a).1 :: (passes pass s' l).1, (passes pass s' l).2))
      fun e => ([(pass s a).1], some e)

lemma passes_cons_inl (h : (pass s a).2 = .inl s') (l : List α) :
    passes pass s (a :: l) = ((pass s a).1 :: (passes pass s' l).1, (passes pass s' l).2) := by
  rw [passes, h]
  rfl

lemma passes_cons_inr (h : (pass s a).2 = .inr e) (l : List α) :
    passes pass s (a :: l) = ([(pass s a).1], some e) := by
  rw [passes, h]
  rfl

/-- What the first pass tells. -/
lemma head?_passes {b : β} (h : (passes pass s l).1.head? = some b) : ∃ a, b = (pass s a).1 := by
  cases l with
  | nil => cases h
  | cons a l =>
    refine ⟨a, ?_⟩
    cases hnext : (pass s a).2 with
    | inl s' =>
      rw [passes_cons_inl hnext] at h
      exact (Option.some.inj h).symm
    | inr e =>
      rw [passes_cons_inr hnext] at h
      exact (Option.some.inj h).symm

variable (P : σ → Prop) (hkeep : ∀ s a s', P s → (pass s a).2 = .inl s' → P s')

include hkeep

/-- What each pass tells. -/
theorem forall_mem_passes {Q : β → Prop} (hpass : ∀ s a, P s → Q (pass s a).1) (h : P s) :
    ∀ b ∈ (passes pass s l).1, Q b := by
  induction l generalizing s with
  | nil => exact List.forall_mem_nil Q
  | cons a l ih =>
    cases hnext : (pass s a).2 with
    | inl s' =>
      rw [passes_cons_inl hnext, List.forall_mem_cons]
      exact ⟨hpass s a h, ih (hkeep s a s' h hnext)⟩
    | inr e =>
      rw [passes_cons_inr hnext, List.forall_mem_singleton]
      exact hpass s a h

/-- What a pass and the next tell. -/
theorem isChain_passes {R : β → β → Prop}
    (hpass : ∀ s a s' a', P s → (pass s a).2 = .inl s' → R (pass s a).1 (pass s' a').1) (h : P s) :
    (passes pass s l).1.IsChain R := by
  induction l generalizing s with
  | nil => exact List.isChain_nil
  | cons a l ih =>
    cases hnext : (pass s a).2 with
    | inl s' =>
      rw [passes_cons_inl hnext, List.isChain_cons]
      refine ⟨fun b hb => ?_, ih (hkeep s a s' h hnext)⟩
      obtain ⟨a', rfl⟩ := head?_passes hb
      exact hpass s a s' a' h hnext
    | inr e =>
      rw [passes_cons_inr hnext]
      exact List.isChain_singleton _

/-- How the loop ends depends on what the last pass tells. -/
theorem ending_passes {Q : Option β → Option ε → Prop} (hnone : Q none none)
    (hon : ∀ s a s', P s → (pass s a).2 = .inl s' → Q (some (pass s a).1) none)
    (hend : ∀ s a e, P s → (pass s a).2 = .inr e → Q (some (pass s a).1) (some e)) (h : P s) :
    Q (passes pass s l).1.getLast? (passes pass s l).2 := by
  induction l generalizing s with
  | nil => exact hnone
  | cons a l ih =>
    cases hnext : (pass s a).2 with
    | inl s' =>
      rw [passes_cons_inl hnext]
      cases l with
      | nil => exact hon s a s' h hnext
      | cons a' l =>
        have hrest := ih (hkeep s a s' h hnext)
        have hne : (passes pass s' (a' :: l)).1 ≠ [] := by
          rw [passes]
          cases (pass s' a').2 with
          | inl s'' => exact List.cons_ne_nil _ _
          | inr e => exact List.cons_ne_nil _ _
        rw [List.getLast?_cons_of_ne_nil hne]
        exact hrest
    | inr e =>
      rw [passes_cons_inr hnext]
      exact hend s a e h hnext

omit hkeep in
/-- What does not change from one to the next does not change from one to a later one. -/
lemma eq_of_isChain {γ : Type*} {stop : β → Prop} {f : β → γ} {x m y : List β} {b c : β}
    (p : γ → Prop) (h : (x ++ b :: (m ++ c :: y)).IsChain fun b c => ¬ stop b → p (f b) → f c = f b)
    (hb : ¬ stop b) (hm : ∀ d ∈ m, ¬ stop d) (hok : p (f b)) : f c = f b := by
  have hchain := (List.isChain_append.mp h).2.1
  clear h
  induction m generalizing b with
  | nil => exact (List.isChain_cons_cons.mp hchain).1 hb hok
  | cons d m ih =>
    rw [List.forall_mem_cons] at hm
    obtain ⟨hbd, hrest⟩ := List.isChain_cons_cons.mp hchain
    have hd := hbd hb hok
    exact (ih hm.1 hm.2 (hd ▸ hok) hrest).trans hd

/-! ### Limited room -/

omit hkeep in
/-- If each pass adds some elements as long as there is room for them, so does the whole loop. -/
lemma foldlM_fill {γ : Type*} {room : ℕ} {f : List γ → α → Except ε (List γ)} {g : α → List γ}
    (hf : ∀ acc a, acc.length ≤ room → f acc a =
      if acc.length + (g a).length ≤ room then .ok (acc ++ g a) else .error e)
    (l : List α) {acc : List γ} (hacc : acc.length ≤ room) : l.foldlM f acc =
      if acc.length + (l.flatMap g).length ≤ room then .ok (acc ++ l.flatMap g) else .error e := by
  induction l generalizing acc with
  | nil => simp [hacc, pure, Except.pure]
  | cons a l ih =>
    rw [List.foldlM_cons, hf acc a hacc, List.flatMap_cons, List.length_append]
    by_cases ha : acc.length + (g a).length ≤ room
    · have hacc' : (acc ++ g a).length ≤ room := by rwa [List.length_append]
      rw [if_pos ha]
      change l.foldlM f (acc ++ g a) = _
      rw [ih hacc', List.length_append, List.append_assoc, Nat.add_assoc]
    · rw [if_neg ha, if_neg (by omega)]
      rfl

end OmniORB.Library
