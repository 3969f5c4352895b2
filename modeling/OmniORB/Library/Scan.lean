import Mathlib

/-!
# Scanners that stop at a delimiter

A scanner reads the front of a list and gives the rest back. It is delimited by `h` if what it
accepts is read the same way with `h` after it.
-/

namespace OmniORB.Library

variable {ε τ α β : Type}

/-! ### Results that may be errors -/

lemma bind_eq_ok {x : Except ε α} {k : α → Except ε β} {b : β} :
    (x >>= k) = .ok b ↔ ∃ a, x = .ok a ∧ k a = .ok b := by
  cases x with
  | ok a => simp [bind, Except.bind]
  | error e => simp [bind, Except.bind]

lemma toOption_eq_some {x : Except ε α} {a : α} : x.toOption = some a ↔ x = .ok a := by
  cases x with
  | ok b => simp [Except.toOption]
  | error e => simp [Except.toOption]

/-! ### Scanners -/

/-- A function that reads the front of a list. -/
abbrev Scanner (ε τ α : Type) := List τ → Except ε (α × List τ)

/-- The scanner leaves no more than it is given, and what it accepts it reads the same way with `h`
after it. -/
structure Delimited (h : List τ) (p : Scanner ε τ α) : Prop where
  append : ∀ s a t, p s = .ok (a, t) → p (s ++ h) = .ok (a, t ++ h)
  length_le : ∀ s a t, p s = .ok (a, t) → t.length ≤ s.length

namespace Delimited

variable {h : List τ} {p q : Scanner ε τ α}

lemma of_ok (a : α) : Delimited h (fun s => .ok (a, s) : Scanner ε τ α) where
  append := by
    intro s b t hs
    simp only [Except.ok.injEq, Prod.mk.injEq] at hs ⊢
    exact ⟨hs.1, by rw [hs.2]⟩
  length_le := by
    intro s b t hs
    simp only [Except.ok.injEq, Prod.mk.injEq] at hs
    rw [hs.2]

lemma of_error (e : ε) : Delimited h (fun _ => .error e : Scanner ε τ α) where
  append _ _ _ hs := nomatch hs
  length_le _ _ _ hs := nomatch hs

/-- One scanner after the other. -/
lemma bind {k : α × List τ → Except ε (β × List τ)} (hp : Delimited h p)
    (hk : ∀ a, Delimited h (fun s => k (a, s))) : Delimited h (fun s => p s >>= k) where
  append := by
    intro s b t hs
    obtain ⟨⟨a, u⟩, hpu, hku⟩ := bind_eq_ok.mp hs
    exact bind_eq_ok.mpr ⟨(a, u ++ h), hp.append s a u hpu, (hk a).append u b t hku⟩
  length_le := by
    intro s b t hs
    obtain ⟨⟨a, u⟩, hpu, hku⟩ := bind_eq_ok.mp hs
    exact ((hk a).length_le u b t hku).trans (hp.length_le s a u hpu)

/-- A choice that looks no further than `h`. -/
lemma of_ite {c : List τ → Prop} [DecidablePred c] (hc : ∀ s, c (s ++ h) ↔ c s)
    (hp : Delimited h p) (hq : Delimited h q) :
    Delimited h (fun s => if c s then p s else q s) where
  append := by
    intro s a t hs
    simp only [hc] at hs ⊢
    by_cases h1 : c s
    · rw [if_pos h1] at hs ⊢
      exact hp.append s a t hs
    · rw [if_neg h1] at hs ⊢
      exact hq.append s a t hs
  length_le := by
    intro s a t hs
    by_cases h1 : c s
    · simp only [if_pos h1] at hs
      exact hp.length_le s a t hs
    · simp only [if_neg h1] at hs
      exact hq.length_le s a t hs

/-- A front part that was looked at is passed over. -/
lemma of_drop {c : List τ → Prop} [DecidablePred c] {n : ℕ} (hc : ∀ s, c (s ++ h) ↔ c s)
    (hn : ∀ s, c s → n ≤ s.length) (hp : Delimited h p) (hq : Delimited h q) :
    Delimited h (fun s => if c s then p (s.drop n) else q s) where
  append := by
    intro s a t hs
    simp only [hc] at hs ⊢
    by_cases h1 : c s
    · rw [if_pos h1] at hs ⊢
      rw [List.drop_append_of_le_length (hn s h1)]
      exact hp.append _ a t hs
    · rw [if_neg h1] at hs ⊢
      exact hq.append s a t hs
  length_le := by
    intro s a t hs
    by_cases h1 : c s
    · simp only [if_pos h1] at hs
      have hle := hp.length_le _ a t hs
      rw [List.length_drop] at hle
      exact hle.trans (Nat.sub_le _ _)
    · simp only [if_neg h1] at hs
      exact hq.length_le s a t hs

end Delimited

/-! ### Delimiters -/

section Spans

variable {f : τ → Bool} {c : τ} {h : List τ}

/-- A span that ends at the first element of `h`. -/
lemma takeWhile_append_cons (hc : f c = false) (s : List τ) :
    (s ++ c :: h).takeWhile f = s.takeWhile f := by
  induction s with
  | nil => simp [hc]
  | cons a s ih =>
    rw [List.cons_append, List.takeWhile_cons, List.takeWhile_cons, ih]

lemma dropWhile_append_cons (hc : f c = false) (s : List τ) :
    (s ++ c :: h).dropWhile f = s.dropWhile f ++ c :: h := by
  induction s with
  | nil => simp [hc]
  | cons a s ih =>
    rw [List.cons_append, List.dropWhile_cons, List.dropWhile_cons, ih]
    split_ifs
    · rfl
    · rfl

/-- A span that ends before the end of the list ends there with anything after it. -/
lemma takeWhile_append_of_dropWhile {s : List τ} (hs : s.dropWhile f ≠ []) :
    (s ++ h).takeWhile f = s.takeWhile f ∧ (s ++ h).dropWhile f = s.dropWhile f ++ h := by
  induction s with
  | nil => exact absurd rfl hs
  | cons a s ih =>
    rw [List.dropWhile_cons] at hs
    rw [List.cons_append, List.takeWhile_cons, List.takeWhile_cons, List.dropWhile_cons,
      List.dropWhile_cons]
    split_ifs at hs ⊢ with ha
    · obtain ⟨h1, h2⟩ := ih hs
      exact ⟨by rw [h1], h2⟩
    · exact ⟨rfl, rfl⟩

end Spans

end OmniORB.Library
