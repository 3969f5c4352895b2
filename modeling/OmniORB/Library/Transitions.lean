import Mathlib

/-!
# Runs of a transition function

The states that are reached by steps that meet a condition, and what holds in all of them.
-/

namespace OmniORB.Library

variable {σ α : Type*} {step : σ → α → Option σ} {ok : σ → α → Prop} {init : σ}

/-- The states that are reached from `init` by steps `a` that may be taken in a state `s` with
`ok s a`. -/
inductive ReachedBy (step : σ → α → Option σ) (ok : σ → α → Prop) (init : σ) : σ → Prop where
  | start : ReachedBy step ok init init
  | next {s s' : σ} {a : α} (h : ReachedBy step ok init s) (ha : ok s a)
      (hs : step s a = some s') : ReachedBy step ok init s'

/-- What holds at first, and is kept by each step that meets the condition, holds in each state that
is reached. -/
theorem ReachedBy.invariant {P : σ → Prop} (h0 : P init)
    (hstep : ∀ s a s', P s → ok s a → step s a = some s' → P s') {s : σ}
    (h : ReachedBy step ok init s) : P s := by
  induction h with
  | start => exact h0
  | next _ ha hs ih => exact hstep _ _ _ ih ha hs

/-- A list of steps, one after the other. -/
def execute (step : σ → α → Option σ) : σ → List α → Option σ
  | s, [] => some s
  | s, a :: l => (step s a).bind fun s' => execute step s' l

/-- The steps of a list all meet the condition where they are taken. -/
def AllOk (step : σ → α → Option σ) (ok : σ → α → Prop) : σ → List α → Prop
  | _, [] => True
  | s, a :: l => ok s a ∧ ∀ s' ∈ step s a, AllOk step ok s' l

instance AllOk.decidable [∀ s a, Decidable (ok s a)] :
    (s : σ) → (l : List α) → Decidable (AllOk step ok s l)
  | _, [] => isTrue trivial
  | s, a :: l =>
    have : ∀ s', Decidable (AllOk step ok s' l) := fun s' => AllOk.decidable s' l
    inferInstanceAs (Decidable (ok s a ∧ ∀ s' ∈ step s a, AllOk step ok s' l))

lemma AllOk.of_forall (h : ∀ s a, ok s a) (s : σ) (l : List α) : AllOk step ok s l := by
  induction l generalizing s with
  | nil => trivial
  | cons a l ih => exact ⟨h s a, fun s' _ => ih s'⟩

/-- Two conditions that say the same of each step in a state with the invariant say the same of a
whole run. -/
lemma AllOk.congr {ok' : σ → α → Prop} (P : σ → Prop)
    (hkeep : ∀ s a s', P s → step s a = some s' → P s')
    (hok : ∀ s a s', P s → step s a = some s' → (ok s a ↔ ok' s a)) {s s' : σ} {l : List α}
    (h : P s) (hs : Library.execute step s l = some s') :
    AllOk step ok s l ↔ AllOk step ok' s l := by
  induction l generalizing s with
  | nil => exact Iff.rfl
  | cons a l ih =>
    obtain ⟨s1, h1, hs⟩ := Option.bind_eq_some_iff.mp hs
    have hlater : (∀ s2 ∈ step s a, AllOk step ok s2 l) ↔ ∀ s2 ∈ step s a, AllOk step ok' s2 l := by
      apply forall₂_congr
      intro s2 h2
      obtain rfl := Option.some.inj (h1.symm.trans h2)
      exact ih (hkeep s a s1 h h1) hs
    exact and_congr (hok s a s1 h h1) hlater

/-- Two conditions say the same of a whole run if they say the same of each step in a state with the
invariant, which the steps keep that meet them. -/
lemma AllOk.iff_of_keeps {ok' : σ → α → Prop} (P : σ → Prop) (hok : ∀ s a, P s → (ok s a ↔ ok' s a))
    (hkeep : ∀ s a s', P s → ok' s a → step s a = some s' → P s') {s : σ} (h : P s) (l : List α) :
    AllOk step ok s l ↔ AllOk step ok' s l := by
  induction l generalizing s with
  | nil => exact Iff.rfl
  | cons a l ih =>
    constructor
    · rintro ⟨ha, hl⟩
      have ha' := (hok s a h).mp ha
      exact ⟨ha', fun s' hs => (ih (hkeep s a s' h ha' hs)).mp (hl s' hs)⟩
    · rintro ⟨ha, hl⟩
      exact ⟨(hok s a h).mpr ha, fun s' hs => (ih (hkeep s a s' h ha hs)).mpr (hl s' hs)⟩

/-- A list of steps that meet the condition reaches its last state. -/
lemma ReachedBy.execute {s s' : σ} {l : List α} (h : ReachedBy step ok init s)
    (hl : AllOk step ok s l) (hs : Library.execute step s l = some s') :
    ReachedBy step ok init s' := by
  induction l generalizing s with
  | nil =>
    obtain rfl := Option.some.inj hs
    exact h
  | cons a l ih =>
    obtain ⟨s1, h1, hs⟩ := Option.bind_eq_some_iff.mp hs
    exact ih (h.next hl.1 h1) (hl.2 s1 h1) hs

end OmniORB.Library
