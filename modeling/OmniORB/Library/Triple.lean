import Mathlib

/-!
# What programs with a state and exceptions do

A program of `EStateM ε σ` keeps the state it has reached when it raises an exception, so a
postcondition has two parts. `Agree` compares two programs from one state: they do the same, and
what they do meets the postconditions. `Does` is the case of one program.
-/

namespace OmniORB.Library

variable {ε σ α β : Type}

/-- `r` is a value with `Q` or an exception with `E`. -/
def Meets (Q : α → σ → Prop) (E : ε → σ → Prop) : EStateM.Result ε σ α → Prop
  | .ok a s => Q a s
  | .error e s => E e s

/-- From `s` the two programs do the same, and they end with `Q` or `E`. -/
structure Agree (s : σ) (m₁ m₂ : EStateM ε σ α) (Q : α → σ → Prop) (E : ε → σ → Prop) : Prop where
  same : m₁ s = m₂ s
  meets : Meets Q E (m₁ s)

/-- From `s` the program ends with `Q` or `E`. -/
abbrev Does (s : σ) (m : EStateM ε σ α) (Q : α → σ → Prop) (E : ε → σ → Prop) : Prop :=
  Agree s m m Q E

variable {s t : σ} {Q Q' : α → σ → Prop} {R : β → σ → Prop} {E E' : ε → σ → Prop}
variable {m m₁ m₂ : EStateM ε σ α}

lemma Meets.mono {r : EStateM.Result ε σ α} (h : Meets Q E r) (hQ : ∀ a t, Q a t → Q' a t)
    (hE : ∀ e t, E e t → E' e t) : Meets Q' E' r := by
  cases r with
  | ok a t => exact hQ a t h
  | error e t => exact hE e t h

lemma bind_of_ok {k : α → EStateM ε σ β} {a : α} (h : m s = .ok a t) : (m >>= k) s = k a t := by
  change EStateM.bind m k s = k a t
  rw [EStateM.bind, h]

lemma bind_of_error {k : α → EStateM ε σ β} {e : ε} (h : m s = .error e t) :
    (m >>= k) s = .error e t := by
  change EStateM.bind m k s = .error e t
  rw [EStateM.bind, h]

namespace Agree

/-! ### Rules -/

lemma does (h : Agree s m₁ m₂ Q E) : Does s m₁ Q E := ⟨rfl, h.meets⟩

lemma mono (h : Agree s m₁ m₂ Q E) (hQ : ∀ a t, Q a t → Q' a t) (hE : ∀ e t, E e t → E' e t) :
    Agree s m₁ m₂ Q' E' :=
  ⟨h.same, h.meets.mono hQ hE⟩

lemma of_pure {a : α} (h : Q a s) : Agree s (pure a : EStateM ε σ α) (pure a) Q E := ⟨rfl, h⟩

lemma of_throw {e : ε} (h : E e s) : Agree s (throw e : EStateM ε σ α) (throw e) Q E := ⟨rfl, h⟩

lemma of_get {k : σ → EStateM ε σ α} (h : Does s (k s) Q E) : Does s (get >>= k) Q E :=
  ⟨rfl, h.meets⟩

lemma of_set {k : PUnit → EStateM ε σ α} (h : Does t (k ⟨⟩) Q E) : Does s (set t >>= k) Q E :=
  ⟨rfl, h.meets⟩

lemma of_modify {f : σ → σ} {k : PUnit → EStateM ε σ α} (h : Does (f s) (k ⟨⟩) Q E) :
    Does s (modify f >>= k) Q E :=
  ⟨rfl, h.meets⟩

lemma modified {f : σ → σ} {Q : PUnit → σ → Prop} (h : Q ⟨⟩ (f s)) :
    Does s (modify f : EStateM ε σ PUnit) Q E :=
  ⟨rfl, h⟩

lemma of_ok {k : α → EStateM ε σ β} {a : α} (h : m s = .ok a t) (hk : Does t (k a) R E) :
    Does s (m >>= k) R E :=
  ⟨rfl, by rw [bind_of_ok h]; exact hk.meets⟩

lemma ends {a : α} (h : m s = .ok a t) (hQ : Q a t) : Does s m Q E :=
  ⟨rfl, by rw [h]; exact hQ⟩

lemma ends_error {e : ε} (h : m s = .error e t) (hE : E e t) : Does s m Q E :=
  ⟨rfl, by rw [h]; exact hE⟩

/-- One program after the other. -/
lemma bind {k₁ k₂ : α → EStateM ε σ β} (hm : Agree s m₁ m₂ Q E)
    (hk : ∀ a t, Q a t → Agree t (k₁ a) (k₂ a) R E) : Agree s (m₁ >>= k₁) (m₂ >>= k₂) R E := by
  obtain ⟨heq, hmeets⟩ := hm
  generalize hr : m₁ s = r at heq hmeets
  cases r with
  | ok a t =>
    obtain ⟨hsame, hends⟩ := hk a t hmeets
    constructor
    · rw [bind_of_ok hr, bind_of_ok heq.symm, hsame]
    · rw [bind_of_ok hr]
      exact hends
  | error e t =>
    constructor
    · rw [bind_of_error hr, bind_of_error heq.symm]
    · rw [bind_of_error hr]
      exact hmeets

lemma of_ite {c : Prop} [Decidable c] {n₁ n₂ : EStateM ε σ α} (ht : c → Agree s m₁ m₂ Q E)
    (hf : ¬ c → Agree s n₁ n₂ Q E) :
    Agree s (if c then m₁ else n₁) (if c then m₂ else n₂) Q E := by
  by_cases h : c
  · rw [if_pos h, if_pos h]
    exact ht h
  · rw [if_neg h, if_neg h]
    exact hf h

end Agree

end OmniORB.Library
