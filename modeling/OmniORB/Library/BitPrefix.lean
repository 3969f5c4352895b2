import Mathlib

/-!
# Agreement in the leading bits

Two words, or two strings of octets, that have the same bits wherever a mask has one. The bits are
counted from the most significant one.
-/

namespace OmniORB.Library

/-! ### Words -/

section Words

variable {w : ℕ} {x y m : BitVec w}

/-- The two words have the same bits where the mask has one. -/
def AgreeIn (m x y : BitVec w) : Prop := ∀ i < w, m.getMsbD i = true → x.getMsbD i = y.getMsbD i

lemma and_eq_and_iff : x &&& m = y &&& m ↔ AgreeIn m x y := by
  constructor
  · intro h i _ hm
    have hi := congrArg (fun v => v.getMsbD i) h
    simpa [BitVec.getMsbD_and, hm] using hi
  · intro h
    apply BitVec.eq_of_getMsbD_eq
    intro i hi
    rw [BitVec.getMsbD_and, BitVec.getMsbD_and]
    cases hm : m.getMsbD i with
    | false => simp
    | true => rw [h i hi hm]

/-- The mask of the first `p` bits. -/
lemma getMsbD_allOnes_shiftLeft {p i : ℕ} (hp : p ≤ w) :
    (BitVec.allOnes w <<< (w - p)).getMsbD i = decide (i < p) := by
  rw [BitVec.getMsbD_shiftLeft, BitVec.getMsbD_allOnes, decide_eq_decide]
  omega

lemma agreeIn_allOnes_shiftLeft {p : ℕ} (hp : p ≤ w) :
    AgreeIn (BitVec.allOnes w <<< (w - p)) x y ↔ ∀ i < p, x.getMsbD i = y.getMsbD i := by
  constructor
  · intro h i hi
    have hw : i < w := by omega
    apply h i hw
    rw [getMsbD_allOnes_shiftLeft hp, decide_eq_true hi]
  · intro h i hw hm
    rw [getMsbD_allOnes_shiftLeft hp, decide_eq_true_eq] at hm
    exact h i hm

/-- A word without bits outside the mask is compared with what the mask leaves of another one. -/
lemma eq_and_iff (hx : x &&& m = x) : x = y &&& m ↔ AgreeIn m x y := by
  rw [← and_eq_and_iff, hx]

/-- A word with bits outside the mask is never what the mask leaves of another one. -/
lemma ne_and (hx : x &&& m ≠ x) : x ≠ y &&& m := by
  intro h
  apply hx
  rw [h, BitVec.and_assoc, BitVec.and_self]

/-- A word without bits outside the mask. -/
lemma and_eq_left_iff : x &&& m = x ↔ ∀ i, x.getMsbD i = true → m.getMsbD i = true := by
  constructor
  · intro h i hx
    rw [← h, BitVec.getMsbD_and, Bool.and_eq_true] at hx
    exact hx.2
  · intro h
    apply BitVec.eq_of_getMsbD_eq
    intro i _
    rw [BitVec.getMsbD_and]
    cases hx : x.getMsbD i with
    | false => rfl
    | true => rw [h i hx]; rfl

lemma and_allOnes_shiftLeft_eq_left_iff {p : ℕ} (hp : p ≤ w) :
    x &&& (BitVec.allOnes w <<< (w - p)) = x ↔ ∀ i, p ≤ i → x.getMsbD i = false := by
  rw [and_eq_left_iff]
  constructor
  · intro h i hi
    by_contra hx
    have hm := h i (Bool.eq_true_of_not_eq_false hx)
    rw [getMsbD_allOnes_shiftLeft hp, decide_eq_true_eq] at hm
    omega
  · intro h i hx
    rw [getMsbD_allOnes_shiftLeft hp, decide_eq_true_eq]
    by_contra hi
    rw [h i (by omega)] at hx
    cases hx

end Words

/-! ### Strings of octets -/

/-- A bit of the string, counted from the first octet on. -/
def octetBit (a : List (BitVec 8)) (i : ℕ) : Bool := (a.getD (i / 8) 0).getMsbD (i % 8)

/-- The two strings have the same first `p` bits. -/
def AgreeUpTo (p : ℕ) (a b : List (BitVec 8)) : Prop := ∀ i < p, octetBit a i = octetBit b i

variable {a b : List (BitVec 8)} {x y : BitVec 8} {p i : ℕ}

lemma octetBit_cons_of_lt (hi : i < 8) : octetBit (x :: a) i = x.getMsbD i := by
  rw [octetBit, Nat.div_eq_of_lt hi, Nat.mod_eq_of_lt hi]
  rfl

@[simp] lemma octetBit_cons_add : octetBit (x :: a) (i + 8) = octetBit a i := by
  rw [octetBit, octetBit, Nat.add_div_right i (by decide), Nat.add_mod_right]
  rfl

/-- A whole octet at the front. -/
lemma agreeUpTo_cons_of_le (hp : 8 ≤ p) :
    AgreeUpTo p (x :: a) (y :: b) ↔ x = y ∧ AgreeUpTo (p - 8) a b := by
  constructor
  · intro h
    constructor
    · apply BitVec.eq_of_getMsbD_eq
      intro i hi
      have hbit := h i (by omega)
      rwa [octetBit_cons_of_lt hi, octetBit_cons_of_lt hi] at hbit
    · intro i hi
      have hbit := h (i + 8) (by omega)
      rwa [octetBit_cons_add, octetBit_cons_add] at hbit
  · rintro ⟨rfl, h⟩ i hi
    by_cases hi8 : i < 8
    · rw [octetBit_cons_of_lt hi8, octetBit_cons_of_lt hi8]
    · obtain ⟨j, rfl⟩ : ∃ j, i = j + 8 := ⟨i - 8, by omega⟩
      rw [octetBit_cons_add, octetBit_cons_add]
      exact h j (by omega)

/-- A part of an octet at the front. -/
lemma agreeUpTo_cons_of_lt (hp : p < 8) :
    AgreeUpTo p (x :: a) (y :: b) ↔ AgreeIn (BitVec.allOnes 8 <<< (8 - p)) x y := by
  rw [agreeIn_allOnes_shiftLeft (by omega)]
  constructor
  · intro h i hi
    have hbit := h i hi
    rwa [octetBit_cons_of_lt (by omega), octetBit_cons_of_lt (by omega)] at hbit
  · intro h i hi
    rw [octetBit_cons_of_lt (by omega), octetBit_cons_of_lt (by omega)]
    exact h i hi

lemma agreeUpTo_zero : AgreeUpTo 0 a b := by
  intro i hi
  omega

end OmniORB.Library
