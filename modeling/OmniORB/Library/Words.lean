import Mathlib

/-!
# Words of a machine

Integers as the words of a machine hold them: `w` bits, read without a sign or as two's complement.
A value fits if one of the two readings has it.
-/

namespace OmniORB.Library

/-- The word for `z`, read without a sign. -/
def unsigned (w : ℕ) (z : ℤ) : ℤ := z % 2 ^ w

/-- The word for `z`, read as two's complement. -/
def signed (w : ℕ) (z : ℤ) : ℤ := if 2 * (z % 2 ^ w) < 2 ^ w then z % 2 ^ w else z % 2 ^ w - 2 ^ w

/-- A signed or an unsigned word has the value. -/
def FitsWord (w : ℕ) (z : ℤ) : Prop := -2 ^ w ≤ 2 * z ∧ z < 2 ^ w

/-- A signed word has the value. -/
def FitsSigned (w : ℕ) (z : ℤ) : Prop := -2 ^ w ≤ 2 * z ∧ 2 * z < 2 ^ w

instance (w : ℕ) (z : ℤ) : Decidable (FitsWord w z) := inferInstanceAs (Decidable (_ ∧ _))

instance (w : ℕ) (z : ℤ) : Decidable (FitsSigned w z) := inferInstanceAs (Decidable (_ ∧ _))

variable {w : ℕ} {z : ℤ}

lemma unsigned_nonneg (w : ℕ) (z : ℤ) : 0 ≤ unsigned w z :=
  Int.emod_nonneg z (by positivity)

lemma unsigned_lt (w : ℕ) (z : ℤ) : unsigned w z < 2 ^ w := Int.emod_lt_of_pos z (by positivity)

lemma unsigned_of_nonneg (h : 0 ≤ z) (hw : z < 2 ^ w) : unsigned w z = z := Int.emod_eq_of_lt h hw

lemma unsigned_of_neg (h : z < 0) (hw : -2 ^ w ≤ z) : unsigned w z = z + 2 ^ w := by
  rw [unsigned, ← Int.add_emod_right z (2 ^ w)]
  exact Int.emod_eq_of_lt (by omega) (by omega)

lemma fitsSigned_signed (w : ℕ) (z : ℤ) : FitsSigned w (signed w z) := by
  have h0 := unsigned_nonneg w z
  have hlt := unsigned_lt w z
  rw [unsigned] at h0 hlt
  rw [signed, FitsSigned]
  split_ifs
  · constructor <;> omega
  · constructor <;> omega

lemma signed_of_fits (h : FitsSigned w z) : signed w z = z := by
  obtain ⟨hlo, hhi⟩ := h
  have hpos : (0 : ℤ) < 2 ^ w := by positivity
  rw [signed]
  rcases lt_or_ge z 0 with hz | hz
  · have hu := unsigned_of_neg (w := w) hz (by omega)
    rw [unsigned] at hu
    rw [hu, if_neg (by omega)]
    omega
  · have hu := unsigned_of_nonneg (w := w) hz (by omega)
    rw [unsigned] at hu
    rw [hu, if_pos (by omega)]

/-- A large unsigned word is negative as two's complement. -/
lemma signed_of_large (h : 2 ^ w ≤ 2 * z) (hw : z < 2 ^ w) : signed w z = z - 2 ^ w := by
  have hpos : (0 : ℤ) < 2 ^ w := by positivity
  have hu := unsigned_of_nonneg (w := w) (z := z) (by omega) hw
  rw [unsigned] at hu
  rw [signed, hu, if_neg (by omega)]

/-! ### Bits -/

/-- The bits of `m` that `n` has not, from the complement of `n`. -/
lemma ldiff_eq_and {m n : ℕ} (hm : m < 2 ^ w) (hn : n < 2 ^ w) :
    Nat.ldiff m n = m &&& (2 ^ w - (n + 1)) := by
  apply Nat.eq_of_testBit_eq
  intro i
  rw [Nat.testBit_ldiff, Nat.testBit_and, Nat.testBit_two_pow_sub_succ hn]
  rcases lt_or_ge i w with hi | hi
  · simp [hi]
  · have hmi := Nat.testBit_lt_two_pow (hm.trans_le (Nat.pow_le_pow_right (by decide) hi))
    simp [hmi]

lemma exists_negSucc {x : ℤ} (hx : x < 0) (hxw : -2 ^ w ≤ x) :
    ∃ m : ℕ, x = Int.negSucc m ∧ m < 2 ^ w := by
  obtain ⟨m, rfl⟩ := Int.eq_negSucc_of_lt_zero hx
  refine ⟨m, rfl, ?_⟩
  rw [Int.negSucc_eq] at hxw
  have h : (m : ℤ) < ((2 ^ w : ℕ) : ℤ) := by
    push_cast
    omega
  exact_mod_cast h

lemma exists_natCast {y : ℤ} (hy : 0 ≤ y) (hyw : y < 2 ^ w) : ∃ n : ℕ, y = n ∧ n < 2 ^ w := by
  obtain ⟨n, rfl⟩ := Int.eq_ofNat_of_zero_le hy
  exact ⟨n, rfl, by exact_mod_cast hyw⟩

lemma natCast_sub_two_pow {n : ℕ} (hn : n < 2 ^ w) :
    (n : ℤ) - 2 ^ w = Int.negSucc (2 ^ w - (n + 1)) := by
  rw [Int.negSucc_eq]
  push_cast [Nat.succ_le_of_lt hn]
  ring

/-- With a negative number, a large word may be read either way. -/
lemma lor_sub_two_pow {x y : ℤ} (hx : x < 0) (hxw : -2 ^ w ≤ x) (hy : 0 ≤ y) (hyw : y < 2 ^ w) :
    Int.lor x (y - 2 ^ w) = Int.lor x y := by
  obtain ⟨m, rfl, hm⟩ := exists_negSucc hx hxw
  obtain ⟨n, rfl, hn⟩ := exists_natCast hy hyw
  rw [natCast_sub_two_pow hn]
  change Int.negSucc (m &&& (2 ^ w - (n + 1))) = Int.negSucc (Nat.ldiff m n)
  rw [ldiff_eq_and hm hn]

/-- With a word, a negative number may be read either way. -/
lemma land_add_two_pow {x y : ℤ} (hx : 0 ≤ x) (hxw : x < 2 ^ w) (hy : y < 0) (hyw : -2 ^ w ≤ y) :
    Int.land x (y + 2 ^ w) = Int.land x y := by
  obtain ⟨m, rfl, hm⟩ := exists_negSucc hy hyw
  obtain ⟨n, rfl, hn⟩ := exists_natCast hx hxw
  have hc : Int.negSucc m + 2 ^ w = ((2 ^ w - (m + 1) : ℕ) : ℤ) := by
    rw [Int.negSucc_eq]
    push_cast [Nat.succ_le_of_lt hm]
    ring
  rw [hc]
  change ((n &&& (2 ^ w - (m + 1)) : ℕ) : ℤ) = ((Nat.ldiff n m : ℕ) : ℤ)
  rw [ldiff_eq_and hn hm]

/-! ### Ranges -/

section Ranges

variable {x y : ℤ}

lemma lor_neg_left (hx : x < 0) (y : ℤ) : Int.lor x y < 0 := by
  obtain ⟨m, rfl⟩ := Int.eq_negSucc_of_lt_zero hx
  cases y <;> exact Int.negSucc_lt_zero _

lemma lor_neg_right (x : ℤ) (hy : y < 0) : Int.lor x y < 0 := by
  obtain ⟨m, rfl⟩ := Int.eq_negSucc_of_lt_zero hy
  cases x <;> exact Int.negSucc_lt_zero _

lemma xor_neg (hx : 0 ≤ x) (hy : y < 0) : Int.xor x y < 0 ∧ Int.xor y x < 0 := by
  obtain ⟨m, rfl⟩ := Int.eq_negSucc_of_lt_zero hy
  obtain ⟨n, rfl⟩ := Int.eq_ofNat_of_zero_le hx
  exact ⟨Int.negSucc_lt_zero _, Int.negSucc_lt_zero _⟩

lemma xor_nonneg (hx : x < 0) (hy : y < 0) : 0 ≤ Int.xor x y := by
  obtain ⟨m, rfl⟩ := Int.eq_negSucc_of_lt_zero hx
  obtain ⟨n, rfl⟩ := Int.eq_negSucc_of_lt_zero hy
  exact Int.natCast_nonneg _

lemma land_nonneg_right (x : ℤ) (hy : 0 ≤ y) : 0 ≤ Int.land x y := by
  obtain ⟨n, rfl⟩ := Int.eq_ofNat_of_zero_le hy
  cases x <;> exact Int.natCast_nonneg _

lemma land_neg (hx : x < 0) (hy : y < 0) : Int.land x y < 0 := by
  obtain ⟨m, rfl⟩ := Int.eq_negSucc_of_lt_zero hx
  obtain ⟨n, rfl⟩ := Int.eq_negSucc_of_lt_zero hy
  exact Int.negSucc_lt_zero _

/-- A bit operation on words without a sign gives one. -/
lemma bitOp_lt (hx : 0 ≤ x) (hxw : x < 2 ^ w) (hy : 0 ≤ y) (hyw : y < 2 ^ w) :
    (0 ≤ Int.lor x y ∧ Int.lor x y < 2 ^ w) ∧ (0 ≤ Int.land x y ∧ Int.land x y < 2 ^ w) ∧
      (0 ≤ Int.xor x y ∧ Int.xor x y < 2 ^ w) := by
  obtain ⟨m, rfl, hm⟩ := exists_natCast hx hxw
  obtain ⟨n, rfl, hn⟩ := exists_natCast hy hyw
  refine ⟨⟨Int.natCast_nonneg _, ?_⟩, ⟨Int.natCast_nonneg _, ?_⟩, ⟨Int.natCast_nonneg _, ?_⟩⟩
  · change ((m ||| n : ℕ) : ℤ) < 2 ^ w
    exact_mod_cast Nat.or_lt_two_pow hm hn
  · change ((m &&& n : ℕ) : ℤ) < 2 ^ w
    exact_mod_cast Nat.and_lt_two_pow m hn
  · change ((m ^^^ n : ℕ) : ℤ) < 2 ^ w
    exact_mod_cast Nat.xor_lt_two_pow hm hn

/-- A bit operation on words of two's complement gives one. -/
lemma bitOp_fitsSigned (hx : FitsSigned (w + 1) x) (hy : FitsSigned (w + 1) y) :
    FitsSigned (w + 1) (Int.lor x y) ∧ FitsSigned (w + 1) (Int.land x y) ∧
      FitsSigned (w + 1) (Int.xor x y) := by
  have hiff : ∀ z : ℤ, FitsSigned (w + 1) z ↔ -2 ^ w ≤ z ∧ z < 2 ^ w := by
    intro z
    rw [FitsSigned, pow_succ]
    omega
  have hneg : ∀ m : ℕ, m < 2 ^ w → -2 ^ w ≤ Int.negSucc m ∧ Int.negSucc m < 2 ^ w := by
    intro m hm
    have hcast : (m : ℤ) < 2 ^ w := by exact_mod_cast hm
    rw [Int.negSucc_eq]
    constructor <;> omega
  have hnat : ∀ n : ℕ, n < 2 ^ w → -2 ^ w ≤ (n : ℤ) ∧ (n : ℤ) < 2 ^ w := by
    intro n hn
    have hcast : (n : ℤ) < 2 ^ w := by exact_mod_cast hn
    constructor <;> omega
  have hdiff : ∀ m n : ℕ, m < 2 ^ w → n < 2 ^ w → Nat.ldiff m n < 2 ^ w := by
    intro m n hm hn
    rw [ldiff_eq_and hm hn]
    exact Nat.and_le_left.trans_lt hm
  rw [hiff] at hx hy
  rw [hiff, hiff, hiff]
  rcases lt_or_ge x 0 with hx0 | hx0
  · obtain ⟨m, rfl, hm⟩ := exists_negSucc hx0 hx.1
    rcases lt_or_ge y 0 with hy0 | hy0
    · obtain ⟨n, rfl, hn⟩ := exists_negSucc hy0 hy.1
      exact ⟨hneg _ (Nat.and_lt_two_pow m hn), hneg _ (Nat.or_lt_two_pow hm hn),
        hnat _ (Nat.xor_lt_two_pow hm hn)⟩
    · obtain ⟨n, rfl, hn⟩ := exists_natCast hy0 hy.2
      exact ⟨hneg _ (hdiff m n hm hn), hnat _ (hdiff n m hn hm), hneg _ (Nat.xor_lt_two_pow hm hn)⟩
  · obtain ⟨m, rfl, hm⟩ := exists_natCast hx0 hx.2
    rcases lt_or_ge y 0 with hy0 | hy0
    · obtain ⟨n, rfl, hn⟩ := exists_negSucc hy0 hy.1
      exact ⟨hneg _ (hdiff n m hn hm), hnat _ (hdiff m n hm hn), hneg _ (Nat.xor_lt_two_pow hm hn)⟩
    · obtain ⟨n, rfl, hn⟩ := exists_natCast hy0 hy.2
      exact ⟨hnat _ (Nat.or_lt_two_pow hm hn), hnat _ (Nat.and_lt_two_pow m hn),
        hnat _ (Nat.xor_lt_two_pow hm hn)⟩

end Ranges

end OmniORB.Library
