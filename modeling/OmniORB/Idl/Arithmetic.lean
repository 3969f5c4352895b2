import OmniORB.Idl.Operators

/-!
# Arithmetic operators and exact results

The sums, differences, products, quotients and remainders, and the signs: for which operands the
result is exact, or the error true, with nothing undefined on the way.
-/

namespace OmniORB.Idl

open Library IdlVal Outcome

variable {m : Mode} {a b e : IdlVal m} {x y z u s mr : ℤ} {exact : Option ℤ}

lemma is_error_some : (error a).Is (settle m a.value (some z)) ↔ ¬ FitsWord m.width z := by
  rw [is_error]
  constructor
  · exact fun h => h z rfl
  · intro h y hy
    cases hy
    exact h

/-! ### Sums and differences -/

lemma addMixed_is (hu : 0 ≤ u) (hu' : u < 2 * m.bound) (hs : -m.bound ≤ s) (hs' : s < 0) :
    (addMixed u s : Outcome m).Is (settle m x (some (u + s))) ↔ s ≠ -m.bound := by
  have hb := m.bound_pos
  rw [addMixed]
  rcases eq_or_ne s (-m.bound) with rfl | hne
  · rw [onHost_none (by omega)]
    exact iff_of_false not_is_none (by simp)
  · refine iff_of_true ?_ hne
    rw [onHost_eq (by omega) (by omega)]
    change Outcome.Is (if -s < u then _ else _) _
    split_ifs with h
    · rw [is_accept, value_ofULong, unsigned_eq (by omega) (by omega)]
      simp
    · rw [signed_eq (by omega) (by omega), onHost_eq (by omega) (by omega)]
      change (accept (ofLong m (u + s))).Is _
      rw [is_accept, value_ofLong, signed_eq (by omega) (by omega)]

lemma addExpr_is : (addExpr a b).Is (settle m a.value (BinaryOp.add.exact a.value b.value)) ↔
    (a.value < 0 → 0 ≤ b.value → a.value ≠ -m.bound) ∧
      (0 ≤ a.value → b.value < 0 → b.value ≠ -m.bound) ∧
      (a.value < 0 → b.value < 0 → -m.bound ≤ a.value + b.value) := by
  have hb := m.bound_pos
  rw [addExpr, BinaryOp.exact]
  cases ha : a.negative <;> cases hn : b.negative
  · obtain ⟨-, hau, ha1, ha2⟩ := of_not_negative ha
    obtain ⟨-, hbu, hb1, hb2⟩ := of_not_negative hn
    refine iff_of_true ?_ (by omega)
    simp only [hau, hbu]
    rcases lt_or_ge (a.value + b.value) (2 * m.bound) with h | h
    · rw [unsigned_eq (by omega) h, if_neg (by omega), is_accept, value_ofULong,
        unsigned_eq (by omega) h]
    · rw [unsigned_eq_sub h (by omega), if_pos (by omega), is_error_some, fits_iff]
      omega
  · obtain ⟨-, hau, ha1, ha2⟩ := of_not_negative ha
    obtain ⟨hbs, -, hb1, hb2⟩ := of_negative hn
    simp only [hau, hbs]
    rw [addMixed_is ha1 ha2 hb1 hb2]
    omega
  · obtain ⟨has, -, ha1, ha2⟩ := of_negative ha
    obtain ⟨-, hbu, hb1, hb2⟩ := of_not_negative hn
    simp only [has, hbu]
    rw [add_comm, addMixed_is hb1 hb2 ha1 ha2]
    omega
  · obtain ⟨has, -, ha1, ha2⟩ := of_negative ha
    obtain ⟨hbs, -, hb1, hb2⟩ := of_negative hn
    simp only [has, hbs]
    rcases lt_or_ge (a.value + b.value) (-m.bound) with h | h
    · rw [onHost_none (by omega)]
      exact iff_of_false not_is_none (by omega)
    · rw [onHost_eq h (by omega)]
      refine iff_of_true ?_ (by omega)
      change Outcome.Is (if a.value < a.value + b.value then _ else _) _
      rw [if_neg (by omega), is_accept, value_ofLong, signed_eq h (by omega)]

lemma negated_is (h : 0 ≤ mr) (h' : mr < 2 * m.bound) :
    (negated a mr).Is (settle m a.value (some (-mr))) ↔ mr ≠ m.bound := by
  have hb := m.bound_pos
  rw [negated]
  rcases lt_trichotomy mr m.bound with hlt | rfl | hgt
  · refine iff_of_true ?_ hlt.ne
    rw [if_neg (by omega), signed_eq (by omega) hlt, onHost_eq (by omega) (by omega)]
    change (accept (ofLong m (-mr))).Is _
    rw [is_accept, value_ofLong, signed_eq (by omega) (by omega)]
  · rw [if_neg (by omega), signed_eq_sub (by omega) (by omega), onHost_none (by omega)]
    exact iff_of_false not_is_none (by simp)
  · rw [if_pos hgt, is_error_some, fits_iff]
    omega

lemma subExpr_is : (subExpr a b).Is (settle m a.value (BinaryOp.sub.exact a.value b.value)) ↔
    (0 ≤ a.value → 0 ≤ b.value → b.value - a.value ≠ m.bound) ∧
      (a.value < 0 → 0 ≤ b.value → a.value ≠ -m.bound ∧ b.value - a.value ≠ m.bound ∧
        b.value - a.value < 2 * m.bound) ∧
      (0 ≤ a.value → b.value < 0 → b.value ≠ -m.bound) ∧
      ¬ (a.value < 0 ∧ b.value < 0) := by
  have hb := m.bound_pos
  have hw := m.two_pow_width
  rw [subExpr, BinaryOp.exact]
  cases ha : a.negative <;> cases hn : b.negative
  · obtain ⟨-, hau, ha1, ha2⟩ := of_not_negative ha
    obtain ⟨-, hbu, hb1, hb2⟩ := of_not_negative hn
    simp only [hau, hbu]
    split_ifs with h
    · rw [is_accept, value_ofULong, unsigned_eq (by omega) (by omega)]
      exact iff_of_true rfl (by omega)
    · rw [← neg_sub b.value, negated_is (by omega) (by omega)]
      omega
  · obtain ⟨-, hau, ha1, ha2⟩ := of_not_negative ha
    obtain ⟨hbs, -, hb1, hb2⟩ := of_negative hn
    simp only [hau, hbs]
    rcases eq_or_ne b.value (-m.bound) with hmin | hne
    · rw [onHost_none (by omega)]
      exact iff_of_false not_is_none (by omega)
    · rw [onHost_eq (by omega) (by omega)]
      refine iff_of_true ?_ (by omega)
      change Outcome.Is (if unsigned m.width (a.value + -b.value) < a.value then _ else _) _
      rcases lt_or_ge (a.value + -b.value) (2 * m.bound) with h | h
      · rw [unsigned_eq (by omega) h, if_neg (by omega), is_accept, value_ofULong,
          unsigned_eq (by omega) h]
        rfl
      · rw [unsigned_eq_sub h (by omega), if_pos (by omega), is_error_some, fits_iff]
        omega
  · obtain ⟨has, -, ha1, ha2⟩ := of_negative ha
    obtain ⟨hbs, -, hb1, hb2⟩ := of_not_negative hn
    simp only [has, hbs]
    rcases eq_or_ne a.value (-m.bound) with hmin | hne
    · rw [onHost_none (by omega)]
      exact iff_of_false not_is_none (by omega)
    · rw [onHost_eq (by omega) (by omega)]
      change Outcome.Is (negated a (unsigned m.width (-a.value + signed m.width b.value))) _ ↔ _
      -- the signed reading of the second operand is the same word
      have hword : unsigned m.width (-a.value + signed m.width b.value) =
          unsigned m.width (b.value - a.value) := by
        rcases lt_or_ge b.value m.bound with h | h
        · rw [signed_eq (by omega) h]
          ring_nf
        · rw [signed_eq_sub h hb2, ← hw, unsigned, unsigned, ← Int.sub_emod_right
            (b.value - a.value)]
          ring_nf
      rw [hword]
      rcases lt_or_ge (b.value - a.value) (2 * m.bound) with h | h
      · rw [unsigned_eq (by omega) h, ← neg_sub b.value, negated_is (by omega) h]
        omega
      · refine iff_of_false ?_ (by omega)
        rw [unsigned_eq_sub h (by omega), negated, if_neg (by omega),
          signed_eq (by omega) (by omega), onHost_eq (by omega) (by omega)]
        change ¬ (accept (ofLong m (-(b.value - a.value - 2 * m.bound)))).Is _
        rw [is_accept, value_ofLong, signed_eq (by omega) (by omega), Option.some_inj]
        omega
  · obtain ⟨has, -, ha1, ha2⟩ := of_negative ha
    obtain ⟨hbs, -, hb1, hb2⟩ := of_negative hn
    simp only [has, hbs]
    refine iff_of_false ?_ (by omega)
    rw [onHost_eq (by omega) (by omega)]
    change ¬ Outcome.Is (if a.value < a.value - b.value then _ else _) _
    rw [if_pos (by omega), is_error_some, fits_iff]
    omega

/-! ### Products and quotients -/

lemma multUnsigned_is (hx : 0 ≤ x) (hx' : x < 2 * m.bound) (hy : 0 ≤ y) :
    (multUnsigned a x y).Is (settle m a.value (some (x * y))) := by
  have hw := m.two_pow_width
  have hxy := mul_nonneg hx hy
  rw [multUnsigned]
  rcases lt_or_ge (x * y) (2 * m.bound) with h | h
  · have hu := unsigned_eq (m := m) hxy h
    simp only [hu]
    rw [if_neg, is_accept, value_ofULong, hu]
    rintro ⟨hy0, hq⟩
    exact hq (Int.mul_ediv_cancel x hy0)
  · have hlt := unsigned_lt m.width (x * y)
    have hypos : 0 < y := by
      rcases hy.eq_or_lt with rfl | hpos
      · simp only [mul_zero] at h
        omega
      · exact hpos
    rw [if_pos, is_error_some, fits_iff]
    · omega
    · refine ⟨hypos.ne', fun hq => ?_⟩
      have hle := Int.ediv_mul_le (unsigned m.width (x * y)) hypos.ne'
      rw [hq] at hle
      omega

lemma multMixed_eq (hx : -m.bound ≤ x) (hx' : x < m.bound) :
    multMixed a x y =
      if -m.bound ≤ x * y ∧ x * y < m.bound then accept (ofLong m (x * y)) else none := by
  rw [multMixed]
  by_cases h : -m.bound ≤ x * y ∧ x * y < m.bound
  · rw [if_pos h, onHost_eq h.1 h.2]
    change (if y = 0 then _ else _) = _
    split_ifs with hy
    · rfl
    · rw [Int.mul_tdiv_cancel x hy, onHost_eq hx hx']
      change (if x ≠ x then _ else _) = _
      rw [if_neg (by simp)]
  · rw [if_neg h, onHost_none (by omega)]
    rfl

/-- A negative number and a word, of which the high half is read as negative. -/
lemma mult_word_iff (hx : x < 0) (hy : 0 ≤ y) (hy' : y < 2 * m.bound) :
    (-m.bound ≤ x * signed m.width y ∧ x * signed m.width y < m.bound ∧
      x * y = x * signed m.width y) ↔ y < m.bound ∧ -m.bound ≤ x * y := by
  have hb := m.bound_pos
  rcases lt_or_ge y m.bound with h | h
  · rw [signed_eq (by omega) h]
    have hneg := mul_nonpos_of_nonpos_of_nonneg hx.le hy
    constructor
    · exact fun hp => ⟨h, hp.1⟩
    · exact fun hp => ⟨hp.2, by omega, rfl⟩
  · rw [signed_eq_sub h hy']
    refine iff_of_false ?_ (by omega)
    rintro ⟨-, -, heq⟩
    have h0 := mul_left_cancel₀ hx.ne heq
    omega

lemma multMixed_is (hx : -m.bound ≤ x) (hx' : x < m.bound) :
    (multMixed a x y).Is (settle m a.value (some z)) ↔
      -m.bound ≤ x * y ∧ x * y < m.bound ∧ z = x * y := by
  rw [multMixed_eq hx hx']
  split_ifs with h
  · rw [is_accept, value_ofLong, signed_eq h.1 h.2, Option.some_inj]
    simp [h]
  · exact iff_of_false not_is_none fun hz => h ⟨hz.1, hz.2.1⟩

lemma multExpr_is : (multExpr a b).Is (settle m a.value (BinaryOp.mult.exact a.value b.value)) ↔
    (a.value < 0 → 0 ≤ b.value → b.value < m.bound ∧ -m.bound ≤ a.value * b.value) ∧
      (0 ≤ a.value → b.value < 0 → a.value < m.bound ∧ -m.bound ≤ a.value * b.value) ∧
      (a.value < 0 → b.value < 0 → a.value ≠ -m.bound ∧ b.value ≠ -m.bound) := by
  have hb := m.bound_pos
  rw [multExpr, BinaryOp.exact]
  cases ha : a.negative <;> cases hn : b.negative
  · obtain ⟨-, hau, ha1, ha2⟩ := of_not_negative ha
    obtain ⟨-, hbu, hb1, hb2⟩ := of_not_negative hn
    simp only [hau, hbu]
    refine iff_of_true (multUnsigned_is ha1 ha2 hb1) (by omega)
  · obtain ⟨-, hau, ha1, ha2⟩ := of_not_negative ha
    obtain ⟨hbs, -, hb1, hb2⟩ := of_negative hn
    have hsig := fitsSigned_iff.mp (fitsSigned_signed m.width a.value)
    simp only [hau, hbs]
    rw [multMixed_is hsig.1 hsig.2]
    have hiff := mult_word_iff hb2 ha1 ha2
    simp only [mul_comm b.value] at hiff
    rw [hiff]
    omega
  · obtain ⟨has, -, ha1, ha2⟩ := of_negative ha
    obtain ⟨-, hbu, hb1, hb2⟩ := of_not_negative hn
    simp only [has, hbu]
    rw [multMixed_is ha1 (by omega), mult_word_iff ha2 hb1 hb2]
    omega
  · obtain ⟨has, -, ha1, ha2⟩ := of_negative ha
    obtain ⟨hbs, -, hb1, hb2⟩ := of_negative hn
    simp only [has, hbs]
    by_cases hmin : a.value ≠ -m.bound ∧ b.value ≠ -m.bound
    · rw [onHost_eq (by omega) (by omega), onHost_eq (by omega) (by omega)]
      refine iff_of_true ?_ (by omega)
      change (multUnsigned a (-a.value) (-b.value)).Is _
      rw [← neg_mul_neg]
      exact multUnsigned_is (by omega) (by omega) (by omega)
    · refine iff_of_false ?_ (by omega)
      rcases eq_or_ne a.value (-m.bound) with h | h
      · rw [onHost_none (by omega)]
        exact not_is_none
      · rw [onHost_eq (by omega) (by omega), onHost_none (by omega)]
        exact not_is_none

lemma divExpr_is : (divExpr a b).Is (settle m a.value (BinaryOp.div.exact a.value b.value)) ↔
    (b.value ≠ 0 → a.value ≠ -m.bound ∧ b.value ≠ -m.bound ∧
      ¬ (0 ≤ a.value ∧ b.value < 0 ∧ a.value / -b.value = m.bound)) := by
  have hb := m.bound_pos
  rw [divExpr, BinaryOp.exact]
  have hzero : b.u = 0 ↔ b.value = 0 := by
    cases hn : b.negative with
    | true => have := of_negative hn; omega
    | false => have := of_not_negative hn; omega
  by_cases h0 : b.value = 0
  · rw [if_pos (hzero.mpr h0), if_pos h0, is_error]
    exact iff_of_true (by simp) fun h => absurd h0 h
  rw [if_neg fun h => h0 (hzero.mp h), if_neg h0]
  cases ha : a.negative <;> cases hn : b.negative
  · obtain ⟨-, hau, ha1, ha2⟩ := of_not_negative ha
    obtain ⟨-, hbu, hb1, hb2⟩ := of_not_negative hn
    have hq0 := Int.ediv_nonneg ha1 hb1
    have hq := Int.ediv_le_self b.value ha1
    simp only [hau, hbu]
    rw [is_accept, value_ofULong, unsigned_eq hq0 (by omega), Int.tdiv_eq_ediv_of_nonneg ha1]
    exact iff_of_true rfl (by omega)
  · obtain ⟨-, hau, ha1, ha2⟩ := of_not_negative ha
    obtain ⟨hbs, -, hb1, hb2⟩ := of_negative hn
    simp only [hau, hbs]
    rcases eq_or_ne b.value (-m.bound) with hmin | hne
    · rw [onHost_none (by omega)]
      exact iff_of_false not_is_none (by omega)
    · rw [onHost_eq (by omega) (by omega)]
      change Outcome.Is (negated a (a.value / -b.value)) _ ↔ _
      have hq0 := Int.ediv_nonneg ha1 (b := -b.value) (by omega)
      have hq := Int.ediv_le_self (-b.value) ha1
      have hexact : Int.tdiv a.value b.value = -(a.value / -b.value) := by
        rw [Int.tdiv_eq_ediv_of_nonneg ha1, Int.ediv_neg, neg_neg]
      rw [hexact, negated_is hq0 (by omega)]
      omega
  · obtain ⟨has, -, ha1, ha2⟩ := of_negative ha
    obtain ⟨-, hbu, hb1, hb2⟩ := of_not_negative hn
    simp only [has, hbu]
    rcases eq_or_ne a.value (-m.bound) with hmin | hne
    · rw [onHost_none (by omega)]
      exact iff_of_false not_is_none (by omega)
    · refine iff_of_true ?_ (by omega)
      have hq0 := Int.ediv_nonneg (a := -a.value) (by omega) hb1
      have hq := Int.ediv_le_self b.value (a := -a.value) (by omega)
      have hexact : Int.tdiv a.value b.value = -(-a.value / b.value) := by
        rw [← Int.tdiv_eq_ediv_of_nonneg (by omega), Int.neg_tdiv, neg_neg]
      rw [onHost_eq (by omega) (by omega)]
      change Outcome.Is (onHost m (-signed m.width (-a.value / b.value)) >>= _) _
      rw [signed_eq (by omega) (by omega), onHost_eq (by omega) (by omega)]
      change (accept (ofLong m (-(-a.value / b.value)))).Is _
      rw [is_accept, value_ofLong, signed_eq (by omega) (by omega), hexact]
  · obtain ⟨has, -, ha1, ha2⟩ := of_negative ha
    obtain ⟨hbs, -, hb1, hb2⟩ := of_negative hn
    simp only [has, hbs]
    by_cases hmin : a.value ≠ -m.bound ∧ b.value ≠ -m.bound
    · rw [onHost_eq (by omega) (by omega), onHost_eq (by omega) (by omega)]
      refine iff_of_true ?_ (by omega)
      change (accept (ofULong m (-a.value / -b.value))).Is _
      have hq0 := Int.ediv_nonneg (a := -a.value) (b := -b.value) (by omega) (by omega)
      have hq := Int.ediv_le_self (-b.value) (a := -a.value) (by omega)
      rw [is_accept, value_ofULong, unsigned_eq hq0 (by omega),
        ← Int.tdiv_eq_ediv_of_nonneg (by omega), Int.neg_tdiv_neg]
    · refine iff_of_false ?_ (by omega)
      rcases eq_or_ne a.value (-m.bound) with h | h
      · rw [onHost_none (by omega)]
        exact not_is_none
      · rw [onHost_eq (by omega) (by omega), onHost_none (by omega)]
        exact not_is_none

/-! ### Remainders -/

lemma u_eq_zero_iff (b : IdlVal m) : b.u = 0 ↔ b.value = 0 := by
  have hb := m.bound_pos
  cases hn : b.negative with
  | true => have := of_negative hn; omega
  | false => have := of_not_negative hn; omega

lemma emod_le_self (hx : 0 ≤ x) (hy : 0 ≤ y) : x % y ≤ x := by
  lift x to ℕ using hx
  lift y to ℕ using hy
  exact_mod_cast Nat.mod_le x y

lemma tmod_of_neg_left (hx : x < 0) (y : ℤ) : Int.tmod x y = -(-x % y) := by
  rw [← Int.tmod_eq_emod_of_nonneg (by omega : 0 ≤ -x), Int.neg_tmod, neg_neg]

lemma modExprLong_is :
    (modExprLong a b).Is (settle m a.value (BinaryOp.mod.exact a.value b.value)) ↔
      (b.value ≠ 0 → a.value ≠ -m.bound ∧ b.value ≠ -m.bound) := by
  have hb := m.bound_pos
  rw [modExprLong, BinaryOp.exact]
  by_cases h0 : b.value = 0
  · rw [if_pos ((u_eq_zero_iff b).mpr h0), if_pos h0, is_error]
    exact iff_of_true (by simp) fun h => absurd h0 h
  rw [if_neg fun h => h0 ((u_eq_zero_iff b).mp h), if_neg h0]
  cases ha : a.negative <;> cases hn : b.negative
  · obtain ⟨-, hau, ha1, ha2⟩ := of_not_negative ha
    obtain ⟨-, hbu, hb1, hb2⟩ := of_not_negative hn
    have hr0 := Int.emod_nonneg a.value h0
    have hr := emod_le_self ha1 hb1
    simp only [hau, hbu]
    rw [is_accept, value_ofULong, unsigned_eq hr0 (by omega), Int.tmod_eq_emod_of_nonneg ha1]
    exact iff_of_true rfl (by omega)
  · obtain ⟨-, hau, ha1, ha2⟩ := of_not_negative ha
    obtain ⟨hbs, -, hb1, hb2⟩ := of_negative hn
    simp only [hau, hbs]
    rcases eq_or_ne b.value (-m.bound) with hmin | hne
    · rw [onHost_none (by omega)]
      exact iff_of_false not_is_none (by omega)
    · rw [onHost_eq (by omega) (by omega)]
      refine iff_of_true ?_ (by omega)
      change (accept (ofULong m (a.value % -b.value))).Is _
      have hr0 := Int.emod_nonneg a.value (b := -b.value) (by omega)
      have hr := Int.emod_lt_of_pos a.value (b := -b.value) (by omega)
      rw [is_accept, value_ofULong, unsigned_eq hr0 (by omega), Int.tmod_eq_emod_of_nonneg ha1,
        Int.emod_neg]
  · obtain ⟨has, -, ha1, ha2⟩ := of_negative ha
    obtain ⟨-, hbu, hb1, hb2⟩ := of_not_negative hn
    simp only [has, hbu]
    rcases eq_or_ne a.value (-m.bound) with hmin | hne
    · rw [onHost_none (by omega)]
      exact iff_of_false not_is_none (by omega)
    · have hr0 := Int.emod_nonneg (-a.value) h0
      have hr := emod_le_self (x := -a.value) (by omega) hb1
      rw [onHost_eq (by omega) (by omega)]
      refine iff_of_true ?_ (by omega)
      change Outcome.Is (onHost m (-signed m.width (-a.value % b.value)) >>= _) _
      rw [signed_eq (by omega) (by omega), onHost_eq (by omega) (by omega)]
      change (accept (ofLong m (-(-a.value % b.value)))).Is _
      rw [is_accept, value_ofLong, signed_eq (by omega) (by omega), tmod_of_neg_left ha2]
  · obtain ⟨has, -, ha1, ha2⟩ := of_negative ha
    obtain ⟨hbs, -, hb1, hb2⟩ := of_negative hn
    simp only [has, hbs]
    by_cases hmin : a.value ≠ -m.bound ∧ b.value ≠ -m.bound
    · rw [onHost_eq (by omega) (by omega), onHost_eq (by omega) (by omega)]
      refine iff_of_true ?_ (by omega)
      change (accept (ofLong m (-Int.tmod (-a.value) (-b.value)))).Is _
      have hr0 := Int.emod_nonneg (-a.value) (b := -b.value) (by omega)
      have hr := emod_le_self (x := -a.value) (y := -b.value) (by omega) (by omega)
      rw [is_accept, value_ofLong, Int.tmod_eq_emod_of_nonneg (by omega : 0 ≤ -a.value),
        signed_eq (by omega) (by omega), tmod_of_neg_left ha2, Int.emod_neg]
    · refine iff_of_false ?_ (by omega)
      rcases eq_or_ne a.value (-m.bound) with h | h
      · rw [onHost_none (by omega)]
        exact not_is_none
      · rw [onHost_eq (by omega) (by omega), onHost_none (by omega)]
        exact not_is_none

/-- The remainder of the word that stands for a negative number. -/
lemma tmod_eq_signed_iff (hx : -m.bound ≤ x) (hx' : x < 0) (hy : 0 < y) (hy' : y < 2 * m.bound) :
    Int.tmod x y = signed m.width ((x + 2 * m.bound) % y) ↔
      (y ∣ x ∧ y ∣ 2 * m.bound) ∨ x + 2 * m.bound < y := by
  have hb := m.bound_pos
  have hr0 := Int.emod_nonneg (x + 2 * m.bound) hy.ne'
  have hr := Int.emod_lt_of_pos (x + 2 * m.bound) hy
  have hq0 := Int.emod_nonneg (-x) hy.ne'
  have hrle := emod_le_self (x := x + 2 * m.bound) (by omega) hy.le
  have hqle := emod_le_self (x := -x) (by omega) hy.le
  rw [tmod_of_neg_left hx']
  rcases lt_or_ge ((x + 2 * m.bound) % y) m.bound with h | h
  · rw [signed_eq (by omega) h]
    constructor
    · intro heq
      have hdvd : y ∣ x := Int.dvd_neg.mp (Int.dvd_of_emod_eq_zero (by omega))
      have hsum : y ∣ x + 2 * m.bound := Int.dvd_of_emod_eq_zero (by omega)
      exact Or.inl ⟨hdvd, (Int.dvd_add_right hdvd).mp hsum⟩
    · rintro (⟨hdvd, hword⟩ | hlt)
      · rw [Int.emod_eq_zero_of_dvd (Int.dvd_neg.mpr hdvd),
          Int.emod_eq_zero_of_dvd (Int.dvd_add hdvd hword), neg_zero]
      · rw [Int.emod_eq_of_lt (by omega) hlt] at h
        omega
  · rw [signed_eq_sub h (by omega)]
    constructor
    · intro heq
      refine Or.inr (lt_of_not_ge fun hge => ?_)
      have hle := emod_le_self (x := x + 2 * m.bound - y) (by omega) hy.le
      rw [← Int.emod_eq_sub_self_emod] at hle
      omega
    · rintro (⟨hdvd, hword⟩ | hlt)
      · rw [Int.emod_eq_zero_of_dvd (Int.dvd_add hdvd hword)] at h
        omega
      · rw [Int.emod_eq_of_lt (by omega) hlt, Int.emod_eq_of_lt (by omega) (by omega)]
        omega

/-- The remainder of a division by the word that stands for a negative number. -/
lemma signed_eq_tmod_iff (hx : 0 ≤ x) (hx' : x < 2 * m.bound) (hy : -m.bound ≤ y) (hy' : y < 0) :
    Int.tmod x y = signed m.width (x % (y + 2 * m.bound)) ↔
      x < -y ∨ (y + 2 * m.bound ≤ x ∧ y ∣ 2 * m.bound) := by
  have hb := m.bound_pos
  have hr0 := Int.emod_nonneg x (b := -y) (by omega)
  have hr := Int.emod_lt_of_pos x (b := -y) (by omega)
  rw [Int.tmod_eq_emod_of_nonneg hx, ← Int.emod_neg]
  rcases lt_or_ge x (y + 2 * m.bound) with h | h
  · rw [Int.emod_eq_of_lt hx h]
    constructor
    · intro heq
      refine Or.inl (lt_of_not_ge fun hge => ?_)
      rcases lt_or_ge x m.bound with hlow | hhigh
      · rw [signed_eq (by omega) hlow] at heq
        omega
      · rw [signed_eq_sub hhigh hx'] at heq
        omega
    · rintro (hlt | hno)
      · rw [Int.emod_eq_of_lt hx hlt, signed_eq (by omega) (by omega)]
      · omega
  · have hrest : x % (y + 2 * m.bound) = x - (y + 2 * m.bound) := by
      rw [Int.emod_eq_sub_self_emod]
      exact Int.emod_eq_of_lt (by omega) (by omega)
    rw [hrest, signed_eq (by omega) (by omega)]
    constructor
    · intro heq
      refine Or.inr ⟨h, ?_⟩
      have hdvd := Int.dvd_self_sub_of_emod_eq heq
      have hdvd' : y ∣ y + 2 * m.bound := by
        rw [← Int.neg_dvd]
        simpa using hdvd
      simpa using hdvd'
    · rintro (hlt | ⟨-, k, hk⟩)
      · omega
      · calc x % -y = (x + -y * (1 + k)) % -y := (Int.add_mul_emod_self_left _ _ _).symm
          _ = (x - (y + 2 * m.bound)) % -y := by
            rw [hk]
            ring_nf
          _ = x - (y + 2 * m.bound) := Int.emod_eq_of_lt (by omega) (by omega)

lemma modExprLongLong_is :
    (modExprLongLong a b).Is (settle m a.value (BinaryOp.mod.exact a.value b.value)) ↔
      (a.value < 0 → 0 < b.value →
        (b.value ∣ a.value ∧ b.value ∣ 2 * m.bound) ∨ a.value + 2 * m.bound < b.value) ∧
      (0 ≤ a.value → b.value < 0 →
        a.value < -b.value ∨ (b.value + 2 * m.bound ≤ a.value ∧ b.value ∣ 2 * m.bound)) ∧
      ¬ (a.value = -m.bound ∧ b.value = -1) := by
  have hb := m.bound_pos
  rw [modExprLongLong, BinaryOp.exact]
  by_cases h0 : b.value = 0
  · rw [if_pos ((u_eq_zero_iff b).mpr h0), if_pos h0, is_error]
    exact iff_of_true (by simp) (by omega)
  rw [if_neg fun h => h0 ((u_eq_zero_iff b).mp h), if_neg h0]
  cases ha : a.negative <;> cases hn : b.negative
  · obtain ⟨-, hau, ha1, ha2⟩ := of_not_negative ha
    obtain ⟨-, hbu, hb1, hb2⟩ := of_not_negative hn
    have hr0 := Int.emod_nonneg a.value h0
    have hr := emod_le_self ha1 hb1
    simp only [hau, hbu]
    rw [is_accept, value_ofULong, unsigned_eq hr0 (by omega), Int.tmod_eq_emod_of_nonneg ha1]
    exact iff_of_true rfl (by omega)
  · obtain ⟨-, hau, ha1, ha2⟩ := of_not_negative ha
    obtain ⟨-, hbu, hb1, hb2⟩ := of_negative hn
    simp only [hau, hbu]
    rw [is_accept, value_ofLong, Option.some_inj, signed_eq_tmod_iff ha1 ha2 hb1 hb2]
    omega
  · obtain ⟨-, hau, ha1, ha2⟩ := of_negative ha
    obtain ⟨-, hbu, hb1, hb2⟩ := of_not_negative hn
    simp only [hau, hbu]
    rw [is_accept, value_ofLong, Option.some_inj,
      tmod_eq_signed_iff ha1 ha2 (lt_of_le_of_ne hb1 (Ne.symm h0)) hb2]
    omega
  · obtain ⟨has, -, ha1, ha2⟩ := of_negative ha
    obtain ⟨hbs, -, hb1, hb2⟩ := of_negative hn
    simp only [has, hbs]
    have hq : Int.tdiv a.value b.value = -a.value / -b.value := by
      rw [← Int.tdiv_eq_ediv_of_nonneg (by omega), Int.neg_tdiv_neg]
    have hq0 := Int.ediv_nonneg (a := -a.value) (b := -b.value) (by omega) (by omega)
    have hqle := Int.ediv_le_self (-b.value) (a := -a.value) (by omega)
    rcases lt_or_ge (-a.value / -b.value) m.bound with hlt | hge
    · rw [hq, onHost_eq (by omega) hlt]
      change (accept (ofLong m (Int.tmod a.value b.value))).Is _ ↔ _
      have hr0 := Int.emod_nonneg (-a.value) (b := -b.value) (by omega)
      have hr := emod_le_self (x := -a.value) (y := -b.value) (by omega) (by omega)
      rw [Int.emod_neg] at hr0 hr
      rw [is_accept, value_ofLong, Option.some_inj, tmod_of_neg_left ha2,
        signed_eq (by omega) (by omega)]
      refine iff_of_true rfl ⟨by omega, by omega, ?_⟩
      rintro ⟨h1, h2⟩
      rw [h1, h2] at hlt
      simp at hlt
    · rw [hq, onHost_none (by omega)]
      refine iff_of_false not_is_none fun h => h.2.2 ?_
      have hmin : a.value = -m.bound := by omega
      refine ⟨hmin, ?_⟩
      by_contra hne
      have hmul := mul_le_mul_of_nonneg_left (by omega : 2 ≤ -b.value) (by omega : 0 ≤ m.bound)
      have hlt : -a.value / -b.value < m.bound :=
        (Int.ediv_lt_iff_lt_mul (by omega)).mpr (by omega)
      omega

/-! ### Signs -/

lemma invertExpr_is :
    (invertExpr e).Is (settle m x (some (UnaryOp.invert.exact e.value))) ↔ e.value < 0 := by
  have hb := m.bound_pos
  rw [invertExpr, is_accept, value_ofULong, Option.some_inj, m.two_pow_width, UnaryOp.exact]
  cases he : e.negative with
  | true =>
    obtain ⟨-, hu, h1, h2⟩ := of_negative he
    rw [unsigned_eq (by omega) (by omega)]
    omega
  | false =>
    obtain ⟨-, hu, h1, h2⟩ := of_not_negative he
    rw [unsigned_eq (by omega) (by omega)]
    omega

/-- Where the negation is an error, the word for it stands in. -/
lemma minusExpr_is :
    (minusExpr e).Is
      (settle m (2 * m.bound - e.value) (some (UnaryOp.minus.exact e.value))) ↔
        e.value ≠ -m.bound ∧ e.value ≠ m.bound := by
  have hb := m.bound_pos
  rw [minusExpr, UnaryOp.exact]
  cases he : e.negative with
  | true =>
    obtain ⟨hs, -, h1, h2⟩ := of_negative he
    rw [if_pos rfl, hs]
    rcases eq_or_ne e.value (-m.bound) with hmin | hne
    · rw [onHost_none (by omega)]
      exact iff_of_false not_is_none (by omega)
    · rw [onHost_eq (by omega) (by omega)]
      change (accept (ofULong m (-e.value))).Is _ ↔ _
      rw [is_accept, value_ofULong, unsigned_eq (by omega) (by omega)]
      exact iff_of_true rfl (by omega)
  | false =>
    obtain ⟨-, hu, h1, h2⟩ := of_not_negative he
    rw [if_neg (by simp), hu]
    rcases lt_trichotomy e.value m.bound with hlt | heq | hgt
    · rw [signed_eq (by omega) hlt, onHost_eq (by omega) (by omega)]
      change Outcome.Is (some (ofLong m (-e.value), decide (m.bound < e.value))) _ ↔ _
      rw [decide_eq_false (by omega)]
      change (accept (ofLong m (-e.value))).Is _ ↔ _
      rw [is_accept, value_ofLong, signed_eq (by omega) (by omega)]
      exact iff_of_true rfl (by omega)
    · rw [heq, signed_eq_sub le_rfl (by omega), onHost_none (by omega)]
      exact iff_of_false not_is_none (by omega)
    · rw [signed_eq_sub hgt.le h2, onHost_eq (by omega) (by omega)]
      change Outcome.Is (some (ofLong m (-(e.value - 2 * m.bound)), decide (m.bound < e.value))) _ ↔ _
      rw [decide_eq_true hgt]
      have hv : (ofLong m (-(e.value - 2 * m.bound))).value = 2 * m.bound - e.value := by
        rw [value_ofLong, signed_eq (by omega) (by omega), neg_sub]
      rw [← hv]
      change (error (ofLong m (-(e.value - 2 * m.bound)))).Is _ ↔ _
      rw [is_error_some, fits_iff]
      omega

end OmniORB.Idl
