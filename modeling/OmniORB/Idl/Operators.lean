import OmniORB.Idl.Expressions

/-!
# Operators and exact results

What an operator on values has to do with the operator on integers: which results are exact, which
errors are true, and for which operands that is so.
-/

namespace OmniORB.Idl

open Library IdlVal Outcome

/-! ### Exact results -/

/-- The operator on integers: no shift by less than 0 or more than 63, no division by 0. -/
def BinaryOp.exact : BinaryOp → ℤ → ℤ → Option ℤ
  | or, x, y => some (Int.lor x y)
  | xor, x, y => some (Int.xor x y)
  | and, x, y => some (Int.land x y)
  | rShift, x, y => if 0 ≤ y ∧ y < 64 then some (x / 2 ^ y.toNat) else none
  | lShift, x, y => if 0 ≤ y ∧ y < 64 then some (x * 2 ^ y.toNat) else none
  | mod, x, y => if y = 0 then none else some (Int.tmod x y)
  | add, x, y => some (x + y)
  | sub, x, y => some (x - y)
  | mult, x, y => some (x * y)
  | div, x, y => if y = 0 then none else some (Int.tdiv x y)

def UnaryOp.exact : UnaryOp → ℤ → ℤ
  | invert, x => -x - 1
  | minus, x => -x
  | plus, x => x

/-- The exact result where a word has it, or an error and what stands in. -/
def settle (m : Mode) (instead : ℤ) : Option ℤ → ℤ × Bool
  | some z => if FitsWord m.width z then (z, false) else (instead, true)
  | none => (instead, true)

/-- An outcome has that number and reports an error or not. -/
def Outcome.Is {m : Mode} (o : Outcome m) (r : ℤ × Bool) : Prop :=
  ∃ v, o = some (v, r.2) ∧ v.value = r.1

variable {m : Mode} {a b e : IdlVal m} {x y z : ℤ} {exact : Option ℤ}

/-! ### Words and bounds -/

lemma fits_iff : FitsWord m.width z ↔ -m.bound ≤ z ∧ z < 2 * m.bound := by
  have hw := m.two_pow_width
  rw [FitsWord]
  omega

lemma fitsSigned_iff : FitsSigned m.width z ↔ -m.bound ≤ z ∧ z < m.bound := by
  have hw := m.two_pow_width
  rw [FitsSigned]
  omega

lemma unsigned_eq (h : 0 ≤ z) (hz : z < 2 * m.bound) : unsigned m.width z = z :=
  unsigned_of_nonneg h (hz.trans_eq m.two_pow_width.symm)

lemma unsigned_eq_sub (h : 2 * m.bound ≤ z) (hz : z < 4 * m.bound) :
    unsigned m.width z = z - 2 * m.bound := by
  have hw := m.two_pow_width
  rw [unsigned, ← Int.sub_emod_right, hw]
  exact Int.emod_eq_of_lt (by omega) (by omega)

lemma signed_eq (h : -m.bound ≤ z) (hz : z < m.bound) : signed m.width z = z :=
  signed_of_fits (fitsSigned_iff.mpr ⟨h, hz⟩)

lemma signed_eq_sub (h : m.bound ≤ z) (hz : z < 2 * m.bound) :
    signed m.width z = z - 2 * m.bound := by
  have hw := m.two_pow_width
  rw [signed_of_large (by omega) (by omega), hw]

lemma unsigned_eq_iff : unsigned m.width z = z ↔ 0 ≤ z ∧ z < 2 * m.bound := by
  constructor
  · intro h
    have h0 := unsigned_nonneg m.width z
    have hlt := unsigned_lt m.width z
    have hw := m.two_pow_width
    omega
  · exact fun ⟨h, hz⟩ => unsigned_eq h hz

lemma signed_eq_iff : signed m.width z = z ↔ -m.bound ≤ z ∧ z < m.bound := by
  constructor
  · intro h
    have hs := fitsSigned_iff.mp (fitsSigned_signed m.width z)
    rwa [h] at hs
  · exact fun ⟨h, hz⟩ => signed_eq h hz

@[simp] lemma onHost_eq (h : -m.bound ≤ z) (hz : z < m.bound) : onHost m z = some z :=
  if_pos (fitsSigned_iff.mpr ⟨h, hz⟩)

lemma onHost_none (h : z < -m.bound ∨ m.bound ≤ z) : onHost m z = none := by
  rw [onHost, if_neg]
  rw [fitsSigned_iff]
  omega

namespace IdlVal

lemma value_ofULong (z : ℤ) : (ofULong m z).value = unsigned m.width z := rfl

lemma value_ofLong (z : ℤ) : (ofLong m z).value = signed m.width z := by
  have hs : (ofLong m z).s = signed m.width z := by
    change signed m.width (unsigned m.width z) = _
    rw [signed, unsigned, Int.emod_emod_of_dvd z dvd_rfl, signed]
  rw [value, hs]
  split_ifs with h
  · rfl
  · change unsigned m.width z = signed m.width z
    have hneg : ¬ signed m.width z < 0 := by
      intro hlt
      exact h (decide_eq_true hlt)
    have h0 := unsigned_nonneg m.width z
    have hlt := unsigned_lt m.width z
    rw [unsigned] at h0 hlt ⊢
    rw [signed] at hneg ⊢
    split_ifs at hneg ⊢
    · rfl
    · omega

/-- A value with the flag. -/
lemma of_negative (h : a.negative = true) :
    a.s = a.value ∧ a.u = a.value + 2 * m.bound ∧ -m.bound ≤ a.value ∧ a.value < 0 := by
  have hw := m.two_pow_width
  have hu := a.lt
  have hl := a.large h
  have hs : a.s = a.u - 2 * m.bound := signed_eq_sub (by omega) (by omega)
  have hv : a.value = a.s := by rw [value, if_pos h]
  omega

/-- A value without the flag. -/
lemma of_not_negative (h : a.negative = false) :
    a.s = signed m.width a.value ∧ a.u = a.value ∧ 0 ≤ a.value ∧ a.value < 2 * m.bound := by
  have hw := m.two_pow_width
  have h0 := a.nonneg
  have hu := a.lt
  have hv : a.value = a.u := by simp [value, h]
  refine ⟨by rw [hv]; rfl, ?_⟩
  omega

lemma fits_value (a : IdlVal m) : FitsWord m.width a.value := by
  rw [fits_iff]
  have hb := m.bound_pos
  cases h : a.negative with
  | true => have := of_negative h; omega
  | false => have := of_not_negative h; omega

end IdlVal

/-! ### Outcomes -/

lemma is_accept : (accept a).Is (settle m x exact) ↔ exact = some a.value := by
  constructor
  · rintro ⟨v, ho, hv⟩
    obtain ⟨rfl, he⟩ := Prod.mk.inj (Option.some.inj ho)
    cases exact with
    | none => cases he
    | some z =>
      rw [settle] at he hv
      split_ifs at he hv
      rw [hv]
  · rintro rfl
    refine ⟨a, ?_, ?_⟩ <;> rw [settle, if_pos a.fits_value]
    rfl

lemma is_error : (error a).Is (settle m a.value exact) ↔ ∀ z ∈ exact, ¬ FitsWord m.width z := by
  constructor
  · rintro ⟨v, ho, hv⟩ z rfl hz
    obtain ⟨rfl, he⟩ := Prod.mk.inj (Option.some.inj ho)
    rw [settle, if_pos hz] at he
    cases he
  · intro h
    have hs : settle m a.value exact = (a.value, true) := by
      cases exact with
      | none => rfl
      | some z => rw [settle, if_neg (h z rfl)]
    rw [hs]
    exact ⟨a, rfl, rfl⟩

lemma not_is_none {r : ℤ × Bool} : ¬ Outcome.Is (m := m) none r := by
  rintro ⟨v, ho, _⟩
  cases ho

/-! ### Bit operators and shifts -/

lemma bitOp_bounds (hx : -m.bound ≤ x) (hx' : x < m.bound) (hy : -m.bound ≤ y)
    (hy' : y < m.bound) :
    (-m.bound ≤ Int.lor x y ∧ Int.lor x y < m.bound) ∧
      (-m.bound ≤ Int.land x y ∧ Int.land x y < m.bound) ∧
      (-m.bound ≤ Int.xor x y ∧ Int.xor x y < m.bound) := by
  rw [← fitsSigned_iff, ← fitsSigned_iff, ← fitsSigned_iff]
  have hfx := fitsSigned_iff.mpr ⟨hx, hx'⟩
  have hfy := fitsSigned_iff.mpr ⟨hy, hy'⟩
  cases m <;> exact bitOp_fitsSigned hfx hfy

lemma bitOp_words (hx : 0 ≤ x) (hx' : x < 2 * m.bound) (hy : 0 ≤ y) (hy' : y < 2 * m.bound) :
    (0 ≤ Int.lor x y ∧ Int.lor x y < 2 * m.bound) ∧
      (0 ≤ Int.land x y ∧ Int.land x y < 2 * m.bound) ∧
      (0 ≤ Int.xor x y ∧ Int.xor x y < 2 * m.bound) := by
  rw [← m.two_pow_width] at *
  exact bitOp_lt hx hx' hy hy'

lemma lor_wrapped (hx : x < 0) (hx' : -m.bound ≤ x) (hy : 0 ≤ y) (hy' : y < 2 * m.bound) :
    Int.lor x (y - 2 * m.bound) = Int.lor x y := by
  have hw := m.two_pow_width
  rw [← hw]
  exact lor_sub_two_pow hx (by omega) hy (by omega)

lemma land_wrapped (hx : 0 ≤ x) (hx' : x < 2 * m.bound) (hy : y < 0) (hy' : -m.bound ≤ y) :
    Int.land x (y + 2 * m.bound) = Int.land x y := by
  have hw := m.two_pow_width
  rw [← hw]
  exact land_add_two_pow hx (by omega) hy (by omega)

lemma bitwise_of_negative {op : ℤ → ℤ → ℤ} (ha : a.negative = true) :
    (bitwise op a b).Is (settle m x (some z)) ↔ z = signed m.width (op a.value b.s) := by
  rw [bitwise, if_pos ha, is_accept, value_ofLong, (of_negative ha).1, Option.some_inj]

lemma bitwise_of_not_negative {op : ℤ → ℤ → ℤ} (ha : a.negative = false) :
    (bitwise op a b).Is (settle m x (some z)) ↔ z = unsigned m.width (op a.value b.u) := by
  rw [bitwise, if_neg (by simp [ha]), is_accept, value_ofULong, (of_not_negative ha).2.1,
    Option.some_inj]

lemma orExpr_is : (orExpr a b).Is (settle m a.value (BinaryOp.or.exact a.value b.value)) ↔
    ¬ (0 ≤ a.value ∧ b.value < 0) := by
  have hb := m.bound_pos
  rw [orExpr, BinaryOp.exact]
  cases ha : a.negative with
  | true =>
    obtain ⟨-, -, ha1, ha2⟩ := of_negative ha
    rw [bitwise_of_negative ha]
    refine iff_of_true ?_ (by omega)
    cases hn : b.negative with
    | true =>
      obtain ⟨hs, -, hb1, hb2⟩ := of_negative hn
      have hr := (bitOp_bounds (m := m) (x := a.value) (y := b.value) ha1 (by omega) hb1
        (by omega)).1
      rw [hs, signed_eq hr.1 hr.2]
    | false =>
      obtain ⟨hs, -, hb1, hb2⟩ := of_not_negative hn
      have hor : Int.lor a.value (signed m.width b.value) = Int.lor a.value b.value := by
        rcases lt_or_ge b.value m.bound with h | h
        · rw [signed_eq (by omega) h]
        · rw [signed_eq_sub h hb2, lor_wrapped ha2 ha1 hb1 hb2]
      have hsig := fitsSigned_iff.mp (fitsSigned_signed m.width b.value)
      have hr := (bitOp_bounds (m := m) (x := a.value) ha1 (by omega) hsig.1 hsig.2).1
      rw [hs, signed_eq hr.1 hr.2, hor]
  | false =>
    obtain ⟨-, -, ha1, ha2⟩ := of_not_negative ha
    rw [bitwise_of_not_negative ha]
    cases hn : b.negative with
    | true =>
      obtain ⟨-, hu, hb1, hb2⟩ := of_negative hn
      refine iff_of_false ?_ (by omega)
      intro h
      have hneg := lor_neg_right a.value hb2
      have h0 := unsigned_nonneg m.width (Int.lor a.value b.u)
      omega
    | false =>
      obtain ⟨-, hu, hb1, hb2⟩ := of_not_negative hn
      have hr := (bitOp_words (m := m) ha1 ha2 hb1 hb2).1
      rw [hu, unsigned_eq hr.1 hr.2]
      exact iff_of_true rfl (by omega)

lemma xorExpr_is : (xorExpr a b).Is (settle m a.value (BinaryOp.xor.exact a.value b.value)) ↔
    (a.value < 0 ∧ b.value < m.bound) ∨ (0 ≤ a.value ∧ 0 ≤ b.value) := by
  have hb := m.bound_pos
  rw [xorExpr, BinaryOp.exact]
  cases ha : a.negative with
  | true =>
    obtain ⟨-, -, ha1, ha2⟩ := of_negative ha
    rw [bitwise_of_negative ha]
    cases hn : b.negative with
    | true =>
      obtain ⟨hs, -, hb1, hb2⟩ := of_negative hn
      have hr := (bitOp_bounds (m := m) (x := a.value) (y := b.value) ha1 (by omega) hb1
        (by omega)).2.2
      rw [hs, signed_eq hr.1 hr.2]
      exact iff_of_true rfl (by omega)
    | false =>
      obtain ⟨hs, -, hb1, hb2⟩ := of_not_negative hn
      rcases lt_or_ge b.value m.bound with h | h
      · have hr := (bitOp_bounds (m := m) (x := a.value) (y := b.value) ha1 (by omega)
          (by omega) h).2.2
        rw [hs, signed_eq (by omega) h, signed_eq hr.1 hr.2]
        exact iff_of_true rfl (by omega)
      · -- the second operand is read as negative, and so is the result as not negative
        rw [hs, signed_eq_sub h hb2]
        have hr := (bitOp_bounds (m := m) (x := a.value) (y := b.value - 2 * m.bound) ha1
          (by omega) (by omega) (by omega)).2.2
        have hpos := xor_nonneg ha2 (y := b.value - 2 * m.bound) (by omega)
        have hneg := (xor_neg hb1 ha2).2
        rw [signed_eq hr.1 hr.2]
        exact iff_of_false (by omega) (by omega)
  | false =>
    obtain ⟨-, -, ha1, ha2⟩ := of_not_negative ha
    rw [bitwise_of_not_negative ha]
    cases hn : b.negative with
    | true =>
      obtain ⟨-, hu, hb1, hb2⟩ := of_negative hn
      refine iff_of_false ?_ (by omega)
      intro h
      have hneg := (xor_neg ha1 hb2).1
      have h0 := unsigned_nonneg m.width (Int.xor a.value b.u)
      omega
    | false =>
      obtain ⟨-, hu, hb1, hb2⟩ := of_not_negative hn
      have hr := (bitOp_words (m := m) ha1 ha2 hb1 hb2).2.2
      rw [hu, unsigned_eq hr.1 hr.2]
      exact iff_of_true rfl (by omega)

lemma andExpr_is : (andExpr a b).Is (settle m a.value (BinaryOp.and.exact a.value b.value)) ↔
    ¬ (a.value < 0 ∧ m.bound ≤ b.value) := by
  have hb := m.bound_pos
  rw [andExpr, BinaryOp.exact]
  cases ha : a.negative with
  | true =>
    obtain ⟨-, -, ha1, ha2⟩ := of_negative ha
    rw [bitwise_of_negative ha]
    cases hn : b.negative with
    | true =>
      obtain ⟨hs, -, hb1, hb2⟩ := of_negative hn
      have hr := (bitOp_bounds (m := m) (x := a.value) (y := b.value) ha1 (by omega) hb1
        (by omega)).2.1
      rw [hs, signed_eq hr.1 hr.2]
      exact iff_of_true rfl (by omega)
    | false =>
      obtain ⟨hs, -, hb1, hb2⟩ := of_not_negative hn
      rcases lt_or_ge b.value m.bound with h | h
      · have hr := (bitOp_bounds (m := m) (x := a.value) (y := b.value) ha1 (by omega)
          (by omega) h).2.1
        rw [hs, signed_eq (by omega) h, signed_eq hr.1 hr.2]
        exact iff_of_true rfl (by omega)
      · rw [hs, signed_eq_sub h hb2]
        have hr := (bitOp_bounds (m := m) (x := a.value) (y := b.value - 2 * m.bound) ha1
          (by omega) (by omega) (by omega)).2.1
        have hneg := land_neg ha2 (y := b.value - 2 * m.bound) (by omega)
        have hpos := land_nonneg_right a.value hb1
        rw [signed_eq hr.1 hr.2]
        exact iff_of_false (by omega) (by omega)
  | false =>
    obtain ⟨-, -, ha1, ha2⟩ := of_not_negative ha
    rw [bitwise_of_not_negative ha]
    refine iff_of_true ?_ (by omega)
    cases hn : b.negative with
    | true =>
      obtain ⟨-, hu, hb1, hb2⟩ := of_negative hn
      have hr := (bitOp_words (m := m) (y := b.value + 2 * m.bound) ha1 ha2 (by omega)
        (by omega)).2.1
      rw [hu, unsigned_eq hr.1 hr.2, land_wrapped ha1 ha2 hb2 hb1]
    | false =>
      obtain ⟨-, hu, hb1, hb2⟩ := of_not_negative hn
      have hr := (bitOp_words (m := m) ha1 ha2 hb1 hb2).2.1
      rw [hu, unsigned_eq hr.1 hr.2]

/-- The test of the count against 64 also turns a negative one away. -/
lemma shift_count (b : IdlVal m) :
    (64 ≤ b.u ∧ ¬ (0 ≤ b.value ∧ b.value < 64)) ∨
      (b.u < 64 ∧ b.u = b.value ∧ 0 ≤ b.value ∧ b.value < 64) := by
  have hb := m.bound_pos
  cases hn : b.negative with
  | true => have := of_negative hn; omega
  | false => have := of_not_negative hn; omega

lemma shift_is (op : ℤ → ℕ → ℤ) :
    (shift op a b).Is (settle m a.value
      (if 0 ≤ b.value ∧ b.value < 64 then some (op a.value b.value.toNat) else none)) ↔
      (0 ≤ b.value ∧ b.value < 64 → b.value < m.width ∧
        op a.value b.value.toNat = if a.negative then signed m.width (op a.value b.value.toNat)
          else unsigned m.width (op a.value b.value.toNat)) := by
  rcases shift_count b with ⟨h64, hno⟩ | ⟨h64, hu, hcount⟩
  · rw [shift, if_pos h64, if_neg hno, is_error]
    refine iff_of_true ?_ fun h => absurd h hno
    intro z hz
    cases hz
  · rw [shift, if_neg (by omega), if_pos hcount]
    rcases le_or_gt (m.width : ℤ) b.u with hw | hw
    · rw [if_pos hw]
      refine iff_of_false not_is_none fun h => ?_
      have := (h hcount).1
      omega
    · have hwidth : b.value < m.width := by omega
      rw [if_neg (by omega)]
      simp only [hcount, hwidth, and_self, true_and, forall_true_left]
      cases ha : a.negative with
      | true =>
        rw [if_pos rfl, if_pos rfl, is_accept, value_ofLong, (of_negative ha).1, hu,
          Option.some_inj]
      | false =>
        rw [if_neg (by simp), if_neg (by simp), is_accept, value_ofULong,
          (of_not_negative ha).2.1, hu, Option.some_inj]

lemma rShiftExpr_is :
    (rShiftExpr a b).Is (settle m a.value (BinaryOp.rShift.exact a.value b.value)) ↔
      ¬ (m.width ≤ b.value ∧ b.value < 64) := by
  have hb := m.bound_pos
  have hshift : ∀ x : ℤ, ∀ n : ℕ, x >>> n = x / 2 ^ n := Int.shiftRight_eq_div_pow
  rw [rShiftExpr, BinaryOp.exact]
  simp only [hshift]
  rw [shift_is fun x n => x / 2 ^ n]
  have hexact : a.value / 2 ^ b.value.toNat =
      if a.negative then signed m.width (a.value / 2 ^ b.value.toNat)
        else unsigned m.width (a.value / 2 ^ b.value.toNat) := by
    have hpos : (0 : ℤ) < 2 ^ b.value.toNat := by positivity
    cases ha : a.negative with
    | true =>
      obtain ⟨-, -, ha1, ha2⟩ := of_negative ha
      have hlo : a.value ≤ a.value / 2 ^ b.value.toNat :=
        (Int.le_ediv_iff_mul_le hpos).mpr (by nlinarith)
      have hhi : a.value / 2 ^ b.value.toNat < 0 := Int.ediv_neg_of_neg_of_pos ha2 hpos
      rw [if_pos rfl, signed_eq (by omega) (by omega)]
    | false =>
      obtain ⟨-, -, ha1, ha2⟩ := of_not_negative ha
      have hlo : 0 ≤ a.value / 2 ^ b.value.toNat := Int.ediv_nonneg ha1 hpos.le
      have hhi := Int.ediv_le_self (2 ^ b.value.toNat) ha1
      rw [if_neg (by simp), unsigned_eq hlo (by omega)]
  have hw : (0 : ℤ) ≤ m.width := Int.natCast_nonneg _
  constructor
  · rintro h ⟨h1, h2⟩
    have := (h ⟨by omega, h2⟩).1
    omega
  · intro h hcount
    exact ⟨by omega, hexact⟩

lemma lShiftExpr_is :
    (lShiftExpr a b).Is (settle m a.value (BinaryOp.lShift.exact a.value b.value)) ↔
      (0 ≤ b.value ∧ b.value < 64 →
        b.value < m.width ∧ FitsWord m.width (a.value * 2 ^ b.value.toNat)) := by
  have hb := m.bound_pos
  rw [lShiftExpr, BinaryOp.exact, shift_is fun x n => x * 2 ^ n]
  have hexact : (a.value * 2 ^ b.value.toNat =
      if a.negative then signed m.width (a.value * 2 ^ b.value.toNat)
        else unsigned m.width (a.value * 2 ^ b.value.toNat)) ↔
      FitsWord m.width (a.value * 2 ^ b.value.toNat) := by
    have hpos : (0 : ℤ) < 2 ^ b.value.toNat := by positivity
    rw [fits_iff]
    cases ha : a.negative with
    | true =>
      obtain ⟨-, -, ha1, ha2⟩ := of_negative ha
      have hneg := mul_neg_of_neg_of_pos ha2 hpos
      rw [if_pos rfl, eq_comm, signed_eq_iff]
      omega
    | false =>
      obtain ⟨-, -, ha1, ha2⟩ := of_not_negative ha
      have h0 := mul_nonneg ha1 hpos.le
      rw [if_neg (by simp), eq_comm, unsigned_eq_iff]
      omega
  simp only [hexact]

end OmniORB.Idl
