import OmniORB.Idl.Arithmetic

/-!
# Exact evaluation

What an expression denotes on integers, and for which expressions the evaluation gives that number,
or else an error that is true, in both widths and for every target.
-/

namespace OmniORB.Idl

open Library IdlVal Outcome

/-! ### What an expression denotes -/

/-- The number that a constant has; none where it is no integer. -/
def Const.value : Const → Option ℤ
  | short v => some v.toInt
  | long v => some v.toInt
  | ushort v => some v.toNat
  | ulong v => some v.toNat
  | octet v => some v.toNat
  | longlong v => some v.toInt
  | ulonglong v => some v.toNat
  | other => none

namespace IdlExpr

/-- The number that an expression denotes. -/
def denote : IdlExpr → Option ℤ
  | integer value => some value.toNat
  | const c => c.value
  | binary op a b => do op.exact (← a.denote) (← b.denote)
  | unary op e => do some (op.exact (← e.denote))

def operands : IdlExpr → List IdlExpr
  | binary _ a b => [a, b]
  | unary _ e => [e]
  | _ => []

/-- The expressions that an expression consists of, itself among them. -/
def parts : IdlExpr → List IdlExpr
  | binary op a b => binary op a b :: (a.parts ++ b.parts)
  | unary op e => unary op e :: e.parts
  | e => [e]

/-- Every intermediate value is there and fits. -/
def Fitting (m : Mode) (e : IdlExpr) : Prop := ∀ s ∈ e.parts, ∃ z ∈ s.denote, FitsWord m.width z

end IdlExpr

namespace Target

/-- The values of the type. -/
def Has : Target → ℤ → Prop
  | short, z => -0x8000 ≤ z ∧ z ≤ 0x7fff
  | long, z => -0x80000000 ≤ z ∧ z ≤ 0x7fffffff
  | ushort, z => 0 ≤ z ∧ z ≤ 0xffff
  | ulong, z => 0 ≤ z ∧ z ≤ 0xffffffff
  | octet, z => 0 ≤ z ∧ z ≤ 0xff
  | longlong, z => -0x8000000000000000 ≤ z ∧ z ≤ 0x7fffffffffffffff
  | ulonglong, z => 0 ≤ z ∧ z ≤ 0xffffffffffffffff

instance (t : Target) (z : ℤ) : Decidable (t.Has z) := by
  cases t <;> exact inferInstanceAs (Decidable (_ ∧ _))

end Target

/-- The evaluation of an expression is exact: nothing undefined is done, what is accepted is the
number denoted, an error is reported only where something does not fit, and the two widths agree. -/
structure IdlExpr.Exact (e : IdlExpr) : Prop where
  defined : ∀ t, ∃ r, e.evalAs t = some r
  exact : ∀ t v, e.evalAs t = some (v, false) → e.denote = some v
  error : ∀ t v, e.evalAs t = some (v, true) → e.Fitting t.mode → ∀ z ∈ e.denote, ¬ t.Has z
  agree : ∀ v v', e.eval .longV = some (v, false) → e.eval .longLongV = some (v', false) →
    v.value = v'.value

/-! ### Operands that are safe -/

/-- The operands on which an operator is exact, or reports a true error, with nothing undefined on
the host. -/
def BinaryOp.Safe (m : Mode) : BinaryOp → ℤ → ℤ → Prop
  | or, x, y => ¬ (0 ≤ x ∧ y < 0)
  | xor, x, y => (x < 0 ∧ y < m.bound) ∨ (0 ≤ x ∧ 0 ≤ y)
  | and, x, y => ¬ (x < 0 ∧ m.bound ≤ y)
  | rShift, _, y => ¬ (m.width ≤ y ∧ y < 64)
  | lShift, x, y => 0 ≤ y ∧ y < 64 → y < m.width ∧ FitsWord m.width (x * 2 ^ y.toNat)
  | mod, x, y =>
    match m with
    | .longV => y ≠ 0 → x ≠ -0x80000000 ∧ y ≠ -0x80000000
    | .longLongV =>
      (x < 0 → 0 < y → (y ∣ x ∧ y ∣ 2 ^ 64) ∨ x + 2 ^ 64 < y) ∧
        (0 ≤ x → y < 0 → x < -y ∨ (y + 2 ^ 64 ≤ x ∧ y ∣ 2 ^ 64)) ∧
        ¬ (x = -0x8000000000000000 ∧ y = -1)
  | add, x, y =>
    (x < 0 → 0 ≤ y → x ≠ -m.bound) ∧ (0 ≤ x → y < 0 → y ≠ -m.bound) ∧
      (x < 0 → y < 0 → -m.bound ≤ x + y)
  | sub, x, y =>
    (0 ≤ x → 0 ≤ y → y - x ≠ m.bound) ∧
      (x < 0 → 0 ≤ y → x ≠ -m.bound ∧ y - x ≠ m.bound ∧ y - x < 2 * m.bound) ∧
      (0 ≤ x → y < 0 → y ≠ -m.bound) ∧ ¬ (x < 0 ∧ y < 0)
  | mult, x, y =>
    (x < 0 → 0 ≤ y → y < m.bound ∧ -m.bound ≤ x * y) ∧
      (0 ≤ x → y < 0 → x < m.bound ∧ -m.bound ≤ x * y) ∧
      (x < 0 → y < 0 → x ≠ -m.bound ∧ y ≠ -m.bound)
  | div, x, y =>
    y ≠ 0 → x ≠ -m.bound ∧ y ≠ -m.bound ∧ ¬ (0 ≤ x ∧ y < 0 ∧ x / -y = m.bound)

def UnaryOp.Safe (m : Mode) : UnaryOp → ℤ → Prop
  | invert, x => x < 0
  | minus, x => x ≠ -m.bound ∧ x ≠ m.bound
  | plus, _ => True

/-- The number that the evaluation goes on with after an error of the operator. -/
def UnaryOp.instead (m : Mode) : UnaryOp → ℤ → ℤ
  | minus, x => 2 * m.bound - x
  | _, x => x

variable {m : Mode} {a b e v : IdlVal m}

lemma BinaryOp.eval_is (op : BinaryOp) :
    (op.eval a b).Is (settle m a.value (op.exact a.value b.value)) ↔ op.Safe m a.value b.value := by
  cases op with
  | or => exact orExpr_is
  | xor => exact xorExpr_is
  | and => exact andExpr_is
  | rShift => exact rShiftExpr_is
  | lShift => exact lShiftExpr_is
  | mod =>
    cases m with
    | longV => exact modExprLong_is
    | longLongV => exact modExprLongLong_is
  | add => exact addExpr_is
  | sub => exact subExpr_is
  | mult => exact multExpr_is
  | div => exact divExpr_is

lemma UnaryOp.eval_is (op : UnaryOp) :
    (op.eval e).Is (settle m (op.instead m e.value) (some (op.exact e.value))) ↔
      op.Safe m e.value := by
  cases op with
  | invert => exact invertExpr_is
  | minus => exact minusExpr_is
  | plus => exact is_accept.trans (iff_of_true rfl trivial)

/-! ### What stands in after an error -/

/-- Where the outcome has an error, the operand stands in. -/
def Stays (a : IdlVal m) (o : Outcome m) : Prop := ∀ v, o = some (v, true) → v = a

lemma stays_accept : Stays a (accept b) := by
  intro v h
  cases h

lemma stays_error : Stays a (error a) := by
  rintro v h
  exact (Prod.mk.inj (Option.some.inj h)).1.symm

lemma stays_none : Stays a none := by
  intro v h
  cases h

lemma stays_ite {o o' : Outcome m} {p : Prop} [Decidable p] (h : Stays a o) (h' : Stays a o') :
    Stays a (if p then o else o') := by
  split_ifs
  · exact h
  · exact h'

lemma stays_onHost {z : ℤ} {k : ℤ → Outcome m} (h : ∀ r, Stays a (k r)) :
    Stays a (onHost m z >>= k) := by
  cases onHost m z with
  | none => exact stays_none
  | some r => exact h r

lemma stays_addMixed {u s : ℤ} : Stays a (addMixed u s) := by
  rw [addMixed]
  refine stays_onHost fun mb => stays_ite stays_accept ?_
  exact stays_onHost fun _ => stays_accept

lemma stays_negated {mr : ℤ} : Stays a (negated a mr) := by
  rw [negated]
  exact stays_ite stays_error (stays_onHost fun _ => stays_accept)

lemma stays_multUnsigned {x y : ℤ} : Stays a (multUnsigned a x y) := by
  rw [multUnsigned]
  exact stays_ite stays_error stays_accept

lemma stays_multMixed {x y : ℤ} : Stays a (multMixed a x y) := by
  rw [multMixed]
  refine stays_onHost fun r => stays_ite stays_accept ?_
  exact stays_onHost fun _ => stays_ite stays_error stays_accept

lemma stays_bitwise {op : ℤ → ℤ → ℤ} : Stays a (bitwise op a b) :=
  stays_ite stays_accept stays_accept

lemma stays_shift {op : ℤ → ℕ → ℤ} : Stays a (shift op a b) :=
  stays_ite stays_error (stays_ite stays_none (stays_ite stays_accept stays_accept))

lemma BinaryOp.stays (op : BinaryOp) (a b : IdlVal m) : Stays a (op.eval a b) := by
  cases op with
  | or => exact stays_bitwise
  | xor => exact stays_bitwise
  | and => exact stays_bitwise
  | rShift =>
    rw [BinaryOp.eval, rShiftExpr]
    exact stays_shift
  | lShift =>
    rw [BinaryOp.eval, lShiftExpr]
    exact stays_shift
  | mod =>
    cases m with
    | longV =>
      rw [BinaryOp.eval, modExpr, modExprLong]
      refine stays_ite stays_error ?_
      cases a.negative <;> cases b.negative
      · exact stays_accept
      · exact stays_onHost fun _ => stays_accept
      · exact stays_onHost fun _ => stays_onHost fun _ => stays_accept
      · exact stays_onHost fun _ => stays_onHost fun _ => stays_accept
    | longLongV =>
      rw [BinaryOp.eval, modExpr, modExprLongLong]
      refine stays_ite stays_error ?_
      cases a.negative <;> cases b.negative
      · exact stays_accept
      · exact stays_accept
      · exact stays_accept
      · exact stays_onHost fun _ => stays_accept
  | add =>
    rw [BinaryOp.eval, addExpr]
    cases a.negative <;> cases b.negative
    · exact stays_ite stays_error stays_accept
    · exact stays_addMixed
    · exact stays_addMixed
    · exact stays_onHost fun _ => stays_ite stays_error stays_accept
  | sub =>
    rw [BinaryOp.eval, subExpr]
    cases a.negative <;> cases b.negative
    · exact stays_ite stays_accept stays_negated
    · exact stays_onHost fun _ => stays_ite stays_error stays_accept
    · exact stays_onHost fun _ => stays_negated
    · exact stays_onHost fun _ => stays_ite stays_error stays_accept
  | mult =>
    rw [BinaryOp.eval, multExpr]
    cases a.negative <;> cases b.negative
    · exact stays_multUnsigned
    · exact stays_multMixed
    · exact stays_multMixed
    · exact stays_onHost fun _ => stays_onHost fun _ => stays_multUnsigned
  | div =>
    rw [BinaryOp.eval, divExpr]
    refine stays_ite stays_error ?_
    cases a.negative <;> cases b.negative
    · exact stays_accept
    · exact stays_onHost fun _ => stays_negated
    · exact stays_onHost fun _ => stays_onHost fun _ => stays_accept
    · exact stays_onHost fun _ => stays_onHost fun _ => stays_accept

lemma minusExpr_error (h : minusExpr e = some (v, true)) : v.value = 2 * m.bound - e.value := by
  have hb := m.bound_pos
  rw [minusExpr] at h
  cases he : e.negative with
  | true =>
    rw [if_pos he] at h
    obtain ⟨r, -, hr⟩ := Option.bind_eq_some_iff.mp h
    cases hr
  | false =>
    obtain ⟨-, hu, h1, h2⟩ := of_not_negative he
    rw [if_neg (by simp [he]), hu] at h
    obtain ⟨r, hhost, hr⟩ := Option.bind_eq_some_iff.mp h
    obtain ⟨hv, hgt⟩ := Prod.mk.inj (Option.some.inj hr)
    have hlt := of_decide_eq_true hgt
    rw [signed_eq_sub hlt.le h2, onHost_eq (by omega) (by omega)] at hhost
    rw [← hv, ← Option.some.inj hhost, value_ofLong, signed_eq (by omega) (by omega), neg_sub]

lemma UnaryOp.stays (op : UnaryOp) (h : op.eval e = some (v, true)) :
    v.value = op.instead m e.value := by
  cases op with
  | invert => cases h
  | minus => exact minusExpr_error h
  | plus => cases h

/-! ### Literals, constants and targets -/

lemma value_ofULong_one : (ofULong m 1).value = 1 := by
  have hb := m.bound_pos
  rw [value_ofULong, unsigned_eq (by omega) (by omega)]

lemma error_one_is {exact : Option ℤ} (h : ∀ z ∈ exact, ¬ FitsWord m.width z) :
    (error (ofULong m 1)).Is (settle m 1 exact) := by
  have hs := (is_error (a := ofULong m 1)).mpr h
  rwa [value_ofULong_one] at hs

lemma accept_ofULong_is {z : ℤ} (h : 0 ≤ z) (hz : z < 2 * m.bound) :
    (accept (ofULong m z)).Is (settle m 1 (some z)) := by
  rw [is_accept, value_ofULong, unsigned_eq h hz]

lemma accept_ofLong_is {z : ℤ} (h : -m.bound ≤ z) (hz : z < m.bound) :
    (accept (ofLong m z)).Is (settle m 1 (some z)) := by
  rw [is_accept, value_ofLong, signed_eq h hz]

lemma Mode.two_pow_31_le (m : Mode) : 0x80000000 ≤ m.bound := by
  cases m <;> decide

lemma integerExpr_is (value : UInt64) :
    (integerExpr m value).Is (settle m 1 (some (value.toNat : ℤ))) := by
  have hlt := value.toNat_lt
  cases m with
  | longV =>
    rw [integerExpr]
    split_ifs with h
    · refine error_one_is fun z hz => ?_
      cases hz
      rw [fits_iff, Mode.bound]
      omega
    · exact accept_ofULong_is (by omega) (by rw [Mode.bound]; omega)
  | longLongV => exact accept_ofULong_is (by omega) (by rw [Mode.bound]; omega)

lemma constExpr_is (c : Const) : (constExpr m c).Is (settle m 1 c.value) := by
  have hb := m.two_pow_31_le
  cases c with
  | short v =>
    have h1 := v.le_toInt
    have h2 := v.toInt_lt
    exact accept_ofLong_is (by omega) (by omega)
  | long v =>
    have h1 := v.le_toInt
    have h2 := v.toInt_lt
    exact accept_ofLong_is (by omega) (by omega)
  | ushort v =>
    have h := v.toNat_lt
    exact accept_ofULong_is (by omega) (by omega)
  | ulong v =>
    have h := v.toNat_lt
    exact accept_ofULong_is (by omega) (by omega)
  | octet v =>
    have h := v.toNat_lt
    exact accept_ofULong_is (by omega) (by omega)
  | longlong v =>
    have h1 := v.le_toInt
    have h2 := v.toInt_lt
    cases m with
    | longV =>
      rw [constExpr]
      split_ifs with h hn
      · refine error_one_is fun z hz => ?_
        cases hz
        rw [fits_iff, Mode.bound]
        omega
      · exact accept_ofULong_is hn (by rw [Mode.bound]; omega)
      · exact accept_ofLong_is (by rw [Mode.bound]; omega) (by rw [Mode.bound]; omega)
    | longLongV => exact accept_ofLong_is (by rw [Mode.bound]; omega) (by rw [Mode.bound]; omega)
  | ulonglong v =>
    have h := v.toNat_lt
    cases m with
    | longV =>
      rw [constExpr]
      split_ifs with h
      · refine error_one_is fun z hz => ?_
        cases hz
        rw [fits_iff, Mode.bound]
        omega
      · exact accept_ofULong_is (by omega) (by rw [Mode.bound]; omega)
    | longLongV => exact accept_ofULong_is (by omega) (by rw [Mode.bound]; omega)
  | other => exact error_one_is fun z hz => by cases hz

namespace Target

/-- The conversion reports a value that the type has not, and keeps any other. -/
lemma convert_spec (t : Target) (v : IdlVal t.mode) :
    ((t.convert v).2 = true ↔ ¬ t.Has v.value) ∧ (t.Has v.value → (t.convert v).1 = v.value) := by
  have hsigned : ∀ {n : ℕ} {z : ℤ}, -2 ^ n ≤ 2 * z → 2 * z < 2 ^ n → signed n z = z :=
    fun h h' => signed_of_fits ⟨h, h'⟩
  cases hn : v.negative with
  | true =>
    obtain ⟨hs, -, h1, h2⟩ := of_negative hn
    generalize v.value = x at *
    cases t <;> simp only [mode, Mode.bound] at h1 <;>
      simp only [convert, Has, hn, hs, if_true, Bool.true_or, decide_eq_true_eq] <;>
      refine ⟨by grind, fun h => ?_⟩
    case short => exact hsigned (by omega) (by omega)
    all_goals grind
  | false =>
    obtain ⟨-, hu, h1, h2⟩ := of_not_negative hn
    generalize v.value = x at *
    cases t <;> simp only [mode, Mode.bound] at h2 <;>
      simp only [convert, Has, hn, hu, Bool.false_or, Bool.false_eq_true, if_false,
        decide_eq_true_eq] <;>
      refine ⟨by grind, fun h => ?_⟩
    case short | long | longlong => exact hsigned (by omega) (by omega)
    case ushort | octet => exact unsigned_of_nonneg (by omega) (by omega)
    all_goals trivial

/-- Whatever fits a word has a target. -/
lemma exists_has {z : ℤ} (h : FitsWord m.width z) : ∃ t : Target, t.mode = m ∧ t.Has z := by
  rw [fits_iff] at h
  cases m with
  | longV =>
    rw [Mode.bound] at h
    rcases lt_or_ge z 0 with hz | hz
    · exact ⟨long, rfl, by omega, by omega⟩
    · exact ⟨ulong, rfl, by omega, by omega⟩
  | longLongV =>
    rw [Mode.bound] at h
    rcases lt_or_ge z 0 with hz | hz
    · exact ⟨longlong, rfl, by omega, by omega⟩
    · exact ⟨ulonglong, rfl, by omega, by omega⟩

end Target

end OmniORB.Idl
