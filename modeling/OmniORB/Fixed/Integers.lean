import OmniORB.Fixed.Rounding

/-!
# Conversion from and to integers

The constructors from integers find the digits of any but the most negative values. The conversion
back compares each partial result with the one before to find out whether it has overflowed.
-/

namespace OmniORB

open Library

namespace Fixed

/-! ### From integers -/

/-- A number has proper digits, and stands for an integer. -/
def Represents (f : Fixed) (v : ℤ) : Prop := Digits f.val ∧ f.value = v

lemma intDigits_num (n : ℕ) {v : ℤ} (h0 : 0 ≤ v) (hn : v < 10 ^ n) : (num (intDigits n v) : ℤ) = v := by
  induction n generalizing v with
  | zero =>
    rw [pow_zero] at hn
    rw [intDigits, num_nil, Nat.cast_zero]
    omega
  | succ n ih =>
    rw [intDigits_succ n h0]
    split_ifs with hzero
    · rw [num_nil, Nat.cast_zero, hzero]
    · rw [pow_succ] at hn
      have hrest := ih (v := v / 10) (by omega) (by omega)
      rw [num_cons]
      push_cast
      rw [octet_of_le (by omega) (by omega), hrest]
      omega

lemma intDigits_represents {v w : ℤ} (h0 : 0 ≤ v) (hn : v < 10 ^ fixedDigits) {negative : Bool}
    (hw : w = if negative then -v else v) :
    Represents ⟨intDigits fixedDigits v, 0, negative, 0, 0⟩ w := by
  have hnum := intDigits_num fixedDigits h0 hn
  refine ⟨intDigits_digits fixedDigits h0, ?_⟩
  have hmag : (num (intDigits fixedDigits v) : ℚ) = v := by exact_mod_cast hnum
  rw [value, magnitude]
  change (if negative = true then -((num (intDigits fixedDigits v) : ℚ) / 10 ^ 0) else
    (num (intDigits fixedDigits v) : ℚ) / 10 ^ 0) = (w : ℚ)
  rw [hmag, hw, pow_zero, div_one]
  cases negative <;> simp

lemma ofULong_represents (v : UInt32) : Represents (ofULong v) v.toNat := by
  have hv := v.toNat_lt
  exact intDigits_represents (by omega) (by unfold fixedDigits; omega) rfl

lemma ofULongLong_represents (v : UInt64) : Represents (ofULongLong v) v.toNat := by
  have hv := v.toNat_lt
  exact intDigits_represents (by omega) (by unfold fixedDigits; omega) rfl

/-- The remainders of the most negative value are negative. -/
lemma ofLong_represents_iff (v : Int32) :
    Represents (ofLong v) v.toInt ↔ v ≠ Int32.minValue := by
  constructor
  · rintro ⟨hdigits, -⟩ rfl
    exact absurd (hdigits 248 (by decide)) (by decide)
  · intro hv
    have hlow := v.le_toInt
    have hhigh := v.toInt_lt
    unfold ofLong
    by_cases h0 : v < 0
    · have h1 : v.toInt < 0 := Int32.lt_iff_toInt_lt.mp h0
      simp only [if_pos h0, int32_neg_toInt hv]
      refine intDigits_represents (by omega) (by unfold fixedDigits; omega) ?_
      rw [if_pos (decide_eq_true h0), neg_neg]
    · have h1 : ¬v.toInt < 0 := fun h => h0 (Int32.lt_iff_toInt_lt.mpr h)
      simp only [if_neg h0]
      refine intDigits_represents (by omega) (by unfold fixedDigits; omega) ?_
      rw [if_neg (by simpa using h0)]

lemma ofLongLong_represents_iff (v : Int64) :
    Represents (ofLongLong v) v.toInt ↔ v ≠ Int64.minValue := by
  constructor
  · rintro ⟨hdigits, -⟩ rfl
    exact absurd (hdigits 248 (by decide)) (by decide)
  · intro hv
    have hlow := v.le_toInt
    have hhigh := v.toInt_lt
    unfold ofLongLong
    by_cases h0 : v < 0
    · have h1 : v.toInt < 0 := Int64.lt_iff_toInt_lt.mp h0
      simp only [if_pos h0, int64_neg_toInt hv]
      refine intDigits_represents (by omega) (by unfold fixedDigits; omega) ?_
      rw [if_pos (decide_eq_true h0), neg_neg]
    · have h1 : ¬v.toInt < 0 := fun h => h0 (Int64.lt_iff_toInt_lt.mpr h)
      simp only [if_neg h0]
      refine intDigits_represents (by omega) (by unfold fixedDigits; omega) ?_
      rw [if_neg (by simpa using h0)]

/-! ### To integers -/

/-- The loop of `operator LongLong`, from the most significant digit on. -/
def accumulate : List ℕ → Int64 → Except FixedExn Int64
  | [], r => .ok r
  | d :: l, r =>
    let s := r * 10 + Int64.ofNat d
    if s < r then .error .rangeError else accumulate l s

/-- `operator LongLong` -/
def toLongLong (f : Fixed) : Except FixedExn Int64 := do
  let r ← accumulate (f.val.drop f.scale).reverse 0
  .ok (if f.negative then -r else r)

/-- The partial results `p` do not seem to overflow: modulo 2^64 they are not negative, and each is
not less than the one before. -/
def StepsUnnoticed : List ℕ → ℕ → Prop
  | [], _ => True
  | d :: l, p => (10 * p + d) % 2 ^ 64 < 2 ^ 63 ∧ p % 2 ^ 64 ≤ (10 * p + d) % 2 ^ 64 ∧
      StepsUnnoticed l (10 * p + d)

/-- A partial result, as it is wrapped. -/
def Wraps (r : Int64) (p : ℕ) : Prop := p % 2 ^ 64 < 2 ^ 63 ∧ r.toInt = (p % 2 ^ 64 : ℕ)

lemma toInt_next {r : Int64} {p d : ℕ} (h : Wraps r p) (hd : d ≤ 9) :
    (r * 10 + Int64.ofNat d).toInt =
      if (10 * p + d) % 2 ^ 64 < 2 ^ 63 then (((10 * p + d) % 2 ^ 64 : ℕ) : ℤ)
      else ((10 * p + d) % 2 ^ 64 : ℕ) - 2 ^ 64 := by
  obtain ⟨hlt, hr⟩ := h
  rw [Int64.toInt_add, Int64.toInt_mul, hr, Int64.toInt_ofNat_of_lt (by omega),
    show (10 : Int64).toInt = 10 from rfl, Int.bmod_add_bmod, Int.bmod_def]
  split_ifs <;> omega

/-- The next partial result is less where it is negative or has wrapped to a smaller one. -/
lemma next_lt_iff {r : Int64} {p d : ℕ} (h : Wraps r p) (hd : d ≤ 9) :
    ¬r * 10 + Int64.ofNat d < r ↔
      (10 * p + d) % 2 ^ 64 < 2 ^ 63 ∧ p % 2 ^ 64 ≤ (10 * p + d) % 2 ^ 64 := by
  rw [Int64.lt_iff_toInt_lt, toInt_next h hd, h.2]
  split_ifs <;> omega

lemma accumulate_eq {l : List ℕ} (hl : Digits l) {r : Int64} {p : ℕ} (h : Wraps r p) :
    (StepsUnnoticed l p → ∃ s, accumulate l r = .ok s ∧ Wraps s (p * 10 ^ l.length + num l.reverse)) ∧
      (¬StepsUnnoticed l p → accumulate l r = .error .rangeError) := by
  induction l generalizing r p with
  | nil => exact ⟨fun _ => ⟨r, rfl, by simpa using h⟩, fun hno => absurd trivial hno⟩
  | cons d l ih =>
    obtain ⟨hd, hl⟩ := digits_cons.mp hl
    have hlt := next_lt_iff h hd
    rw [accumulate, StepsUnnoticed]
    by_cases hno : r * 10 + Int64.ofNat d < r
    · rw [if_pos hno]
      refine ⟨fun hun => absurd hno (hlt.mpr ⟨hun.1, hun.2.1⟩), fun _ => rfl⟩
    · rw [if_neg hno]
      obtain ⟨h1, h2⟩ := hlt.mp hno
      have hnext : Wraps (r * 10 + Int64.ofNat d) (10 * p + d) :=
        ⟨h1, by rw [toInt_next h hd, if_pos h1]⟩
      obtain ⟨hok, herror⟩ := ih hl hnext
      have hnum : p * 10 ^ (d :: l).length + num (d :: l).reverse =
          (10 * p + d) * 10 ^ l.length + num l.reverse := by
        rw [List.length_cons, List.reverse_cons, num_append, List.length_reverse, num_cons, num_nil,
          pow_succ]
        ring
      rw [hnum]
      exact ⟨fun hun => hok hun.2.2, fun hun => herror fun hrest => hun ⟨h1, h2, hrest⟩⟩

/-- The numbers that the first digits of `n` make up seem to grow: modulo 2^64 they are less than
2^63, and none is less than the one with a digit fewer. -/
def Unnoticed (n : ℕ) : Prop :=
  ∀ j, n / 10 ^ j % 2 ^ 64 < 2 ^ 63 ∧ n / 10 ^ (j + 1) % 2 ^ 64 ≤ n / 10 ^ j % 2 ^ 64

lemma stepsUnnoticed_iff {l : List ℕ} (hl : Digits l) (p : ℕ) :
    StepsUnnoticed l p ↔ ∀ j, j < l.length →
      (p * 10 ^ l.length + num l.reverse) / 10 ^ j % 2 ^ 64 < 2 ^ 63 ∧
      (p * 10 ^ l.length + num l.reverse) / 10 ^ (j + 1) % 2 ^ 64 ≤
        (p * 10 ^ l.length + num l.reverse) / 10 ^ j % 2 ^ 64 := by
  induction l generalizing p with
  | nil => simp [StepsUnnoticed]
  | cons d l ih =>
    obtain ⟨hd, hl⟩ := digits_cons.mp hl
    have hrest := num_lt (digits_reverse.mpr hl)
    rw [List.length_reverse] at hrest
    have hnum : p * 10 ^ (d :: l).length + num (d :: l).reverse =
        10 ^ l.length * (10 * p + d) + num l.reverse := by
      rw [List.length_cons, List.reverse_cons, num_append, List.length_reverse, num_cons, num_nil,
        pow_succ]
      ring
    have htop : (10 ^ l.length * (10 * p + d) + num l.reverse) / 10 ^ l.length = 10 * p + d := by
      rw [Nat.mul_add_div (by positivity), Nat.div_eq_of_lt hrest, Nat.add_zero]
    have hbefore : (10 ^ l.length * (10 * p + d) + num l.reverse) / 10 ^ (l.length + 1) = p := by
      rw [pow_succ, ← Nat.div_div_eq_div_mul, htop]
      omega
    rw [StepsUnnoticed, ih hl, hnum, Nat.mul_comm (10 * p + d), List.length_cons]
    constructor
    · rintro ⟨h1, h2, hall⟩ j hj
      rcases (Nat.le_of_lt_succ hj).eq_or_lt with rfl | hlt
      · rw [htop, hbefore]
        exact ⟨h1, h2⟩
      · exact hall j hlt
    · intro hall
      have hlast := hall l.length (Nat.lt_succ_self _)
      rw [htop, hbefore] at hlast
      exact ⟨hlast.1, hlast.2, fun j hj => hall j (Nat.lt_succ_of_lt hj)⟩

lemma stepsUnnoticed_zero_iff {w : List ℕ} (hw : Digits w) :
    StepsUnnoticed w.reverse 0 ↔ Unnoticed (num w) := by
  rw [stepsUnnoticed_iff (digits_reverse.mpr hw), List.length_reverse, List.reverse_reverse,
    Nat.zero_mul, Nat.zero_add]
  refine ⟨fun hall j => ?_, fun hall j _ => hall j⟩
  rcases Nat.lt_or_ge j w.length with hj | hj
  · exact hall j hj
  · have hsmall : num w < 10 ^ j := (num_lt hw).trans_le (Nat.pow_le_pow_right (by norm_num) hj)
    have hzero : num w / 10 ^ j = 0 := Nat.div_eq_of_lt hsmall
    have hnext : num w / 10 ^ (j + 1) = 0 :=
      Nat.div_eq_of_lt (hsmall.trans (Nat.pow_lt_pow_right (by norm_num) (Nat.lt_succ_self j)))
    rw [hzero, hnext]
    exact ⟨by norm_num, le_rfl⟩

/-- Below 2^63 there is no overflow. -/
lemma unnoticed_of_lt {n : ℕ} (h : n < 2 ^ 63) : Unnoticed n := by
  intro j
  have hj : n / 10 ^ j ≤ n := Nat.div_le_self _ _
  have hsucc : n / 10 ^ (j + 1) ≤ n / 10 ^ j := by
    rw [pow_succ, ← Nat.div_div_eq_div_mul]
    exact Nat.div_le_self _ _
  generalize n / 10 ^ j = b at *
  generalize n / 10 ^ (j + 1) = c at *
  omega

/-- The integer part of a number. -/
def integerPart (x : ℚ) : ℤ := if x < 0 then -⌊|x|⌋₊ else ⌊|x|⌋₊

/-- The conversion gives the integer part where it is in the range of a `LongLong`, and is refused
elsewhere. -/
structure Converts (f : Fixed) : Prop where
  ok : -2 ^ 63 ≤ integerPart f.value → integerPart f.value < 2 ^ 63 →
    ∃ r, f.toLongLong = .ok r ∧ r.toInt = integerPart f.value
  rangeError : ¬(-2 ^ 63 ≤ integerPart f.value ∧ integerPart f.value < 2 ^ 63) →
    f.toLongLong = .error .rangeError

/-- An overflow shows in a partial result, and the least value is not one that is asked for. -/
def OverflowShows (i : ℤ) : Prop :=
  i ≠ -2 ^ 63 ∧ (2 ^ 63 ≤ i.natAbs → ¬Unnoticed i.natAbs)

/-- The digits before the decimal point. -/
lemma integerPart_value {f : Fixed} (hf : Digits f.val) :
    integerPart f.value =
      if f.negative then -(num (f.val.drop f.scale) : ℤ) else num (f.val.drop f.scale) := by
  have hnonneg := f.magnitude_nonneg
  have hfloor : ⌊f.magnitude⌋₊ = num (f.val.drop f.scale) := by
    have hdiv : ⌊f.magnitude⌋₊ = num f.val / 10 ^ f.scale := by
      have hmag : f.magnitude = (num f.val : ℚ) / ((10 ^ f.scale : ℕ) : ℚ) := by
        push_cast
        rfl
      rw [hmag, Nat.floor_div_eq_div]
    rcases le_or_gt f.scale f.val.length with hle | hlt
    · rw [hdiv, num_drop hf hle]
    · have hsmall : num f.val < 10 ^ f.scale :=
        (num_lt hf).trans_le (Nat.pow_le_pow_right (by norm_num) hlt.le)
      rw [hdiv, Nat.div_eq_of_lt hsmall, List.drop_eq_nil_of_le hlt.le, num_nil]
  rw [integerPart, abs_value, hfloor, value]
  cases f.negative with
  | false => simp [hnonneg]
  | true =>
    rcases hnonneg.eq_or_lt with hzero | hpos
    · have hnone : num (f.val.drop f.scale) = 0 := by rw [← hfloor, ← hzero, Nat.floor_zero]
      simp [← hzero, hnone]
    · simp [hpos]

lemma toLongLong_converts_iff {f : Fixed} (hf : Digits f.val) :
    Converts f ↔ OverflowShows (integerPart f.value) := by
  have hpart := integerPart_value hf
  have habs : (integerPart f.value).natAbs = num (f.val.drop f.scale) := by
    rw [hpart]
    split_ifs <;> simp
  have hstart : Wraps 0 0 := ⟨by norm_num, rfl⟩
  obtain ⟨hok, herror⟩ := accumulate_eq (digits_reverse.mpr (hf.drop f.scale)) hstart
  rw [stepsUnnoticed_zero_iff (hf.drop f.scale), Nat.zero_mul, List.reverse_reverse,
    Nat.zero_add, ← habs] at hok
  rw [stepsUnnoticed_zero_iff (hf.drop f.scale), ← habs] at herror
  rw [← habs] at hpart
  have hfails : ¬Unnoticed (integerPart f.value).natAbs → f.toLongLong = .error .rangeError := by
    intro h
    rw [toLongLong, herror h]
    rfl
  have hpasses : Unnoticed (integerPart f.value).natAbs → ∃ r, f.toLongLong = .ok r := by
    intro h
    obtain ⟨s, hs, -⟩ := hok h
    rw [toLongLong, hs]
    exact ⟨_, rfl⟩
  constructor
  · intro h
    refine ⟨fun hmin => ?_, fun hlarge hun => ?_⟩
    · have hshown : ¬Unnoticed (integerPart f.value).natAbs := by
        intro hun
        have := (hun 0).1
        rw [hmin] at this
        exact absurd this (by decide)
      obtain ⟨r, hr, -⟩ := h.ok hmin.ge (by rw [hmin]; norm_num)
      rw [hfails hshown] at hr
      cases hr
    · have hsmall := (hun 0).1
      rw [pow_zero, Nat.div_one] at hsmall
      obtain ⟨r, hr⟩ := hpasses hun
      rw [h.rangeError (by omega)] at hr
      cases hr
  · rintro ⟨hmin, hshows⟩
    refine ⟨fun hlow hhigh => ?_, fun hout => hfails (hshows (by omega))⟩
    obtain ⟨s, hs, -, hvalue⟩ := hok (unnoticed_of_lt (by omega))
    rw [Nat.mod_eq_of_lt (by omega)] at hvalue
    refine ⟨_, by rw [toLongLong, hs]; rfl, ?_⟩
    split_ifs at hpart ⊢
    · have hne : s ≠ Int64.minValue := by
        rintro rfl
        have : (Int64.minValue).toInt = -2 ^ 63 := rfl
        omega
      rw [int64_neg_toInt hne, hvalue]
      exact hpart.symm
    · rw [hvalue]
      exact hpart.symm

end Fixed

open Fixed in
/-- Integers become numbers but for the most negative ones, and numbers integers where an overflow
shows. -/
theorem fixed_integers_iff (v : Int32) (w : Int64) (u : UInt32) (t : UInt64) {f : Fixed}
    (hf : Digits f.val) :
    (Represents (ofLong v) v.toInt ∧ Represents (ofLongLong w) w.toInt ∧
      Represents (ofULong u) u.toNat ∧ Represents (ofULongLong t) t.toNat ∧ Converts f) ↔
    v ≠ Int32.minValue ∧ w ≠ Int64.minValue ∧ OverflowShows (integerPart f.value) := by
  rw [ofLong_represents_iff, ofLongLong_represents_iff, toLongLong_converts_iff hf,
    and_iff_right (ofULong_represents u), and_iff_right (ofULongLong_represents t)]

open Fixed in
theorem fixed_integers_seven : Represents (ofLong 7) 7 := by
  have hshows : OverflowShows (integerPart (ofULong 7).value) := by
    rw [integerPart_value (ofULong_canonical 7).digits_val]
    exact ⟨by decide, fun h => absurd h (by decide)⟩
  exact ((fixed_integers_iff 7 7 7 7 (ofULong_canonical 7).digits_val).mpr
    ⟨by decide, by decide, hshows⟩).1

open Fixed in
/-- The least integers, the least value that the conversion is to give, and a number of 20 digits
that it does not refuse. -/
theorem fixed_integers_wrong :
    ¬Represents (ofLong Int32.minValue) Int32.minValue.toInt ∧
      ¬Represents (ofLongLong Int64.minValue) Int64.minValue.toInt ∧
      (Fixed.toLongLong ⟨[8, 0, 8, 5, 7, 7, 4, 5, 8, 6, 3, 0, 2, 7, 3, 3, 2, 2, 9], 0, true, 0, 0⟩ =
        .error .rangeError) ∧
      Fixed.toLongLong ⟨List.replicate 18 0 ++ [5, 2], 0, false, 0, 0⟩ = .ok 6553255926290448384 := by
  refine ⟨?_, ?_, by decide, by decide⟩
  · rintro ⟨hdigits, -⟩
    exact absurd (hdigits 248 (by decide)) (by decide)
  · rintro ⟨hdigits, -⟩
    exact absurd (hdigits 248 (by decide)) (by decide)

end OmniORB
