import OmniORB.Fixed.Quotient

/-!
# Sums, differences and products

`realAdd`, `realSub` and `realMul` find the digits of the exact result, and then cut off those after
the decimal point that there is no room for.
-/

namespace OmniORB

open Library

namespace Fixed

/-- The result of an operation whose exact result is `x`: it is cut off behind as many decimal
places as the digits before the point leave, if these are not too many themselves. -/
structure Exactly (x : ℚ) (r : Except FixedExn Fixed) : Prop where
  ok : integerDigits x ≤ fixedDigits →
    ∃ f, r = .ok f ∧ f.Canonical ∧ f.value = truncateAt (fixedDigits - integerDigits x) x
  rangeError : fixedDigits < integerDigits x → r = .error .rangeError

/-- A result has no more digits before the point than there is room for. -/
lemma Exactly.integerDigits_le {x : ℚ} {r : Except FixedExn Fixed} (h : Exactly x r) {f : Fixed}
    (hf : r = .ok f) : integerDigits x ≤ fixedDigits := by
  by_contra hlt
  have herr := h.rangeError (not_le.mp hlt)
  rw [hf] at herr
  cases herr

/-! ### The digits that are kept -/

lemma le_num {w : List ℕ} (hne : w ≠ []) (hlast : w.getLast? ≠ some 0) :
    10 ^ (w.length - 1) ≤ num w := by
  have h := le_num_reverse (q := w.reverse) (by simpa using hne) (by rwa [List.head?_reverse])
  rwa [List.reverse_reverse, List.length_reverse] at h

/-- Digits from a position on are a quotient. -/
lemma num_drop {w : List ℕ} (hw : Digits w) {n : ℕ} (hn : n ≤ w.length) :
    num (w.drop n) = num w / 10 ^ n := by
  have hlt := num_lt (hw.take n)
  rw [List.length_take_of_le hn] at hlt
  rw [num_take_drop w hn, Nat.add_mul_div_left _ _ (by positivity), Nat.div_eq_of_lt hlt,
    Nat.zero_add]

lemma Finishable.integerDigits_eq {w : List ℕ} {scale : ℕ} (hw : Finishable w scale) :
    integerDigits ((num w : ℚ) / 10 ^ scale) = w.length - scale := by
  have hscale := hw.scale_le
  refine Fixed.integerDigits_eq (by positivity) ?_ fun hpos => ?_
  · have hlt : (num w : ℚ) < 10 ^ w.length := by exact_mod_cast num_lt hw.digits
    rw [div_lt_iff₀ (by positivity), ← pow_add, Nat.sub_add_cancel hscale]
    exact hlt
  · have hle : (10 : ℚ) ^ (w.length - 1) ≤ num w := by
      exact_mod_cast le_num (List.length_pos_iff.mp (by omega)) (hw.leading (by omega))
    rw [le_div_iff₀ (by positivity), ← pow_add, show w.length - scale - 1 + scale = w.length - 1 by
      omega]
    exact hle

lemma Canonical.finishable {f : Fixed} (hf : f.Canonical) : Finishable f.val f.scale :=
  ⟨hf.digits_val, hf.scale_le, hf.leading⟩

lemma Canonical.integerDigits_value {f : Fixed} (hf : f.Canonical) :
    integerDigits f.value = f.digits - f.scale := by
  rw [value_eq_signed, integerDigits_signed]
  exact hf.finishable.integerDigits_eq

/-- What all operations end with. -/
lemma chop_exactly {e : FixedExn} {w : List ℕ} {scale : ℕ} (hw : Finishable w scale)
    (he : fixedDigits < w.length - scale → e = .rangeError) (negative : Bool) :
    Exactly (signed negative (num w / 10 ^ scale))
      (chop e w scale >>= fun r => finish r.1 r.2 negative) := by
  have hscale := hw.scale_le
  have hinteger := hw.integerDigits_eq
  have hnonneg : (0 : ℚ) ≤ num w / 10 ^ scale := by positivity
  refine ⟨fun hle => ?_, fun hlt => ?_⟩
  · rw [integerDigits_signed, hinteger] at hle ⊢
    rw [truncateAt_signed negative _ hnonneg]
    by_cases hlong : fixedDigits < w.length
    · have hchop : chop e w scale =
          .ok (w.drop (w.length - fixedDigits), scale - (w.length - fixedDigits)) := by
        rw [chop, if_pos hlong, if_pos (by omega)]
      have hlength : (w.drop (w.length - fixedDigits)).length = fixedDigits := by
        rw [List.length_drop]
        omega
      have hplaced : scale - (w.length - fixedDigits) ≤ (w.drop (w.length - fixedDigits)).length := by
        rw [hlength]
        omega
      obtain ⟨f, hf, hvalue⟩ := finish_eq hlength.le hplaced negative
      have hfinish := finish_canonical (chop_finishable hw hchop) hf
      refine ⟨f, by rw [hchop]; exact hf, hfinish, ?_⟩
      have hplaces : fixedDigits - (w.length - scale) = scale - (w.length - fixedDigits) := by omega
      have hpow : (10 : ℚ) ^ scale =
          10 ^ (w.length - fixedDigits) * 10 ^ (scale - (w.length - fixedDigits)) := by
        rw [← pow_add, Nat.add_sub_cancel' (by omega)]
      have hshift : (num w : ℚ) / 10 ^ scale * 10 ^ (scale - (w.length - fixedDigits)) =
          (num w : ℚ) / ((10 ^ (w.length - fixedDigits) : ℕ) : ℚ) := by
        rw [hpow]
        push_cast
        field_simp
      rw [hvalue, hplaces, num_drop hw.digits (Nat.sub_le _ _), hshift, Nat.floor_div_eq_div]
    · have hchop : chop e w scale = .ok (w, scale) := by rw [chop, if_neg hlong]
      obtain ⟨f, hf, hvalue⟩ := finish_eq (not_lt.mp hlong) hscale negative
      refine ⟨f, by rw [hchop]; exact hf, finish_canonical hw hf, ?_⟩
      have hpow : (10 : ℚ) ^ (fixedDigits - (w.length - scale)) =
          10 ^ scale * 10 ^ (fixedDigits - w.length) := by
        rw [← pow_add]
        congr 1
        omega
      have hshift : (num w : ℚ) / 10 ^ scale * (10 ^ scale * 10 ^ (fixedDigits - w.length)) =
          ((num w * 10 ^ (fixedDigits - w.length) : ℕ) : ℚ) := by
        push_cast
        field_simp
      rw [hvalue, hpow, hshift, Nat.floor_natCast]
      push_cast
      rw [mul_div_mul_right _ _ (by positivity)]
  · rw [integerDigits_signed, hinteger] at hlt
    have hchop : chop e w scale = .error .rangeError := by
      rw [chop, if_pos (by omega), if_neg (by omega), he hlt]
    rw [hchop]
    rfl

/-! ### Addition -/

/-- A digit and its carry are the sum of the digits. -/
lemma sumDigit_eq {v : ℤ} (h0 : 0 ≤ v) (h19 : v ≤ 19) :
    (octet (if 9 < v then v - 10 else v) : ℤ) + 10 * (if 9 < v then 1 else 0) = v := by
  split_ifs with h
  · rw [octet_of_le (by omega) (by omega)]
    omega
  · rw [octet_of_le (by omega) (by omega)]
    omega

lemma addDigits_num {c : ℤ} (h0 : 0 ≤ c) (h1 : c ≤ 1) {a b : List ℕ} (ha : Digits a)
    (hb : Digits b) : (num (addDigits c a b) : ℤ) = num a + num b + c := by
  fun_induction addDigits c a b with
  | case1 c h =>
    rw [num_cons]
    push_cast
    rw [octet_of_le h0 (by omega)]
    simp
  | case2 c h =>
    have hc : c = 0 := not_not.mp h
    simp [hc]
  | case3 c x a y b v ih =>
    obtain ⟨hx, ha⟩ := digits_cons.mp ha
    obtain ⟨hy, hb⟩ := digits_cons.mp hb
    have hdigit := sumDigit_eq (v := v) (by omega) (by omega)
    have hrest : (num (addDigits (if 9 < v then 1 else 0) a b) : ℤ) =
        num a + num b + (if 9 < v then 1 else 0) := ih (sumCarry_le v).1 (sumCarry_le v).2 ha hb
    have hv : v = x + y + c := rfl
    rw [num_cons, num_cons, num_cons]
    push_cast
    linear_combination hdigit + 10 * hrest + hv
  | case4 c x a v ih =>
    obtain ⟨hx, ha⟩ := digits_cons.mp ha
    have hdigit := sumDigit_eq (v := v) (by omega) (by omega)
    have hrest : (num (addDigits (if 9 < v then 1 else 0) a []) : ℤ) =
        num a + 0 + (if 9 < v then 1 else 0) :=
      ih (sumCarry_le v).1 (sumCarry_le v).2 ha digits_nil
    have hv : v = x + c := rfl
    rw [num_cons, num_cons, num_nil]
    push_cast
    linear_combination hdigit + 10 * hrest + hv
  | case5 c y b v ih =>
    obtain ⟨hy, hb⟩ := digits_cons.mp hb
    have hdigit := sumDigit_eq (v := v) (by omega) (by omega)
    have hrest : (num (addDigits (if 9 < v then 1 else 0) [] b) : ℤ) =
        0 + num b + (if 9 < v then 1 else 0) :=
      ih (sumCarry_le v).1 (sumCarry_le v).2 digits_nil hb
    have hv : v = y + c := rfl
    rw [num_cons, num_cons, num_nil]
    push_cast
    linear_combination hdigit + 10 * hrest + hv

/-- The digits in a work array: they fit into it, and those after the decimal point are there. -/
structure Fits (w : List ℕ) (scale : ℕ) : Prop where
  length_le : w.length ≤ 2 * fixedDigits
  scale_le : scale ≤ w.length

lemma addDigits_nil {b : List ℕ} (hb : Digits b) : addDigits 0 [] b = b := by
  induction b with
  | nil => simp [addDigits]
  | cons y b ih =>
    obtain ⟨hy, hb⟩ := digits_cons.mp hb
    have hnine : ¬9 < (y : ℤ) + 0 := by omega
    have hdigit : octet ((y : ℤ) + 0) = y := by
      unfold octet
      omega
    rw [addDigits]
    simp only [if_neg hnine]
    rw [hdigit, ih hb]

lemma addDigits_comm (c : ℤ) (a b : List ℕ) : addDigits c a b = addDigits c b a := by
  fun_induction addDigits c a b with
  | case1 c h => rw [addDigits, if_pos h]
  | case2 c h => rw [addDigits, if_neg h]
  | case3 c x a y b v ih =>
    rw [addDigits, add_comm (y : ℤ) x]
    exact congrArg _ ih
  | case4 c x a v ih =>
    rw [addDigits]
    exact congrArg _ ih
  | case5 c y b v ih =>
    rw [addDigits]
    exact congrArg _ ih

/-- A carry adds one digit at most. -/
lemma addDigits_length_le (c : ℤ) (a b : List ℕ) :
    (addDigits c a b).length ≤ max a.length b.length + 1 := by
  fun_induction addDigits c a b with
  | case1 c h => exact le_rfl
  | case2 c h => exact Nat.zero_le _
  | case3 c x a y b v ih => simpa using ih
  | case4 c x a v ih => simpa using ih
  | case5 c y b v ih => simpa using ih

namespace Canonical

variable {a b : Fixed}

/-- The sum, in units of the last digit of either. -/
lemma num_addWork (ha : a.Canonical) (hb : b.Canonical) :
    (num (addWork a b) : ℚ) / 10 ^ max a.scale b.scale = a.magnitude + b.magnitude := by
  have hsa : a.scale ≤ a.val.length := ha.scale_le
  have hsb : b.scale ≤ b.val.length := hb.scale_le
  have hhigh := addDigits_num le_rfl zero_le_one (ha.digits_val.drop (a.scale - b.scale))
    (hb.digits_val.drop (b.scale - a.scale))
  have hnum : num (addDigits 0 (a.val.drop (a.scale - b.scale)) (b.val.drop (b.scale - a.scale))) =
      num (a.val.drop (a.scale - b.scale)) + num (b.val.drop (b.scale - a.scale)) := by
    exact_mod_cast hhigh.trans (add_zero _)
  have hva := num_take_drop a.val (n := a.scale - b.scale) (by omega)
  have hvb := num_take_drop b.val (n := b.scale - a.scale) (by omega)
  rw [addWork, num_append, num_append, List.length_append, ha.take_length, hb.take_length, hnum]
  change _ = ((num a.val : ℕ) : ℚ) / 10 ^ a.scale + ((num b.val : ℕ) : ℚ) / 10 ^ b.scale
  rw [hva, hvb]
  rcases le_total a.scale b.scale with hle | hle
  · obtain ⟨k, hk⟩ := Nat.exists_eq_add_of_le hle
    rw [hk, Nat.sub_eq_zero_of_le (Nat.le_add_right _ _), Nat.add_sub_cancel_left,
      max_eq_right (Nat.le_add_right _ _), pow_add]
    simp only [List.take_zero, num_nil, List.drop_zero]
    push_cast
    field_simp
    ring
  · obtain ⟨k, hk⟩ := Nat.exists_eq_add_of_le hle
    rw [hk, Nat.sub_eq_zero_of_le (Nat.le_add_right _ _), Nat.add_sub_cancel_left,
      max_eq_left (Nat.le_add_right _ _), pow_add]
    simp only [List.take_zero, num_nil, List.drop_zero]
    push_cast
    field_simp
    ring

/-- A number with 31 decimal places has no digits for a number without any to carry from. -/
lemma addWork_fits (ha : a.Canonical) (hb : b.Canonical) :
    Fits (addWork a b) (max a.scale b.scale) := by
  refine ⟨?_, (ha.addWork_finishable hb).scale_le⟩
  have hla : a.val.length ≤ fixedDigits := ha.digits_le
  have hlb : b.val.length ≤ fixedDigits := hb.digits_le
  have hsa : a.scale ≤ a.val.length := ha.scale_le
  have hsb : b.scale ≤ b.val.length := hb.scale_le
  rw [addWork, List.length_append, List.length_append, ha.take_length, hb.take_length]
  by_cases hda : a.val.drop (a.scale - b.scale) = []
  · rw [hda, addDigits_nil (hb.digits_val.drop _), List.length_drop]
    omega
  by_cases hdb : b.val.drop (b.scale - a.scale) = []
  · rw [hdb, addDigits_comm, addDigits_nil (ha.digits_val.drop _), List.length_drop]
    omega
  have hlen := addDigits_length_le 0 (a.val.drop (a.scale - b.scale))
    (b.val.drop (b.scale - a.scale))
  rw [List.drop_eq_nil_iff, not_le] at hda hdb
  rw [List.length_drop, List.length_drop] at hlen
  omega

lemma realAdd_exactly (ha : a.Canonical) (hb : b.Canonical) (negative : Bool) :
    Exactly (signed negative (a.magnitude + b.magnitude)) (realAdd a b negative) := by
  rw [realAdd_eq, ← ha.num_addWork hb]
  exact chop_exactly (ha.addWork_finishable hb) (fun _ => rfl) negative

end Canonical

/-! ### Subtraction -/

lemma complementDigits_num {c : ℤ} (h0 : -1 ≤ c) (h1 : c ≤ 0) {b : List ℕ} (hb : Digits b) :
    (num (complementDigits c b).1 : ℤ) + (complementDigits c b).2 * 10 ^ b.length = c - num b := by
  induction b generalizing c with
  | nil => simp [complementDigits]
  | cons y b ih =>
    obtain ⟨hy, hb⟩ := digits_cons.mp hb
    have hrest := ih (c := -1) le_rfl (by norm_num) hb
    rw [complementDigits, num_cons, num_cons, List.length_cons, pow_succ]
    push_cast
    rw [octet_of_le (by omega) (by omega)]
    linear_combination 10 * hrest

lemma subDigits_carry {c : ℤ} (h0 : -1 ≤ c) (h1 : c ≤ 0) (a b : List ℕ) :
    -1 ≤ (subDigits c a b).2.1 ∧ (subDigits c a b).2.1 ≤ 0 := by
  fun_induction subDigits c a b with
  | case1 c b => exact ⟨h0, h1⟩
  | case2 c x a b v r ih => exact ih (differenceCarry_le v).1 (differenceCarry_le v).2

/-- What is left of the second number. -/
lemma subDigits_rest (c : ℤ) (a b : List ℕ) : (subDigits c a b).2.2 = b.drop a.length := by
  fun_induction subDigits c a b with
  | case1 c b => rfl
  | case2 c x a b v r ih => rw [ih, List.drop_drop, List.length_cons, Nat.add_comm]

/-- Zeros in front do not count. -/
lemma num_stripLeading (scale : ℕ) (w : List ℕ) : num (stripLeading scale w) = num w := by
  have htop : num ((w.drop scale).rdropWhile (· = 0)) = num (w.drop scale) := num_significant _
  rcases le_or_gt scale w.length with h | h
  · rw [stripLeading, num_append, List.length_take_of_le h, htop, ← num_take_drop w h]
  · rw [stripLeading, List.take_of_length_le h.le, List.drop_eq_nil_of_le h.le,
      List.rdropWhile_nil, List.append_nil]

/-- The entries of `work` that are looked at while leading zeros are stripped, `digits` of them
being left. -/
def stripIndices (scale : ℕ) (w : List ℕ) : ℕ → List ℤ
  | 0 => [-1]
  | digits + 1 =>
    digits :: if w.getD digits 0 = 0 ∧ scale < digits + 1 then stripIndices scale w digits else []

/-- The loop ends at the decimal point, or at a digit that is not zero. -/
lemma stripIndices_lt {scale digits : ℕ} {w : List ℕ} (hscale : scale ≤ digits)
    (hstop : 0 < scale ∨ ∃ j, j < digits ∧ w.getD j 0 ≠ 0) :
    ∀ i ∈ stripIndices scale w digits, 0 ≤ i ∧ i < digits := by
  induction digits with
  | zero =>
    rcases hstop with h | ⟨j, hj, -⟩
    · omega
    · exact absurd hj (Nat.not_lt_zero j)
  | succ digits ih =>
    intro i hi
    rw [stripIndices, List.mem_cons] at hi
    rcases hi with rfl | hi
    · omega
    · split_ifs at hi with h
      · have hrest := ih (by omega) (hstop.imp_right ?_) i hi
        · omega
        · rintro ⟨j, hj, hne⟩
          refine ⟨j, lt_of_le_of_ne (Nat.le_of_lt_succ hj) fun heq => hne ?_, hne⟩
          rw [heq]
          exact h.1
      · simp at hi

namespace Canonical

variable {a b : Fixed}

/-- The greater number has at least as many digits before the decimal point. -/
lemma unscale_le (ha : a.Canonical) (hb : b.Canonical) (h : b.magnitude < a.magnitude) :
    b.digits - b.scale ≤ a.digits - a.scale := by
  by_contra hlt
  exact h.not_gt (ha.magnitude_lt_magnitude hb (not_le.mp hlt))

/-- The difference, in units of the last digit of either, and what would be borrowed from beyond
the digits of the greater number. -/
lemma num_subWork (ha : a.Canonical) (hb : b.Canonical)
    (hunscale : b.digits - b.scale ≤ a.digits - a.scale) :
    ((num (subWork a b) : ℚ) + (subHigh a b).2.1 * 10 ^ (subWork a b).length) /
      10 ^ max a.scale b.scale = a.magnitude - b.magnitude := by
  have hsa : a.scale ≤ a.val.length := ha.scale_le
  have hsb : b.scale ≤ b.val.length := hb.scale_le
  have hlen : b.val.length - b.scale ≤ a.val.length - a.scale := hunscale
  have hlow := hb.subLow_digits (a := a)
  have hlownum := complementDigits_num (c := 0) (by norm_num) le_rfl
    (hb.digits_val.take (b.scale - a.scale))
  have hhigh := subDigits_num hlow.2.1 hlow.2.2 (ha.digits_val.drop (a.scale - b.scale))
    (hb.digits_val.drop (b.scale - a.scale)) (by rw [List.length_drop, List.length_drop]; omega)
  have hva := num_take_drop a.val (n := a.scale - b.scale) (by omega)
  have hvb := num_take_drop b.val (n := b.scale - a.scale) (by omega)
  change ((num (subLow a b).1 : ℕ) : ℤ) + (subLow a b).2 * _ = _ at hlownum
  change ((num (subHigh a b).1 : ℕ) : ℤ) + (subHigh a b).2.1 * _ = _ at hhigh
  rw [hb.take_length] at hlownum
  rw [List.length_drop] at hhigh
  have hlownum := congrArg (Int.cast (R := ℚ)) hlownum
  have hhigh := congrArg (Int.cast (R := ℚ)) hhigh
  push_cast at hlownum hhigh
  have hlowlen : (subLow a b).1.length = b.scale - a.scale := by
    rw [subLow, complementDigits_length, hb.take_length]
  rw [ha.subWork_length hb, subWork, num_append, num_append, List.length_append, ha.take_length,
    hlowlen, digits]
  change _ = ((num a.val : ℕ) : ℚ) / 10 ^ a.scale - ((num b.val : ℕ) : ℚ) / 10 ^ b.scale
  rw [hva, hvb]
  generalize (subLow a b).2 = cl at hlownum hhigh
  generalize (subHigh a b).2.1 = ch at hhigh ⊢
  generalize num (subLow a b).1 = low at hlownum ⊢
  generalize num (subHigh a b).1 = high at hhigh ⊢
  rcases le_total a.scale b.scale with hle | hle
  · obtain ⟨k, hk⟩ := Nat.exists_eq_add_of_le hle
    have hdown : a.scale - b.scale = 0 := by omega
    have hup : b.scale - a.scale = k := by omega
    have hmax : max a.scale b.scale = a.scale + k := by omega
    simp only [hdown, hup, List.take_zero, num_nil, List.drop_zero, Nat.sub_zero]
      at hlownum hhigh ⊢
    rw [hmax, hk, pow_add, pow_add]
    push_cast
    field_simp
    linear_combination 10 ^ a.scale * hlownum + 10 ^ a.scale * 10 ^ k * hhigh
  · obtain ⟨k, hk⟩ := Nat.exists_eq_add_of_le hle
    obtain ⟨l, hl⟩ : ∃ l, a.val.length = k + l := ⟨a.val.length - k, by omega⟩
    have hdown : a.scale - b.scale = k := by omega
    have hup : b.scale - a.scale = 0 := by omega
    have hmax : max a.scale b.scale = b.scale + k := by omega
    have hleft : k + l - k = l := by omega
    simp only [hdown, hup, hl, hleft, List.take_zero, num_nil, List.drop_zero, Nat.add_zero,
      Nat.cast_zero] at hlownum hhigh ⊢
    rw [hmax, hk, pow_add, pow_add]
    push_cast
    field_simp
    linear_combination 10 ^ k * hhigh + 10 ^ k * hlownum

/-- Nothing is borrowed from beyond the digits of the greater number. -/
lemma subHigh_carry (ha : a.Canonical) (hb : b.Canonical) (h : b.magnitude < a.magnitude) :
    (subHigh a b).2.1 = 0 := by
  have hnum := ha.num_subWork hb (ha.unscale_le hb h)
  have hlow := hb.subLow_digits (a := a)
  have hlt : (num (subWork a b) : ℚ) < 10 ^ (subWork a b).length := by
    exact_mod_cast num_lt (ha.subWork_digits hb)
  have hpos : (0 : ℚ) < 10 ^ (subWork a b).length := by positivity
  rw [div_eq_iff (by positivity)] at hnum
  have hdiff : (0 : ℚ) < (a.magnitude - b.magnitude) * 10 ^ max a.scale b.scale :=
    mul_pos (sub_pos.mpr h) (by positivity)
  obtain hcarry | hcarry : (subHigh a b).2.1 = 0 ∨ (subHigh a b).2.1 = -1 := by
    have := subDigits_carry hlow.2.1 hlow.2.2 (a.val.drop (a.scale - b.scale))
      (b.val.drop (b.scale - a.scale))
    change -1 ≤ (subHigh a b).2.1 ∧ (subHigh a b).2.1 ≤ 0 at this
    omega
  · exact hcarry
  · rw [hcarry] at hnum
    push_cast at hnum
    linarith

lemma num_subWork_eq (ha : a.Canonical) (hb : b.Canonical) (h : b.magnitude < a.magnitude) :
    (num (subWork a b) : ℚ) / 10 ^ max a.scale b.scale = a.magnitude - b.magnitude := by
  rw [← ha.num_subWork hb (ha.unscale_le hb h), ha.subHigh_carry hb h, Int.cast_zero, zero_mul,
    add_zero]

lemma realSub_exactly (ha : a.Canonical) (hb : b.Canonical) (h : b.magnitude < a.magnitude)
    (negative : Bool) :
    Exactly (signed negative (a.magnitude - b.magnitude)) (realSub a b negative) := by
  have hsa : a.scale ≤ a.val.length := ha.scale_le
  have hsb : b.scale ≤ b.val.length := hb.scale_le
  have hla : a.val.length ≤ fixedDigits := ha.digits_le
  have hrest : (subHigh a b).2.2 = [] := by
    have hlen : b.val.length - b.scale ≤ a.val.length - a.scale := ha.unscale_le hb h
    rw [subHigh, subDigits_rest, List.drop_eq_nil_iff, List.length_drop, List.length_drop]
    omega
  rw [realSub_eq, if_neg (by rw [hrest, ha.subHigh_carry hb h]; simp), ← ha.num_subWork_eq hb h,
    ← num_stripLeading (max a.scale b.scale) (subWork a b)]
  refine chop_exactly (ha.subWork_finishable hb) (fun hlong => ?_) negative
  have hlen := stripLeading_length_le (max a.scale b.scale) (subWork a b)
  rw [ha.subWork_length hb, digits] at hlen
  omega

lemma subWork_fits (ha : a.Canonical) (hb : b.Canonical) :
    Fits (subWork a b) (max a.scale b.scale) := by
  have hsa : a.scale ≤ a.val.length := ha.scale_le
  have hsb : b.scale ≤ b.val.length := hb.scale_le
  have hla : a.val.length ≤ fixedDigits := ha.digits_le
  have hlb : b.val.length ≤ fixedDigits := hb.digits_le
  constructor <;> rw [ha.subWork_length hb, digits] <;> omega

end Canonical

/-! ### Multiplication -/

lemma num_set {l : List ℕ} {i : ℕ} (hi : i < l.length) (x : ℕ) :
    num (l.set i x) + 10 ^ i * l.getD i 0 = num l + 10 ^ i * x := by
  induction l generalizing i with
  | nil => exact absurd hi (Nat.not_lt_zero i)
  | cons y l ih =>
    cases i with
    | zero =>
      simp only [List.set_cons_zero, num_cons, List.getD_cons_zero, pow_zero]
      omega
    | succ i =>
      have hrest := ih (Nat.lt_of_succ_lt_succ hi)
      rw [List.set_cons_succ, num_cons, num_cons, List.getD_cons_succ, pow_succ]
      linear_combination 10 * hrest

/-- Nothing is above a position that the number does not reach. -/
lemma num_drop_eq_zero {l : List ℕ} {n : ℕ} (h : num l < 10 ^ n) : num (l.drop n) = 0 := by
  rcases le_or_gt n l.length with hn | hn
  · rw [num_take_drop l hn] at h
    by_contra hne
    have hle : 10 ^ n * 1 ≤ 10 ^ n * num (l.drop n) :=
      Nat.mul_le_mul_left _ (Nat.one_le_iff_ne_zero.mpr hne)
    omega
  · rw [List.drop_eq_nil_of_le hn.le, num_nil]

/-- Nothing is above a higher position either. -/
lemma num_drop_mono {l : List ℕ} {m n : ℕ} (h : num (l.drop m) = 0) (hmn : m ≤ n) :
    num (l.drop n) = 0 := by
  rw [num_eq_zero_iff, List.all_eq_true] at h ⊢
  intro x hx
  refine h x ?_
  rw [← Nat.add_sub_cancel' hmn, ← List.drop_drop] at hx
  exact List.mem_of_mem_drop hx

/-- A digit of the product with what is carried from it. -/
lemma num_write {l : List ℕ} {i : ℕ} (hi : i < l.length) (x : ℕ) :
    num (l.set i ((l.getD i 0 + x) % 10)) + 10 ^ (i + 1) * ((l.getD i 0 + x) / 10) =
      num l + 10 ^ i * x := by
  have hset := num_set hi ((l.getD i 0 + x) % 10)
  have hdiv := Nat.mod_add_div (l.getD i 0 + x) 10
  rw [pow_succ]
  zify at hset hdiv ⊢
  linear_combination hset + 10 ^ i * hdiv

/-- The inner loop adds a multiple of `b`, but for the carry that is left. -/
lemma mulDigit_num {ad ai : ℕ} (b : List ℕ) (bi : ℕ) {st : MulState}
    (hlen : st.work.length = 2 * fixedDigits) (hb : ai + bi + b.length ≤ 2 * fixedDigits)
    (hc : st.carry ≠ 0 → st.wi + 1 = ai + bi) :
    num (mulDigit ad ai b bi st).work +
        10 ^ (ai + bi + b.length) * (mulDigit ad ai b bi st).carry =
      num st.work + 10 ^ (ai + bi) * (ad * num b + st.carry) ∧
    ((mulDigit ad ai b bi st).carry ≠ 0 →
      (mulDigit ad ai b bi st).wi + 1 = ai + bi + b.length) := by
  induction b generalizing bi st with
  | nil => exact ⟨by simp [mulDigit], hc⟩
  | cons bd b ih =>
    rw [List.length_cons] at hb
    have hpos : ai + bi + (b.length + 1) = ai + (bi + 1) + b.length := by omega
    rw [mulDigit, List.length_cons, hpos]
    split_ifs with h
    · obtain ⟨h1, h2⟩ := ih (bi + 1) hlen (by omega) fun hne => absurd h.2 hne
      refine ⟨h1.trans ?_, h2⟩
      rw [num_cons, h.1, h.2, ← Nat.add_assoc, pow_succ]
      ring
    · dsimp only
      obtain ⟨h1, h2⟩ := @ih (bi + 1)
        ⟨st.work.set (ai + bi) ((st.work.getD (ai + bi) 0 + ad * bd + st.carry) % 10),
          (st.work.getD (ai + bi) 0 + ad * bd + st.carry) / 10, ai + bi⟩
        (by rw [List.length_set]; exact hlen) (by omega) fun _ => Nat.add_assoc ai bi 1
      refine ⟨h1.trans ?_, h2⟩
      have hwrite := num_write (l := st.work) (i := ai + bi) (by omega) (ad * bd + st.carry)
      rw [← Nat.add_assoc] at hwrite
      rw [num_cons, ← Nat.add_assoc ai bi 1]
      dsimp only
      zify at hwrite ⊢
      rw [pow_succ] at hwrite ⊢
      linear_combination hwrite

/-- Nothing is left of the number from a position on. -/
def MulState.Above (st : MulState) (n : ℕ) : Prop := num (st.work.drop n) = 0

lemma MulState.Above.set {st : MulState} {n i : ℕ} (h : st.Above n) (hi : i < n) (x c : ℕ) :
    MulState.Above ⟨st.work.set i x, c, i⟩ n := by
  unfold MulState.Above at *
  rwa [List.drop_set_of_lt hi]

lemma mulDigit_append (ad ai : ℕ) (k l : List ℕ) (bi : ℕ) (st : MulState) :
    mulDigit ad ai (k ++ l) bi st = mulDigit ad ai l (bi + k.length) (mulDigit ad ai k bi st) := by
  induction k generalizing bi st with
  | nil => rfl
  | cons y k ih =>
    rw [List.cons_append, mulDigit, mulDigit, List.length_cons]
    split_ifs with h
    · rw [ih, Nat.add_assoc, Nat.add_comm 1]
    · rw [ih, Nat.add_assoc, Nat.add_comm 1]

/-- The digits that are written are below those of `b` that come next. -/
lemma mulDigit_above {ad ai n : ℕ} (b : List ℕ) (bi : ℕ) {st : MulState} (h : st.Above n)
    (hn : ai + bi + b.length ≤ n) : (mulDigit ad ai b bi st).Above n := by
  induction b generalizing bi st with
  | nil => exact h
  | cons bd b ih =>
    rw [List.length_cons] at hn
    rw [mulDigit]
    split_ifs
    · exact ih (bi + 1) h (by omega)
    · exact ih (bi + 1) (h.set (by omega) _ _) (by omega)

/-- Zeros of `b` are only written to for a carry, from one entry to the next. -/
lemma mulDigit_zeros {ad ai : ℕ} {b : List ℕ} (hb : ∀ d ∈ b, d = 0) (bi : ℕ) {st : MulState}
    (hc : st.carry ≠ 0 → st.wi + 1 = ai + bi) (h : st.Above (st.wi + 1)) :
    (mulDigit ad ai b bi st).Above ((mulDigit ad ai b bi st).wi + 1) := by
  induction b generalizing bi st with
  | nil => exact h
  | cons bd b ih =>
    obtain ⟨hbd, hb⟩ := List.forall_mem_cons.mp hb
    rw [mulDigit]
    split_ifs with h0
    · exact ih hb (bi + 1) (fun hne => absurd h0.2 hne) h
    · have hwi := hc fun hzero => h0 ⟨hbd, hzero⟩
      refine ih hb (bi + 1) (fun _ => Nat.add_assoc ai bi 1) ?_
      refine MulState.Above.set ?_ (Nat.lt_succ_self _) _ _
      exact num_drop_mono h (by omega)

/-- The last digit that is not zero. -/
lemma exists_last {b : List ℕ} (hb : ∃ d ∈ b, d ≠ 0) :
    ∃ k x z, b = k ++ x :: z ∧ x ≠ 0 ∧ ∀ d ∈ z, d = 0 := by
  induction b with
  | nil => simp at hb
  | cons y b ih =>
    by_cases hrest : ∃ d ∈ b, d ≠ 0
    · obtain ⟨k, x, z, rfl, hx, hz⟩ := ih hrest
      exact ⟨y :: k, x, z, rfl, hx, hz⟩
    · push Not at hrest
      refine ⟨[], y, b, rfl, ?_, hrest⟩
      obtain ⟨d, hd, hne⟩ := hb
      rcases List.mem_cons.mp hd with rfl | hd
      · exact hne
      · exact absurd (hrest d hd) hne

/-- Whatever is above the last digit that is written was there before. -/
lemma mulDigit_last {ad ai : ℕ} {k z : List ℕ} {x : ℕ} (hx : x ≠ 0) (hz : ∀ d ∈ z, d = 0)
    {st : MulState} (h : st.Above (ai + k.length + 1)) :
    (mulDigit ad ai (k ++ x :: z) 0 st).Above ((mulDigit ad ai (k ++ x :: z) 0 st).wi + 1) := by
  have hk : (mulDigit ad ai k 0 st).Above (ai + k.length + 1) :=
    mulDigit_above k 0 h (by omega)
  rw [mulDigit_append, mulDigit, if_neg (fun h0 => hx h0.1)]
  refine mulDigit_zeros hz _ (fun _ => by dsimp only; omega) ?_
  rw [Nat.zero_add]
  exact hk.set (Nat.lt_succ_self _) _ _

/-- Where the result fits, there is room for the carry. -/
lemma mulCarry_num (n : ℕ) {st : MulState} (hlen : st.work.length = 2 * fixedDigits)
    (hn : st.wi + 1 + n = 2 * fixedDigits) (habove : st.Above (st.wi + 1))
    (hlt : num st.work + 10 ^ (st.wi + 1) * st.carry < 10 ^ (2 * fixedDigits)) :
    ∃ st', mulCarry n st = .ok st' ∧
      num st'.work = num st.work + 10 ^ (st.wi + 1) * st.carry ∧ st'.Above (st'.wi + 1) := by
  induction n generalizing st with
  | zero =>
    have hc : st.carry = 0 := by
      by_contra hne
      have hle : 10 ^ (st.wi + 1) * 1 ≤ 10 ^ (st.wi + 1) * st.carry :=
        Nat.mul_le_mul_left _ (Nat.one_le_iff_ne_zero.mpr hne)
      rw [show st.wi + 1 = 2 * fixedDigits from hn] at hle hlt
      omega
    refine ⟨st, by rw [mulCarry, if_pos hc], ?_, habove⟩
    rw [hc, Nat.mul_zero, Nat.add_zero]
  | succ n ih =>
    rw [mulCarry]
    split_ifs with hc
    · refine ⟨st, rfl, ?_, habove⟩
      rw [hc, Nat.mul_zero, Nat.add_zero]
    · have hwrite := num_write (l := st.work) (i := st.wi + 1) (by omega) st.carry
      obtain ⟨st', hst', hnum, habove'⟩ := @ih
        ⟨st.work.set (st.wi + 1) ((st.work.getD (st.wi + 1) 0 + st.carry) % 10),
          (st.work.getD (st.wi + 1) 0 + st.carry) / 10, st.wi + 1⟩
        (by rw [List.length_set]; exact hlen) (by dsimp only; omega)
        (MulState.Above.set (num_drop_mono habove (Nat.le_succ _)) (Nat.lt_succ_self _) _ _)
        (hwrite.trans_lt hlt)
      exact ⟨st', hst', hnum.trans hwrite, habove'⟩

/-- One round of the outer loop, for a digit of `a` that is not zero. -/
lemma mulRound_num {b : List ℕ} (hb : Digits b) (hb0 : ∃ d ∈ b, d ≠ 0) {ad ai : ℕ} (had : ad ≠ 0)
    (had9 : ad ≤ 9) {st : MulState} (hst : st.Valid) (hc : st.carry = 0)
    (hlen : ai + 1 + b.length ≤ 2 * fixedDigits) (hlt : num st.work < 10 ^ ai * num b) :
    ∃ st', mulCarry (2 * fixedDigits - 1 - (mulDigit ad ai b 0 st).wi) (mulDigit ad ai b 0 st) =
        .ok st' ∧
      num st'.work = num st.work + 10 ^ ai * (ad * num b) ∧ st'.Above (st'.wi + 1) ∧ st'.Valid ∧
        st'.carry = 0 := by
  obtain ⟨hvalid, hleading⟩ := mulDigit_leading had ai b 0 hst (by omega) (.inr hb0)
  have hwi := hvalid.wi_lt
  obtain ⟨hnum, hcarry⟩ := @mulDigit_num ad ai b 0 st hst.length (by omega)
    fun h => absurd hc h
  have habove : (mulDigit ad ai b 0 st).Above ((mulDigit ad ai b 0 st).wi + 1) := by
    obtain ⟨k, x, z, rfl, hx, hz⟩ := exists_last hb0
    refine mulDigit_last hx hz (num_drop_eq_zero (hlt.trans_le ?_))
    have hsplit := num_append (k ++ [x]) z
    have hzero : num z = 0 := by
      rw [num_eq_zero_iff, List.all_eq_true]
      exact fun d hd => decide_eq_true (hz d hd)
    have hkx := num_lt (hb.of_sublist (k := k ++ [x]) (by simp))
    rw [List.append_assoc, List.singleton_append, hzero, Nat.mul_zero, Nat.add_zero] at hsplit
    rw [List.length_append, List.length_singleton, ← hsplit] at hkx
    rw [Nat.add_assoc, pow_add]
    exact Nat.mul_le_mul_left _ hkx.le
  -- the carry stands where the digits of `b` end
  have hshift : 10 ^ ((mulDigit ad ai b 0 st).wi + 1) * (mulDigit ad ai b 0 st).carry =
      10 ^ (ai + 0 + b.length) * (mulDigit ad ai b 0 st).carry := by
    by_cases h0 : (mulDigit ad ai b 0 st).carry = 0
    · rw [h0, Nat.mul_zero, Nat.mul_zero]
    · rw [hcarry h0]
  rw [← hshift, hc, Nat.add_zero, Nat.add_zero] at hnum
  have hfits : num st.work + 10 ^ ai * (ad * num b) < 10 ^ (2 * fixedDigits) := by
    calc num st.work + 10 ^ ai * (ad * num b)
        < 10 ^ ai * num b + 10 ^ ai * (ad * num b) := by omega
      _ ≤ 10 ^ ai * num b + 10 ^ ai * (9 * num b) := by gcongr
      _ = 10 ^ (ai + 1) * num b := by rw [pow_succ]; ring
      _ ≤ 10 ^ (ai + 1) * 10 ^ b.length := Nat.mul_le_mul_left _ (num_lt hb).le
      _ ≤ 10 ^ (2 * fixedDigits) := by
        rw [← pow_add]
        exact Nat.pow_le_pow_right (by norm_num) hlen
  obtain ⟨st', hst', hnum', habove'⟩ := mulCarry_num (2 * fixedDigits - 1 - (mulDigit ad ai b 0 st).wi)
    hvalid.length (by omega) habove (hnum.trans_lt hfits)
  obtain ⟨hvalid', -, hc'⟩ := mulCarry_leading hvalid hleading (by omega) hst'
  exact ⟨st', hst', hnum'.trans hnum, habove', hvalid', hc'⟩

/-- The outer loop adds the product. -/
lemma mulDigits_num {b : List ℕ} (hb : Digits b) (hb0 : ∃ d ∈ b, d ≠ 0) {a : List ℕ}
    (ha : Digits a) (ai : ℕ) {st : MulState} (hst : st.Valid) (hc : st.carry = 0)
    (hlen : ai + a.length + b.length ≤ 2 * fixedDigits) (hlt : num st.work < 10 ^ ai * num b)
    (habove : st.Above (st.wi + 1)) :
    ∃ st', mulDigits b a ai st = .ok st' ∧
      num st'.work = num st.work + 10 ^ ai * (num a * num b) ∧ st'.Above (st'.wi + 1) := by
  induction a generalizing ai st with
  | nil => exact ⟨st, rfl, by simp, habove⟩
  | cons ad a ih =>
    obtain ⟨had9, ha⟩ := digits_cons.mp ha
    rw [List.length_cons] at hlen
    rw [mulDigits]
    split_ifs with had
    · have hstep : 10 ^ ai * num b ≤ 10 ^ (ai + 1) * num b :=
        Nat.mul_le_mul_right _ (Nat.pow_le_pow_right (by norm_num) (Nat.le_succ ai))
      obtain ⟨st', hst', hnum, habove'⟩ :=
        ih ha (ai + 1) hst hc (by omega) (hlt.trans_le hstep) habove
      refine ⟨st', hst', hnum.trans ?_, habove'⟩
      rw [num_cons, had, pow_succ]
      ring
    · obtain ⟨st1, hst1, hnum1, habove1, hvalid1, hc1⟩ :=
        mulRound_num hb hb0 had had9 hst hc (by omega) hlt
      have hlt1 : num st1.work < 10 ^ (ai + 1) * num b := by
        calc num st1.work = num st.work + 10 ^ ai * (ad * num b) := hnum1
          _ < 10 ^ ai * num b + 10 ^ ai * (ad * num b) := by omega
          _ ≤ 10 ^ ai * num b + 10 ^ ai * (9 * num b) := by gcongr
          _ = 10 ^ (ai + 1) * num b := by rw [pow_succ]; ring
      obtain ⟨st', hst', hnum, habove'⟩ := ih ha (ai + 1) hvalid1 hc1 (by omega) hlt1 habove1
      refine ⟨st', ?_, hnum.trans ?_, habove'⟩
      · exact bind_eq_ok.mpr ⟨st1, hst1, hst'⟩
      · rw [hnum1, num_cons, pow_succ]
        ring

/-- The entries of `work` that the inner loop of `realMul` is about. -/
def mulIndices (b : List ℕ) : List ℕ → ℕ → List ℕ
  | [], _ => []
  | ad :: a, ai =>
    if ad = 0 then mulIndices b a (ai + 1)
    else (List.range b.length).map (ai + ·) ++ mulIndices b a (ai + 1)

lemma mulIndices_lt {b : List ℕ} (a : List ℕ) (ai : ℕ) {i : ℕ} (hi : i ∈ mulIndices b a ai) :
    i < ai + a.length + b.length := by
  induction a generalizing ai with
  | nil => simp [mulIndices] at hi
  | cons ad a ih =>
    rw [mulIndices] at hi
    rw [List.length_cons]
    split_ifs at hi
    · have := ih (ai + 1) hi
      omega
    · rcases List.mem_append.mp hi with hi | hi
      · obtain ⟨bi, hbi, rfl⟩ := List.mem_map.mp hi
        rw [List.mem_range] at hbi
        omega
      · have := ih (ai + 1) hi
        omega

namespace Canonical

variable {a b : Fixed}

lemma realMul_exactly (ha : a.Canonical) (hb : b.Canonical) (ha0 : a.val ≠ []) (hb0 : b.val ≠ [])
    (negative : Bool) :
    Exactly (signed negative (a.magnitude * b.magnitude)) (realMul a b negative) := by
  have hla : a.val.length ≤ fixedDigits := ha.digits_le
  have hlb : b.val.length ≤ fixedDigits := hb.digits_le
  have hzero : num MulState.start.work = 0 := num_replicate_zero _
  obtain ⟨st, hst, hnum, habove⟩ := mulDigits_num hb.digits_val (hb.exists_ne_zero hb0)
    ha.digits_val 0 MulState.start_valid rfl (by omega)
    (by rw [hzero, pow_zero, one_mul]; exact hb.num_pos hb0)
    (num_drop_eq_zero (by rw [hzero]; positivity))
  have hvalid := (ha.mulDigits_leading hb ha0 hb0 hst).1
  have hwork : num (mulWork st (a.scale + b.scale)) = num a.val * num b.val := by
    have hsplit := num_take_drop st.work (n := (mulWork st (a.scale + b.scale)).length) (by
      rw [mulWork, List.length_take]
      exact min_le_right _ _)
    rw [ha.mulWork_length hb hvalid, num_drop_mono habove (le_max_left _ _), Nat.mul_zero,
      Nat.add_zero] at hsplit
    rw [mulWork, ← hsplit, hnum, hzero, pow_zero, one_mul, Nat.zero_add]
  have hvalue : a.magnitude * b.magnitude =
      (num (mulWork st (a.scale + b.scale)) : ℚ) / 10 ^ (a.scale + b.scale) := by
    change ((num a.val : ℕ) : ℚ) / 10 ^ a.scale * (((num b.val : ℕ) : ℚ) / 10 ^ b.scale) = _
    rw [hwork, pow_add]
    push_cast
    rw [div_mul_div_comm]
  have hreal : realMul a b negative = (chop .rangeError (mulWork st (a.scale + b.scale))
      (a.scale + b.scale) >>= fun r => finish r.1 r.2 negative) := by
    rw [realMul_eq, hst]
    rfl
  rw [hreal, hvalue]
  exact chop_exactly (ha.mulWork_finishable hb ha0 hb0 hst) (fun _ => rfl) negative

end Canonical

/-! ### Operators -/

/-- The indices into the work arrays: `work[-1]` is none of them, and neither is one past the end. -/
structure InBounds (a b : Fixed) : Prop where
  add : Fits (addWork a b) (max a.scale b.scale)
  sub : Fits (subWork a b) (max a.scale b.scale)
  strip : 0 < absCmp a b → ∀ i ∈ stripIndices (max a.scale b.scale) (subWork a b)
    (subWork a b).length, 0 ≤ i ∧ i < (subWork a b).length
  mul : ∀ i ∈ mulIndices b.val a.val 0, i < 2 * fixedDigits

lemma exactly_zero : Exactly 0 (.ok zero) where
  ok _ := ⟨zero, rfl, Canonical.zero, by simp [value, magnitude, zero, truncateAt]⟩
  rangeError h := by simp [integerDigits] at h

namespace Canonical

variable {a b : Fixed}

lemma inBounds (ha : a.Canonical) (hb : b.Canonical) : InBounds a b where
  add := ha.addWork_fits hb
  sub := ha.subWork_fits hb
  strip hcmp := by
    have hlt := (ha.absCmp_compares hb).2.2.mp hcmp
    refine stripIndices_lt (ha.subWork_fits hb).scale_le (.inr ?_)
    have hnum := ha.num_subWork_eq hb hlt
    have hne : num (subWork a b) ≠ 0 := by
      intro h0
      rw [h0, Nat.cast_zero, zero_div] at hnum
      linarith
    rw [Ne, num_eq_zero_iff, List.all_eq_true] at hne
    push Not at hne
    obtain ⟨x, hx, hx0⟩ := hne
    obtain ⟨j, hj, rfl⟩ := List.mem_iff_getElem.mp hx
    exact ⟨j, hj, by simpa [List.getD_eq_getElem?_getD, hj] using hx0⟩
  mul i hi := by
    have hla : a.val.length ≤ fixedDigits := ha.digits_le
    have hlb : b.val.length ≤ fixedDigits := hb.digits_le
    have := mulIndices_lt a.val 0 hi
    omega

lemma add_exactly (ha : a.Canonical) (hb : b.Canonical) : Exactly (a.value + b.value) (a.add b) := by
  have hcmp := ha.absCmp_compares hb
  rw [value_eq_signed, value_eq_signed, Fixed.add]
  split_ifs with hsign heq hgt
  · have hsum := ha.realAdd_exactly hb a.negative
    rw [← hsign]
    convert hsum using 1
    cases a.negative <;> simp [signed, add_comm]
  · have hmag := hcmp.2.1.mp heq
    convert exactly_zero using 1
    rw [hmag]
    revert hsign
    cases a.negative <;> cases b.negative <;> simp [signed]
  · have hdiff := ha.realSub_exactly hb (hcmp.2.2.mp hgt) a.negative
    convert hdiff using 1
    revert hsign
    cases a.negative <;> cases b.negative <;> simp [signed] <;> ring
  · have hdiff := hb.realSub_exactly ha (hcmp.1.mp (by omega)) b.negative
    convert hdiff using 1
    revert hsign
    cases a.negative <;> cases b.negative <;> simp [signed] <;> ring

lemma sub_exactly (ha : a.Canonical) (hb : b.Canonical) : Exactly (a.value - b.value) (a.sub b) := by
  have hcmp := ha.absCmp_compares hb
  rw [value_eq_signed, value_eq_signed, Fixed.sub]
  split_ifs with hsign heq hgt
  · have hsum := ha.realAdd_exactly hb a.negative
    convert hsum using 1
    revert hsign
    cases a.negative <;> cases b.negative <;> simp [signed, sub_eq_add_neg, add_comm]
  · have hmag := hcmp.2.1.mp heq
    convert exactly_zero using 1
    rw [not_not.mp hsign, hmag, sub_self]
  · have hdiff := ha.realSub_exactly hb (hcmp.2.2.mp hgt) a.negative
    convert hdiff using 1
    rw [← not_not.mp hsign]
    cases a.negative <;> simp [signed, sub_eq_add_neg, add_comm]
  · have hdiff := hb.realSub_exactly ha (hcmp.1.mp (by omega)) (!a.negative)
    convert hdiff using 1
    rw [← not_not.mp hsign]
    cases a.negative <;> simp [signed, neg_add_eq_sub]

lemma mul_exactly (ha : a.Canonical) (hb : b.Canonical) : Exactly (a.value * b.value) (a.mul b) := by
  rw [Fixed.mul]
  split_ifs with h0 hsign
  · convert exactly_zero using 1
    rcases h0 with h0 | h0
    · have hnil : a.val = [] := List.eq_nil_of_length_eq_zero h0
      simp [value, magnitude, hnil]
    · have hnil : b.val = [] := List.eq_nil_of_length_eq_zero h0
      simp [value, magnitude, hnil]
  all_goals
    push Not at h0
    have ha0 : a.val ≠ [] := fun hnil => h0.1 (congrArg List.length hnil)
    have hb0 : b.val ≠ [] := fun hnil => h0.2 (congrArg List.length hnil)
  · convert ha.realMul_exactly hb ha0 hb0 false using 1
    rw [value_eq_signed, value_eq_signed, hsign]
    cases b.negative <;> simp [signed]
  · convert ha.realMul_exactly hb ha0 hb0 true using 1
    rw [value_eq_signed, value_eq_signed]
    revert hsign
    cases a.negative <;> cases b.negative <;> simp [signed]

end Canonical

end Fixed

open Fixed in
/-- Sums, differences and products are exact but for the decimal places there is no room for, and
the work arrays are large enough. -/
theorem fixed_arithmetic {a b : Fixed} (ha : a.Canonical) (hb : b.Canonical) :
    Exactly (a.value + b.value) (a.add b) ∧ Exactly (a.value - b.value) (a.sub b) ∧
      Exactly (a.value * b.value) (a.mul b) ∧ InBounds a b ∧ InBounds b a :=
  ⟨ha.add_exactly hb, ha.sub_exactly hb, ha.mul_exactly hb, ha.inBounds hb, hb.inBounds ha⟩

open Fixed in
theorem fixed_arithmetic_seven : Exactly ((ofULong 7).value * (ofULong 8).value)
    ((ofULong 7).mul (ofULong 8)) :=
  (fixed_arithmetic (ofULong_canonical 7) (ofULong_canonical 8)).2.2.1

end OmniORB
