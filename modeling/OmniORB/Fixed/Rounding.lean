import OmniORB.Fixed.Operations
import OmniORB.Library.Nearest

/-!
# Rounding

`round` and `truncate` give the nearest multiple of a power of ten. The loop of `truncate` that
leaves out zeros looks at a digit before it looks at the scale.
-/

namespace OmniORB

open Library

namespace Fixed

/-- Ten to the power of `-places`. -/
def unit (places : ℕ) : ℚ := 1 / 10 ^ places

lemma unit_pos (places : ℕ) : 0 < unit places := by
  unfold unit
  positivity

lemma increment_num {v : List ℕ} (hv : Digits v) : num (increment v) = num v + 1 := by
  fun_induction increment v with
  | case1 => rfl
  | case2 x v h =>
    obtain ⟨hx, -⟩ := digits_cons.mp hv
    have hdigit : octet (x + 1) = x + 1 := by
      unfold octet
      omega
    rw [num_cons, num_cons, hdigit]
    omega
  | case3 x v h ih =>
    obtain ⟨hx, hv⟩ := digits_cons.mp hv
    have hnine : x = 9 := by
      unfold octet at h
      omega
    rw [num_cons, num_cons, ih hv, hnine]
    omega

lemma increment_length_le (v : List ℕ) : (increment v).length ≤ v.length + 1 := by
  fun_induction increment v with
  | case1 => exact le_rfl
  | case2 x v h => exact Nat.le_succ _
  | case3 x v h ih => exact Nat.succ_le_succ ih

/-- The digit below a position tells whether half of it is reached. -/
lemma five_le_getD {w : List ℕ} (hw : Digits w) {cut : ℕ} (h0 : 0 < cut) (hcut : cut ≤ w.length) :
    5 ≤ w.getD (cut - 1) 0 ↔ 10 ^ cut ≤ 2 * (num w % 10 ^ cut) := by
  obtain ⟨n, rfl⟩ : ∃ n, cut = n + 1 := ⟨cut - 1, by omega⟩
  have hlen : (w.take (n + 1)).length = n + 1 := List.length_take_of_le hcut
  have hmod : num w % 10 ^ (n + 1) = num (w.take n) + 10 ^ n * w.getD n 0 := by
    have hlt := num_lt (hw.take (n + 1))
    have hsplit := num_take_drop w hcut
    have hlast := num_take_drop (w.take (n + 1)) (n := n) (by omega)
    have htop : (w.take (n + 1)).drop n = [w.getD n 0] := by
      rw [List.drop_take, Nat.add_sub_cancel_left, List.take_one, List.head?_drop,
        List.getD_eq_getElem?_getD, List.getElem?_eq_getElem hcut]
      rfl
    rw [htop, List.take_take, min_eq_left (Nat.le_succ n), num_cons, num_nil] at hlast
    rw [hlen] at hlt
    rw [hsplit, Nat.add_mul_mod_self_left, Nat.mod_eq_of_lt hlt, hlast]
    rfl
  have hlow := num_lt (hw.take n)
  rw [List.length_take_of_le (by omega)] at hlow
  rw [hmod, Nat.add_sub_cancel, pow_succ]
  generalize 10 ^ n = p at *
  generalize w.getD n 0 = d at *
  constructor
  · intro h
    have hle : p * 5 ≤ p * d := Nat.mul_le_mul_left p h
    omega
  · intro h
    by_contra hlt
    have hle : p * d ≤ p * 4 := Nat.mul_le_mul_left p (by omega)
    omega

/-! ### The digits before the cut -/

namespace Canonical

variable {f : Fixed}

/-- What is left of the number behind the cut. -/
lemma magnitude_cut (hf : f.Canonical) {places : ℕ} (h : places ≤ f.scale) :
    f.magnitude = num (f.val.drop (f.scale - places)) * unit places +
      ((num f.val % 10 ^ (f.scale - places) : ℕ) : ℚ) / 10 ^ (f.scale - places) * unit places := by
  have hscale : f.scale ≤ f.val.length := hf.scale_le
  have hpow : (10 : ℚ) ^ f.scale = 10 ^ (f.scale - places) * 10 ^ places := by
    rw [← pow_add, Nat.sub_add_cancel h]
  have hdiv : (num f.val : ℚ) = ((num f.val % 10 ^ (f.scale - places) : ℕ) : ℚ) +
      10 ^ (f.scale - places) * ((num f.val / 10 ^ (f.scale - places) : ℕ) : ℚ) := by
    exact_mod_cast (Nat.mod_add_div (num f.val) (10 ^ (f.scale - places))).symm
  rw [num_drop hf.digits_val (by omega), unit]
  change ((num f.val : ℕ) : ℚ) / 10 ^ f.scale = _
  rw [hpow]
  nth_rewrite 1 [hdiv]
  field_simp
  ring

/-- The number lies between two multiples. -/
lemma between (hf : f.Canonical) {places : ℕ} (h : places ≤ f.scale) :
    (num (f.val.drop (f.scale - places)) : ℚ) * unit places ≤ f.magnitude ∧
      f.magnitude < (num (f.val.drop (f.scale - places)) + 1) * unit places := by
  have hunit := unit_pos places
  have hrest : ((num f.val % 10 ^ (f.scale - places) : ℕ) : ℚ) / 10 ^ (f.scale - places) < 1 := by
    rw [div_lt_one (by positivity)]
    exact_mod_cast Nat.mod_lt (num f.val) (by positivity)
  rw [hf.magnitude_cut h]
  refine ⟨le_add_of_nonneg_right (by positivity), ?_⟩
  rw [add_mul, one_mul, add_lt_add_iff_left]
  exact mul_lt_of_lt_one_left hunit hrest

lemma half_iff (hf : f.Canonical) {places : ℕ} (h : places < f.scale) :
    5 ≤ f.val.getD (f.scale - places - 1) 0 ↔
      unit places ≤ 2 * (f.magnitude - num (f.val.drop (f.scale - places)) * unit places) := by
  have hscale : f.scale ≤ f.val.length := hf.scale_le
  have hunit := unit_pos places
  have hpos : (0 : ℚ) < 10 ^ (f.scale - places) := by positivity
  rw [five_le_getD hf.digits_val (by omega) (by omega), hf.magnitude_cut h.le, add_sub_cancel_left,
    ← mul_assoc, le_mul_iff_one_le_left hunit, mul_div_assoc', one_le_div hpos]
  exact_mod_cast Iff.rfl

/-! ### Results -/

/-- Cut off at a scale. -/
lemma ofOctets_cut (hf : f.Canonical) {places : ℕ} (h : places ≤ f.scale) :
    ∃ g, ofOctets (f.val.drop (f.scale - places)) places f.negative = .ok g ∧ g.Canonical ∧
      g.value = signed f.negative (num (f.val.drop (f.scale - places)) * unit places) := by
  have hscale : f.scale ≤ f.val.length := hf.scale_le
  have hdigits : f.val.length ≤ fixedDigits := hf.digits_le
  have hfin := hf.finishable_drop (show f.scale - places + places = f.scale by omega)
  obtain ⟨g, hg, hvalue⟩ := ofOctets_eq (w := f.val.drop (f.scale - places))
    (by rw [List.length_drop]; omega) hfin.scale_le f.negative
  refine ⟨g, hg, ofOctets_canonical hfin hg, ?_⟩
  rw [hvalue, unit, mul_one_div]

/-- One is added after the cut. There was a digit before it, so there is room for the carry. -/
lemma ofOctets_increment (hf : f.Canonical) {places : ℕ} (h : places < f.scale) :
    ∃ g, ofOctets (increment (f.val.drop (f.scale - places))) places f.negative = .ok g ∧
      g.Canonical ∧
      g.value = signed f.negative ((num (f.val.drop (f.scale - places)) + 1) * unit places) := by
  have hscale : f.scale ≤ f.val.length := hf.scale_le
  have hdigits : f.val.length ≤ fixedDigits := hf.digits_le
  have hfin := hf.finishable_drop (show f.scale - places + places = f.scale by omega)
  have hlen := increment_length_le (f.val.drop (f.scale - places))
  have hle := length_le_increment (f.val.drop (f.scale - places))
  have hinc : Finishable (increment (f.val.drop (f.scale - places))) places :=
    ⟨increment_digits hfin.digits, hfin.scale_le.trans hle,
      increment_leading hfin.digits hfin.leading⟩
  rw [List.length_drop] at hlen
  obtain ⟨g, hg, hvalue⟩ := ofOctets_eq (show _ ≤ fixedDigits by omega) hinc.scale_le f.negative
  refine ⟨g, hg, ofOctets_canonical hinc hg, ?_⟩
  rw [hvalue, unit, increment_num hfin.digits, mul_one_div]
  push_cast
  rfl

end Canonical

lemma copy_value (f : Fixed) : f.copy.value = f.value := rfl

lemma nearest_signed {u x y : ℚ} (h : Nearest u x y) (negative : Bool) :
    Nearest u (signed negative x) (signed negative y) := by
  cases negative with
  | false => exact h
  | true => exact h.neg

lemma nearestToZero_signed {u x y : ℚ} (h : NearestToZero u x y) (negative : Bool) :
    NearestToZero u (signed negative x) (signed negative y) := by
  cases negative with
  | false => exact h
  | true => exact h.neg

/-- The constructor only lowers the scale, and sets no limits. -/
lemma ofOctets_scale_le {w : List ℕ} {scale : ℕ} {negative : Bool} {g : Fixed}
    (h : ofOctets w scale negative = .ok g) : g.scale ≤ scale ∧ g.copy = g := by
  unfold ofOctets at h
  split_ifs at h
  rw [Except.ok.injEq] at h
  subst h
  obtain ⟨k, -, -, heq, -, -⟩ := stripFraction_spec w scale
  rw [heq]
  exact ⟨Nat.sub_le _ _, rfl⟩

lemma stripFraction_snd_le (w : List ℕ) (scale : ℕ) : (stripFraction w scale).2 ≤ scale := by
  obtain ⟨k, -, -, heq, -, -⟩ := stripFraction_spec w scale
  rw [heq]
  exact Nat.sub_le _ _

lemma truncate_eq_finish {f : Fixed} {places : ℕ} (h : places < f.scale)
    (hcut : f.scale - places ≤ f.digits) :
    f.truncate places = finish (f.val.drop (f.scale - places)) places f.negative := by
  rw [truncate, if_neg (not_le.mpr h)]
  dsimp only
  rw [if_neg (not_lt.mpr hcut)]
  rfl

namespace Canonical

variable {f : Fixed}

lemma multipleOf_unit (f : Fixed) {places : ℕ} (h : f.scale ≤ places) :
    MultipleOf (unit places) f.value := by
  have hmag : MultipleOf (unit places) f.magnitude := by
    refine ⟨num f.val * 10 ^ (places - f.scale), ?_⟩
    have hpow : (10 : ℚ) ^ places = 10 ^ (places - f.scale) * 10 ^ f.scale := by
      rw [← pow_add, Nat.sub_add_cancel h]
    change ((num f.val : ℕ) : ℚ) / 10 ^ f.scale = _
    rw [unit, hpow]
    push_cast
    field_simp
  rw [value_eq_signed]
  cases f.negative with
  | false => exact hmag
  | true => exact hmag.neg

lemma round_nearest (hf : f.Canonical) (places : ℕ) :
    ∃ g, f.round places = .ok g ∧ g.Canonical ∧ Nearest (unit places) f.value g.value ∧
      g.round places = .ok g := by
  by_cases h : f.scale ≤ places
  · refine ⟨f.copy, by rw [Fixed.round, if_pos h], hf.copy, ?_, ?_⟩
    · exact .refl (multipleOf_unit f h)
    · exact if_pos h
  rw [not_le] at h
  have hcut : ¬f.digits < f.scale - places := by
    have := hf.scale_le
    omega
  obtain ⟨hlow, hhigh⟩ := hf.between h.le
  have hhalf := hf.half_iff h
  have hround : f.round places =
      if 5 ≤ f.val.getD (f.scale - places - 1) 0 then
        ofOctets (increment (f.val.drop (f.scale - places))) places f.negative
      else ofOctets (f.val.drop (f.scale - places)) places f.negative := by
    rw [Fixed.round, if_neg (not_le.mpr h)]
    dsimp only
    rw [if_neg hcut]
  rw [hround, value_eq_signed f]
  have hagain : ∀ {w : List ℕ} {g : Fixed}, ofOctets w places f.negative = .ok g →
      g.round places = .ok g := by
    intro w g hg
    obtain ⟨hle, hcopy⟩ := ofOctets_scale_le hg
    rw [Fixed.round, if_pos hle, hcopy]
  split_ifs with hfive
  · obtain ⟨g, hg, hcanonical, hvalue⟩ := hf.ofOctets_increment h
    refine ⟨g, hg, hcanonical, ?_, hagain hg⟩
    rw [hvalue]
    exact nearest_signed (nearest_of_le (unit_pos places) hhigh (hhalf.mp hfive)) _
  · obtain ⟨g, hg, hcanonical, hvalue⟩ := hf.ofOctets_cut h.le
    refine ⟨g, hg, hcanonical, ?_, hagain hg⟩
    rw [hvalue]
    exact nearest_signed (nearest_of_lt (unit_pos places) hlow hhigh
      (not_le.mp fun hle => hfive (hhalf.mpr hle))) _

lemma truncate_nearest (hf : f.Canonical) (places : ℕ) :
    ∃ g, f.truncate places = .ok g ∧ g.Canonical ∧ NearestToZero (unit places) f.value g.value ∧
      g.truncate places = .ok g := by
  by_cases h : f.scale ≤ places
  · refine ⟨f.copy, by rw [Fixed.truncate, if_pos h], hf.copy, ?_, ?_⟩
    · exact .refl (multipleOf_unit f h)
    · exact if_pos h
  rw [not_le] at h
  have hscale : f.scale ≤ f.val.length := hf.scale_le
  have hdigits : f.val.length ≤ fixedDigits := hf.digits_le
  obtain ⟨hlow, hhigh⟩ := hf.between h.le
  have hfin := hf.finishable_drop (show f.scale - places + places = f.scale by omega)
  obtain ⟨g, hg, hvalue⟩ := finish_eq (w := f.val.drop (f.scale - places))
    (by rw [List.length_drop]; omega) hfin.scale_le f.negative
  obtain ⟨hle, hcopy⟩ := ofOctets_scale_le hg
  rw [truncate_eq_finish h (by unfold digits; omega)]
  refine ⟨g, hg, finish_canonical hfin hg, ?_, ?_⟩
  · rw [hvalue, value_eq_signed f, ← mul_one_div]
    exact nearestToZero_signed (nearestToZero_of_between (unit_pos places) hlow hhigh) _
  · rw [Fixed.truncate, if_pos (hle.trans (stripFraction_snd_le _ _)), hcopy]

end Canonical

/-! ### Array indices -/

/-- The entries of the copied digits that the carry loop of `round` writes, from `i` on. -/
def carryIndices : List ℕ → ℕ → List ℕ
  | [], i => [i]
  | x :: v, i => i :: if octet (x + 1) ≤ 9 then [] else carryIndices v (i + 1)

/-- The entries of `pd_val` that the loop of `truncate` looks at: the digit comes first, and then
the scale. -/
def stripReads (val : List ℕ) : ℕ → ℕ → List ℕ
  | 0, cut => [cut]
  | newscale + 1, cut =>
    cut :: if val.getD cut 0 = 0 then stripReads val newscale (cut + 1) else []

def truncateIndices (f : Fixed) (scale : ℕ) : List ℕ :=
  if f.scale ≤ scale then [] else stripReads f.val scale (f.scale - scale)

lemma carryIndices_le {v : List ℕ} {i j : ℕ} (h : j ∈ carryIndices v i) : j ≤ i + v.length := by
  induction v generalizing i with
  | nil => exact (List.mem_singleton.mp h).le
  | cons x v ih =>
    rw [carryIndices, List.mem_cons] at h
    rw [List.length_cons]
    rcases h with rfl | h
    · exact Nat.le_add_right _ _
    · split_ifs at h with hnine
      · simp at h
      · have := ih h
        omega

/-- The loop runs past the digits where there are 31 of them and it meets no other digit than
zero. -/
lemma stripReads_lt_iff {val : List ℕ} (newscale cut : ℕ) (h : cut + newscale ≤ fixedDigits) :
    (∀ i ∈ stripReads val newscale cut, i < fixedDigits) ↔
      ¬(cut + newscale = fixedDigits ∧
        ∀ i, cut ≤ i → i < cut + newscale → val.getD i 0 = 0) := by
  induction newscale generalizing cut with
  | zero =>
    simp only [stripReads, List.mem_singleton, forall_eq, Nat.add_zero]
    constructor
    · rintro hlt ⟨heq, -⟩
      omega
    · intro hne
      by_contra hge
      exact hne ⟨by omega, fun i h1 h2 => by omega⟩
  | succ newscale ih =>
    have hstep := ih (cut + 1) (by omega)
    rw [stripReads, List.forall_mem_cons, and_iff_right (show cut < fixedDigits by omega)]
    split_ifs with h0
    · rw [hstep, not_iff_not, show cut + 1 + newscale = cut + (newscale + 1) by omega]
      refine and_congr_right fun _ => ⟨fun hall i h1 h2 => ?_, fun hall i h1 h2 =>
        hall i (by omega) h2⟩
      rcases h1.eq_or_lt with rfl | h1
      · exact h0
      · exact hall i h1 h2
    · refine iff_of_true (by simp) fun hall => h0 (hall.2 cut le_rfl (by omega))

/-- All digits after the decimal point are in use, and none of those that are to stay is other than
zero. -/
def ReadsPast (f : Fixed) (scale : ℕ) : Prop :=
  f.scale = fixedDigits ∧ scale < fixedDigits ∧ |f.value| < unit scale

lemma Canonical.truncateIndices_lt_iff {f : Fixed} (hf : f.Canonical) (scale : ℕ) :
    (∀ i ∈ truncateIndices f scale, i < fixedDigits) ↔ ¬ReadsPast f scale := by
  have hscale : f.scale ≤ f.val.length := hf.scale_le
  have hdigits : f.val.length ≤ fixedDigits := hf.digits_le
  rw [truncateIndices]
  split_ifs with h
  · refine iff_of_true (by simp) ?_
    rintro ⟨h1, h2, -⟩
    omega
  rw [not_le] at h
  rw [stripReads_lt_iff scale _ (by omega), not_iff_not, Nat.sub_add_cancel h.le, ReadsPast,
    abs_value]
  obtain ⟨hlow, hhigh⟩ := hf.between h.le
  have hunit := unit_pos scale
  refine and_congr_right fun hfull => ?_
  have hzero : (∀ i, f.scale - scale ≤ i → i < f.scale → f.val.getD i 0 = 0) ↔
      num (f.val.drop (f.scale - scale)) = 0 := by
    rw [num_eq_zero_iff, List.all_eq_true]
    constructor
    · intro hall x hx
      obtain ⟨j, hj, rfl⟩ := List.mem_iff_getElem.mp hx
      rw [List.length_drop] at hj
      have := hall (f.scale - scale + j) (Nat.le_add_right _ _) (by omega)
      rw [List.getD_eq_getElem?_getD, List.getElem?_eq_getElem (by omega)] at this
      simpa using this
    · intro hall i h1 h2
      have := hall f.val[i] (List.mem_iff_getElem.mpr
        ⟨i - (f.scale - scale), by rw [List.length_drop]; omega, by
          rw [List.getElem_drop]
          congr 1
          omega⟩)
      rw [List.getD_eq_getElem?_getD, List.getElem?_eq_getElem (by omega)]
      simpa using this
  rw [hzero, and_iff_right (by omega : scale < fixedDigits)]
  constructor
  · intro h0
    rwa [h0, Nat.cast_zero, zero_add, one_mul] at hhigh
  · intro hlt
    by_contra hne
    have hone : (1 : ℚ) ≤ num (f.val.drop (f.scale - scale)) := by
      exact_mod_cast Nat.one_le_iff_ne_zero.mpr hne
    have hle : 1 * unit scale ≤ num (f.val.drop (f.scale - scale)) * unit scale := by gcongr
    linarith

/-- Rounding and truncation to a scale, with the accesses to the digits. -/
structure RoundsAt (f : Fixed) (scale : ℕ) : Prop where
  round : ∃ g, f.round scale = .ok g ∧ g.Canonical ∧ Nearest (unit scale) f.value g.value ∧
    g.round scale = .ok g
  truncate : ∃ g, f.truncate scale = .ok g ∧ g.Canonical ∧
    NearestToZero (unit scale) f.value g.value ∧ g.truncate scale = .ok g
  read : scale < f.scale → f.scale - scale - 1 < fixedDigits
  carry : scale < f.scale → ∀ i ∈ carryIndices (f.val.drop (f.scale - scale)) (f.scale - scale),
    i < fixedDigits + 1
  strip : ∀ i ∈ truncateIndices f scale, i < fixedDigits

end Fixed

open Fixed in
/-- Rounding is correct, but the loop of `truncate` looks behind the array where it runs through all
31 digits. -/
theorem fixed_round_iff {f : Fixed} (hf : f.Canonical) (scale : ℕ) :
    RoundsAt f scale ↔ ¬ReadsPast f scale := by
  rw [← hf.truncateIndices_lt_iff]
  constructor
  · exact fun h => h.strip
  intro hstrip
  have hscale : f.scale ≤ f.val.length := hf.scale_le
  have hdigits : f.val.length ≤ fixedDigits := hf.digits_le
  refine ⟨hf.round_nearest scale, hf.truncate_nearest scale, fun h => by omega, ?_, hstrip⟩
  intro h i hi
  have hle := carryIndices_le hi
  rw [List.length_drop] at hle
  omega

open Fixed in
theorem fixed_round_seven : RoundsAt (ofULong 7) 0 :=
  (fixed_round_iff (ofULong_canonical 7) 0).mpr fun h => absurd h.1 (by decide)

open Fixed in
/-- The least positive number, truncated to a whole number. -/
theorem fixed_truncate_least :
    ¬RoundsAt ⟨1 :: List.replicate 30 0, 31, false, 0, 0⟩ 0 := by
  intro h
  have hlast := h.strip 31 (by decide)
  exact absurd hlast (by decide)

end OmniORB
