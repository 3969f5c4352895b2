import OmniORB.Fixed.Division
import OmniORB.Idl.FixedPoint

/-!
# The result of a division

Where `realDiv` puts the decimal point and how many digits it keeps.
-/

namespace OmniORB

open Library

namespace Fixed

/-! ### Numbers that are cut off -/

/-- The digits before the decimal point. -/
def integerDigits (x : ℚ) : ℕ := (Nat.digits 10 ⌊|x|⌋₊).length

/-- Cut off, towards zero, behind a number of decimal places. -/
def truncateAt (places : ℕ) (x : ℚ) : ℚ :=
  (if x < 0 then -1 else 1) * ((⌊|x| * 10 ^ places⌋₊ : ℚ) / 10 ^ places)

/-- The result of an operation whose exact result is `x`: the digits before the point are too many,
or else it is cut off, and exact unless all the digits are used. -/
def Truncated (x : ℚ) (r : Except FixedExn Fixed) : Prop :=
  (r = .error .rangeError ∧ fixedDigits < integerDigits x) ∨
    ∃ f places, r = .ok f ∧ f.value = truncateAt places x ∧
      (f.value = x ∨ integerDigits x + places = fixedDigits)

/-- The digits fit into 30, and so do those after the point. -/
def Representable (x : ℚ) : Prop :=
  ∃ (m : ℤ) (s : ℕ), m.natAbs < 10 ^ 30 ∧ s ≤ 30 ∧ x = m / 10 ^ s

/-- A number with its sign. -/
def signed (negative : Bool) (x : ℚ) : ℚ := if negative then -x else x

@[simp] lemma signed_zero (negative : Bool) : signed negative 0 = 0 := by
  cases negative <;> simp [signed]

lemma signed_inj {negative : Bool} {x y : ℚ} : signed negative x = signed negative y ↔ x = y := by
  cases negative <;> simp [signed]

@[simp] lemma integerDigits_signed (negative : Bool) (x : ℚ) :
    integerDigits (signed negative x) = integerDigits x := by
  cases negative <;> simp [signed, integerDigits]

lemma truncateAt_signed (negative : Bool) (places : ℕ) {x : ℚ} (hx : 0 ≤ x) :
    truncateAt places (signed negative x) = signed negative ((⌊x * 10 ^ places⌋₊ : ℚ) / 10 ^ places) := by
  cases negative with
  | false => rw [truncateAt, signed, if_neg (by simpa [signed] using hx)]; simp [signed, abs_of_nonneg hx]
  | true =>
    rcases hx.eq_or_lt with rfl | hpos
    · simp [truncateAt]
    · rw [truncateAt, signed, if_pos rfl, if_pos (neg_lt_zero.mpr hpos), abs_neg, abs_of_pos hpos,
        signed, if_pos rfl, neg_one_mul]

lemma integerDigits_eq {x : ℚ} (hx : 0 ≤ x) {u : ℕ} (hlt : x < 10 ^ u)
    (hle : u ≠ 0 → 10 ^ (u - 1) ≤ x) : integerDigits x = u := by
  have hupper : (Nat.digits 10 ⌊x⌋₊).length ≤ u := by
    rw [Nat.digits_length_le_iff (by norm_num), Nat.floor_lt hx]
    exact_mod_cast hlt
  rw [integerDigits, abs_of_nonneg hx]
  refine le_antisymm hupper ?_
  by_cases hu : u = 0
  · rw [hu]
    exact Nat.zero_le _
  · have hlower : u - 1 < (Nat.digits 10 ⌊x⌋₊).length := by
      rw [Nat.lt_digits_length_iff (by norm_num), Nat.le_floor_iff hx]
      exact_mod_cast hle hu
    omega

lemma integerDigits_eq_zero {x : ℚ} (hx : 0 ≤ x) (hlt : x < 1) : integerDigits x = 0 :=
  integerDigits_eq hx (by simpa using hlt) (fun h => absurd rfl h)

/-! ### The end of the division -/

lemma stripFraction_num (w : List ℕ) (scale : ℕ) :
    (num (stripFraction w scale).1 : ℚ) / 10 ^ (stripFraction w scale).2 = num w / 10 ^ scale := by
  fun_induction stripFraction w scale with
  | case1 v scale ih =>
    rw [ih, num_cons, pow_succ]
    push_cast
    field_simp
    ring
  | case2 v scale h => rfl

/-- The sign of a number without digits does not matter. -/
lemma value_mk (val : List ℕ) (scale : ℕ) (negative : Bool) :
    (⟨val, scale, if val = [] then false else negative, 0, 0⟩ : Fixed).value =
      signed negative (num val / 10 ^ scale) := by
  by_cases hval : val = []
  · subst hval
    simp [value, magnitude]
  · simp only [if_neg hval]
    rfl

/-- At most 31 digits are kept as they are. -/
lemma ofOctets_eq {w : List ℕ} {scale : ℕ} (hlen : w.length ≤ fixedDigits) (hscale : scale ≤ w.length)
    (negative : Bool) :
    ∃ f, ofOctets w scale negative = .ok f ∧ f.value = signed negative (num w / 10 ^ scale) := by
  rw [ofOctets, if_neg (by omega)]
  exact ⟨_, rfl, by rw [value_mk, stripFraction_num]⟩

lemma finish_eq {w : List ℕ} {scale : ℕ} (hlen : w.length ≤ fixedDigits) (hscale : scale ≤ w.length)
    (negative : Bool) :
    ∃ f, finish w scale negative = .ok f ∧ f.value = signed negative (num w / 10 ^ scale) := by
  obtain ⟨k, hks, hkw, heq, -, -⟩ := stripFraction_spec w scale
  have hlens : (stripFraction w scale).1.length ≤ fixedDigits := by
    rw [heq, List.length_drop]
    omega
  have hscales : (stripFraction w scale).2 ≤ (stripFraction w scale).1.length := by
    rw [heq, List.length_drop]
    omega
  have h := ofOctets_eq hlens hscales negative
  rwa [stripFraction_num] at h

/-- Zeros are left out. -/
lemma finish_zeros (n : ℕ) (negative : Bool) :
    ∃ f, finish (List.replicate n 0) n negative = .ok f ∧ f.value = 0 := by
  have hstrip : stripFraction (List.replicate n 0) n = ([], 0) := by
    induction n with
    | zero => rfl
    | succ n ih => rw [List.replicate_succ, stripFraction, ih]
  rw [finish, hstrip]
  exact ⟨_, rfl, by simp [value, magnitude, stripFraction]⟩

/-- The end of `realDiv`, from the digits of the result in `work` on. -/
def place (digits : ℕ) (work : List ℕ) (unscale : ℕ) (negative : Bool) : Except FixedExn Fixed :=
  let r := stripFraction work unscale
  if fixedDigits < r.2 then .error .rangeError
  else
    let digits := max digits r.2
    if r.1.length < digits then .error .overrun
    else finish (r.1.take digits).reverse (digits - r.2) negative

/-- The initial zeros before the point go. -/
lemma stripFraction_replicate (z u : ℕ) {w : List ℕ} (hw : u = 0 ∨ w.head? ≠ some 0) :
    stripFraction (List.replicate z 0 ++ w) (z + u) = (w, u) := by
  induction z with
  | zero =>
    rw [List.replicate_zero, List.nil_append, Nat.zero_add]
    unfold stripFraction
    split
    · simp at hw
    · rfl
  | succ z ih =>
    rw [List.replicate_succ, List.cons_append, Nat.succ_add, stripFraction, ih]

/-- Digits that do not begin with a zero. -/
lemma le_num_reverse {q : List ℕ} (hne : q ≠ []) (hhead : q.head? ≠ some 0) :
    10 ^ (q.length - 1) ≤ num q.reverse := by
  cases q with
  | nil => exact absurd rfl hne
  | cons x l =>
    have hx : 1 ≤ x := Nat.one_le_iff_ne_zero.mpr (by simpa using hhead)
    rw [List.length_cons, Nat.add_sub_cancel, List.reverse_cons, num_append, List.length_reverse,
      num_cons, num_nil]
    have hmul : 10 ^ l.length * 1 ≤ 10 ^ l.length * (x + 10 * 0) := Nat.mul_le_mul_left _ hx
    omega

/-- The digits before the point of a number that is cut off. -/
lemma integerDigits_of_cut {x : ℚ} (hx : 0 ≤ x) {u : ℕ} {q : List ℕ} (hq : Digits q) (hne : q ≠ [])
    (hhead : q.head? ≠ some 0) (hcut : Cut 10 x (num q.reverse) ((u : ℤ) - q.length)) :
    integerDigits x = u := by
  obtain ⟨hlow, hhigh⟩ := hcut
  have hpos : (0 : ℚ) < 10 ^ ((u : ℤ) - q.length) := by positivity
  have hQ : (10 : ℚ) ^ (q.length - 1) ≤ num q.reverse := by exact_mod_cast le_num_reverse hne hhead
  have hQ' : (num q.reverse : ℚ) + 1 ≤ 10 ^ q.length := by
    have hlt := num_lt (digits_reverse.mpr hq)
    rw [List.length_reverse] at hlt
    exact_mod_cast hlt
  have hk : 0 < q.length := List.length_pos_iff.mpr hne
  refine integerDigits_eq hx ?_ ?_
  · calc x < ((num q.reverse : ℚ) + 1) * 10 ^ ((u : ℤ) - q.length) := hhigh
      _ ≤ 10 ^ q.length * 10 ^ ((u : ℤ) - q.length) := by gcongr
      _ = 10 ^ u := by
        rw [← zpow_natCast, ← zpow_add₀ (by norm_num), add_sub_cancel, zpow_natCast]
  · intro hu
    calc (10 : ℚ) ^ (u - 1) = 10 ^ (q.length - 1) * 10 ^ ((u : ℤ) - q.length) := by
          rw [← zpow_natCast, ← zpow_natCast, ← zpow_add₀ (by norm_num)]
          congr 1
          omega
      _ ≤ num q.reverse * 10 ^ ((u : ℤ) - q.length) := by gcongr
      _ ≤ x := hlow

/-- Digits that are all that is left, or 31 of them. -/
lemma place_truncated {x : ℚ} (hx : 0 ≤ x) {z u m : ℕ} {q : List ℕ} (hq : Digits q) (hne : q ≠ [])
    (hhead : q.head? ≠ some 0) (hlen : q.length ≤ fixedDigits)
    (hm : u ≤ fixedDigits → u ≤ q.length + m)
    (hcut : Cut 10 x (num q.reverse) ((u : ℤ) - q.length))
    (hend : fixedDigits ≤ q.length ∨ x = num q.reverse * 10 ^ ((u : ℤ) - q.length))
    (negative : Bool) :
    Truncated (signed negative x)
      (place q.length (List.replicate z 0 ++ (q ++ List.replicate m 0)) (z + u) negative) := by
  have hinteger := integerDigits_of_cut hx hq hne hhead hcut
  have hstrip := stripFraction_replicate z u (w := q ++ List.replicate m 0)
    (.inr (by rw [List.head?_append_of_ne_nil _ hne]; exact hhead))
  rw [place, hstrip]
  dsimp only
  by_cases hu : fixedDigits < u
  · rw [if_pos hu]
    exact .inl ⟨rfl, by rwa [integerDigits_signed, hinteger]⟩
  have hroom := hm (not_lt.mp hu)
  rw [if_neg hu, if_neg (by rw [List.length_append, List.length_replicate]; omega)]
  have htake : (q ++ List.replicate m 0).take (max q.length u) =
      q ++ List.replicate (u - q.length) 0 := by
    rw [List.take_append, List.take_of_length_le (le_max_left _ _), List.take_replicate]
    congr 2
    omega
  have hnum : num (q ++ List.replicate (u - q.length) 0).reverse =
      10 ^ (u - q.length) * num q.reverse := by
    rw [List.reverse_append, List.reverse_replicate, num_append, num_replicate_zero,
      List.length_replicate, Nat.zero_add]
  have hlength : (q ++ List.replicate (u - q.length) 0).reverse.length = max q.length u := by
    rw [List.length_reverse, List.length_append, List.length_replicate]
    omega
  have hkept : max q.length u ≤ fixedDigits := max_le hlen (not_lt.mp hu)
  obtain ⟨f, hf, hvalue⟩ := finish_eq (hlength.trans_le hkept)
    ((Nat.sub_le (max q.length u) u).trans_eq hlength.symm) negative
  rw [htake, hf]
  refine .inr ⟨f, q.length - u, rfl, ?_⟩
  rw [hvalue, hnum, truncateAt_signed negative _ hx, signed_inj, signed_inj, integerDigits_signed,
    hinteger]
  rcases le_or_gt u q.length with hle | hgt
  · -- there is something after the point
    have hexp : (u : ℤ) - q.length = -((q.length - u : ℕ) : ℤ) := by omega
    have hfloor : ⌊x * 10 ^ (q.length - u)⌋₊ = num q.reverse := by
      rw [hexp] at hcut
      exact_mod_cast hcut.floor_eq (by norm_num)
    have hscale : max q.length u - u = q.length - u := by omega
    rw [hfloor, hscale, Nat.sub_eq_zero_of_le hle, pow_zero, one_mul]
    refine ⟨rfl, hend.symm.imp (fun h => ?_) (fun h => by omega)⟩
    rw [h, hexp, zpow_neg, zpow_natCast, div_eq_mul_inv]
  · have hexp : (u : ℤ) - q.length = ((u - q.length : ℕ) : ℤ) := by omega
    have hexact : x = ((10 ^ (u - q.length) * num q.reverse : ℕ) : ℚ) := by
      rw [hend.resolve_left (by omega), hexp, zpow_natCast]
      push_cast
      ring
    have hscale : max q.length u - u = 0 := by omega
    rw [hscale, Nat.sub_eq_zero_of_le hgt.le, pow_zero, div_one, mul_one, div_one, hexact,
      Nat.floor_natCast]
    exact ⟨rfl, .inl rfl⟩

/-- Zeros after the point, and then the digits of a quotient below one tenth. -/
lemma place_small {x : ℚ} (hx : 0 ≤ x) {s m : ℕ} {q : List ℕ}
    (hcount : q ≠ [] → s + q.length ≤ fixedDigits) (hlt : x < 1)
    (hcut : Cut 10 x (num q.reverse) (-((s + q.length : ℕ) : ℤ)))
    (hend : fixedDigits ≤ s + q.length ∨ x = num q.reverse / 10 ^ (s + q.length))
    (negative : Bool) :
    Truncated (signed negative x)
      (place (s + q.length) (List.replicate s 0 ++ q ++ List.replicate m 0) 0 negative) := by
  have hstrip := stripFraction_replicate 0 0 (w := List.replicate s 0 ++ q ++ List.replicate m 0)
    (.inl rfl)
  rw [List.replicate_zero, List.nil_append] at hstrip
  have hlength : (List.replicate s 0 ++ q).length = s + q.length := by
    rw [List.length_append, List.length_replicate]
  rw [place, hstrip]
  dsimp only
  rw [if_neg (Nat.not_lt_zero _), Nat.max_zero, Nat.sub_zero,
    if_neg (by rw [List.length_append, hlength]; omega), List.take_left' hlength]
  have hnum : num (List.replicate s 0 ++ q).reverse = num q.reverse := by
    rw [List.reverse_append, List.reverse_replicate, num_append, num_replicate_zero, Nat.mul_zero,
      Nat.add_zero]
  rcases le_or_gt (s + q.length) fixedDigits with hle | hgt
  · have hfloor : ⌊x * 10 ^ (s + q.length)⌋₊ = num q.reverse := by
      exact_mod_cast hcut.floor_eq (by norm_num)
    obtain ⟨f, hf, hvalue⟩ := finish_eq (w := (List.replicate s 0 ++ q).reverse)
      (by rw [List.length_reverse, hlength]; exact hle)
      (by rw [List.length_reverse, hlength]) negative
    rw [hf]
    refine .inr ⟨f, s + q.length, rfl, ?_⟩
    rw [hvalue, hnum, truncateAt_signed negative _ hx, signed_inj, signed_inj, integerDigits_signed,
      integerDigits_eq_zero hx hlt, hfloor, Nat.zero_add]
    exact ⟨rfl, hend.symm.imp Eq.symm fun h => le_antisymm hle h⟩
  · -- nothing is left but zeros
    have hnil : q = [] := by
      by_contra hne
      exact absurd (hcount hne) (not_le.mpr hgt)
    subst hnil
    rw [List.length_nil, Nat.add_zero] at hcut hgt
    have hfloor : ⌊x * 10 ^ fixedDigits⌋₊ = 0 := by
      have hcoarse := hcut.coarser (by norm_num) (s - fixedDigits)
      rw [List.reverse_nil, num_nil, Nat.zero_div,
        show -((s : ℕ) : ℤ) + ((s - fixedDigits : ℕ) : ℤ) = -(fixedDigits : ℤ) by omega] at hcoarse
      exact_mod_cast hcoarse.floor_eq (by norm_num)
    obtain ⟨f, hf, hvalue⟩ := finish_zeros s negative
    rw [List.append_nil, List.reverse_replicate, List.length_nil, Nat.add_zero, hf]
    refine .inr ⟨f, fixedDigits, rfl, ?_⟩
    rw [hvalue, truncateAt_signed negative _ hx, hfloor, integerDigits_signed,
      integerDigits_eq_zero hx hlt, Nat.cast_zero, zero_div, signed_zero]
    exact ⟨rfl, .inr (Nat.zero_add _)⟩

/-- A zero after the point that was not counted: the last digit is dropped. -/
lemma place_dropped {x : ℚ} (hx : 0 ≤ x) (hlt : x < 1) {m : ℕ} {q : List ℕ} (hq : Digits q)
    (hne : q ≠ []) (hlen : q.length ≤ fixedDigits)
    (hcut : Cut 10 x (num q.reverse) (-((q.length + 1 : ℕ) : ℤ)))
    (hend : fixedDigits ≤ q.length ∨ x = num q.reverse / 10 ^ (q.length + 1))
    (hneeded : ∀ n : ℕ, x ≠ n / 10 ^ q.length) (negative : Bool) :
    Truncated (signed negative x) (place q.length (0 :: q ++ List.replicate m 0) 0 negative) ↔
      ¬∃ n : ℕ, x * 10 ^ fixedDigits = n := by
  have hstrip := stripFraction_replicate 0 0 (w := 0 :: q ++ List.replicate m 0) (.inl rfl)
  rw [List.replicate_zero, List.nil_append] at hstrip
  obtain ⟨l, d, rfl⟩ : ∃ l d, q = l ++ [d] := ⟨_, _, (List.dropLast_append_getLast hne).symm⟩
  have htake : (0 :: (l ++ [d]) ++ List.replicate m 0).take (l ++ [d]).length = 0 :: l := by
    rw [List.length_append, List.length_singleton, List.cons_append, List.take_succ_cons,
      List.append_assoc, List.take_left]
  have hd : d ≤ 9 := (digits_cons.mp (digits_append.mp hq).2).1
  have hnum : num (0 :: l).reverse = num (l ++ [d]).reverse / 10 ^ 1 := by
    rw [List.reverse_cons, num_append, num_cons, num_nil, List.reverse_append,
      List.reverse_singleton, List.singleton_append, num_cons]
    omega
  have hlength : (0 :: l).reverse.length = (l ++ [d]).length := by simp
  obtain ⟨f, hf, hvalue⟩ := finish_eq (hlength.trans_le hlen) hlength.ge negative
  rw [place, hstrip]
  dsimp only
  rw [if_neg (Nat.not_lt_zero _), Nat.max_zero, Nat.sub_zero,
    if_neg (by rw [List.length_append, List.length_cons]; omega), htake, hf]
  have hfloor : ⌊x * 10 ^ (l ++ [d]).length⌋₊ = num (0 :: l).reverse := by
    have hcoarse := hcut.coarser (by norm_num) 1
    rw [← hnum, Nat.cast_add, Nat.cast_one, neg_add, neg_add_cancel_right] at hcoarse
    exact_mod_cast hcoarse.floor_eq (by norm_num)
  have hzero : integerDigits (signed negative x) = 0 := by
    rw [integerDigits_signed, integerDigits_eq_zero hx hlt]
  constructor
  · rintro (⟨hr, -⟩ | ⟨g, places, hg, hcutoff, hend⟩) ⟨n, hn⟩
    · cases hr
    · rw [Except.ok.injEq] at hg
      subst hg
      have hne : f.value ≠ signed negative x := by
        rw [hvalue, Ne, signed_inj]
        exact (hneeded _).symm
      have hplaces := hend.resolve_left hne
      rw [hzero, Nat.zero_add] at hplaces
      rw [hplaces, truncateAt_signed negative _ hx, hn, Nat.floor_natCast, ← hn,
        mul_div_cancel_right₀ _ (by positivity)] at hcutoff
      exact hne hcutoff
  · intro hn
    have hfull : (l ++ [d]).length = fixedDigits := by
      refine le_antisymm hlen (not_lt.mp fun hlt => hn ?_)
      obtain ⟨k, hk⟩ : ∃ k, fixedDigits = (l ++ [d]).length + 1 + k := Nat.exists_eq_add_of_le hlt
      refine ⟨num (l ++ [d]).reverse * 10 ^ k, ?_⟩
      rw [hend.resolve_left (not_le.mpr hlt), hk, pow_add _ _ k, ← mul_assoc,
        div_mul_cancel₀ _ (by positivity)]
      push_cast
      rfl
    refine .inr ⟨f, fixedDigits, rfl, ?_, .inr (by rw [hzero, Nat.zero_add])⟩
    rw [hvalue, truncateAt_signed negative _ hx, ← hfloor, hfull]

/-! ### The operands -/

lemma num_significant (v : List ℕ) : num (significant v) = num v := by
  have hzero : num (v.rtakeWhile fun d => decide (d = 0)) = 0 := by
    rw [num_eq_zero_iff, List.all_eq_true]
    exact fun d hd => List.mem_rtakeWhile_imp (p := fun d => decide (d = 0)) hd
  conv_rhs => rw [← List.rdropWhile_append_rtakeWhile (p := fun d => decide (d = 0)) (l := v)]
  rw [num_append, hzero, Nat.mul_zero, Nat.add_zero, significant]

namespace Canonical

variable {a : Fixed}

lemma digits_significant (ha : a.Canonical) : Digits (significant a.val) :=
  ha.digits_val.of_sublist (List.rdropWhile_prefix _ _).sublist

lemma length_significant (ha : a.Canonical) : (significant a.val).length ≤ fixedDigits :=
  (List.rdropWhile_prefix _ _).length_le.trans ha.digits_le

lemma num_pos (ha : a.Canonical) (h0 : a.val ≠ []) : 0 < num a.val := by
  have hpos := ha.magnitude_pos h0
  by_contra hzero
  have hnum : num a.val = 0 := Nat.eq_zero_of_not_pos hzero
  rw [magnitude] at hpos
  change 0 < ((num a.val : ℕ) : ℚ) / 10 ^ a.scale at hpos
  rw [hnum, Nat.cast_zero, zero_div] at hpos
  exact lt_irrefl 0 hpos

/-- The first digit counts. -/
lemma le_num_significant (ha : a.Canonical) (h0 : a.val ≠ []) :
    10 ^ ((significant a.val).length - 1) ≤ num (significant a.val) := by
  have hne : significant a.val ≠ [] := by
    intro hnil
    have hpos := ha.num_pos h0
    rw [← num_significant, hnil] at hpos
    exact lt_irrefl 0 hpos
  have hhead : (significant a.val).reverse.head? ≠ some 0 := by
    rw [List.head?_reverse]
    exact NoLeadingZero.rdropWhile a.val (m := 0) (List.length_pos_iff.mpr hne)
  have h := le_num_reverse (by simpa using hne) hhead
  rwa [List.reverse_reverse, List.length_reverse] at h

end Canonical

/-! ### Long division of the operands -/

/-- The position of the point in the quotient. -/
def unscale (a b : Fixed) : ℤ :=
  ((significant a.val).length - a.scale : ℤ) - ((significant b.val).length - b.scale) + 1

/-- `running`, with the digits of the dividend at its top. -/
def running (a : Fixed) : List ℕ :=
  List.replicate (2 * fixedDigits - (significant a.val).length) 0 ++ significant a.val

section Operands

variable {a b : Fixed}

lemma realDiv_eq_place {negative : Bool} {digits : ℕ} {q : List ℕ}
    (h : divDigits (significant b.val) (2 * fixedDigits) (-unscale a b).toNat (running a) =
      .ok (digits, q)) :
    realDiv a b negative = place digits (List.replicate (-unscale a b).toNat 0 ++ q ++
      List.replicate (2 * fixedDigits - (-unscale a b).toNat - q.length) 0) (unscale a b).toNat
        negative := by
  rw [unscale, running] at h
  rw [realDiv, h]
  rfl

lemma num_running (a : Fixed) :
    num (running a) = num a.val * 10 ^ (2 * fixedDigits - (significant a.val).length) := by
  rw [running, num_append, num_replicate_zero, List.length_replicate, num_significant, Nat.zero_add,
    Nat.mul_comm]

lemma digits_running (ha : a.Canonical) : Digits (running a) :=
  digits_append.mpr ⟨digits_replicate_zero _, ha.digits_significant⟩

lemma length_running (ha : a.Canonical) : (running a).length = 2 * fixedDigits := by
  have hlen := ha.length_significant
  rw [running, List.length_append, List.length_replicate]
  omega

/-- The quotient has one digit before its first position at the most. -/
lemma running_lt (ha : a.Canonical) (hb : b.Canonical) (hb0 : b.val ≠ []) :
    num (running a) <
      num (significant b.val) * 10 ^ (2 * fixedDigits + 1 - (significant b.val).length) := by
  have hlen := hb.length_significant
  have hlt := num_lt (digits_running ha)
  rw [length_running ha] at hlt
  calc num (running a) < 10 ^ (2 * fixedDigits) := hlt
    _ ≤ 10 ^ ((significant b.val).length - 1) *
          10 ^ (2 * fixedDigits + 1 - (significant b.val).length) := by
        rw [← pow_add]
        exact Nat.pow_le_pow_right (by norm_num) (by omega)
    _ ≤ num (significant b.val) * 10 ^ (2 * fixedDigits + 1 - (significant b.val).length) :=
        Nat.mul_le_mul_right _ (hb.le_num_significant hb0)

/-- One of the first two digits is not zero. -/
lemma le_running (ha : a.Canonical) (ha0 : a.val ≠ []) (hb : b.Canonical) :
    num (significant b.val) * 10 ^ (2 * fixedDigits - 1 - (significant b.val).length) ≤
      num (running a) := by
  have hlen := hb.length_significant
  have hlena := ha.length_significant
  have hlt := num_lt hb.digits_significant
  calc num (significant b.val) * 10 ^ (2 * fixedDigits - 1 - (significant b.val).length)
      ≤ 10 ^ (significant b.val).length *
          10 ^ (2 * fixedDigits - 1 - (significant b.val).length) := Nat.mul_le_mul_right _ hlt.le
    _ ≤ 10 ^ ((significant a.val).length - 1) *
          10 ^ (2 * fixedDigits - (significant a.val).length) := by
        rw [← pow_add, ← pow_add]
        exact Nat.pow_le_pow_right (by norm_num) (by unfold fixedDigits at *; omega)
    _ ≤ num a.val * 10 ^ (2 * fixedDigits - (significant a.val).length) := by
        rw [← num_significant a.val]
        exact Nat.mul_le_mul_right _ (ha.le_num_significant ha0)
    _ = num (running a) := (num_running a).symm

/-- Aligned at their first digits, the dividend is less than the divisor. -/
lemma fraction_significant_lt_iff (ha : a.Canonical) (hb : b.Canonical) :
    fraction (significant a.val).reverse < fraction (significant b.val).reverse ↔
      num (running a) <
        num (significant b.val) * 10 ^ (2 * fixedDigits - (significant b.val).length) := by
  have hscale (v : List ℕ) (hv : v.length ≤ fixedDigits) :
      fraction v.reverse * 10 ^ (2 * fixedDigits) = ((num v * 10 ^ (2 * fixedDigits - v.length) : ℕ) : ℚ) := by
    have hsplit : 2 * fixedDigits = v.length + (2 * fixedDigits - v.length) := by omega
    rw [fraction_reverse_num]
    conv_lhs => rw [hsplit, pow_add, ← mul_assoc, div_mul_cancel₀ _ (by positivity)]
    push_cast
    rfl
  rw [num_running, ← num_significant a.val, ← mul_lt_mul_iff_left₀
    (show (0 : ℚ) < 10 ^ (2 * fixedDigits) by positivity), hscale _ ha.length_significant,
    hscale _ hb.length_significant, Nat.cast_lt]

lemma magnitude_div_eq (ha : a.Canonical) :
    a.magnitude / b.magnitude = (num (running a) : ℚ) / num (significant b.val) *
      10 ^ ((b.scale : ℤ) - a.scale + (significant a.val).length - (2 * fixedDigits : ℕ)) := by
  have hlen := ha.length_significant
  have hsplit : (10 : ℚ) ^ (2 * fixedDigits) = 10 ^ (significant a.val).length *
      10 ^ (2 * fixedDigits - (significant a.val).length) := by
    rw [← pow_add]
    congr 1
    omega
  change ((num a.val : ℕ) : ℚ) / 10 ^ a.scale / (((num b.val : ℕ) : ℚ) / 10 ^ b.scale) = _
  rw [num_running, num_significant, zpow_sub₀ (by norm_num), zpow_add₀ (by norm_num),
    zpow_sub₀ (by norm_num), zpow_natCast, zpow_natCast, zpow_natCast, zpow_natCast, hsplit]
  push_cast
  field_simp

/-- What the loop of `realDiv` finds is the quotient, cut off. -/
lemma cut_of_divided (ha : a.Canonical) (hb : b.Canonical) (hb0 : b.val ≠ []) {count e : ℕ}
    {q : List ℕ} (h : Divided (significant b.val) (2 * fixedDigits) (num (running a)) count q e) :
    Cut 10 (a.magnitude / b.magnitude) (num q.reverse) (unscale a b - q.length) ∧
      (fixedDigits ≤ count ∨
        a.magnitude / b.magnitude = num q.reverse * 10 ^ (unscale a b - q.length)) ∧
      (q ≠ [] → ∀ n : ℕ, a.magnitude / b.magnitude ≠ n * 10 ^ (unscale a b - q.length + 1)) := by
  have hb0' : 0 < num (significant b.val) := by
    rw [num_significant]
    exact hb.num_pos hb0
  have hlen := hb.length_significant
  have hpos := h.position
  have hexp : (e : ℤ) + ((b.scale : ℤ) - a.scale + (significant a.val).length -
      (2 * fixedDigits : ℕ)) = unscale a b - q.length := by
    unfold unscale fixedDigits at *
    omega
  have hten : (10 : ℚ) ≠ 0 := by norm_num
  rw [magnitude_div_eq ha, ← hexp]
  refine ⟨?_, ?_, ?_⟩
  · exact_mod_cast (h.division.cut (by norm_num) hb0').shift (by norm_num) _
  · refine h.ends.imp_right fun hrest => ?_
    rw [h.division.exact hb0' hrest, zpow_add₀ hten, zpow_natCast, mul_assoc]
    rfl
  · intro hq n heq
    refine h.division.not_exact hb0' hq n ?_
    rw [add_right_comm, zpow_add₀ hten, ← mul_assoc] at heq
    have hne : (10 : ℚ) ^ ((b.scale : ℤ) - a.scale + (significant a.val).length -
      (2 * fixedDigits : ℕ)) ≠ 0 := zpow_ne_zero _ hten
    exact_mod_cast mul_right_cancel₀ hne heq

/-- The first digits of a quotient that is not small. -/
lemma leading_of_division {r d e k : ℕ} {q : List ℕ} (hd : 0 < d) (h : LongDivision 10 r d q e)
    (hle : d * 10 ^ (e + k) ≤ r) : 10 ^ k ≤ num q.reverse := by
  rw [num, h.quotient, Nat.le_div_iff_mul_le (Nat.mul_pos hd (by positivity))]
  calc 10 ^ k * (d * 10 ^ e) = d * 10 ^ (e + k) := by ring
    _ ≤ r := hle

lemma head_ne_zero_of_le {q : List ℕ} (hq : Digits q) (h : 10 ^ (q.length - 1) ≤ num q.reverse) :
    q.head? ≠ some 0 := by
  cases q with
  | nil => simp
  | cons x l =>
    intro hx
    obtain rfl : x = 0 := by simpa using hx
    have hlt := num_lt (digits_reverse.mpr (digits_cons.mp hq).2)
    rw [List.reverse_cons, num_append, show num [0] = 0 from rfl, List.length_cons,
      Nat.add_sub_cancel, Nat.mul_zero, Nat.add_zero] at h
    rw [List.length_reverse] at hlt
    exact absurd h (not_le.mpr hlt)

/-- The first digit of the quotient is zero. -/
def BeginsWithZero (a b : Fixed) : Prop :=
  fraction (significant a.val).reverse < fraction (significant b.val).reverse

lemma num_significant_pos (hb : b.Canonical) (hb0 : b.val ≠ []) : 0 < num (significant b.val) := by
  rw [num_significant]
  exact hb.num_pos hb0

lemma magnitude_div_nonneg (a b : Fixed) : 0 ≤ a.magnitude / b.magnitude :=
  div_nonneg a.magnitude_nonneg b.magnitude_nonneg

lemma running_ne_zero (ha : a.Canonical) (ha0 : a.val ≠ []) : num (running a) ≠ 0 := by
  rw [num_running]
  exact (Nat.mul_pos (ha.num_pos ha0) (by positivity)).ne'

lemma magnitude_div_lt (ha : a.Canonical) (hb : b.Canonical) (hb0 : b.val ≠ []) :
    a.magnitude / b.magnitude < 10 ^ unscale a b := by
  have hlen := hb.length_significant
  have hB : (0 : ℚ) < num (significant b.val) := by exact_mod_cast num_significant_pos hb hb0
  have hlt : (num (running a) : ℚ) <
      10 ^ (2 * fixedDigits + 1 - (significant b.val).length) * num (significant b.val) := by
    have h := running_lt ha hb hb0
    rw [Nat.mul_comm] at h
    exact_mod_cast h
  have hexp : unscale a b = ((2 * fixedDigits + 1 - (significant b.val).length : ℕ) : ℤ) +
      ((b.scale : ℤ) - a.scale + (significant a.val).length - (2 * fixedDigits : ℕ)) := by
    unfold unscale
    omega
  rw [magnitude_div_eq ha, hexp, zpow_add₀ (by norm_num), zpow_natCast]
  exact mul_lt_mul_of_pos_right ((div_lt_iff₀ hB).mpr hlt) (zpow_pos (by norm_num) _)

lemma magnitude_div_lt_one (ha : a.Canonical) (hb : b.Canonical) (hb0 : b.val ≠ [])
    (h : unscale a b ≤ 0) : a.magnitude / b.magnitude < 1 :=
  (magnitude_div_lt ha hb hb0).trans_le (zpow_le_one_of_nonpos₀ (by norm_num) h)

/-- A quotient below one tenth: zeros are written first. -/
lemma realDiv_small (ha : a.Canonical) (hb : b.Canonical) (hb0 : b.val ≠ [])
    (hneg : unscale a b < 0) (negative : Bool) :
    Truncated (signed negative (a.magnitude / b.magnitude)) (realDiv a b negative) := by
  have hlenb := hb.length_significant
  obtain ⟨q, e, hq, hdivided⟩ := divDigits_started hb.digits_significant (num_significant_pos hb hb0)
    (2 * fixedDigits) (-unscale a b).toNat (digits_running ha) (length_running ha).ge (by omega)
    (running_lt ha hb hb0) (.inl (by omega))
  obtain ⟨hcut, hend, -⟩ := cut_of_divided ha hb hb0 hdivided
  have hexp : unscale a b - q.length = -(((-unscale a b).toNat + q.length : ℕ) : ℤ) := by omega
  rw [hexp] at hcut hend
  rw [zpow_neg, zpow_natCast, ← div_eq_mul_inv] at hend
  rw [realDiv_eq_place hq, Int.toNat_of_nonpos hneg.le]
  exact place_small (magnitude_div_nonneg a b) hdivided.count_le
    (magnitude_div_lt_one ha hb hb0 hneg.le) hcut hend negative

/-- Nothing remains before there are enough digits: the divisor went into what there was. -/
lemma le_of_divided {bv q : List ℕ} {n r count e : ℕ} (h : Divided bv n r count q e) (hr : r ≠ 0)
    (hcount : count < fixedDigits) : num bv * 10 ^ e ≤ r :=
  Nat.le_of_dvd (Nat.pos_of_ne_zero hr)
    (Nat.dvd_of_mod_eq_zero (h.ends.resolve_left (not_le.mpr hcount)))

/-- The first digit of the quotient counts. -/
lemma realDiv_first (ha : a.Canonical) (ha0 : a.val ≠ []) (hb : b.Canonical) (hb0 : b.val ≠ [])
    (hnonneg : 0 ≤ unscale a b) (hfirst : ¬BeginsWithZero a b) (negative : Bool) :
    Truncated (signed negative (a.magnitude / b.magnitude)) (realDiv a b negative) := by
  have hlenb := hb.length_significant
  rw [BeginsWithZero, fraction_significant_lt_iff ha hb, not_lt] at hfirst
  obtain ⟨q, e, hq, hdivided⟩ := divDigits_started hb.digits_significant (num_significant_pos hb hb0)
    (2 * fixedDigits) 0 (digits_running ha) (length_running ha).ge (by omega)
    (running_lt ha hb hb0) (.inr hfirst)
  obtain ⟨hcut, hend, -⟩ := cut_of_divided ha hb hb0 hdivided
  have hpos := hdivided.position
  have hdigits : Digits q := divDigits_digits hq
  rw [Nat.zero_add] at hq hdivided hend
  have hne : q ≠ [] := by
    rintro rfl
    have hle := le_of_divided hdivided (running_ne_zero ha ha0) (by decide)
    rw [List.length_nil, Nat.add_zero] at hpos
    rw [hpos] at hle
    exact absurd (running_lt ha hb hb0) (not_lt.mpr hle)
  have hleading : q.head? ≠ some 0 := by
    refine head_ne_zero_of_le hdigits
      (leading_of_division (num_significant_pos hb hb0) hdivided.division ?_)
    have hk : 0 < q.length := List.length_pos_iff.mpr hne
    rwa [show e + (q.length - 1) = 2 * fixedDigits - (significant b.val).length by omega]
  have hlen : q.length ≤ fixedDigits := hdivided.count_le hne
  obtain ⟨u, hu⟩ : ∃ u : ℕ, unscale a b = u := ⟨_, (Int.toNat_of_nonneg hnonneg).symm⟩
  have hzero : (-unscale a b).toNat = 0 := by omega
  rw [← hzero] at hq
  rw [realDiv_eq_place hq, hzero, List.append_assoc, hu, Int.toNat_natCast]
  rw [hu] at hcut hend
  rw [← Nat.zero_add u]
  refine place_truncated (magnitude_div_nonneg a b) hdigits hne hleading hlen (fun h => ?_) hcut hend
    negative
  omega

lemma num_reverse_zero_cons (q : List ℕ) : num (0 :: q).reverse = num q.reverse := by
  rw [List.reverse_cons, num_append, show num [0] = 0 from rfl, Nat.mul_zero, Nat.add_zero]

/-- The loop finds a zero first, and then the digits that count. -/
lemma exists_second (ha : a.Canonical) (ha0 : a.val ≠ []) (hb : b.Canonical) (hb0 : b.val ≠ [])
    (hfirst : BeginsWithZero a b) :
    ∃ q e, divDigits (significant b.val) (2 * fixedDigits) 0 (running a) = .ok (q.length, 0 :: q) ∧
      Divided (significant b.val) (2 * fixedDigits) (num (running a)) q.length (0 :: q) e ∧
        q ≠ [] ∧ q.head? ≠ some 0 := by
  have hlenb := hb.length_significant
  rw [BeginsWithZero, fraction_significant_lt_iff ha hb] at hfirst
  have hle := le_running ha ha0 hb
  obtain ⟨q, e, hq, hdivided⟩ := divDigits_initial_zero hb.digits_significant
    (num_significant_pos hb hb0) (2 * fixedDigits - 1) (digits_running ha) (length_running ha).ge
    (by unfold fixedDigits at *; omega) hfirst hle
  change divDigits _ (2 * fixedDigits) 0 _ = _ at hq
  change Divided _ (2 * fixedDigits) _ _ _ _ at hdivided
  have hpos := hdivided.position
  rw [List.length_cons] at hpos
  have hne : q ≠ [] := by
    rintro rfl
    have hle' := le_of_divided hdivided (running_ne_zero ha ha0) (by decide)
    rw [List.length_nil] at hpos
    rw [show e = 2 * fixedDigits - (significant b.val).length by omega] at hle'
    exact absurd hfirst (not_lt.mpr hle')
  refine ⟨q, e, hq, hdivided, hne, ?_⟩
  have hk : 0 < q.length := List.length_pos_iff.mpr hne
  refine head_ne_zero_of_le (digits_cons.mp (divDigits_digits hq)).2 ?_
  rw [← num_reverse_zero_cons]
  refine leading_of_division (num_significant_pos hb hb0) hdivided.division ?_
  rwa [show e + (q.length - 1) = 2 * fixedDigits - 1 - (significant b.val).length by omega]

/-- The first digit of the quotient is left out. -/
lemma realDiv_second (ha : a.Canonical) (ha0 : a.val ≠ []) (hb : b.Canonical) (hb0 : b.val ≠ [])
    (hpos : 0 < unscale a b) (hfirst : BeginsWithZero a b) (negative : Bool) :
    Truncated (signed negative (a.magnitude / b.magnitude)) (realDiv a b negative) := by
  obtain ⟨q, e, hq, hdivided, hne, hleading⟩ := exists_second ha ha0 hb hb0 hfirst
  obtain ⟨hcut, hend, -⟩ := cut_of_divided ha hb hb0 hdivided
  have hdigits : Digits q := (digits_cons.mp (divDigits_digits hq)).2
  have hlen : q.length ≤ fixedDigits := hdivided.count_le (List.cons_ne_nil 0 q)
  obtain ⟨u, hu⟩ : ∃ u : ℕ, unscale a b = ((1 + u : ℕ) : ℤ) :=
    ⟨(unscale a b).toNat - 1, by omega⟩
  have hzero : (-unscale a b).toNat = 0 := by omega
  have hexp : unscale a b - (0 :: q).length = (u : ℤ) - q.length := by
    rw [hu, List.length_cons]
    omega
  rw [hexp, num_reverse_zero_cons] at hcut hend
  rw [← hzero] at hq
  rw [realDiv_eq_place hq, hzero, hu, Int.toNat_natCast]
  refine place_truncated (z := 1) (magnitude_div_nonneg a b) hdigits hne hleading hlen (fun h => ?_)
    hcut hend negative
  rw [List.length_cons]
  omega

/-- Where the zero stands right after the point it is kept, and the last digit goes for it. -/
lemma realDiv_dropped (ha : a.Canonical) (ha0 : a.val ≠ []) (hb : b.Canonical) (hb0 : b.val ≠ [])
    (hu : unscale a b = 0) (hfirst : BeginsWithZero a b) (negative : Bool) :
    Truncated (signed negative (a.magnitude / b.magnitude)) (realDiv a b negative) ↔
      ¬∃ n : ℕ, a.magnitude / b.magnitude * 10 ^ fixedDigits = n := by
  obtain ⟨q, e, hq, hdivided, hne, -⟩ := exists_second ha ha0 hb hb0 hfirst
  obtain ⟨hcut, hend, hneeded⟩ := cut_of_divided ha hb hb0 hdivided
  have hdigits : Digits q := (digits_cons.mp (divDigits_digits hq)).2
  have hlen : q.length ≤ fixedDigits := hdivided.count_le (List.cons_ne_nil 0 q)
  have hexp : unscale a b - (0 :: q).length = -((q.length + 1 : ℕ) : ℤ) := by
    rw [hu, List.length_cons, zero_sub]
  have hprev : -((q.length + 1 : ℕ) : ℤ) + 1 = -(q.length : ℤ) := by omega
  rw [hexp] at hcut hend hneeded
  rw [num_reverse_zero_cons] at hcut hend
  rw [zpow_neg, zpow_natCast, ← div_eq_mul_inv] at hend
  rw [hprev, zpow_neg, zpow_natCast] at hneeded
  have hzero : (-unscale a b).toNat = 0 := by omega
  rw [← hzero] at hq
  rw [realDiv_eq_place hq, hu]
  exact place_dropped (magnitude_div_nonneg a b) (magnitude_div_lt_one ha hb hb0 hu.le) hdigits hne
    hlen hcut hend (fun n => by rw [div_eq_mul_inv]; exact hneeded (List.cons_ne_nil 0 q) n) negative

/-- The quotient is less than one tenth, and its digits begin with the zero after the point. -/
def LeadingZero (a b : Fixed) : Prop := unscale a b = 0 ∧ BeginsWithZero a b

lemma realDiv_truncated_iff (ha : a.Canonical) (ha0 : a.val ≠ []) (hb : b.Canonical)
    (hb0 : b.val ≠ []) (negative : Bool) :
    Truncated (signed negative (a.magnitude / b.magnitude)) (realDiv a b negative) ↔
      ¬(LeadingZero a b ∧ ∃ n : ℕ, a.magnitude / b.magnitude * 10 ^ fixedDigits = n) := by
  rcases lt_trichotomy (unscale a b) 0 with hneg | hzero | hpos
  · exact iff_of_true (realDiv_small ha hb hb0 hneg negative) fun h => hneg.ne h.1.1
  · by_cases hfirst : BeginsWithZero a b
    · rw [realDiv_dropped ha ha0 hb hb0 hzero hfirst negative]
      exact not_congr ⟨fun h => ⟨⟨hzero, hfirst⟩, h⟩, fun h => h.2⟩
    · exact iff_of_true (realDiv_first ha ha0 hb hb0 hzero.ge hfirst negative) fun h => hfirst h.1.2
  · refine iff_of_true ?_ fun h => hpos.ne' h.1.1
    by_cases hfirst : BeginsWithZero a b
    · exact realDiv_second ha ha0 hb hb0 hpos hfirst negative
    · exact realDiv_first ha ha0 hb hb0 hpos.le hfirst negative

/-- The last digit of the quotient is dropped: it is less than one tenth with its first zero right
after the point, and it ends. -/
def DropsDigit (a b : Fixed) : Prop :=
  a.val ≠ [] ∧ LeadingZero a b ∧ ∃ n : ℕ, |a.value / b.value| * 10 ^ fixedDigits = n

lemma value_eq_signed (a : Fixed) : a.value = signed a.negative a.magnitude := rfl

lemma abs_value (f : Fixed) : |f.value| = f.magnitude := by
  have h := f.magnitude_nonneg
  rw [value_eq_signed]
  cases f.negative <;> simp [signed, abs_of_nonneg h]

lemma value_div_eq (a b : Fixed) :
    a.value / b.value = signed (decide (a.negative ≠ b.negative)) (a.magnitude / b.magnitude) := by
  rw [value_eq_signed, value_eq_signed]
  cases a.negative <;> cases b.negative <;> simp [signed, neg_div, div_neg]

lemma abs_value_div (a b : Fixed) : |a.value / b.value| = a.magnitude / b.magnitude := by
  have hx := magnitude_div_nonneg a b
  rw [value_div_eq]
  cases decide (a.negative ≠ b.negative) <;> simp [signed, abs_of_nonneg hx]

lemma div_eq_realDiv (ha0 : a.val ≠ []) (hb0 : b.val ≠ []) :
    a.div b = realDiv a b (decide (a.negative ≠ b.negative)) := by
  have hda : a.digits ≠ 0 := fun h => ha0 (List.eq_nil_of_length_eq_zero h)
  have hdb : b.digits ≠ 0 := fun h => hb0 (List.eq_nil_of_length_eq_zero h)
  rw [div, if_neg hdb, if_neg hda]
  by_cases h : a.negative = b.negative
  · rw [if_pos h, decide_eq_false (not_not.mpr h)]
  · rw [if_neg h, decide_eq_true h]

/-- Zero is exact. -/
lemma truncated_zero : Truncated 0 (.ok zero) := by
  have hzero : zero.value = 0 := by simp [value, magnitude, zero]
  exact .inr ⟨zero, 0, rfl, by simp [hzero, truncateAt], .inl hzero⟩

lemma div_truncated_iff (ha : a.Canonical) (hb : b.Canonical) (hb0 : b.val ≠ []) :
    Truncated (a.value / b.value) (a.div b) ↔ ¬DropsDigit a b := by
  by_cases ha0 : a.val = []
  · have hvalue : a.value = 0 := by
      simp [value, magnitude, ha0]
    have hda : a.digits = 0 := by rw [digits, ha0, List.length_nil]
    have hdb : b.digits ≠ 0 := fun h => hb0 (List.eq_nil_of_length_eq_zero h)
    have hdiv : a.div b = .ok zero := by rw [div, if_neg hdb, if_pos hda]
    rw [hvalue, zero_div, hdiv]
    exact iff_of_true truncated_zero fun h => h.1 ha0
  · rw [div_eq_realDiv ha0 hb0, value_div_eq, realDiv_truncated_iff ha ha0 hb hb0, DropsDigit,
      abs_value_div, and_iff_right ha0]

/-! ### Quotients that are exact -/

/-- Where there are decimal places enough nothing is cut off. -/
lemma truncateAt_eq {m : ℤ} {s places : ℕ} (h : s ≤ places) :
    truncateAt places ((m : ℚ) / 10 ^ s) = m / 10 ^ s := by
  obtain ⟨k, rfl⟩ := Nat.exists_eq_add_of_le h
  have hshift : |(m : ℚ) / 10 ^ s| * 10 ^ (s + k) = ((m.natAbs * 10 ^ k : ℕ) : ℚ) := by
    rw [abs_div, abs_of_pos (show (0 : ℚ) < 10 ^ s by positivity), pow_add, ← mul_assoc,
      div_mul_cancel₀ _ (by positivity), ← Int.cast_abs, ← Nat.cast_natAbs]
    push_cast
    rfl
  have hback : ((m.natAbs * 10 ^ k : ℕ) : ℚ) / 10 ^ (s + k) = |(m : ℚ) / 10 ^ s| := by
    rw [← hshift, mul_div_cancel_right₀ _ (by positivity)]
  rw [truncateAt, hshift, Nat.floor_natCast, hback]
  split_ifs with hneg
  · rw [abs_of_neg hneg, neg_one_mul, neg_neg]
  · rw [abs_of_nonneg (not_lt.mp hneg), one_mul]

/-- A number of 30 digits, at most 30 of them after the point, is not cut off. -/
lemma exact_of_truncated {x : ℚ} {r : Except FixedExn Fixed} (h : Truncated x r)
    (hx : Representable x) : ∃ f, r = .ok f ∧ f.value = x := by
  obtain ⟨m, s, hm, hs, rfl⟩ := hx
  have hfloor : ⌊|(m : ℚ) / 10 ^ s|⌋₊ = m.natAbs / 10 ^ s := by
    have habs : |(m : ℚ) / 10 ^ s| = (m.natAbs : ℚ) / ((10 ^ s : ℕ) : ℚ) := by
      rw [abs_div, abs_of_pos (show (0 : ℚ) < 10 ^ s by positivity), Nat.cast_natAbs, Int.cast_abs]
      push_cast
      rfl
    rw [habs, Nat.floor_div_eq_div]
  rcases h with ⟨-, hrange⟩ | ⟨f, places, hf, hvalue, hend⟩
  · rw [integerDigits, hfloor, Nat.lt_digits_length_iff (by norm_num)] at hrange
    have hle : m.natAbs / 10 ^ s ≤ m.natAbs := Nat.div_le_self _ _
    have hpow : 10 ^ 30 < 10 ^ fixedDigits := by decide
    omega
  · refine ⟨f, hf, ?_⟩
    rcases hend with hexact | hfull
    · exact hexact
    rw [hvalue]
    refine truncateAt_eq (not_lt.mp fun hlt => ?_)
    -- there are too many digits before the point for so few after it
    have hlow : 10 ^ (integerDigits ((m : ℚ) / 10 ^ s) - 1) ≤ m.natAbs / 10 ^ s := by
      rw [← Nat.lt_digits_length_iff (by norm_num), ← hfloor, ← integerDigits]
      unfold fixedDigits at hfull
      omega
    rw [Nat.le_div_iff_mul_le (by positivity), ← pow_add] at hlow
    have hexp := (Nat.pow_lt_pow_iff_right (by norm_num)).mp (hlow.trans_lt hm)
    unfold fixedDigits at hfull
    omega

end Operands

end Fixed

open Fixed in
/-- Division is exact as far as the digits go, in the compiler as at run time, unless the last digit
of the quotient is dropped. -/
theorem fixed_div_iff {a b : Fixed} (ha : a.Canonical) (hb : b.Canonical) (h0 : b.value ≠ 0) :
    (Truncated (a.value / b.value) (a.div b) ∧
      (Representable (a.value / b.value) → ∃ f, a.div b = .ok f ∧ f.value = a.value / b.value) ∧
      IDLFixed.div (.ofFixed a) (.ofFixed b) = (a.div b).map .ofFixed) ↔ ¬DropsDigit a b := by
  have hb0 : b.val ≠ [] := by
    intro hnil
    rw [value, magnitude, hnil] at h0
    simp at h0
  rw [← div_truncated_iff ha hb hb0]
  constructor
  · exact fun h => h.1
  · exact fun h => ⟨h, exact_of_truncated h, IDLFixed.div_eq a b⟩

open Fixed in
theorem fixed_div_eighth :
    Truncated ((ofULong 1).value / (ofULong 8).value) ((ofULong 1).div (ofULong 8)) :=
  ((fixed_div_iff (ofULong_canonical 1) (ofULong_canonical 8) (by decide +kernel)).mpr
    fun h => absurd h.2.1.1 (by decide)).1

open Fixed in
/-- One eightieth is 0.0125. -/
theorem fixed_div_drops : (ofULong 1).div (ofULong 80) = .ok ⟨[2, 1, 0], 3, false, 0, 0⟩ ∧
    ¬Truncated ((ofULong 1).value / (ofULong 80).value) ((ofULong 1).div (ofULong 80)) := by
  have hdiv : (ofULong 1).div (ofULong 80) = .ok ⟨[2, 1, 0], 3, false, 0, 0⟩ := by decide +kernel
  refine ⟨hdiv, ?_⟩
  rw [div_truncated_iff (ofULong_canonical 1) (ofULong_canonical 80) (by decide), not_not]
  have hone : (ofULong 1).value = 1 := by decide +kernel
  have heighty : (ofULong 80).value = 80 := by decide +kernel
  have hbegins : fraction (significant (ofULong 1).val).reverse <
      fraction (significant (ofULong 80).val).reverse := by decide +kernel
  refine ⟨by decide, ⟨by decide, hbegins⟩, 125 * 10 ^ 27, ?_⟩
  rw [hone, heighty, fixedDigits]
  norm_num

end OmniORB
