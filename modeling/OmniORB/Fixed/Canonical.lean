import OmniORB.Library.Decimal
import OmniORB.Fixed.Numbers
import OmniORB.Library.Scan

/-!
# The canonical form of fixed point numbers

Each operation of `Fixed` gives a number in canonical form.
-/

namespace OmniORB

open Library

/-- There are no more than 31 digits, no zeros at either end that the number does not need, and zero
is positive. The limits, too, allow for no more than 31 digits. -/
structure Fixed.Canonical (f : Fixed) : Prop where
  digits_val : Digits f.val
  scale_le : f.scale ≤ f.digits
  digits_le : f.digits ≤ fixedDigits
  trailing : 0 < f.scale → f.val.head? ≠ some 0
  leading : NoLeadingZero f.scale f.val
  zero_positive : f.val = [] → f.negative = false
  idlDigits_le : f.idlDigits ≤ fixedDigits

namespace Fixed

lemma octet_of_le {v : ℤ} (h0 : 0 ≤ v) (h9 : v ≤ 255) : (octet v : ℤ) = v := by
  unfold octet
  omega

lemma octet_le {v : ℤ} (h0 : 0 ≤ v) (h9 : v ≤ 9) : octet v ≤ 9 := by
  unfold octet
  omega

lemma Canonical.zero : Canonical zero where
  digits_val := digits_nil
  scale_le := le_rfl
  digits_le := Nat.zero_le _
  trailing h := absurd h (lt_irrefl 0)
  leading := NoLeadingZero.nil
  zero_positive _ := rfl
  idlDigits_le := Nat.zero_le _

/-- Other limits do not matter to the digits. -/
lemma Canonical.with_limits {f : Fixed} (h : f.Canonical) {d : ℕ} (hd : d ≤ fixedDigits) (s : ℕ) :
    Canonical { f with idlDigits := d, idlScale := s } :=
  ⟨h.digits_val, h.scale_le, h.digits_le, h.trailing, h.leading, h.zero_positive, hd⟩

lemma Canonical.copy {f : Fixed} (h : f.Canonical) : f.copy.Canonical :=
  h.with_limits (Nat.zero_le _) 0

/-- A canonical number with digits has one that is not zero. -/
lemma Canonical.exists_ne_zero {f : Fixed} (h : f.Canonical) (hf : f.val ≠ []) :
    ∃ d ∈ f.val, d ≠ 0 := by
  rcases Nat.eq_zero_or_pos f.scale with hs | hs
  · have hlast := h.leading (by rw [hs]; exact List.length_pos_of_ne_nil hf)
    rw [List.getLast?_eq_some_getLast hf] at hlast
    exact ⟨_, List.getLast_mem hf, fun h0 => hlast (congrArg some h0)⟩
  · have hhead := h.trailing hs
    rw [List.head?_eq_some_head hf] at hhead
    exact ⟨_, List.head_mem hf, fun h0 => hhead (congrArg some h0)⟩

/-! ### Constructors -/

/-- The zeros that are left out are after the decimal point, and no more of them follow. -/
lemma stripFraction_spec (val : List ℕ) (scale : ℕ) :
    ∃ k, k ≤ scale ∧ k ≤ val.length ∧ stripFraction val scale = (val.drop k, scale - k) ∧
      (∀ d ∈ val.take k, d = 0) ∧ (0 < scale - k → (val.drop k).head? ≠ some 0) := by
  fun_induction stripFraction val scale with
  | case1 v scale ih =>
    obtain ⟨k, hks, hkv, heq, hz, hh⟩ := ih
    refine ⟨k + 1, Nat.succ_le_succ hks, Nat.succ_le_succ hkv, ?_, ?_, ?_⟩
    · rw [heq, List.drop_succ_cons, Nat.succ_sub_succ]
    · simpa using hz
    · rwa [List.drop_succ_cons, Nat.succ_sub_succ]
  | case2 v scale h =>
    refine ⟨0, Nat.zero_le _, Nat.zero_le _, rfl, by simp, ?_⟩
    intro hs h0
    obtain ⟨s, rfl⟩ : ∃ s, scale = s + 1 := ⟨scale - 1, by omega⟩
    rw [List.drop_zero] at h0
    obtain ⟨t, rfl⟩ := List.head?_eq_some_iff.mp h0
    exact h t s rfl rfl

/-- What `finish` and the constructor from digits take. -/
structure Finishable (w : List ℕ) (scale : ℕ) : Prop where
  digits : Digits w
  scale_le : scale ≤ w.length
  leading : NoLeadingZero scale w

lemma Finishable.stripFraction {w : List ℕ} {scale : ℕ} (h : Finishable w scale) :
    Finishable (stripFraction w scale).1 (stripFraction w scale).2 := by
  obtain ⟨k, hks, hkw, heq, -, -⟩ := stripFraction_spec w scale
  rw [heq]
  refine ⟨h.digits.drop k, ?_, NoLeadingZero.drop hkw ?_⟩
  · have := h.scale_le
    rw [List.length_drop]
    omega
  · rw [Nat.add_sub_cancel' hks]
    exact h.leading

lemma ofOctets_canonical {w : List ℕ} {scale : ℕ} {negative : Bool} {f : Fixed}
    (h : Finishable w scale) (hf : ofOctets w scale negative = .ok f) : f.Canonical := by
  unfold ofOctets at hf
  split_ifs at hf with hlim
  rw [Except.ok.injEq] at hf
  subst hf
  have hs := h.stripFraction
  obtain ⟨k, hks, hkw, heq, -, hh⟩ := stripFraction_spec w scale
  simp only [heq] at hs ⊢
  refine ⟨hs.digits, hs.scale_le, ?_, hh, hs.leading, fun hnil => if_pos hnil, Nat.zero_le _⟩
  rw [Fixed.digits, List.length_drop]
  omega

lemma finish_canonical {w : List ℕ} {scale : ℕ} {negative : Bool} {f : Fixed}
    (h : Finishable w scale) (hf : finish w scale negative = .ok f) : f.Canonical :=
  ofOctets_canonical h.stripFraction hf

lemma intDigits_succ (n : ℕ) {v : ℤ} (hv : 0 ≤ v) :
    intDigits (n + 1) v = if v = 0 then [] else octet (v % 10) :: intDigits n (v / 10) := by
  rw [intDigits, Int.tmod_eq_emod_of_nonneg hv, Int.tdiv_eq_ediv_of_nonneg hv]

lemma intDigits_digits (n : ℕ) {v : ℤ} (hv : 0 ≤ v) : Digits (intDigits n v) := by
  induction n generalizing v with
  | zero => exact digits_nil
  | succ n ih =>
    rw [intDigits_succ n hv]
    split_ifs with h0
    · exact digits_nil
    · exact digits_cons.mpr ⟨octet_le (by omega) (by omega), ih (by omega)⟩

lemma intDigits_length (n : ℕ) (v : ℤ) : (intDigits n v).length ≤ n := by
  induction n generalizing v with
  | zero => exact le_rfl
  | succ n ih =>
    rw [intDigits]
    split_ifs with h0
    · exact Nat.zero_le _
    · exact Nat.succ_le_succ (ih _)

lemma intDigits_eq_nil {n : ℕ} {v : ℤ} (hv : 0 ≤ v) (hn : v < 10 ^ n) :
    intDigits n v = [] ↔ v = 0 := by
  cases n with
  | zero =>
    rw [pow_zero] at hn
    exact ⟨fun _ => by omega, fun _ => rfl⟩
  | succ n =>
    rw [intDigits_succ n hv]
    split_ifs with h0
    · exact ⟨fun _ => h0, fun _ => rfl⟩
    · simp [h0]

/-- The last digit is not zero: the loop ends as soon as nothing is left. -/
lemma intDigits_leading (n : ℕ) {v : ℤ} (hv : 0 ≤ v) (hn : v < 10 ^ n) :
    NoLeadingZero 0 (intDigits n v) := by
  induction n generalizing v with
  | zero => exact NoLeadingZero.nil
  | succ n ih =>
    rw [intDigits_succ n hv]
    split_ifs with h0
    · exact NoLeadingZero.nil
    · rw [pow_succ] at hn
      have hn : v / 10 < 10 ^ n := by omega
      refine NoLeadingZero.cons (ih (by omega) hn) fun _ hnil => ?_
      have hdiv : v / 10 = 0 := (intDigits_eq_nil (by omega) hn).mp hnil
      unfold octet
      omega

lemma intDigits_canonical {v : ℤ} (hv : 0 ≤ v) (hn : v < 10 ^ fixedDigits) {negative : Bool}
    (hneg : v = 0 → negative = false) : Canonical ⟨intDigits fixedDigits v, 0, negative, 0, 0⟩ where
  digits_val := intDigits_digits fixedDigits hv
  scale_le := Nat.zero_le _
  digits_le := intDigits_length fixedDigits v
  trailing h := absurd h (lt_irrefl 0)
  leading := intDigits_leading fixedDigits hv hn
  zero_positive h := hneg ((intDigits_eq_nil hv hn).mp h)
  idlDigits_le := Nat.zero_le _

lemma ofULong_canonical (v : UInt32) : (ofULong v).Canonical := by
  have hv := v.toNat_lt
  exact intDigits_canonical (by omega) (by unfold fixedDigits; omega) fun _ => rfl

lemma ofULongLong_canonical (v : UInt64) : (ofULongLong v).Canonical := by
  have hv := v.toNat_lt
  exact intDigits_canonical (by omega) (by unfold fixedDigits; omega) fun _ => rfl

/-- The least value has no negation, and is left negative. -/
lemma int32_neg_toInt {v : Int32} (hv : v ≠ Int32.minValue) : (-v).toInt = -v.toInt := by
  have hlow := v.le_toInt
  have hhigh := v.toInt_lt
  have hmin : v.toInt ≠ Int32.minValue.toInt := fun h => hv (Int32.toInt_inj.mp h)
  have hmin : v.toInt ≠ -2 ^ 31 := hmin
  rw [Int32.toInt_neg, Int.bmod_def]
  omega

lemma int64_neg_toInt {v : Int64} (hv : v ≠ Int64.minValue) : (-v).toInt = -v.toInt := by
  have hlow := v.le_toInt
  have hhigh := v.toInt_lt
  have hmin : v.toInt ≠ Int64.minValue.toInt := fun h => hv (Int64.toInt_inj.mp h)
  have hmin : v.toInt ≠ -2 ^ 63 := hmin
  rw [Int64.toInt_neg, Int.bmod_def]
  omega

lemma ofLong_canonical {v : Int32} (hv : v ≠ Int32.minValue) : (ofLong v).Canonical := by
  have hlow := v.le_toInt
  have hhigh := v.toInt_lt
  unfold ofLong
  by_cases h0 : v < 0
  · have h1 : v.toInt < 0 := Int32.lt_iff_toInt_lt.mp h0
    simp only [if_pos h0, int32_neg_toInt hv]
    exact intDigits_canonical (by omega) (by unfold fixedDigits; omega) fun h => by omega
  · have h1 : ¬v.toInt < 0 := fun h => h0 (Int32.lt_iff_toInt_lt.mpr h)
    simp only [if_neg h0]
    exact intDigits_canonical (by omega) (by unfold fixedDigits; omega) fun _ => decide_eq_false h0

lemma ofLongLong_canonical {v : Int64} (hv : v ≠ Int64.minValue) : (ofLongLong v).Canonical := by
  have hlow := v.le_toInt
  have hhigh := v.toInt_lt
  unfold ofLongLong
  by_cases h0 : v < 0
  · have h1 : v.toInt < 0 := Int64.lt_iff_toInt_lt.mp h0
    simp only [if_pos h0, int64_neg_toInt hv]
    exact intDigits_canonical (by omega) (by unfold fixedDigits; omega) fun h => by omega
  · have h1 : ¬v.toInt < 0 := fun h => h0 (Int64.lt_iff_toInt_lt.mpr h)
    simp only [if_neg h0]
    exact intDigits_canonical (by omega) (by unfold fixedDigits; omega) fun _ => decide_eq_false h0

/-! ### Rounding -/

lemma increment_digits {v : List ℕ} (hv : Digits v) : Digits (increment v) := by
  fun_induction increment v with
  | case1 => simp
  | case2 x v h => exact digits_cons.mpr ⟨h, (digits_cons.mp hv).2⟩
  | case3 x v h ih => exact digits_cons.mpr ⟨Nat.zero_le 9, ih (digits_cons.mp hv).2⟩

lemma length_le_increment (v : List ℕ) : v.length ≤ (increment v).length := by
  fun_induction increment v with
  | case1 => exact Nat.zero_le _
  | case2 x v h => exact le_rfl
  | case3 x v h ih => exact Nat.succ_le_succ ih

/-- The carry only adds to the last digit, or is a new one. -/
lemma increment_leading {v : List ℕ} {m : ℕ} (hd : Digits v) (hv : NoLeadingZero m v) :
    NoLeadingZero m (increment v) := by
  fun_induction increment v generalizing m with
  | case1 => exact NoLeadingZero.of_getLast (k := []) Nat.one_ne_zero
  | case2 x v h =>
    have hx := (digits_cons.mp hd).1
    refine NoLeadingZero.cons hv.of_cons fun _ _ => ?_
    unfold octet
    omega
  | case3 x v h ih =>
    refine NoLeadingZero.cons (ih (digits_cons.mp hd).2 hv.of_cons) fun _ hnil => ?_
    have hlen := congrArg List.length hnil
    cases v with
    | nil => simp [increment] at hlen
    | cons y v =>
      have := length_le_increment (y :: v)
      rw [hlen] at this
      simp at this

namespace Canonical

variable {f g : Fixed}

/-- What is left when digits after the decimal point are cut off. -/
lemma finishable_drop (hf : f.Canonical) {cut scale : ℕ} (hcut : cut + scale = f.scale) :
    Finishable (f.val.drop cut) scale := by
  have hlen : f.scale ≤ f.val.length := hf.scale_le
  refine ⟨hf.digits_val.drop cut, ?_, NoLeadingZero.drop (by omega) ?_⟩
  · rw [List.length_drop]
    omega
  · rw [hcut]
    exact hf.leading

lemma round (hf : f.Canonical) {scale : ℕ} (h : f.round scale = .ok g) : g.Canonical := by
  unfold Fixed.round at h
  dsimp only at h
  split_ifs at h with h1 h2 h3
  · rw [Except.ok.injEq] at h
    rw [← h]
    exact hf.copy
  · have hcut : f.scale - scale + scale = f.scale := by omega
    have hfin := hf.finishable_drop hcut
    refine ofOctets_canonical ⟨?_, ?_, ?_⟩ h
    · exact increment_digits hfin.digits
    · exact hfin.scale_le.trans (length_le_increment _)
    · exact increment_leading hfin.digits hfin.leading
  · exact ofOctets_canonical (hf.finishable_drop (by omega)) h

lemma truncate (hf : f.Canonical) {scale : ℕ} (h : f.truncate scale = .ok g) : g.Canonical := by
  unfold Fixed.truncate at h
  dsimp only at h
  split_ifs at h with h1
  · rw [Except.ok.injEq] at h
    rw [← h]
    exact hf.copy
  · exact ofOctets_canonical (hf.finishable_drop (by omega)).stripFraction h

lemma neg (hf : f.Canonical) : f.neg.Canonical := by
  unfold Fixed.neg
  split_ifs with h
  · exact hf.copy
  · have hc := hf.copy
    exact ⟨hc.digits_val, hc.scale_le, hc.digits_le, hc.trailing, hc.leading,
      fun hnil => absurd (congrArg List.length hnil) h, hc.idlDigits_le⟩

/-! ### Limits -/

lemma checkLimits (hf : f.Canonical) : f.checkLimits.1.Canonical := by
  unfold Fixed.checkLimits
  split_ifs with h1 h2
  · exact hf
  · split
    · exact hf
    · rename_i g hg
      exact (hf.truncate hg).with_limits hf.idlDigits_le _
  · exact hf

lemma assign (hf : f.Canonical) (hg : g.Canonical) : (f.assign g).1.Canonical :=
  (hg.with_limits hf.idlDigits_le _).checkLimits

lemma limited (hf : f.Canonical) {d s : ℕ} (h : f.limited d s = .ok g) : g.Canonical := by
  unfold Fixed.limited at h
  split_ifs at h with h1
  have hc := (hf.with_limits (d := d) (by omega) s).checkLimits
  generalize Fixed.checkLimits { f with idlDigits := d, idlScale := s } = r at h hc
  obtain ⟨g', r⟩ := r
  cases r with
  | error e => cases h
  | ok u =>
    simp only [Except.map, Except.ok.injEq] at h
    rwa [← h]

end Canonical

/-! ### Unmarshalling -/

lemma stripLeading_head? {scale : ℕ} {w : List ℕ} (hs : 0 < scale) :
    (stripLeading scale w).head? = w.head? := by
  cases w with
  | nil => simp [stripLeading]
  | cons x w =>
    obtain ⟨s, rfl⟩ : ∃ s, scale = s + 1 := ⟨scale - 1, by omega⟩
    rfl

lemma stripLeading_sublist (scale : ℕ) (w : List ℕ) : (stripLeading scale w).Sublist w := by
  unfold stripLeading
  conv_rhs => rw [← List.take_append_drop scale w]
  exact (List.Sublist.refl _).append (List.rdropWhile_prefix _ _).sublist

lemma stripLeading_length_le (scale : ℕ) (w : List ℕ) : (stripLeading scale w).length ≤ w.length :=
  (stripLeading_sublist scale w).length_le

lemma stripLeading_leading (scale : ℕ) (w : List ℕ) :
    NoLeadingZero scale (stripLeading scale w) := by
  unfold stripLeading
  rcases Nat.lt_or_ge w.length scale with h | h
  · refine NoLeadingZero.of_length_le ?_
    rw [List.drop_eq_nil_of_le h.le, List.rdropWhile_nil, List.append_nil, List.length_take]
    exact min_le_left _ _
  · have h1 := NoLeadingZero.append_iff (m := 0) (k := w.take scale)
      (l := (w.drop scale).rdropWhile (· = 0))
    rw [List.length_take_of_le h, Nat.add_zero] at h1
    exact h1.mpr (NoLeadingZero.rdropWhile _)

/-- Only zeros are left out. -/
lemma eq_zero_of_stripLeading_eq_nil {scale : ℕ} {w : List ℕ} (h : stripLeading scale w = []) :
    ∀ d ∈ w, d = 0 := by
  obtain ⟨h1, h2⟩ := List.append_eq_nil_iff.mp h
  intro d hd
  rw [← List.take_append_drop scale w, h1, List.nil_append] at hd
  simpa using List.rdropWhile_eq_nil_iff.mp h2 d hd

/-- The octets on the wire say that the number is negative, and all its digits are zero. -/
def NegativeZero (buffer : List UInt8) (n : ℕ) : Prop :=
  signOf (nibble buffer n) = .ok true ∧ ∀ d ∈ bufferDigits buffer n, d = 0

lemma unmarshal_canonical {f g : Fixed} {s t : CdrIn} (hf : f.idlDigits ≤ fixedDigits)
    (hz : ∀ buffer u, s.getOctetArray (digitsToRead f.idlDigits / 2 + 1) = .ok (buffer, u) →
      ¬NegativeZero buffer (digitsToRead f.idlDigits))
    (h : f.unmarshal s = .ok (g, t)) : g.Canonical := by
  unfold unmarshal at h
  split_ifs at h with h0
  rcases hb : s.getOctetArray (digitsToRead f.idlDigits / 2 + 1) with e | ⟨buffer, u⟩
  · simp only [hb] at h
    cases h
  · simp only [hb] at h
    obtain ⟨negative, hsign, h⟩ := bind_eq_ok.mp h
    split_ifs at h with h1 h2 h3
    rw [Except.ok.injEq, Prod.mk.injEq] at h
    obtain ⟨rfl, -⟩ := h
    obtain ⟨k, hks, hkv, heq, hk, hh⟩ :=
      stripFraction_spec (bufferDigits buffer (digitsToRead f.idlDigits)) f.idlScale
    simp only [heq] at h1 h2 h3 ⊢
    set w := (bufferDigits buffer (digitsToRead f.idlDigits)).drop k with hw
    have hdigits : Digits w := by
      intro d hd
      by_contra h9
      exact h1 (List.any_eq_true.mpr ⟨d, hd, decide_eq_true (by omega)⟩)
    push Not at h3
    refine ⟨hdigits.of_sublist (stripLeading_sublist _ w), h3.2.2, h3.1.trans hf, ?_,
      stripLeading_leading _ w, ?_, hf⟩
    · intro hs
      rw [stripLeading_head? hs]
      exact hh hs
    · intro hnil
      have hrest := eq_zero_of_stripLeading_eq_nil hnil
      by_contra hneg
      rw [Bool.not_eq_false] at hneg
      refine hz buffer u hb ⟨by rw [hsign, ← hneg], fun d hd => ?_⟩
      rw [← List.take_append_drop k (bufferDigits _ _)] at hd
      rcases List.mem_append.mp hd with hd | hd
      · exact hk d hd
      · exact hrest d hd

end Fixed

end OmniORB
