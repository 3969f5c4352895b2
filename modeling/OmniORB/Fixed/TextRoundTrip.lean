import OmniORB.Fixed.Texts

/-!
# Numbers that are written and read again

A number in canonical form is the only one of its value, so that reading what was written gives the
number back.
-/

namespace OmniORB

open Library

namespace Fixed

/-! ### One form for each value -/

namespace Canonical

variable {f g : Fixed}

/-- A last digit after the decimal point that is not zero cannot be left out. -/
lemma scale_le_of_magnitude_eq (hf : f.Canonical) (h : f.magnitude = g.magnitude) :
    f.scale ≤ g.scale := by
  by_contra hlt
  obtain ⟨k, hk⟩ := Nat.exists_eq_add_of_lt (not_le.mp hlt)
  have hnum : num f.val = 10 * (num g.val * 10 ^ k) := by
    have hq : (num f.val : ℚ) / 10 ^ f.scale = num g.val / 10 ^ g.scale := h
    rw [hk, div_eq_div_iff (by positivity) (by positivity), Nat.add_assoc, pow_add, mul_comm (num f.val : ℚ),
      mul_left_comm (num g.val : ℚ)] at hq
    have hq := mul_left_cancel₀ (by positivity) hq
    have hcast : num f.val = num g.val * 10 ^ (k + 1) := by exact_mod_cast hq
    rw [hcast, pow_succ]
    ring
  have hhead := hf.trailing (by omega)
  rcases hval : f.val with - | ⟨x, l⟩
  · have hlen := hf.scale_le
    rw [digits, hval, List.length_nil] at hlen
    omega
  · rw [hval, List.head?_cons] at hhead
    have hx := (digits_cons.mp (hval ▸ hf.digits_val)).1
    rw [hval, num_cons] at hnum
    refine hhead (congrArg some ?_)
    omega

/-- Numbers in canonical form are equal if their values are. -/
lemma copy_eq_of_value_eq (hf : f.Canonical) (hg : g.Canonical) (h : f.value = g.value) :
    f.copy = g.copy := by
  have hmagnitude : f.magnitude = g.magnitude := by rw [← abs_value, h, abs_value]
  have hscale : f.scale = g.scale :=
    le_antisymm (hf.scale_le_of_magnitude_eq hmagnitude)
      (hg.scale_le_of_magnitude_eq hmagnitude.symm)
  have hdigits : f.val.length = g.val.length := by
    have h1 := hf.integerDigits_value
    have h2 := hg.integerDigits_value
    have h3 := hf.scale_le
    have h4 := hg.scale_le
    rw [h, h2] at h1
    unfold digits at h1 h3 h4
    omega
  have hval : f.val = g.val := by
    have hnum : (num f.val : ℚ) = num g.val := by
      have hq : (num f.val : ℚ) / 10 ^ f.scale = num g.val / 10 ^ g.scale := hmagnitude
      rw [hscale] at hq
      exact (div_left_inj' (by positivity)).mp hq
    refine Nat.ofDigits_inj_of_len_eq (b := 10) (by norm_num) hdigits ?_ ?_ (by exact_mod_cast hnum)
    · exact fun d hd => Nat.lt_succ_of_le (hf.digits_val d hd)
    · exact fun d hd => Nat.lt_succ_of_le (hg.digits_val d hd)
  have hnegative : f.negative = g.negative := by
    by_cases hnil : f.val = []
    · rw [hf.zero_positive hnil, hg.zero_positive (hval ▸ hnil)]
    · have hpos := hf.magnitude_pos hnil
      rw [value_eq_signed, value_eq_signed, ← hmagnitude] at h
      cases hn : f.negative with
      | false =>
        cases hm : g.negative with
        | false => rfl
        | true =>
          rw [hn, hm] at h
          simp only [signed, Bool.false_eq_true, if_false, if_true] at h
          linarith
      | true =>
        cases hm : g.negative with
        | false =>
          rw [hn, hm] at h
          simp only [signed, Bool.false_eq_true, if_false, if_true] at h
          linarith
        | true => rfl
  cases f
  cases g
  simp only at *
  subst hval hscale hnegative
  rfl

end Canonical

/-! ### What is written -/

lemma isNumeral_charOf {d : ℕ} (hd : d ≤ 9) : isNumeral (charOf d) = true := by
  rw [isNumeral_iff, charOf, UInt8.toNat_ofNat']
  omega

lemma digitOf_charOf {d : ℕ} (hd : d ≤ 9) : digitOf (charOf d) = d := by
  rw [digitOf, charOf, UInt8.toNat_ofNat', octet]
  omega

lemma numerals_charOf {l : List ℕ} (hl : Digits l) : Numerals (l.map charOf) := by
  intro c hc
  obtain ⟨d, hd, rfl⟩ := List.mem_map.mp hc
  exact isNumeral_charOf (hl d hd)

lemma map_digitOf_charOf {l : List ℕ} (hl : Digits l) : (l.map charOf).map digitOf = l := by
  rw [List.map_map]
  conv_rhs => rw [← List.map_id l]
  exact List.map_congr_left fun d hd => digitOf_charOf (hl d hd)

/-- The decimal point stands before as many digits as there are decimal places. -/
lemma writeText_eq (scale : ℕ) (l : List ℕ) : writeText scale l =
    (l.take (l.length - scale)).map charOf ++
      ((if 0 < scale ∧ scale ≤ l.length then [0x2e] else []) ++
        (l.drop (l.length - scale)).map charOf) := by
  induction l with
  | nil =>
    have hno : ¬(0 < scale ∧ scale ≤ ([] : List ℕ).length) := by
      rintro ⟨h1, h2⟩
      rw [List.length_nil] at h2
      omega
    rw [if_neg hno, List.take_nil, List.drop_nil]
    rfl
  | cons d l ih =>
    rw [List.length_cons, writeText, ih]
    by_cases heq : l.length + 1 = scale
    · rw [if_pos heq, if_neg (by omega), if_pos (by omega), show l.length - scale = 0 by omega,
        show l.length + 1 - scale = 0 by omega]
      rfl
    · rw [if_neg heq]
      by_cases hlt : l.length + 1 < scale
      · rw [if_neg (by omega), if_neg (by omega), show l.length - scale = 0 by omega,
          show l.length + 1 - scale = 0 by omega]
        rfl
      · rw [show l.length + 1 - scale = l.length - scale + 1 by omega, List.take_succ_cons,
          List.drop_succ_cons, List.map_cons, List.cons_append]
        by_cases h0 : 0 < scale
        · rw [if_pos ⟨h0, by omega⟩, if_pos ⟨h0, by omega⟩]
        · rw [if_neg (fun h => h0 h.1), if_neg (fun h => h0 h.1)]

section Written

variable (x : Fixed)

/-- The digits that are written before the decimal point. -/
def writtenWhole : List UInt8 :=
  (if x.digits = x.scale then [0x30] else []) ++
    (x.val.reverse.take (x.digits - x.scale)).map charOf

/-- The digits that are written after it. -/
def writtenFrac : List UInt8 :=
  (x.val.reverse.drop (x.digits - x.scale)).map charOf ++ List.replicate (x.idlScale - x.scale) 0x30

variable {x}

lemma toText_eq (hx : x.Canonical) : x.toText = (if x.negative then [0x2d] else []) ++
    (x.writtenWhole ++ ((if 0 < x.scale ∨ 0 < x.idlScale then [0x2e] else []) ++ x.writtenFrac)) := by
  have hscale := hx.scale_le
  rw [toText, asText, writeText_eq, List.length_reverse, show x.val.length = x.digits from rfl,
    writtenWhole, writtenFrac]
  generalize (if x.negative then [0x2d] else [] : List UInt8) = sign
  generalize (if x.digits = x.scale then [0x30] else [] : List UInt8) = lead
  by_cases hlt : x.scale < x.idlScale
  · have hdot : 0 < x.scale ∨ 0 < x.idlScale := .inr (Nat.zero_lt_of_lt hlt)
    rw [if_pos hlt, if_pos hdot]
    by_cases h0 : x.scale = 0
    · have hno : ¬(0 < x.scale ∧ x.scale ≤ x.digits) := fun h => h.1.ne' h0
      have hlen : x.val.reverse.length ≤ x.digits - x.scale := by
        rw [List.length_reverse, h0]
        exact le_rfl
      rw [if_pos h0, if_neg hno, List.drop_of_length_le hlen]
      simp only [List.append_assoc, List.map_nil, List.nil_append]
    · have hyes : 0 < x.scale ∧ x.scale ≤ x.digits := ⟨Nat.pos_of_ne_zero h0, hscale⟩
      rw [if_neg h0, if_pos hyes]
      simp only [List.append_assoc, List.nil_append]
  · rw [if_neg hlt, Nat.sub_eq_zero_of_le (not_lt.mp hlt), List.replicate_zero]
    by_cases h0 : 0 < x.scale
    · have hyes : 0 < x.scale ∧ x.scale ≤ x.digits := ⟨h0, hscale⟩
      have hdot : 0 < x.scale ∨ 0 < x.idlScale := .inl h0
      rw [if_pos hyes, if_pos hdot]
      simp only [List.append_assoc, List.append_nil]
    · have hno : ¬(0 < x.scale ∧ x.scale ≤ x.digits) := fun h => h0 h.1
      have hdot : ¬(0 < x.scale ∨ 0 < x.idlScale) := by omega
      rw [if_neg hno, if_neg hdot]
      simp only [List.append_assoc, List.append_nil]

lemma Canonical.writtenWhole_ne_nil (hx : x.Canonical) : x.writtenWhole ≠ [] := by
  have hscale := hx.scale_le
  unfold writtenWhole
  by_cases heq : x.digits = x.scale
  · rw [if_pos heq]
    exact List.cons_ne_nil _ _
  · rw [if_neg heq, List.nil_append]
    intro hnil
    have hlen := congrArg List.length hnil
    rw [List.length_map, List.length_take, List.length_reverse, List.length_nil] at hlen
    unfold digits at *
    omega

/-- What is written is a text. -/
def Canonical.text (hx : x.Canonical) : Text x.toText where
  before := []
  negative := x.negative
  sign := if x.negative then [0x2d] else []
  whole := x.writtenWhole
  point := if 0 < x.scale ∨ 0 < x.idlScale then [0x2e] else []
  frac := x.writtenFrac
  suffix := []
  after := []
  eq := by
    rw [toText_eq hx, List.nil_append, List.append_nil, List.append_nil]
  before_space := rfl
  sign_eq := by
    cases x.negative with
    | false => exact .inr ⟨rfl, .inl rfl⟩
    | true => exact .inl ⟨rfl, rfl⟩
  numerals_whole := by
    intro c hc
    rcases List.mem_append.mp hc with hc | hc
    · split_ifs at hc
      · rw [List.mem_singleton.mp hc]
        rfl
      · cases hc
    · exact numerals_charOf ((digits_reverse.mpr hx.digits_val).take _) c hc
  point_eq := by
    by_cases h : 0 < x.scale ∨ 0 < x.idlScale
    · exact .inl (if_pos h)
    · refine .inr ⟨if_neg h, ?_⟩
      have hlen : x.val.reverse.length ≤ x.digits - x.scale := by
        rw [List.length_reverse, show x.scale = 0 by omega]
        exact le_rfl
      rw [writtenFrac, List.drop_of_length_le hlen, show x.idlScale - x.scale = 0 by omega]
      rfl
  numerals_frac := by
    intro c hc
    rcases List.mem_append.mp hc with hc | hc
    · exact numerals_charOf ((digits_reverse.mpr hx.digits_val).drop _) c hc
    · rw [(List.mem_replicate.mp hc).2]
      rfl
  nonempty := .inl hx.writtenWhole_ne_nil
  suffix_eq := .inl rfl
  after_space := rfl

lemma Canonical.length_writtenFrac (hx : x.Canonical) :
    x.writtenFrac.length = (x.idlScale - x.scale) + x.scale := by
  have hscale := hx.scale_le
  rw [writtenFrac, List.length_append, List.length_map, List.length_drop, List.length_reverse,
    List.length_replicate]
  unfold digits at *
  omega

/-- The digits that are written are those of the number, zeros aside. -/
lemma Canonical.num_written (hx : x.Canonical) :
    num ((x.writtenWhole ++ x.writtenFrac).reverse.map digitOf) =
      10 ^ (x.idlScale - x.scale) * num x.val := by
  have hdigits : x.writtenWhole ++ x.writtenFrac = (if x.digits = x.scale then [0x30] else []) ++
      (x.val.reverse.map charOf ++ List.replicate (x.idlScale - x.scale) 0x30) := by
    rw [writtenWhole, writtenFrac, List.append_assoc, ← List.append_assoc (List.map charOf _),
      ← List.map_append, List.take_append_drop]
  have hlead : num (((if x.digits = x.scale then [0x30] else []) : List UInt8).reverse.map digitOf) =
      0 := by
    split_ifs
    · rfl
    · rfl
  have hzero : digitOf 0x30 = 0 := rfl
  rw [hdigits, List.reverse_append, List.reverse_append, List.reverse_replicate, ← List.map_reverse,
    List.reverse_reverse, List.map_append, List.map_append, List.map_replicate, hzero,
    map_digitOf_charOf hx.digits_val, num_append, num_append, hlead, num_replicate_zero,
    List.length_replicate]
  omega

lemma Canonical.text_value (hx : x.Canonical) : hx.text.value = x.value := by
  have hlen : hx.text.frac.length = (x.idlScale - x.scale) + x.scale := hx.length_writtenFrac
  have hnum : num ((hx.text.whole ++ hx.text.frac).reverse.map digitOf) =
      10 ^ (x.idlScale - x.scale) * num x.val := hx.num_written
  rw [Text.value, decimal, hnum, hlen, value_eq_signed]
  refine congrArg (signed x.negative) ?_
  rw [pow_add]
  push_cast
  rw [mul_div_mul_left _ _ (by positivity)]
  rfl

end Written

/-! ### Reading what was written -/

lemma Text.digitCount_le {s : List UInt8} (t : Text s) :
    digitCount s ≤ t.whole.length + t.frac.length := by
  have hlen := (List.dropWhile_suffix (l := t.whole) fun c => decide (c = 0x30)).length_le
  have hbody : digitCount s ≤ t.significant.length + t.frac.length := by
    unfold digitCount
    rw [t.numeralOf_eq, Text.body, List.countP_append, List.countP_append,
      t.significant_numerals.countP, t.numerals_frac.countP]
    rcases t.point_eq with h | ⟨h, -⟩
    · rw [h, show List.countP isNumeral [0x2e] = 0 from rfl, Nat.zero_add]
    · rw [h, List.countP_nil, Nat.zero_add]
  exact hbody.trans (Nat.add_le_add_right hlen _)

/-- The digits of a number are not too many for itself. -/
lemma Canonical.truncateAt_value {x : Fixed} (hx : x.Canonical) :
    truncateAt (fixedDigits - integerDigits x.value) x.value = x.value := by
  have hscale := hx.scale_le
  have hdigits := hx.digits_le
  have hvalue : x.value = ((if x.negative then -(num x.val : ℤ) else num x.val : ℤ) : ℚ) /
      10 ^ x.scale := by
    rw [value_eq_signed, signed, show x.magnitude = (num x.val : ℚ) / 10 ^ x.scale from rfl]
    cases x.negative with
    | false => rfl
    | true =>
      rw [if_pos rfl, if_pos rfl, ← neg_div]
      push_cast
      rfl
  rw [hx.integerDigits_value, hvalue]
  exact truncateAt_eq (by omega)

lemma ofString_copy {s : List UInt8} {f : Fixed} (h : ofString s = .ok f) : f.copy = f := by
  obtain ⟨d, point, negative, -, h⟩ := ofString_eq_ok h
  dsimp only at h
  split_ifs at h
  all_goals
    rw [Except.ok.injEq] at h
    subst h
    rfl

lemma Canonical.ofString_toText {x : Fixed} (hx : x.Canonical) (hlimit : x.idlScale ≤ fixedDigits) :
    ofString x.toText = .ok x.copy := by
  have hscale := hx.scale_le
  have hdigits := hx.digits_le
  have hcount : digitCount x.toText < 65536 := by
    have hwhole : x.writtenWhole.length ≤ 1 + x.digits := by
      rw [writtenWhole, List.length_append, List.length_map, List.length_take, List.length_reverse]
      split_ifs
      · exact Nat.add_le_add_left (Nat.min_le_right _ _) 1
      · exact Nat.add_le_add (Nat.zero_le 1) (Nat.min_le_right _ _)
    have hle : digitCount x.toText ≤ x.writtenWhole.length + x.writtenFrac.length :=
      hx.text.digitCount_le
    rw [hx.length_writtenFrac] at hle
    unfold fixedDigits at *
    omega
  have hexactly := hx.text.ofString_exactly hcount
  rw [hx.text_value] at hexactly
  obtain ⟨f, hf, hcanonical, hvalue⟩ := hexactly.ok (by rw [hx.integerDigits_value]; omega)
  rw [hx.truncateAt_value] at hvalue
  rw [hf, ← ofString_copy hf, hcanonical.copy_eq_of_value_eq hx hvalue]

lemma Canonical.ofString_asText {x : Fixed} (hx : x.Canonical) :
    ofString x.asText = .ok x.copy := by
  have h := hx.copy.ofString_toText (Nat.zero_le _)
  have hnone : ¬x.copy.scale < x.copy.idlScale := Nat.not_lt_zero _
  rw [toText, if_neg hnone, List.append_nil] at h
  exact h

/-! ### Texts and numbers -/

/-- A text is read if it stands for a number that is not too great, as that number cut off where
there are digits enough. -/
structure ReadsText (s : List UInt8) : Prop where
  succeeds_iff : (∃ f, ofString s = .ok f) ↔ ∃ v, Denotes s v ∧ integerDigits v ≤ fixedDigits
  value : ∀ f v, ofString s = .ok f → Denotes s v →
    f.value = truncateAt (fixedDigits - integerDigits v) v

lemma Denotes.exactly {s : List UInt8} {v : ℚ} (h : Denotes s v) (hs : digitCount s < 65536) :
    Exactly v (ofString s) := by
  obtain ⟨t, -, rfl⟩ := h
  exact t.ofString_exactly hs

lemma readsText_iff {s : List UInt8} (hs : digitCount s < 65536) : ReadsText s ↔ ¬LonePoint s := by
  constructor
  · intro h hlone
    have hnone := hlone.not_denotes
    obtain ⟨t, ht⟩ := hlone
    have hzero : t.value = 0 := by
      rw [Text.value, decimal, ht]
      simp
    have hexactly := t.ofString_exactly hs
    rw [hzero] at hexactly
    obtain ⟨f, hf, -⟩ := hexactly.ok (by simp [integerDigits])
    obtain ⟨v, hv, -⟩ := h.succeeds_iff.mp ⟨f, hf⟩
    exact hnone v hv
  · intro hlone
    refine ⟨⟨?_, ?_⟩, fun f v hf hv => ?_⟩
    · rintro ⟨f, hf⟩
      obtain ⟨t⟩ := exists_text hs hf
      exact ⟨t.value, ⟨t, fun hnil => hlone ⟨t, hnil⟩, rfl⟩, (t.ofString_exactly hs).integerDigits_le hf⟩
    · rintro ⟨v, hv, hle⟩
      obtain ⟨f, hf, -⟩ := (hv.exactly hs).ok hle
      exact ⟨f, hf⟩
    · have hexactly := hv.exactly hs
      obtain ⟨g, hg, -, hvalue⟩ := hexactly.ok (hexactly.integerDigits_le hf)
      obtain rfl : f = g := Except.ok.inj (hf.symm.trans hg)
      exact hvalue

end Fixed

open Fixed in
/-- A number is read back from either of its texts, and any text of fewer than 65536 digits is read
as what it stands for, unless it has a decimal point and no digit. -/
theorem fixed_text_iff {x : Fixed} (hx : x.Canonical) (hlimit : x.idlScale ≤ x.idlDigits)
    (s : List UInt8) (hs : digitCount s < 65536) :
    (ofString x.toText = .ok x.copy ∧ ofString x.asText = .ok x.copy ∧ ReadsText s) ↔
      ¬LonePoint s := by
  rw [readsText_iff hs]
  constructor
  · rintro ⟨-, -, h⟩
    exact h
  · exact fun h => ⟨hx.ofString_toText (hlimit.trans hx.idlDigits_le), hx.ofString_asText, h⟩

open Fixed in
/-- Of `12` and the text `3.4d `. -/
theorem fixed_text_twelve :
    (ofString (ofULong 12).toText = .ok (ofULong 12).copy ∧
        ofString (ofULong 12).asText = .ok (ofULong 12).copy ∧
        ReadsText [0x33, 0x2e, 0x34, 0x64, 0x20]) ↔
      ¬LonePoint [0x33, 0x2e, 0x34, 0x64, 0x20] :=
  fixed_text_iff (ofULong_canonical 12) (by decide) _ (by decide)

open Fixed in
/-- A decimal point alone is read as zero. -/
theorem fixed_text_point : ofString [0x2e] = .ok zero ∧ ∀ v, ¬Denotes [0x2e] v := by
  refine ⟨rfl, ?_⟩
  rintro v ⟨t, ht, -⟩
  exact ht (t.digits_eq_nil_iff.mpr rfl)

end OmniORB
