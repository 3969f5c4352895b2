import OmniORB.Fixed.Canonical

/-!
# Arithmetic keeps the canonical form
-/

namespace OmniORB

open Library

namespace Fixed

/-- Too many digits: only digits after the decimal point go. -/
lemma chop_finishable {e : FixedExn} {w : List ℕ} {scale : ℕ} {r : List ℕ × ℕ}
    (hw : Finishable w scale) (h : chop e w scale = .ok r) : Finishable r.1 r.2 := by
  unfold chop at h
  split_ifs at h with h1 h2
  · rw [Except.ok.injEq] at h
    subst h
    refine ⟨hw.digits.drop _, ?_, NoLeadingZero.drop (Nat.sub_le _ _) ?_⟩
    · rw [List.length_drop]
      have := hw.scale_le
      omega
    · rw [Nat.add_sub_cancel' (by omega)]
      exact hw.leading
  · rw [Except.ok.injEq] at h
    subst h
    exact hw

/-! ### Addition -/

/-- One digit of a sum. -/
lemma sumDigit_le {v : ℤ} (h0 : 0 ≤ v) (h19 : v ≤ 19) : octet (if 9 < v then v - 10 else v) ≤ 9 := by
  split_ifs <;> exact octet_le (by omega) (by omega)

lemma sumCarry_le (v : ℤ) : 0 ≤ (if 9 < v then 1 else 0 : ℤ) ∧ (if 9 < v then 1 else 0 : ℤ) ≤ 1 := by
  split_ifs <;> exact ⟨by norm_num, by norm_num⟩

lemma addDigits_digits {c : ℤ} (h0 : 0 ≤ c) (h1 : c ≤ 1) {a b : List ℕ} (ha : Digits a)
    (hb : Digits b) : Digits (addDigits c a b) := by
  fun_induction addDigits c a b with
  | case1 c h => exact digits_cons.mpr ⟨octet_le h0 (by omega), digits_nil⟩
  | case2 c h => exact digits_nil
  | case3 c x a y b v ih =>
    obtain ⟨hx, ha⟩ := digits_cons.mp ha
    obtain ⟨hy, hb⟩ := digits_cons.mp hb
    exact digits_cons.mpr ⟨sumDigit_le (by omega) (by omega),
      ih (sumCarry_le v).1 (sumCarry_le v).2 ha hb⟩
  | case4 c x a v ih =>
    obtain ⟨hx, ha⟩ := digits_cons.mp ha
    exact digits_cons.mpr ⟨sumDigit_le (by omega) (by omega),
      ih (sumCarry_le v).1 (sumCarry_le v).2 ha digits_nil⟩
  | case5 c y b v ih =>
    obtain ⟨hy, hb⟩ := digits_cons.mp hb
    exact digits_cons.mpr ⟨sumDigit_le (by omega) (by omega),
      ih (sumCarry_le v).1 (sumCarry_le v).2 digits_nil hb⟩

lemma le_addDigits_length (c : ℤ) (a b : List ℕ) :
    a.length ≤ (addDigits c a b).length ∧ b.length ≤ (addDigits c a b).length := by
  fun_induction addDigits c a b with
  | case1 c h => exact ⟨Nat.zero_le _, Nat.zero_le _⟩
  | case2 c h => exact ⟨le_rfl, le_rfl⟩
  | case3 c x a y b v ih => exact ⟨Nat.succ_le_succ ih.1, Nat.succ_le_succ ih.2⟩
  | case4 c x a v ih => exact ⟨Nat.succ_le_succ ih.1, Nat.zero_le _⟩
  | case5 c y b v ih => exact ⟨Nat.zero_le _, Nat.succ_le_succ ih.2⟩

/-- Nothing follows a digit of a sum only where neither number goes on and nothing is carried. -/
lemma of_addDigits_eq_nil {c : ℤ} {a b : List ℕ} (h : addDigits c a b = []) :
    a = [] ∧ b = [] ∧ c = 0 := by
  have hlen := le_addDigits_length c a b
  rw [h, List.length_nil, Nat.le_zero, Nat.le_zero] at hlen
  obtain rfl := List.eq_nil_of_length_eq_zero hlen.1
  obtain rfl := List.eq_nil_of_length_eq_zero hlen.2
  refine ⟨rfl, rfl, ?_⟩
  by_contra hc
  rw [addDigits, if_pos hc] at h
  exact List.cons_ne_nil _ _ h

/-- A digit of a sum with nothing carried, of which one part is not zero. -/
lemma sumDigit_ne_zero {v : ℤ} (h0 : 0 < v) (hc : (if 9 < v then 1 else 0 : ℤ) = 0) :
    octet (if 9 < v then v - 10 else v) ≠ 0 := by
  have h9 : ¬9 < v := fun h9 => by simp [h9] at hc
  rw [if_neg h9]
  unfold octet
  omega

lemma addDigits_leading {c : ℤ} (h0 : 0 ≤ c) (h1 : c ≤ 1) {a b : List ℕ} {m : ℕ}
    (ha : NoLeadingZero m a) (hb : NoLeadingZero m b) : NoLeadingZero m (addDigits c a b) := by
  fun_induction addDigits c a b generalizing m with
  | case1 c h =>
    refine NoLeadingZero.of_getLast (k := []) ?_
    unfold octet
    omega
  | case2 c h => exact NoLeadingZero.nil
  | case3 c x a y b v ih =>
    refine NoLeadingZero.cons (ih (sumCarry_le v).1 (sumCarry_le v).2 ha.of_cons hb.of_cons)
      fun hm hnil => ?_
    obtain ⟨rfl, rfl, hc⟩ := of_addDigits_eq_nil hnil
    subst hm
    have := ha.head_ne_zero
    exact sumDigit_ne_zero (by omega) hc
  | case4 c x a v ih =>
    refine NoLeadingZero.cons
      (ih (sumCarry_le v).1 (sumCarry_le v).2 ha.of_cons NoLeadingZero.nil) fun hm hnil => ?_
    obtain ⟨rfl, -, hc⟩ := of_addDigits_eq_nil hnil
    subst hm
    have := ha.head_ne_zero
    exact sumDigit_ne_zero (by omega) hc
  | case5 c y b v ih =>
    refine NoLeadingZero.cons
      (ih (sumCarry_le v).1 (sumCarry_le v).2 NoLeadingZero.nil hb.of_cons) fun hm hnil => ?_
    obtain ⟨-, rfl, hc⟩ := of_addDigits_eq_nil hnil
    subst hm
    have := hb.head_ne_zero
    exact sumDigit_ne_zero (by omega) hc

/-- The digits below the smaller of the two scales. -/
lemma Canonical.take_length {f : Fixed} (hf : f.Canonical) (n : ℕ) :
    (f.val.take (f.scale - n)).length = f.scale - n := by
  have : f.scale ≤ f.val.length := hf.scale_le
  rw [List.length_take]
  omega

/-- The digits from the smaller of the two scales on. -/
lemma Canonical.drop_leading {f : Fixed} (hf : f.Canonical) {n m : ℕ} (h : m = min f.scale n) :
    NoLeadingZero m (f.val.drop (f.scale - n)) := by
  have hlen : f.scale ≤ f.val.length := hf.scale_le
  refine NoLeadingZero.drop (by omega) ?_
  rw [show f.scale - n + m = f.scale by omega]
  exact hf.leading

/-- The digits that `realAdd` writes to `work`. -/
def addWork (a b : Fixed) : List ℕ :=
  a.val.take (a.scale - b.scale) ++ b.val.take (b.scale - a.scale) ++
    addDigits 0 (a.val.drop (a.scale - b.scale)) (b.val.drop (b.scale - a.scale))

lemma realAdd_eq (a b : Fixed) (negative : Bool) : realAdd a b negative =
    (chop .rangeError (addWork a b) (max a.scale b.scale) >>= fun r => finish r.1 r.2 negative) :=
  rfl

lemma Canonical.addWork_finishable {a b : Fixed} (ha : a.Canonical) (hb : b.Canonical) :
    Finishable (addWork a b) (max a.scale b.scale) := by
  refine ⟨?_, ?_, ?_⟩
  · refine digits_append.mpr ⟨digits_append.mpr ⟨ha.digits_val.take _, hb.digits_val.take _⟩, ?_⟩
    exact addDigits_digits le_rfl zero_le_one (ha.digits_val.drop _) (hb.digits_val.drop _)
  · have hsa : a.scale ≤ a.val.length := ha.scale_le
    have hsb : b.scale ≤ b.val.length := hb.scale_le
    have hlen := le_addDigits_length 0 (a.val.drop (a.scale - b.scale))
      (b.val.drop (b.scale - a.scale))
    rw [List.length_drop, List.length_drop] at hlen
    rw [addWork, List.length_append, List.length_append, ha.take_length, hb.take_length]
    omega
  · have hlow : max a.scale b.scale = (a.val.take (a.scale - b.scale) ++
        b.val.take (b.scale - a.scale)).length + min a.scale b.scale := by
      rw [List.length_append, ha.take_length, hb.take_length]
      omega
    rw [hlow]
    exact NoLeadingZero.append_iff.mpr (addDigits_leading le_rfl zero_le_one
      (ha.drop_leading rfl) (hb.drop_leading (min_comm _ _)))

lemma realAdd_canonical {a b f : Fixed} {negative : Bool} (ha : a.Canonical) (hb : b.Canonical)
    (h : realAdd a b negative = .ok f) : f.Canonical := by
  rw [realAdd_eq] at h
  obtain ⟨r, hr, hf⟩ := bind_eq_ok.mp h
  exact finish_canonical (chop_finishable (ha.addWork_finishable hb) hr) hf

/-! ### Subtraction -/

/-- One digit of a difference. -/
lemma differenceDigit_le {v : ℤ} (h10 : -10 ≤ v) (h9 : v ≤ 9) :
    octet (if v < 0 then v + 10 else v) ≤ 9 := by
  split_ifs <;> exact octet_le (by omega) (by omega)

lemma differenceCarry_le (v : ℤ) :
    -1 ≤ (if v < 0 then -1 else 0 : ℤ) ∧ (if v < 0 then -1 else 0 : ℤ) ≤ 0 := by
  split_ifs <;> exact ⟨by norm_num, by norm_num⟩

lemma subDigits_digits {c : ℤ} (h0 : -1 ≤ c) (h1 : c ≤ 0) {a b : List ℕ} (ha : Digits a)
    (hb : Digits b) : Digits (subDigits c a b).1 := by
  fun_induction subDigits c a b with
  | case1 c b => exact digits_nil
  | case2 c x a b v r ih =>
    obtain ⟨hx, ha⟩ := digits_cons.mp ha
    have hy := hb.headD
    refine digits_cons.mpr ⟨differenceDigit_le (by omega) (by omega), ?_⟩
    exact ih (differenceCarry_le v).1 (differenceCarry_le v).2 ha (hb.drop 1)

@[simp] lemma subDigits_length (c : ℤ) (a b : List ℕ) :
    (subDigits c a b).1.length = a.length := by
  fun_induction subDigits c a b with
  | case1 c b => rfl
  | case2 c x a b v r ih => rw [List.length_cons, ih, List.length_cons]

/-- Once there is a carry each digit is the complement to nine. -/
lemma complementDigits_digits_carry {b : List ℕ} (hb : Digits b) :
    Digits (complementDigits (-1) b).1 ∧ (complementDigits (-1) b).2 = -1 := by
  induction b with
  | nil => exact ⟨digits_nil, rfl⟩
  | cons y b ih =>
    obtain ⟨hy, hb⟩ := digits_cons.mp hb
    exact ⟨digits_cons.mpr ⟨octet_le (by omega) (by omega), (ih hb).1⟩, (ih hb).2⟩

/-- The first digit is the complement to ten, and is not zero. -/
lemma complementDigits_digits {b : List ℕ} (hb : Digits b) (h : b.head? ≠ some 0) :
    Digits (complementDigits 0 b).1 ∧ -1 ≤ (complementDigits 0 b).2 ∧
      (complementDigits 0 b).2 ≤ 0 := by
  cases b with
  | nil => exact ⟨digits_nil, by decide, by decide⟩
  | cons y b =>
    obtain ⟨hy, hb⟩ := digits_cons.mp hb
    have hy0 : y ≠ 0 := fun h0 => h (congrArg some h0)
    obtain ⟨h1, h2⟩ := complementDigits_digits_carry hb
    refine ⟨digits_cons.mpr ⟨octet_le (by omega) (by omega), h1⟩, ?_, ?_⟩
    · exact h2.ge
    · exact h2.le.trans (by norm_num)

@[simp] lemma complementDigits_length (c : ℤ) (b : List ℕ) :
    (complementDigits c b).1.length = b.length := by
  induction b generalizing c with
  | nil => rfl
  | cons y b ih =>
    rw [complementDigits, List.length_cons, List.length_cons, ih]

lemma stripLeading_finishable {scale : ℕ} {w : List ℕ} (hw : Digits w) (h : scale ≤ w.length) :
    Finishable (stripLeading scale w) scale := by
  refine ⟨hw.of_sublist (stripLeading_sublist scale w), ?_, stripLeading_leading scale w⟩
  rw [stripLeading, List.length_append, List.length_take_of_le h]
  exact Nat.le_add_right _ _

/-- The digits of `b` that are below those of `a`, and the carry. -/
def subLow (a b : Fixed) : List ℕ × ℤ := complementDigits 0 (b.val.take (b.scale - a.scale))

/-- The digits above them, the carry, and what is left of `b`. -/
def subHigh (a b : Fixed) : List ℕ × ℤ × List ℕ :=
  subDigits (subLow a b).2 (a.val.drop (a.scale - b.scale)) (b.val.drop (b.scale - a.scale))

/-- The digits that `realSub` writes to `work`. -/
def subWork (a b : Fixed) : List ℕ :=
  a.val.take (a.scale - b.scale) ++ (subLow a b).1 ++ (subHigh a b).1

lemma realSub_eq (a b : Fixed) (negative : Bool) : realSub a b negative =
    if (subHigh a b).2.2 ≠ [] ∨ (subHigh a b).2.1 ≠ 0 then .error .assertionFailure
    else chop .assertionFailure (stripLeading (max a.scale b.scale) (subWork a b))
      (max a.scale b.scale) >>= fun r => finish r.1 r.2 negative :=
  rfl

namespace Canonical

variable {a b : Fixed}

lemma subLow_digits (hb : b.Canonical) :
    Digits (subLow a b).1 ∧ -1 ≤ (subLow a b).2 ∧ (subLow a b).2 ≤ 0 := by
  refine complementDigits_digits (hb.digits_val.take _) fun h0 => ?_
  rw [List.head?_take] at h0
  split_ifs at h0 with hs
  exact hb.trailing (by omega) h0

lemma subWork_digits (ha : a.Canonical) (hb : b.Canonical) : Digits (subWork a b) := by
  have hlow := hb.subLow_digits (a := a)
  refine digits_append.mpr ⟨digits_append.mpr ⟨ha.digits_val.take _, hlow.1⟩, ?_⟩
  exact subDigits_digits hlow.2.1 hlow.2.2 (ha.digits_val.drop _) (hb.digits_val.drop _)

lemma subWork_length (ha : a.Canonical) (hb : b.Canonical) :
    (subWork a b).length = a.digits + (b.scale - a.scale) := by
  have hsa : a.scale ≤ a.val.length := ha.scale_le
  rw [subWork, subLow, subHigh, List.length_append, List.length_append, ha.take_length,
    complementDigits_length, hb.take_length, subDigits_length, List.length_drop, digits]
  omega

lemma subWork_finishable (ha : a.Canonical) (hb : b.Canonical) :
    Finishable (stripLeading (max a.scale b.scale) (subWork a b)) (max a.scale b.scale) := by
  refine stripLeading_finishable (ha.subWork_digits hb) ?_
  have hsa := ha.scale_le
  rw [ha.subWork_length hb]
  omega

end Canonical

lemma realSub_canonical {a b f : Fixed} {negative : Bool} (ha : a.Canonical) (hb : b.Canonical)
    (h : realSub a b negative = .ok f) : f.Canonical := by
  rw [realSub_eq] at h
  split_ifs at h with h1
  obtain ⟨r, hr, hf⟩ := bind_eq_ok.mp h
  exact finish_canonical (chop_finishable (ha.subWork_finishable hb) hr) hf

/-! ### Multiplication -/

/-- What the loops of `realMul` keep of their variables. -/
structure MulState.Valid (st : MulState) : Prop where
  digits : Digits st.work
  length : st.work.length = 2 * fixedDigits
  wi_lt : st.wi < 2 * fixedDigits

/-- The last digit that was written is the leading one, unless a carry is still to be added. -/
def MulState.Leading (st : MulState) : Prop := st.carry = 0 → st.work.getD st.wi 0 ≠ 0

/-- Write a sum that is not zero, and carry the rest. -/
lemma MulState.write {st : MulState} (hst : st.Valid) (wi v : ℕ) (hwi : wi < 2 * fixedDigits)
    (hv : 0 < v) : MulState.Valid ⟨st.work.set wi (v % 10), v / 10, wi⟩ ∧
      MulState.Leading ⟨st.work.set wi (v % 10), v / 10, wi⟩ := by
  refine ⟨⟨hst.digits.set wi (by omega), ?_, hwi⟩, fun hc => ?_⟩
  · rw [List.length_set]
    exact hst.length
  · have hlt : wi < st.work.length := by rw [hst.length]; exact hwi
    dsimp only at hc ⊢
    rw [List.getD_eq_getElem?_getD, List.getElem?_set_self hlt, Option.getD_some]
    omega

/-- The inner loop. Digits of `b` that are zero are passed over until one is not. -/
lemma mulDigit_leading {ad : ℕ} (had : ad ≠ 0) (ai : ℕ) (b : List ℕ) (bi : ℕ) {st : MulState}
    (hst : st.Valid) (hb : ai + bi + b.length ≤ 2 * fixedDigits)
    (hl : st.Leading ∨ ∃ d ∈ b, d ≠ 0) :
    (mulDigit ad ai b bi st).Valid ∧ (mulDigit ad ai b bi st).Leading := by
  induction b generalizing bi st with
  | nil => exact ⟨hst, hl.resolve_right (by simp)⟩
  | cons bd b ih =>
    rw [List.length_cons] at hb
    rw [mulDigit]
    split_ifs with h
    · refine ih (bi + 1) hst (by omega) (hl.imp_right ?_)
      rintro ⟨d, hd, hd0⟩
      rcases List.mem_cons.mp hd with rfl | hd
      · exact absurd h.1 hd0
      · exact ⟨d, hd, hd0⟩
    · have hpos : 0 < st.work.getD (ai + bi) 0 + ad * bd + st.carry := by
        rcases Nat.eq_zero_or_pos st.carry with hc | hc
        · have hbd : bd ≠ 0 := fun h0 => h ⟨h0, hc⟩
          have := Nat.mul_pos (Nat.pos_of_ne_zero had) (Nat.pos_of_ne_zero hbd)
          omega
        · omega
      obtain ⟨h1, h2⟩ := MulState.write hst (ai + bi) _ (by omega) hpos
      exact ih (bi + 1) h1 (by omega) (.inl h2)

lemma mulCarry_leading {n : ℕ} {st st' : MulState} (hst : st.Valid) (hl : st.Leading)
    (hn : st.wi + n < 2 * fixedDigits) (h : mulCarry n st = .ok st') :
    st'.Valid ∧ st'.Leading ∧ st'.carry = 0 := by
  induction n generalizing st with
  | zero =>
    rw [mulCarry] at h
    split_ifs at h with hc
    rw [Except.ok.injEq] at h
    subst h
    exact ⟨hst, hl, hc⟩
  | succ n ih =>
    rw [mulCarry] at h
    split_ifs at h with hc
    · rw [Except.ok.injEq] at h
      subst h
      exact ⟨hst, hl, hc⟩
    · obtain ⟨h1, h2⟩ := MulState.write hst (st.wi + 1)
        (st.work.getD (st.wi + 1) 0 + st.carry) (by omega) (by omega)
      exact ih h1 h2 (by dsimp only; omega) h

/-- The outer loop: something is written for each digit of `a` that is not zero. -/
lemma mulDigits_leading {b : List ℕ} (hb : ∃ d ∈ b, d ≠ 0) (a : List ℕ) (ai : ℕ)
    {st st' : MulState} (hst : st.Valid) (hc : st.carry = 0)
    (hlen : ai + a.length + b.length ≤ 2 * fixedDigits) (hl : st.Leading ∨ ∃ d ∈ a, d ≠ 0)
    (h : mulDigits b a ai st = .ok st') : st'.Valid ∧ st'.work.getD st'.wi 0 ≠ 0 := by
  induction a generalizing ai st with
  | nil =>
    rw [mulDigits, Except.ok.injEq] at h
    subst h
    exact ⟨hst, hl.resolve_right (by simp) hc⟩
  | cons ad a ih =>
    rw [List.length_cons] at hlen
    rw [mulDigits] at h
    split_ifs at h with had
    · refine ih (ai + 1) hst hc (by omega) (hl.imp_right ?_) h
      rintro ⟨d, hd, hd0⟩
      rcases List.mem_cons.mp hd with rfl | hd
      · exact absurd had hd0
      · exact ⟨d, hd, hd0⟩
    · obtain ⟨st1, hst1, h⟩ := bind_eq_ok.mp h
      obtain ⟨hv, hl⟩ := mulDigit_leading had ai b 0 hst (by omega) (.inr hb)
      have hwi := hv.wi_lt
      obtain ⟨hv1, hl1, hc1⟩ := mulCarry_leading hv hl (by omega) hst1
      exact ih (ai + 1) hv1 hc1 (by omega) (.inl hl1) h

/-- The variables before the loops. -/
def MulState.start : MulState := ⟨List.replicate (2 * fixedDigits) 0, 0, 0⟩

lemma MulState.start_valid : MulState.start.Valid :=
  ⟨digits_replicate_zero _, List.length_replicate, by decide⟩

/-- The digits of `work` that are the product. -/
def mulWork (st : MulState) (scale : ℕ) : List ℕ := st.work.take (max (st.wi + 1) scale)

lemma realMul_eq (a b : Fixed) (negative : Bool) : realMul a b negative =
    (mulDigits b.val a.val 0 MulState.start >>= fun st =>
      chop .rangeError (mulWork st (a.scale + b.scale)) (a.scale + b.scale) >>= fun r =>
        finish r.1 r.2 negative) :=
  rfl

namespace Canonical

variable {a b : Fixed} {st : MulState}

lemma mulDigits_leading (ha : a.Canonical) (hb : b.Canonical) (ha0 : a.val ≠ []) (hb0 : b.val ≠ [])
    (hst : mulDigits b.val a.val 0 MulState.start = .ok st) :
    st.Valid ∧ st.work.getD st.wi 0 ≠ 0 := by
  have hla : a.val.length ≤ fixedDigits := ha.digits_le
  have hlb : b.val.length ≤ fixedDigits := hb.digits_le
  exact Fixed.mulDigits_leading (hb.exists_ne_zero hb0) a.val 0 MulState.start_valid rfl (by omega)
    (.inr (ha.exists_ne_zero ha0)) hst

lemma mulWork_length (ha : a.Canonical) (hb : b.Canonical) (hst : st.Valid) :
    (mulWork st (a.scale + b.scale)).length = max (st.wi + 1) (a.scale + b.scale) := by
  have hla : a.val.length ≤ fixedDigits := ha.digits_le
  have hlb : b.val.length ≤ fixedDigits := hb.digits_le
  have hsa : a.scale ≤ a.val.length := ha.scale_le
  have hsb : b.scale ≤ b.val.length := hb.scale_le
  have hwi := hst.wi_lt
  rw [mulWork, List.length_take, hst.length]
  omega

lemma mulWork_finishable (ha : a.Canonical) (hb : b.Canonical) (ha0 : a.val ≠ []) (hb0 : b.val ≠ [])
    (hst : mulDigits b.val a.val 0 MulState.start = .ok st) :
    Finishable (mulWork st (a.scale + b.scale)) (a.scale + b.scale) := by
  obtain ⟨hv, htop⟩ := ha.mulDigits_leading hb ha0 hb0 hst
  have hlen := ha.mulWork_length hb hv
  refine ⟨hv.digits.take _, ?_, fun hs => ?_⟩
  · rw [hlen]
    exact le_max_right _ _
  · rw [hlen] at hs
    rw [List.getLast?_eq_getElem?, hlen, show max (st.wi + 1) (a.scale + b.scale) - 1 = st.wi by
      omega, mulWork, List.getElem?_take_of_lt (by omega)]
    intro h0
    rw [List.getD_eq_getElem?_getD, h0] at htop
    exact htop rfl

end Canonical

lemma realMul_canonical {a b f : Fixed} {negative : Bool} (ha : a.Canonical) (hb : b.Canonical)
    (ha0 : a.val ≠ []) (hb0 : b.val ≠ []) (h : realMul a b negative = .ok f) : f.Canonical := by
  rw [realMul_eq] at h
  obtain ⟨st, hst, h⟩ := bind_eq_ok.mp h
  obtain ⟨r, hr, hf⟩ := bind_eq_ok.mp h
  exact finish_canonical (chop_finishable (ha.mulWork_finishable hb ha0 hb0 hst) hr) hf

/-! ### Division -/

/-- There are fewer subtractions than are allowed for. -/
lemma divDigit_lt {bv : List ℕ} {pos n : ℕ} {av : List ℕ} {r : ℕ × List ℕ}
    (h : divDigit bv pos n av = .ok r) : r.1 < n := by
  induction n generalizing av r with
  | zero => cases h
  | succ n ih =>
    rw [divDigit] at h
    obtain ⟨c, -, h⟩ := bind_eq_ok.mp h
    split_ifs at h with hc
    · rw [Except.ok.injEq] at h
      subst h
      exact Nat.succ_pos n
    · obtain ⟨q, hq, h⟩ := bind_eq_ok.mp h
      rw [Except.ok.injEq] at h
      subst h
      exact Nat.succ_lt_succ (ih hq)

lemma divDigits_digits {bv : List ℕ} {n digits : ℕ} {running : List ℕ} {r : ℕ × List ℕ}
    (h : divDigits bv n digits running = .ok r) : Digits r.2 := by
  induction n generalizing digits running r with
  | zero =>
    rw [divDigits] at h
    split_ifs at h with hend
    rw [Except.ok.injEq] at h
    subst h
    exact digits_nil
  | succ n ih =>
    rw [divDigits] at h
    split_ifs at h with hend
    · rw [Except.ok.injEq] at h
      subst h
      exact digits_nil
    · obtain ⟨c, hc, h⟩ := bind_eq_ok.mp h
      obtain ⟨q, hq, h⟩ := bind_eq_ok.mp h
      rw [Except.ok.injEq] at h
      subst h
      exact digits_cons.mpr ⟨Nat.le_of_lt_succ (divDigit_lt hc), ih hq⟩

/-- The digits of the quotient are finished: an initial zero was skipped. -/
lemma quotient_finishable {work : List ℕ} (hw : Digits work) {unscale digits : ℕ}
    (hlen : max digits (stripFraction work unscale).2 ≤ (stripFraction work unscale).1.length) :
    Finishable
      ((stripFraction work unscale).1.take (max digits (stripFraction work unscale).2)).reverse
      (max digits (stripFraction work unscale).2 - (stripFraction work unscale).2) := by
  obtain ⟨k, -, -, heq, -, hh⟩ := stripFraction_spec work unscale
  rw [heq] at hlen ⊢
  dsimp only at hlen ⊢
  refine ⟨digits_reverse.mpr ((hw.drop k).take _), ?_, fun hs => ?_⟩
  · rw [List.length_reverse, List.length_take]
    omega
  · rw [List.length_reverse, List.length_take] at hs
    rw [List.getLast?_reverse, List.head?_take, if_neg (by omega)]
    exact hh (by omega)

lemma realDiv_canonical {a b f : Fixed} {negative : Bool} (h : realDiv a b negative = .ok f) :
    f.Canonical := by
  obtain ⟨⟨digits, q⟩, hq, h⟩ := bind_eq_ok.mp h
  dsimp only at h
  split_ifs at h with h1 h2
  refine finish_canonical (quotient_finishable ?_ (by omega)) h
  exact digits_append.mpr ⟨digits_append.mpr ⟨digits_replicate_zero _, divDigits_digits hq⟩,
    digits_replicate_zero _⟩

/-! ### Operators -/

namespace Canonical

variable {a b f : Fixed}

lemma of_ok_zero (h : Except.ok Fixed.zero = (Except.ok f : Except FixedExn Fixed)) : f.Canonical := by
  rw [Except.ok.injEq] at h
  subst h
  exact Canonical.zero

lemma add (ha : a.Canonical) (hb : b.Canonical) (h : a.add b = .ok f) : f.Canonical := by
  unfold Fixed.add at h
  split_ifs at h
  · exact realAdd_canonical ha hb h
  · exact of_ok_zero h
  · exact realSub_canonical ha hb h
  · exact realSub_canonical hb ha h

lemma sub (ha : a.Canonical) (hb : b.Canonical) (h : a.sub b = .ok f) : f.Canonical := by
  unfold Fixed.sub at h
  split_ifs at h
  · exact realAdd_canonical ha hb h
  · exact of_ok_zero h
  · exact realSub_canonical ha hb h
  · exact realSub_canonical hb ha h

lemma mul (ha : a.Canonical) (hb : b.Canonical) (h : a.mul b = .ok f) : f.Canonical := by
  unfold Fixed.mul at h
  split_ifs at h with h0
  · exact of_ok_zero h
  all_goals
    push Not at h0
    have ha0 : a.val ≠ [] := fun hnil => h0.1 (congrArg List.length hnil)
    have hb0 : b.val ≠ [] := fun hnil => h0.2 (congrArg List.length hnil)
    exact realMul_canonical ha hb ha0 hb0 h

lemma div (h : a.div b = .ok f) : f.Canonical := by
  unfold Fixed.div at h
  split_ifs at h
  · exact of_ok_zero h
  · exact realDiv_canonical h
  · exact realDiv_canonical h

end Canonical

end Fixed

end OmniORB
