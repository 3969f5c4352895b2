import OmniORB.Fixed.Arithmetic
import OmniORB.Fixed.Order
import OmniORB.Library.LongDivision

/-!
# The loops of the division

`divDigit` takes the divisor away from the top of the running digits as often as it goes, and
`divDigits` finds one digit of the quotient after the other.
-/

namespace OmniORB

open Library

namespace Fixed

/-! ### Numbers of digits -/

/-- The whole number with the digits, the least significant first. -/
def num (l : List ℕ) : ℕ := Nat.ofDigits 10 l

@[simp] lemma num_nil : num [] = 0 := rfl

lemma num_cons (x : ℕ) (l : List ℕ) : num (x :: l) = x + 10 * num l := Nat.ofDigits_cons

lemma num_append (k l : List ℕ) : num (k ++ l) = num k + 10 ^ k.length * num l :=
  Nat.ofDigits_append

@[simp] lemma num_replicate_zero (n : ℕ) : num (List.replicate n 0) = 0 := Nat.ofDigits_replicate_zero

lemma num_lt {l : List ℕ} (h : Digits l) : num l < 10 ^ l.length :=
  Nat.ofDigits_lt_base_pow_length (by norm_num) fun d hd => Nat.lt_succ_of_le (h d hd)

lemma num_headD (l : List ℕ) : num l = l.headD 0 + 10 * num (l.drop 1) := by
  cases l with
  | nil => rfl
  | cons x l => exact num_cons x l

lemma num_take_drop (l : List ℕ) {n : ℕ} (hn : n ≤ l.length) :
    num l = num (l.take n) + 10 ^ n * num (l.drop n) := by
  conv_lhs => rw [← List.take_append_drop n l]
  rw [num_append, List.length_take_of_le hn]

lemma num_eq_zero_iff {l : List ℕ} : num l = 0 ↔ l.all (· = 0) = true := by
  induction l with
  | nil => simp
  | cons x l ih => simp [num_cons, ← ih]

lemma fraction_reverse_num (l : List ℕ) : fraction l.reverse = (num l : ℚ) / 10 ^ l.length :=
  fraction_reverse l

/-! ### Subtraction -/

/-- A digit and its carry are the difference of the digits. -/
lemma differenceDigit_eq {v : ℤ} (h10 : -10 ≤ v) (h9 : v ≤ 9) :
    (octet (if v < 0 then v + 10 else v) : ℤ) + 10 * (if v < 0 then -1 else 0) = v := by
  split_ifs with h
  · rw [octet_of_le (by omega) (by omega)]
    omega
  · rw [octet_of_le (by omega) (by omega)]
    omega

lemma subDigits_num {c : ℤ} (h0 : -1 ≤ c) (h1 : c ≤ 0) {a b : List ℕ} (ha : Digits a)
    (hb : Digits b) (hlen : b.length ≤ a.length) :
    (num (subDigits c a b).1 : ℤ) + (subDigits c a b).2.1 * 10 ^ a.length = num a - num b + c := by
  fun_induction subDigits c a b with
  | case1 c b =>
    obtain rfl : b = [] := List.eq_nil_of_length_eq_zero (Nat.le_zero.mp hlen)
    simp
  | case2 c x a b v r ih =>
    obtain ⟨hx, ha⟩ := digits_cons.mp ha
    have hy := hb.headD
    have hdigit := differenceDigit_eq (v := v) (by omega) (by omega)
    have hrest := ih (differenceCarry_le v).1 (differenceCarry_le v).2 ha (hb.drop 1)
      (by rw [List.length_drop]; rw [List.length_cons] at hlen; omega)
    change (num (octet (if v < 0 then v + 10 else v) :: r.1) : ℤ) + r.2.1 * 10 ^ (x :: a).length = _
    rw [num_cons, num_cons, num_headD b, List.length_cons, pow_succ]
    push_cast
    linear_combination hdigit + 10 * hrest

/-- Where the difference is not negative, it is what is left. -/
lemma num_subDigits {a b : List ℕ} (ha : Digits a) (hb : Digits b) (hlen : b.length ≤ a.length)
    (h : num b ≤ num a) : num (subDigits 0 a b).1 = num a - num b := by
  have heq := subDigits_num (by norm_num) le_rfl ha hb hlen
  have hlt := num_lt (subDigits_digits (by norm_num) (le_refl (0 : ℤ)) ha hb)
  have hlt' := num_lt ha
  rw [subDigits_length] at hlt
  -- both are below the power, so the carry is zero
  have hmod : ((num (subDigits 0 a b).1 : ℕ) : ℤ) % 10 ^ a.length =
      ((num a - num b : ℕ) : ℤ) % 10 ^ a.length := by
    rw [Nat.cast_sub h, ← add_zero ((num a : ℤ) - num b), ← heq, Int.add_mul_emod_self_right]
  have hsmall : num a - num b < 10 ^ a.length := by omega
  rw [Int.emod_eq_of_lt (by positivity) (by exact_mod_cast hlt),
    Int.emod_eq_of_lt (by positivity) (by exact_mod_cast hsmall)] at hmod
  exact_mod_cast hmod

/-! ### Comparison -/

lemma divCmpDigits_neg {k l : List ℕ} (hk : Digits k) (hl : Digits l) (hlen : l.length ≤ k.length) :
    divCmpDigits k l < 0 ↔ fraction (k.take l.length) < fraction l := by
  fun_induction divCmpDigits k l with
  | case1 k => simp
  | case2 y l => exact absurd hlen (by simp)
  | case3 x k y l h =>
    obtain ⟨-, hk⟩ := digits_cons.mp hk
    obtain ⟨-, hl⟩ := digits_cons.mp hl
    rw [List.length_cons, List.take_succ_cons]
    rcases lt_or_gt_of_ne (fun heq : x = y => h (by rw [heq]; exact sub_self _)) with hlt | hlt
    · exact iff_of_true (by omega) (fraction_lt_of_head_lt (hk.take _) hlt)
    · exact iff_of_false (by omega) (fraction_lt_of_head_lt hl hlt).not_gt
  | case4 x k y l h ih =>
    obtain rfl : x = y := by omega
    obtain ⟨-, hk⟩ := digits_cons.mp hk
    obtain ⟨-, hl⟩ := digits_cons.mp hl
    rw [List.length_cons, List.take_succ_cons, fraction_cons_lt_cons]
    exact ih hk hl (Nat.le_of_succ_le_succ hlen)

/-- `divCmp` compares the divisor with the running digits from the position on that it is to be
taken away from. -/
lemma divCmp_neg {av bv : List ℕ} {pos : ℕ} (ha : Digits av) (hb : Digits bv)
    (hbpos : bv.length ≤ pos + 1) (hpos : pos < av.length) :
    ∃ c, divCmp av bv pos = .ok c ∧ (c < 0 ↔ num (av.drop (pos + 1 - bv.length)) < num bv) := by
  have hlow : pos + 1 - bv.length + bv.length = pos + 1 := Nat.sub_add_cancel hbpos
  have hsplit : num (av.drop (pos + 1 - bv.length)) =
      num ((av.take (pos + 1)).drop (pos + 1 - bv.length)) +
        10 ^ bv.length * num (av.drop (pos + 1)) := by
    rw [num_take_drop (n := bv.length) (av.drop (pos + 1 - bv.length))
      (by rw [List.length_drop]; omega), List.drop_drop, hlow, List.drop_take]
    congr 3
    omega
  rw [divCmp]
  split_ifs with hany hlong
  · refine ⟨1, rfl, iff_of_false (by decide) ?_⟩
    have hne : num (av.drop (pos + 1)) ≠ 0 := by
      rw [Ne, num_eq_zero_iff]
      intro hall
      rw [List.any_eq_true] at hany
      obtain ⟨x, hx, hx0⟩ := hany
      have := List.all_eq_true.mp hall x hx
      simp_all
    have hbnum := num_lt hb
    have hle : 10 ^ bv.length ≤ 10 ^ bv.length * num (av.drop (pos + 1)) :=
      Nat.le_mul_of_pos_right _ (Nat.pos_of_ne_zero hne)
    omega
  · omega
  · refine ⟨_, rfl, ?_⟩
    have hzero : num (av.drop (pos + 1)) = 0 := by
      rw [num_eq_zero_iff, List.all_eq_true]
      intro x hx
      by_contra h0
      exact hany (List.any_eq_true.mpr ⟨x, hx, by simpa using h0⟩)
    have hlen : (av.take (pos + 1)).length = pos + 1 := List.length_take_of_le hpos
    rw [hsplit, hzero, Nat.mul_zero,
      divCmpDigits_neg (digits_reverse.mpr (ha.take _)) (digits_reverse.mpr hb)
        (by rw [List.length_reverse, List.length_reverse, hlen]; exact hbpos),
      List.length_reverse, List.take_reverse, hlen, fraction_reverse_num, fraction_reverse_num,
      List.length_drop, hlen, Nat.sub_sub_self hbpos, div_lt_div_iff_of_pos_right (by positivity),
      Nat.cast_lt]
    exact Iff.rfl

/-! ### One digit -/

/-- The top of the running digits without the divisor. -/
lemma num_subtracted {av bv : List ℕ} (ha : Digits av) (hb : Digits bv) (low : ℕ)
    (hlen : low + bv.length ≤ av.length) (h : num bv ≤ num (av.drop low)) :
    num (av.take low ++ (subDigits 0 (av.drop low) bv).1) + 10 ^ low * num bv = num av := by
  have hlow : low ≤ av.length := by omega
  have htop := num_subDigits (ha.drop low) hb (by rw [List.length_drop]; omega) h
  rw [num_append, List.length_take_of_le hlow, num_take_drop av hlow, htop, Nat.mul_sub]
  have hle : 10 ^ low * num bv ≤ 10 ^ low * num (av.drop low) := Nat.mul_le_mul_left _ h
  omega

/-- The count is the quotient at the position, and the remainder is left. -/
lemma divDigit_eq {bv : List ℕ} {pos : ℕ} (hb : Digits bv) (hb0 : 0 < num bv)
    (hbpos : bv.length ≤ pos + 1) (n : ℕ) {av : List ℕ} (ha : Digits av) (hpos : pos < av.length)
    (hn : num av < n * (num bv * 10 ^ (pos + 1 - bv.length))) :
    ∃ rest, divDigit bv pos n av = .ok (num av / (num bv * 10 ^ (pos + 1 - bv.length)), rest) ∧
      num rest = num av % (num bv * 10 ^ (pos + 1 - bv.length)) ∧ Digits rest ∧
        rest.length = av.length := by
  have hlow : pos + 1 - bv.length + bv.length = pos + 1 := Nat.sub_add_cancel hbpos
  induction n generalizing av with
  | zero => omega
  | succ n ih =>
    obtain ⟨c, hcmp, hneg⟩ := divCmp_neg ha hb hbpos hpos
    have hsplit := num_take_drop av (n := pos + 1 - bv.length) (by omega)
    have hlt := num_lt (ha.take (pos + 1 - bv.length))
    rw [List.length_take_of_le (by omega)] at hlt
    rw [divDigit, hcmp]
    change ∃ rest, (if c < 0 then _ else _) = _ ∧ _
    by_cases hc : c < 0
    · have hsmall : num av < num bv * 10 ^ (pos + 1 - bv.length) := by
        have hle : (num (av.drop (pos + 1 - bv.length)) + 1) * 10 ^ (pos + 1 - bv.length) ≤
            num bv * 10 ^ (pos + 1 - bv.length) := Nat.mul_le_mul_right _ (hneg.mp hc)
        linarith
      rw [if_pos hc, Nat.div_eq_of_lt hsmall]
      exact ⟨av, rfl, (Nat.mod_eq_of_lt hsmall).symm, ha, rfl⟩
    · have hle : num bv ≤ num (av.drop (pos + 1 - bv.length)) := not_lt.mp fun h => hc (hneg.mpr h)
      have hsub := num_subtracted ha hb (pos + 1 - bv.length) (by omega) hle
      have hdigits : Digits (av.take (pos + 1 - bv.length) ++
          (subDigits 0 (av.drop (pos + 1 - bv.length)) bv).1) :=
        digits_append.mpr ⟨ha.take _, subDigits_digits (by norm_num) le_rfl (ha.drop _) hb⟩
      have hlen : (av.take (pos + 1 - bv.length) ++
          (subDigits 0 (av.drop (pos + 1 - bv.length)) bv).1).length = av.length := by
        rw [List.length_append, subDigits_length, ← List.length_append, List.take_append_drop]
      rw [Nat.mul_comm (10 ^ _)] at hsub
      have hpow : 0 < num bv * 10 ^ (pos + 1 - bv.length) := Nat.mul_pos hb0 (by positivity)
      obtain ⟨rest, hdiv, hnum, hrest, hlen'⟩ := ih hdigits (by rw [hlen]; exact hpos) (by
        rw [Nat.succ_mul] at hn
        omega)
      refine ⟨rest, ?_, ?_, hrest, hlen'.trans hlen⟩
      · rw [if_neg hc, hdiv, ← hsub, Nat.add_div_right _ hpow]
        rfl
      · rw [hnum, ← hsub, Nat.add_mod_right]

/-! ### All digits -/

/-- The digits of the quotient of `r` that the loop finds from position `n - 1` on, and their
count. -/
structure Divided (bv : List ℕ) (n r count : ℕ) (q : List ℕ) (e : ℕ) : Prop where
  division : LongDivision 10 r (num bv) q e
  position : e + q.length = n + 1 - bv.length
  ends : fixedDigits ≤ count ∨ r % (num bv * 10 ^ e) = 0
  count_le : q ≠ [] → count ≤ fixedDigits

namespace Divided

variable {bv q : List ℕ} {n r count : ℕ}

lemma nil (h : r < num bv * 10 ^ (n + 1 - bv.length)) (hend : fixedDigits ≤ count ∨ r = 0) :
    Divided bv n r count [] (n + 1 - bv.length) where
  division := .nil h
  position := Nat.add_zero _
  ends := hend.imp_right fun h0 => by rw [h0, Nat.zero_mod]
  count_le hne := absurd rfl hne

/-- One more digit in front. -/
lemma cons {e : ℕ} (hb0 : 0 < num bv) (hbn : bv.length ≤ n + 1) (hr : r ≠ 0)
    (hlt : r < num bv * 10 ^ (n + 2 - bv.length)) (hcount : q = [] → count ≤ fixedDigits)
    (h : Divided bv n (r % (num bv * 10 ^ (n + 1 - bv.length))) count q e) :
    Divided bv (n + 1) r count (r / (num bv * 10 ^ (n + 1 - bv.length)) :: q) e := by
  have hpos := h.position
  have hdiv := h.division
  rw [← hpos] at hdiv
  refine ⟨?_, ?_, ?_, ?_⟩
  · rw [← hpos]
    refine hdiv.cons (by norm_num) hb0 hr ?_
    rwa [hpos, ← Nat.sub_add_comm hbn]
  · rw [List.length_cons]
    omega
  · refine h.ends.imp_right fun h0 => ?_
    rwa [Nat.mod_mod_of_dvd _ (Nat.mul_dvd_mul_left _ (pow_dvd_pow 10 (by omega)))] at h0
  · intro _
    by_cases hq : q = []
    · exact hcount hq
    · exact h.count_le hq

end Divided

lemma divDigits_stop {bv running : List ℕ} {digits : ℕ} (n : ℕ)
    (h : fixedDigits ≤ digits ∨ running.all (· = 0) = true) :
    divDigits bv n digits running = .ok (digits, []) := by
  cases n with
  | zero => rw [divDigits, if_pos h]
  | succ n => rw [divDigits, if_pos h]

lemma divDigits_stopped {bv running : List ℕ} {digits : ℕ} (n : ℕ)
    (h : fixedDigits ≤ digits ∨ running.all (· = 0) = true)
    (hlt : num running < num bv * 10 ^ (n + 1 - bv.length)) :
    ∃ q e, divDigits bv n digits running = .ok (digits + q.length, q) ∧
      Divided bv n (num running) (digits + q.length) q e :=
  ⟨[], _, divDigits_stop n h, .nil hlt (h.imp_right num_eq_zero_iff.mpr)⟩

/-- One digit, as long as the loop goes on. -/
lemma divDigits_step {bv running : List ℕ} {n digits : ℕ} (hb : Digits bv) (hb0 : 0 < num bv)
    (hbn : bv.length ≤ n + 1) (hr : Digits running) (hlen : n < running.length)
    (hlt : num running < num bv * 10 ^ (n + 2 - bv.length))
    (hon : ¬(fixedDigits ≤ digits ∨ running.all (· = 0) = true)) :
    ∃ rest, Digits rest ∧ rest.length = running.length ∧
      num rest = num running % (num bv * 10 ^ (n + 1 - bv.length)) ∧
      divDigits bv (n + 1) digits running = (divDigits bv n
        (if digits ≠ 0 ∨ num running / (num bv * 10 ^ (n + 1 - bv.length)) ≠ 0 then digits + 1
          else digits) rest).map
            fun r => (r.1, num running / (num bv * 10 ^ (n + 1 - bv.length)) :: r.2) := by
  have hten : num running < 10 * (num bv * 10 ^ (n + 1 - bv.length)) := by
    have hpow : n + 2 - bv.length = n + 1 - bv.length + 1 := by omega
    rw [hpow, pow_succ] at hlt
    linarith
  obtain ⟨rest, hdigit, hnum, hrest, hlen'⟩ := divDigit_eq hb hb0 hbn 10 hr hlen hten
  refine ⟨rest, hrest, hlen', hnum, ?_⟩
  rw [divDigits, if_neg hon]
  simp only [hdigit]
  change (do let r ← divDigits bv n _ rest; .ok (r.1, _ :: r.2)) = _
  cases divDigits bv n _ rest with
  | error e => rfl
  | ok r => rfl

/-- Once a digit counts, so do all others. -/
lemma divDigits_started {bv : List ℕ} (hb : Digits bv) (hb0 : 0 < num bv) (n digits : ℕ)
    {running : List ℕ} (hr : Digits running) (hlen : n ≤ running.length)
    (hroom : fixedDigits - digits + bv.length ≤ n + 1)
    (hlt : num running < num bv * 10 ^ (n + 1 - bv.length))
    (hfirst : digits ≠ 0 ∨ num bv * 10 ^ (n - bv.length) ≤ num running) :
    ∃ q e, divDigits bv n digits running = .ok (digits + q.length, q) ∧
      Divided bv n (num running) (digits + q.length) q e := by
  induction n generalizing digits running with
  | zero =>
    refine divDigits_stopped 0 (.inl ?_) hlt
    have hbpos : 0 < bv.length := List.length_pos_iff.mpr fun hnil => hb0.ne' (by rw [hnil]; rfl)
    omega
  | succ n ih =>
    by_cases hon : fixedDigits ≤ digits ∨ running.all (· = 0) = true
    · exact divDigits_stopped (n + 1) hon hlt
    have hdigits : digits < fixedDigits := not_le.mp fun h => hon (.inl h)
    have hr0 : num running ≠ 0 := fun h => hon (.inr (num_eq_zero_iff.mp h))
    have hbn : bv.length ≤ n + 1 := by omega
    have hpow : 0 < num bv * 10 ^ (n + 1 - bv.length) := Nat.mul_pos hb0 (by positivity)
    obtain ⟨rest, hrest, hlen', hnum, hdiv⟩ := divDigits_step hb hb0 hbn hr hlen hlt hon
    have hcounts : digits ≠ 0 ∨ num running / (num bv * 10 ^ (n + 1 - bv.length)) ≠ 0 :=
      hfirst.imp_right fun hle => (Nat.div_pos hle hpow).ne'
    have hsmall : num rest < num bv * 10 ^ (n + 1 - bv.length) := by
      rw [hnum]
      exact Nat.mod_lt _ hpow
    obtain ⟨q, e, hq, hdivided⟩ := ih (digits + 1) hrest (by omega) (by omega) hsmall
      (.inl (Nat.succ_ne_zero digits))
    have hcount : digits + (q.length + 1) = digits + 1 + q.length := by omega
    rw [hnum] at hdivided
    refine ⟨num running / (num bv * 10 ^ (n + 1 - bv.length)) :: q, e, ?_, ?_⟩
    · rw [hdiv, if_pos hcounts, hq, List.length_cons, hcount]
      rfl
    · rw [List.length_cons, hcount]
      refine hdivided.cons hb0 hbn hr0 hlt fun hnil => ?_
      rw [hnil, List.length_nil]
      omega

/-- An initial zero does not count. -/
lemma divDigits_initial_zero {bv : List ℕ} (hb : Digits bv) (hb0 : 0 < num bv) (n : ℕ)
    {running : List ℕ} (hr : Digits running) (hlen : n + 1 ≤ running.length)
    (hroom : fixedDigits + bv.length ≤ n + 1)
    (hlt : num running < num bv * 10 ^ (n + 1 - bv.length))
    (hfirst : num bv * 10 ^ (n - bv.length) ≤ num running) :
    ∃ q e, divDigits bv (n + 1) 0 running = .ok (q.length, 0 :: q) ∧
      Divided bv (n + 1) (num running) q.length (0 :: q) e := by
  have hpos : 0 < num bv * 10 ^ (n - bv.length) := Nat.mul_pos hb0 (by positivity)
  have hon : ¬(fixedDigits ≤ 0 ∨ running.all (· = 0) = true) := by
    rw [← num_eq_zero_iff, not_or]
    exact ⟨by decide, by omega⟩
  have hlt' : num running < num bv * 10 ^ (n + 2 - bv.length) :=
    hlt.trans_le (Nat.mul_le_mul_left _ (Nat.pow_le_pow_right (by norm_num) (by omega)))
  obtain ⟨rest, hrest, hlen', hnum, hdiv⟩ := divDigits_step hb hb0 (by omega) hr hlen hlt' hon
  have hzero : num running / (num bv * 10 ^ (n + 1 - bv.length)) = 0 := Nat.div_eq_of_lt hlt
  have hsame : num rest = num running := by rw [hnum, Nat.mod_eq_of_lt hlt]
  obtain ⟨q, e, hq, hdivided⟩ := divDigits_started hb hb0 n 0 hrest (by omega)
    (by omega) (by rw [hsame]; exact hlt) (.inr (by rw [hsame]; exact hfirst))
  rw [Nat.zero_add] at hq hdivided
  refine ⟨q, e, ?_, ?_⟩
  · rw [hdiv, hzero, if_neg (by simp), hq]
    rfl
  · rw [hnum] at hdivided
    have hcons := hdivided.cons hb0 (by omega) (fun h => hon (.inr (num_eq_zero_iff.mp h))) hlt'
      (fun hnil => by rw [hnil]; exact Nat.zero_le _)
    rwa [hzero] at hcons

end Fixed

end OmniORB
