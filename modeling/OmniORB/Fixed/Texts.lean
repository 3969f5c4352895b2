import OmniORB.Fixed.Operations
import OmniORB.Fixed.Strings

/-!
# Fixed point numbers and texts

`to_string` and `NP_asString` write a number as a text, and `NP_fromString` reads a text. What texts
there are is stated apart from the code.
-/

namespace OmniORB

open Library

namespace Fixed

/-! ### Writing -/

/-- `pd_val[j] + '0'` -/
def charOf (d : ℕ) : UInt8 := UInt8.ofNat (d + 0x30)

/-- The loop over the digits, from the most significant on, with a `.` where as many are left as
there are decimal places. -/
def writeText (scale : ℕ) : List ℕ → List UInt8
  | [] => []
  | d :: l =>
    if l.length + 1 = scale then 0x2e :: charOf d :: writeText scale l
    else charOf d :: writeText scale l

/-- `NP_asString` -/
def asText (f : Fixed) : List UInt8 :=
  (if f.negative then [0x2d] else []) ++ (if f.digits = f.scale then [0x30] else []) ++
    writeText f.scale f.val.reverse

/-- `to_string`: zeros follow up to the scale of the IDL type. -/
def toText (f : Fixed) : List UInt8 :=
  f.asText ++
    if f.scale < f.idlScale then
      (if f.scale = 0 then [0x2e] else []) ++ List.replicate (f.idlScale - f.scale) 0x30
    else []

/-! ### Texts -/

/-- The text of a number: white space, a sign, digits with at most one decimal point, a `d` and
white space. -/
structure Text (s : List UInt8) where
  before : List UInt8
  negative : Bool
  sign : List UInt8
  whole : List UInt8
  point : List UInt8
  frac : List UInt8
  suffix : List UInt8
  after : List UInt8
  eq : s = before ++ (sign ++ (whole ++ (point ++ (frac ++ (suffix ++ after)))))
  before_space : before.all isSpace = true
  sign_eq : negative = true ∧ sign = [0x2d] ∨ negative = false ∧ (sign = [] ∨ sign = [0x2b])
  numerals_whole : Numerals whole
  point_eq : point = [0x2e] ∨ point = [] ∧ frac = []
  numerals_frac : Numerals frac
  nonempty : whole ≠ [] ∨ point ≠ []
  suffix_eq : suffix = [] ∨ suffix = [0x64] ∨ suffix = [0x44]
  after_space : after.all isSpace = true

/-- The number that digits stand for, with a decimal point before the last of them. -/
def decimal (chars : List UInt8) (places : ℕ) : ℚ := num (chars.reverse.map digitOf) / 10 ^ places

def Text.value {s : List UInt8} (t : Text s) : ℚ :=
  signed t.negative (decimal (t.whole ++ t.frac) t.frac.length)

/-- A text with a digit in it. -/
def Denotes (s : List UInt8) (x : ℚ) : Prop := ∃ t : Text s, t.whole ++ t.frac ≠ [] ∧ t.value = x

/-- A text whose only digit would be a decimal point. -/
def LonePoint (s : List UInt8) : Prop := ∃ t : Text s, t.whole ++ t.frac = []

/-! ### Reading -/

lemma isNumeral_not_space {c : UInt8} (h : isNumeral c = true) : isSpace c = false := by
  obtain ⟨h1, h2⟩ := isNumeral_iff.mp h
  have h20 : c ≠ 0x20 := by
    rintro rfl
    exact absurd h1 (by decide)
  have hd : ¬c ≤ 0x0d := by
    rw [UInt8.le_iff_toNat_le]
    change ¬c.toNat ≤ 13
    omega
  simp [isSpace, h20, hd]

lemma isSpace_not_numeral {c : UInt8} (h : isSpace c = true) : isNumeral c = false := by
  by_contra hne
  rw [isNumeral_not_space (by simpa using hne)] at h
  cases h

namespace Text

variable {s : List UInt8} (t : Text s)

/-- What follows white space and the sign. -/
def number : List UInt8 := t.whole ++ (t.point ++ (t.frac ++ (t.suffix ++ t.after)))

/-- What follows the digits. -/
def rest : List UInt8 := t.suffix ++ t.after

/-- The digits before the decimal point, leading zeros left out. -/
def significant : List UInt8 := t.whole.dropWhile (· = 0x30)

lemma number_head : ∃ c l, t.number = c :: l ∧ (isNumeral c = true ∨ c = 0x2e) := by
  unfold number
  rcases hw : t.whole with - | ⟨c, l⟩
  · rcases t.point_eq with hp | ⟨hp, -⟩
    · exact ⟨0x2e, _, by rw [hp]; rfl, .inr rfl⟩
    · rcases t.nonempty with h | h
      · exact absurd hw h
      · exact absurd hp h
  · refine ⟨c, _, rfl, .inl (t.numerals_whole c ?_)⟩
    rw [hw]
    exact List.mem_cons_self

/-- What follows the digits begins with none, and with no decimal point. -/
lemma rest_head {c : UInt8} (h : t.rest.head? = some c) : isNumeral c = false ∧ c ≠ 0x2e := by
  have hspace : ∀ d, isSpace d = true → isNumeral d = false ∧ d ≠ 0x2e := by
    intro d hd
    refine ⟨isSpace_not_numeral hd, ?_⟩
    rintro rfl
    exact absurd hd (by decide)
  unfold rest at h
  rcases t.suffix_eq with hs | hs | hs
  · rw [hs, List.nil_append] at h
    exact hspace c (List.all_eq_true.mp t.after_space c (List.mem_of_mem_head? h))
  · rw [hs] at h
    obtain rfl : (0x64 : UInt8) = c := by simpa using h
    decide
  · rw [hs] at h
    obtain rfl : (0x44 : UInt8) = c := by simpa using h
    decide

lemma dropWhile_space : s.dropWhile isSpace = t.sign ++ t.number := by
  obtain ⟨c, l, hnumber, hc⟩ := t.number_head
  have hspace : isSpace c = false := by
    rcases hc with hc | rfl
    · exact isNumeral_not_space hc
    · decide
  conv_lhs => rw [t.eq]
  rw [List.dropWhile_append_of_pos fun d hd => List.all_eq_true.mp t.before_space d hd]
  change (t.sign ++ t.number).dropWhile isSpace = _
  rcases t.sign_eq with ⟨-, hs⟩ | ⟨-, hs | hs⟩
  · rw [hs]
    rfl
  · have hno : ¬isSpace c = true := by
      rw [hspace]
      exact Bool.false_ne_true
    rw [hs, List.nil_append, hnumber, List.dropWhile_cons_of_neg hno]
  · rw [hs]
    rfl

lemma head_sign : (decide ((t.sign ++ t.number).head? = some 0x2d)) = t.negative := by
  obtain ⟨c, l, hnumber, hc⟩ := t.number_head
  rcases t.sign_eq with ⟨hn, hs⟩ | ⟨hn, hs | hs⟩
  · rw [hn, hs]
    rfl
  · rw [hn, hs, List.nil_append, hnumber]
    refine decide_eq_false ?_
    rintro heq
    obtain rfl : c = 0x2d := by simpa using heq
    rcases hc with hc | hc
    · exact absurd hc (by decide)
    · exact absurd hc (by decide)
  · rw [hn, hs]
    rfl

lemma drop_sign : (if (t.sign ++ t.number).head? = some 0x2d ∨ (t.sign ++ t.number).head? = some 0x2b
    then (t.sign ++ t.number).drop 1 else t.sign ++ t.number) = t.number := by
  obtain ⟨c, l, hnumber, hc⟩ := t.number_head
  rcases t.sign_eq with ⟨-, hs⟩ | ⟨-, hs | hs⟩
  · rw [hs]
    exact if_pos (.inl rfl)
  · rw [hs, List.nil_append, hnumber]
    refine if_neg ?_
    rintro (heq | heq)
    · obtain rfl : c = 0x2d := by simpa using heq
      rcases hc with hc | hc
      · exact absurd hc (by decide)
      · exact absurd hc (by decide)
    · obtain rfl : c = 0x2b := by simpa using heq
      rcases hc with hc | hc
      · exact absurd hc (by decide)
      · exact absurd hc (by decide)
  · rw [hs]
    exact if_pos (.inr rfl)

lemma significant_numerals : Numerals t.significant :=
  t.numerals_whole.of_suffix (List.dropWhile_suffix _)

lemma frac_rest_head (h : t.point = []) : t.frac ++ t.rest = t.rest := by
  rcases t.point_eq with hp | ⟨-, hf⟩
  · rw [h] at hp
    cases hp
  · rw [hf, List.nil_append]

/-- Leading zeros go, and no others. -/
lemma dropWhile_zeros :
    t.number.dropWhile (· = 0x30) = t.significant ++ (t.point ++ (t.frac ++ t.rest)) := by
  have htail : (t.point ++ (t.frac ++ t.rest)).dropWhile (· = 0x30) =
      t.point ++ (t.frac ++ t.rest) := by
    rcases t.point_eq with hp | ⟨hp, hf⟩
    · rw [hp]
      rfl
    · rw [hp, hf, List.nil_append, List.nil_append]
      rcases hr : t.rest with - | ⟨c, l⟩
      · rfl
      · have hc := (t.rest_head (c := c) (by rw [hr]; rfl)).1
        refine List.dropWhile_cons_of_neg ?_
        simp only [decide_eq_true_eq]
        rintro rfl
        exact absurd hc (by decide)
  change (t.whole ++ (t.point ++ (t.frac ++ t.rest))).dropWhile _ = _
  rw [List.dropWhile_append, htail]
  split_ifs with h
  · rw [significant, List.isEmpty_iff.mp h, List.nil_append]
  · rfl

/-- The digits and the decimal point. -/
def body : List UInt8 := t.significant ++ (t.point ++ t.frac)

lemma body_mem {c : UInt8} (h : c ∈ t.body) : (isNumeral c || c = 0x2e) = true := by
  unfold body at h
  rcases List.mem_append.mp h with h | h
  · simp [t.significant_numerals c h]
  · rcases List.mem_append.mp h with h | h
    · rcases t.point_eq with hp | ⟨hp, -⟩
      · rw [hp] at h
        simp [List.mem_singleton.mp h]
      · rw [hp] at h
        cases h
    · simp [t.numerals_frac c h]

lemma span_body :
    (t.significant ++ (t.point ++ (t.frac ++ t.rest))).takeWhile
        (fun c => isNumeral c || c = 0x2e) = t.body ∧
      (t.significant ++ (t.point ++ (t.frac ++ t.rest))).dropWhile
        (fun c => isNumeral c || c = 0x2e) = t.rest := by
  have hsplit : t.significant ++ (t.point ++ (t.frac ++ t.rest)) = t.body ++ t.rest := by
    rw [body, List.append_assoc, List.append_assoc]
  have hstop : t.rest.takeWhile (fun c => isNumeral c || decide (c = 0x2e)) = [] ∧
      t.rest.dropWhile (fun c => isNumeral c || decide (c = 0x2e)) = t.rest := by
    rcases hr : t.rest with - | ⟨c, l⟩
    · exact ⟨rfl, rfl⟩
    · have hc := t.rest_head (c := c) (by rw [hr]; rfl)
      have hno : ¬(isNumeral c || decide (c = 0x2e)) = true := by simp [hc.1, hc.2]
      exact ⟨List.takeWhile_cons_of_neg hno, List.dropWhile_cons_of_neg hno⟩
  rw [hsplit, List.takeWhile_append_of_pos fun c hc => t.body_mem hc, hstop.1, List.append_nil,
    List.dropWhile_append_of_pos fun c hc => t.body_mem hc, hstop.2]
  exact ⟨rfl, rfl⟩

lemma numeralOf_eq : numeralOf s = t.body := by
  unfold numeralOf
  dsimp only
  rw [t.dropWhile_space, t.drop_sign, t.dropWhile_zeros]
  exact t.span_body.1

lemma checkTrailing_rest : checkTrailing t.rest = .ok () := by
  have hafter : t.after.head? ≠ some 0x64 ∧ t.after.head? ≠ some 0x44 := by
    refine ⟨fun h => ?_, fun h => ?_⟩
    · have hd := List.all_eq_true.mp t.after_space _ (List.mem_of_mem_head? h)
      exact absurd hd (by decide)
    · have hd := List.all_eq_true.mp t.after_space _ (List.mem_of_mem_head? h)
      exact absurd hd (by decide)
  have hspace := t.after_space
  unfold rest checkTrailing
  rcases t.suffix_eq with hs | hs | hs
  · rw [hs, List.nil_append]
    dsimp only
    rw [if_neg (not_or.mpr hafter), if_pos hspace]
  · rw [hs]
    exact if_pos hspace
  · rw [hs]
    exact if_pos hspace

/-- The parts of the digits. -/
def parts : Parts t.body where
  whole := t.significant
  frac := t.frac
  tail := if t.point = [0x2e] then 0x2e :: t.significant.reverse else t.significant.reverse
  numerals_whole := t.significant_numerals
  numerals_frac := t.numerals_frac
  body_eq := by
    rw [body, List.reverse_append, List.reverse_append]
    rcases t.point_eq with hp | ⟨hp, -⟩
    · rw [hp, if_pos rfl, List.append_assoc]
      rfl
    · rw [hp, if_neg (by decide), List.reverse_nil, List.append_nil]
  tail_eq := by
    rcases t.point_eq with hp | ⟨hp, hf⟩
    · left
      rw [if_pos hp]
    · right
      refine ⟨hf, ?_⟩
      rw [hp, if_neg (by decide)]

end Text

/-- Digits are counted. -/
lemma countDigits_numerals {l : List UInt8} (hl : Numerals l) (k : List UInt8) {d : ℕ}
    (u : Option ℕ) (hd : d + l.length < 65536) :
    countDigits (l ++ k) d u = countDigits k (d + l.length) u := by
  induction l generalizing d with
  | nil => rfl
  | cons c l ih =>
    obtain ⟨hc, hl⟩ := numerals_cons.mp hl
    rw [List.length_cons] at hd
    have hu : ushort ((d : ℤ) + 1) = d + 1 := ushort_of_lt (n := d + 1) (by omega)
    rw [List.cons_append, countDigits, if_neg (isNumeral_ne_point hc), hu, ih hl (by omega),
      List.length_cons]
    congr 1
    omega

namespace Text

variable {s : List UInt8} (t : Text s)

lemma countDigits_body (h : t.frac.length + t.significant.length < 65536) :
    ∃ point, countDigits t.body 0 none = .ok (t.significant.length + t.frac.length, point) ∧
      point.getD (t.significant.length + t.frac.length) = t.significant.length := by
  rw [body, countDigits_numerals t.significant_numerals _ _ (by omega), Nat.zero_add]
  rcases t.point_eq with hp | ⟨hp, hf⟩
  · refine ⟨some t.significant.length, ?_, rfl⟩
    have hlast := countDigits_numerals t.numerals_frac [] (d := t.significant.length)
      (some t.significant.length) (by omega)
    rw [List.append_nil] at hlast
    rw [hp, List.singleton_append, countDigits, if_pos rfl, if_neg (by simp), hlast]
    rfl
  · refine ⟨none, ?_, ?_⟩
    · rw [hp, hf]
      rfl
    · rw [hf]
      rfl

/-- A text is read as the operations treat their digits. -/
lemma ofString_eq (h : digitCount s < 65536) : ofString s =
    chop .rangeError t.parts.digits t.frac.length >>= fun r => finish r.1 r.2 t.negative := by
  have hcount : t.frac.length + t.significant.length < 65536 := by
    refine lt_of_le_of_lt ?_ h
    unfold digitCount
    rw [t.numeralOf_eq, body, List.countP_append, List.countP_append, t.significant_numerals.countP,
      t.numerals_frac.countP]
    omega
  obtain ⟨point, hdigits, hpoint⟩ := t.countDigits_body hcount
  have hstart : ¬¬(isNumeral (t.number.headD 0) = true ∨ t.number.head? = some 0x2e) := by
    obtain ⟨c, l, hnumber, hc⟩ := t.number_head
    rw [not_not, hnumber]
    rcases hc with hc | hc
    · exact .inl hc
    · exact .inr (congrArg some hc)
  have hscale : ushort (((t.significant.length + t.frac.length : ℕ) : ℤ) -
      (point.getD (t.significant.length + t.frac.length) : ℕ)) = t.frac.length := by
    rw [hpoint]
    unfold ushort
    omega
  have hscan := scan_eq t.parts hcount t.negative
  unfold ofString
  dsimp only
  rw [t.dropWhile_space, t.drop_sign, t.head_sign, if_neg hstart, t.dropWhile_zeros, t.span_body.1,
    t.span_body.2, hdigits, t.checkTrailing_rest]
  simp only [bind, Except.bind]
  rw [hscale, Nat.add_comm t.significant.length]
  exact hscan

lemma num_significant_reverse :
    num (t.significant.reverse.map digitOf) = num (t.whole.reverse.map digitOf) := by
  have hzeros : num ((t.whole.takeWhile fun c => decide (c = 0x30)).reverse.map digitOf) = 0 := by
    rw [num_eq_zero_iff, List.all_eq_true]
    intro d hd
    obtain ⟨c, hc, rfl⟩ := List.mem_map.mp hd
    have hc0 := List.mem_takeWhile_imp (p := fun c : UInt8 => decide (c = 0x30))
      (List.mem_reverse.mp hc)
    rw [of_decide_eq_true hc0]
    rfl
  conv_rhs => rw [← List.takeWhile_append_dropWhile (p := fun c => decide (c = 0x30)) (l := t.whole)]
  rw [List.reverse_append, List.map_append, num_append, hzeros, Nat.mul_zero, Nat.add_zero]
  rfl

/-- Leading zeros do not count. -/
lemma num_parts : num t.parts.digits = num ((t.whole ++ t.frac).reverse.map digitOf) := by
  rw [List.reverse_append, List.map_append, num_append, ← t.num_significant_reverse, ← num_append]
  rfl

/-- A text is read as the number it stands for. -/
lemma ofString_exactly (h : digitCount s < 65536) : Exactly t.value (ofString s) := by
  have hfin : Finishable t.parts.digits t.frac.length := by
    refine t.parts.finishable ?_
    rw [← t.numeralOf_eq]
    exact numeralOf_head? s
  rw [t.ofString_eq h, Text.value, decimal, ← t.num_parts]
  exact chop_exactly hfin (fun _ => rfl) t.negative

/-! ### Digits in a text -/

lemma countP_eq : s.countP isNumeral = t.whole.length + t.frac.length := by
  have hspace : ∀ {l : List UInt8}, l.all isSpace = true → l.countP isNumeral = 0 := by
    intro l hl
    rw [List.countP_eq_zero]
    intro c hc
    rw [isSpace_not_numeral (List.all_eq_true.mp hl c hc)]
    exact Bool.false_ne_true
  have hsign : t.sign.countP isNumeral = 0 := by
    rcases t.sign_eq with ⟨-, h⟩ | ⟨-, h | h⟩
    · rw [h]
      rfl
    · rw [h]
      rfl
    · rw [h]
      rfl
  have hpoint : t.point.countP isNumeral = 0 := by
    rcases t.point_eq with h | ⟨h, -⟩
    · rw [h]
      rfl
    · rw [h]
      rfl
  have hsuffix : t.suffix.countP isNumeral = 0 := by
    rcases t.suffix_eq with h | h | h
    · rw [h]
      rfl
    · rw [h]
      rfl
    · rw [h]
      rfl
  conv_lhs => rw [t.eq]
  rw [List.countP_append, List.countP_append, List.countP_append, List.countP_append,
    List.countP_append, List.countP_append, hspace t.before_space, hspace t.after_space, hsign, hpoint,
    hsuffix, t.numerals_whole.countP, t.numerals_frac.countP]
  omega

lemma digits_eq_nil_iff : t.whole ++ t.frac = [] ↔ s.countP isNumeral = 0 := by
  rw [t.countP_eq, ← List.length_eq_zero_iff, List.length_append]

end Text

/-- A lone point stands for no number. -/
lemma LonePoint.not_denotes {s : List UInt8} (h : LonePoint s) (x : ℚ) : ¬Denotes s x := by
  obtain ⟨t, ht⟩ := h
  rintro ⟨u, hu, -⟩
  exact hu (u.digits_eq_nil_iff.mpr (t.digits_eq_nil_iff.mp ht))

/-! ### What is read is a text -/

/-- The end of a text that is read. -/
lemma exists_suffix {s : List UInt8} (h : checkTrailing s = .ok ()) :
    ∃ suffix after, s = suffix ++ after ∧ (suffix = [] ∨ suffix = [0x64] ∨ suffix = [0x44]) ∧
      after.all isSpace = true := by
  unfold checkTrailing at h
  dsimp only at h
  by_cases hd : s.head? = some 0x64 ∨ s.head? = some 0x44
  · rw [if_pos hd] at h
    have hspace : (s.drop 1).all isSpace = true := by
      by_contra hne
      rw [if_neg hne] at h
      cases h
    cases s with
    | nil => simp at hd
    | cons c l =>
      refine ⟨[c], l, rfl, .inr ?_, hspace⟩
      simpa using hd
  · rw [if_neg hd] at h
    have hspace : s.all isSpace = true := by
      by_contra hne
      rw [if_neg hne] at h
      cases h
    exact ⟨[], s, rfl, .inl rfl, hspace⟩

/-- The sign of a text. -/
lemma exists_sign (s : List UInt8) :
    ∃ sign, s = sign ++ (if s.head? = some 0x2d ∨ s.head? = some 0x2b then s.drop 1 else s) ∧
      (decide (s.head? = some 0x2d) = true ∧ sign = [0x2d] ∨
        decide (s.head? = some 0x2d) = false ∧ (sign = [] ∨ sign = [0x2b])) := by
  cases s with
  | nil => exact ⟨[], rfl, .inr ⟨rfl, .inl rfl⟩⟩
  | cons c l =>
    by_cases hm : c = 0x2d
    · subst hm
      exact ⟨[0x2d], rfl, .inl ⟨rfl, rfl⟩⟩
    · by_cases hp : c = 0x2b
      · subst hp
        exact ⟨[0x2b], rfl, .inr ⟨rfl, .inr rfl⟩⟩
      · refine ⟨[], ?_, .inr ⟨decide_eq_false (by simpa using hm), .inl rfl⟩⟩
        rw [if_neg (by simp [hm, hp])]
        rfl

/-- The digits before and after the decimal point. -/
lemma Parts.exists_point {body : List UInt8} (p : Parts body) :
    ∃ point, body = p.whole ++ (point ++ p.frac) ∧ (point = [0x2e] ∨ point = [] ∧ p.frac = []) := by
  have hb := congrArg List.reverse p.body_eq
  rw [List.reverse_reverse, List.reverse_append, List.reverse_reverse] at hb
  rcases p.tail_eq with ht | ⟨hf, ht⟩
  · refine ⟨[0x2e], hb.trans ?_, .inl rfl⟩
    rw [ht, List.reverse_cons, List.reverse_reverse, List.append_assoc]
  · refine ⟨[], hb.trans ?_, .inr ⟨rfl, hf⟩⟩
    rw [ht, List.reverse_reverse]
    rfl

/-- What is read has the form of a text. -/
lemma exists_text {s : List UInt8} {f : Fixed} (hs : digitCount s < 65536)
    (h : ofString s = .ok f) : Nonempty (Text s) := by
  obtain ⟨sign, hsign, hnegative⟩ := exists_sign (s.dropWhile isSpace)
  unfold ofString at h
  dsimp only at h
  generalize hs1 : (if (s.dropWhile isSpace).head? = some 0x2d ∨
    (s.dropWhile isSpace).head? = some 0x2b then (s.dropWhile isSpace).drop 1
    else s.dropWhile isSpace) = s1 at h hsign
  have hnum : numeralOf s = (s1.dropWhile (· = 0x30)).takeWhile
      fun c => isNumeral c || c = 0x2e := by
    rw [← hs1]
    rfl
  by_cases hstart : ¬(isNumeral (s1.headD 0) ∨ s1.head? = some 0x2e)
  · rw [if_pos hstart] at h
    cases h
  rw [if_neg hstart] at h
  obtain ⟨⟨d, point⟩, hcount, h⟩ := bind_eq_ok.mp h
  obtain ⟨u, htrailing, -⟩ := bind_eq_ok.mp h
  rw [← hnum] at hcount
  obtain ⟨p, -, -⟩ := countDigits_none numeralOf_mem (by rwa [Nat.zero_add]) hcount
  obtain ⟨dot, hbody, hdot⟩ := p.exists_point
  obtain ⟨suffix, after, hrest, hsuffix, hafter⟩ := exists_suffix htrailing
  have hzeros : Numerals (s1.takeWhile fun c => decide (c = 0x30)) := by
    intro c hc
    have hc0 := List.mem_takeWhile_imp (p := fun c : UInt8 => decide (c = 0x30)) hc
    rw [of_decide_eq_true hc0]
    rfl
  have hsplit : s1 = (s1.takeWhile fun c => decide (c = 0x30)) ++ (numeralOf s ++
      (s1.dropWhile fun c => decide (c = 0x30)).dropWhile fun c => isNumeral c || c = 0x2e) := by
    rw [hnum, List.takeWhile_append_dropWhile, List.takeWhile_append_dropWhile]
  refine ⟨{
    before := s.takeWhile isSpace
    negative := decide ((s.dropWhile isSpace).head? = some 0x2d)
    sign := sign
    whole := (s1.takeWhile fun c => decide (c = 0x30)) ++ p.whole
    point := dot
    frac := p.frac
    suffix := suffix
    after := after
    eq := ?_
    before_space := ?_
    sign_eq := hnegative
    numerals_whole := ?_
    point_eq := hdot
    numerals_frac := p.numerals_frac
    nonempty := ?_
    suffix_eq := hsuffix
    after_space := hafter }⟩
  · have hjoin (k : List UInt8) : p.whole ++ (dot ++ (p.frac ++ k)) = numeralOf s ++ k := by
      rw [← List.append_assoc dot, ← List.append_assoc, ← hbody]
    conv_lhs => rw [← List.takeWhile_append_dropWhile (p := isSpace) (l := s), hsign, hsplit]
    rw [List.append_assoc _ p.whole, hjoin, ← hrest]
  · rw [List.all_eq_true]
    exact fun c hc => List.mem_takeWhile_imp hc
  · intro c hc
    rcases List.mem_append.mp hc with hc | hc
    · exact hzeros c hc
    · exact p.numerals_whole c hc
  · by_contra hempty
    rw [not_or, not_not, not_not, List.append_eq_nil_iff] at hempty
    obtain ⟨⟨hz, hw⟩, hd⟩ := hempty
    have hf : p.frac = [] := by
      rcases hdot with h1 | ⟨-, h1⟩
      · rw [hd] at h1
        cases h1
      · exact h1
    -- then the number begins with neither a digit nor a point
    have hnil : numeralOf s = [] := hbody.trans (by rw [hw, hd, hf]; rfl)
    rw [hz, hnil, List.nil_append, List.nil_append] at hsplit
    have hnot := List.head?_dropWhile_not (fun c : UInt8 => isNumeral c || decide (c = 0x2e))
      (s1.dropWhile fun c => decide (c = 0x30))
    rw [← hsplit] at hnot
    refine hstart fun hhead => ?_
    cases s1 with
    | nil =>
      rcases hhead with h1 | h1
      · exact absurd h1 (by decide)
      · cases h1
    | cons c l =>
      simp only [List.head?_cons, Bool.or_eq_false_iff, decide_eq_false_iff_not] at hnot
      rcases hhead with h1 | h1
      · rw [List.headD_cons, hnot.1] at h1
        cases h1
      · exact hnot.2 (Option.some.inj h1)

end Fixed

end OmniORB
