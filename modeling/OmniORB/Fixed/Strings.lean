import OmniORB.Fixed.Arithmetic

/-!
# Fixed point numbers from strings

The digits are counted in a `UShort`: the string must have fewer than 65536 of them, leading zeros
left out.
-/

namespace OmniORB

open Library

namespace Fixed

/-- The digits and decimal points of a string, after its leading zeros. -/
def numeralOf (s : List UInt8) : List UInt8 :=
  let s := s.dropWhile isSpace
  let s := if s.head? = some 0x2d ∨ s.head? = some 0x2b then s.drop 1 else s
  (s.dropWhile (· = 0x30)).takeWhile fun c => isNumeral c || c = 0x2e

/-- The number of digits after leading zeros. -/
def digitCount (s : List UInt8) : ℕ := (numeralOf s).countP isNumeral

/-- Every character is a digit. -/
def Numerals (l : List UInt8) : Prop := ∀ c ∈ l, isNumeral c = true

@[simp] lemma numerals_nil : Numerals [] := by simp [Numerals]

@[simp] lemma numerals_cons {c : UInt8} {l : List UInt8} :
    Numerals (c :: l) ↔ isNumeral c = true ∧ Numerals l := by simp [Numerals]

lemma Numerals.reverse {l : List UInt8} (h : Numerals l) : Numerals l.reverse :=
  fun c hc => h c (List.mem_reverse.mp hc)

lemma Numerals.of_suffix {k l : List UInt8} (h : Numerals l) (hk : k <:+ l) : Numerals k :=
  fun c hc => h c (hk.subset hc)

lemma Numerals.countP {l : List UInt8} (h : Numerals l) : l.countP isNumeral = l.length :=
  List.countP_eq_length.mpr h

lemma isNumeral_iff {c : UInt8} : isNumeral c = true ↔ 0x30 ≤ c.toNat ∧ c.toNat ≤ 0x39 := by
  simp [isNumeral, UInt8.le_iff_toNat_le]

/-- The value of a digit. -/
def digitOf (c : UInt8) : ℕ := octet (c.toNat - 0x30)

lemma digitOf_le {c : UInt8} (h : isNumeral c = true) : digitOf c ≤ 9 := by
  obtain ⟨h1, h2⟩ := isNumeral_iff.mp h
  exact octet_le (by omega) (by omega)

lemma digitOf_ne_zero {c : UInt8} (h : isNumeral c = true) (hc : c ≠ 0x30) : digitOf c ≠ 0 := by
  obtain ⟨h1, h2⟩ := isNumeral_iff.mp h
  have h0 : c.toNat ≠ 0x30 := fun h0 => hc (UInt8.toNat_inj.mp h0)
  unfold digitOf octet
  omega

lemma digitOf_map {l : List UInt8} (h : Numerals l) : Digits (l.map digitOf) := by
  intro d hd
  obtain ⟨c, hc, rfl⟩ := List.mem_map.mp hd
  exact digitOf_le (h c hc)

/-! ### Counting -/

lemma ushort_of_lt {n : ℕ} (h : n < 65536) : ushort n = n := by
  unfold ushort
  omega

/-- After a decimal point there are only digits. -/
lemma countDigits_some {body : List UInt8} {d u : ℕ} {r : ℕ × Option ℕ}
    (hb : ∀ c ∈ body, (isNumeral c || c = 0x2e) = true) (hd : d + body.countP isNumeral < 65536)
    (h : countDigits body d (some u) = .ok r) :
    Numerals body ∧ r = (d + body.length, some u) := by
  induction body generalizing d with
  | nil =>
    rw [countDigits, Except.ok.injEq] at h
    exact ⟨numerals_nil, h.symm⟩
  | cons c body ih =>
    rw [countDigits] at h
    split_ifs at h with hc hs
    · exact absurd rfl hs
    · have hnum : isNumeral c = true := by simpa [hc] using hb c List.mem_cons_self
      rw [List.countP_cons_of_pos hnum] at hd
      have hu : ushort ((d : ℤ) + 1) = d + 1 := ushort_of_lt (n := d + 1) (by omega)
      rw [hu] at h
      obtain ⟨hb1, hr⟩ := ih (fun e he => hb e (List.mem_cons_of_mem c he)) (by omega) h
      refine ⟨numerals_cons.mpr ⟨hnum, hb1⟩, ?_⟩
      rw [hr, List.length_cons, Nat.add_assoc, Nat.add_comm 1]

/-- The digits before a decimal point and those after it, and how the whole ends before the first
of those after it. -/
structure Parts (body : List UInt8) where
  whole : List UInt8
  frac : List UInt8
  tail : List UInt8
  numerals_whole : Numerals whole
  numerals_frac : Numerals frac
  body_eq : body.reverse = frac.reverse ++ tail
  tail_eq : tail = 0x2e :: whole.reverse ∨ frac = [] ∧ tail = whole.reverse

lemma countDigits_none {body : List UInt8} {d : ℕ} {r : ℕ × Option ℕ}
    (hb : ∀ c ∈ body, (isNumeral c || c = 0x2e) = true) (hd : d + body.countP isNumeral < 65536)
    (h : countDigits body d none = .ok r) :
    ∃ p : Parts body, r.1 = d + p.whole.length + p.frac.length ∧
      r.2.getD r.1 = d + p.whole.length := by
  induction body generalizing d with
  | nil =>
    rw [countDigits, Except.ok.injEq] at h
    subst h
    exact ⟨⟨[], [], [], numerals_nil, numerals_nil, rfl, .inr ⟨rfl, rfl⟩⟩, rfl, rfl⟩
  | cons c body ih =>
    have hb1 : ∀ e ∈ body, (isNumeral e || e = 0x2e) = true :=
      fun e he => hb e (List.mem_cons_of_mem c he)
    rw [countDigits] at h
    by_cases hc : c = 0x2e
    · subst hc
      rw [if_pos rfl, if_neg (by simp)] at h
      rw [List.countP_cons_of_neg (by decide)] at hd
      obtain ⟨hnum, rfl⟩ := countDigits_some hb1 hd h
      exact ⟨⟨[], body, [0x2e], numerals_nil, hnum, List.reverse_cons, .inl rfl⟩, rfl, rfl⟩
    · rw [if_neg hc] at h
      have hnum : isNumeral c = true := by simpa [hc] using hb c List.mem_cons_self
      rw [List.countP_cons_of_pos hnum] at hd
      have hu : ushort ((d : ℤ) + 1) = d + 1 := ushort_of_lt (n := d + 1) (by omega)
      rw [hu] at h
      obtain ⟨p, hr1, hr2⟩ := ih hb1 (by omega) h
      refine ⟨⟨c :: p.whole, p.frac, p.tail ++ [c], numerals_cons.mpr ⟨hnum, p.numerals_whole⟩,
        p.numerals_frac, ?_, ?_⟩, ?_, ?_⟩
      · rw [List.reverse_cons, p.body_eq, List.append_assoc]
      · rcases p.tail_eq with ht | ⟨hf, ht⟩
        · left
          rw [ht, List.reverse_cons, List.cons_append]
        · right
          exact ⟨hf, by rw [ht, List.reverse_cons]⟩
      · dsimp only
        rw [hr1, List.length_cons]
        omega
      · dsimp only
        rw [hr2, List.length_cons]
        omega

/-! ### Scanning back -/

/-- Digits after the decimal point are left out while there are too many. -/
lemma chopNumeral_spec (fr tail : List UInt8) (n : ℕ) :
    chopNumeral (fr ++ tail) (fr.length + n) fr.length =
      (fr.drop (fr.length + n - fixedDigits) ++ tail,
        (fr.drop (fr.length + n - fixedDigits)).length + n,
        (fr.drop (fr.length + n - fixedDigits)).length) := by
  induction fr with
  | nil => simp [chopNumeral]
  | cons c fr ih =>
    rw [List.cons_append, List.length_cons, Nat.add_right_comm, chopNumeral]
    split_ifs with h
    · rw [ih, show fr.length + n + 1 - fixedDigits = fr.length + n - fixedDigits + 1 by omega,
        List.drop_succ_cons]
    · rw [show fr.length + n + 1 - fixedDigits = 0 by omega, List.drop_zero, List.length_cons,
        List.cons_append, Nat.add_right_comm]

/-- The zeros after the decimal point are left out, and the scan stops at the point. -/
lemma backUp_spec (fr rest : List UInt8) (n : ℕ) (hn : fr.length + n < 65536) :
    backUp (fr ++ 0x2e :: rest) (fr.length + n) fr.length =
      (fr.dropWhile (· = 0x30) ++ 0x2e :: rest, (fr.dropWhile (· = 0x30)).length + n,
        (fr.dropWhile (· = 0x30)).length) := by
  induction fr with
  | nil =>
    rw [List.nil_append, backUp, if_neg (by decide)]
    rfl
  | cons c fr ih =>
    rw [List.length_cons] at hn
    rw [List.cons_append, backUp, List.dropWhile_cons]
    by_cases hc : c = 0x30
    · have h1 : ushort (((c :: fr).length + n : ℕ) - 1) = fr.length + n := by
        rw [List.length_cons]
        unfold ushort
        omega
      have h2 : ushort (((c :: fr).length : ℕ) - 1) = fr.length := by
        rw [List.length_cons]
        unfold ushort
        omega
      rw [if_pos hc, h1, h2, ih (by omega), if_pos (decide_eq_true hc)]
    · rw [if_neg hc, if_neg (by simpa using hc), List.cons_append]

lemma isNumeral_ne_point {c : UInt8} (h : isNumeral c = true) : c ≠ 0x2e := by
  rintro rfl
  exact absurd h (by decide)

lemma takeDigits_append {fr : List UInt8} (hfr : Numerals fr) (rest : List UInt8) (n : ℕ) :
    takeDigits (fr.length + n) (fr ++ rest) = fr.map digitOf ++ takeDigits n rest := by
  induction fr with
  | nil => simp
  | cons c fr ih =>
    obtain ⟨hc, hfr⟩ := numerals_cons.mp hfr
    rw [List.length_cons, Nat.add_right_comm, List.cons_append, takeDigits,
      if_neg (isNumeral_ne_point hc), ih hfr]
    rfl

lemma takeDigits_eq_map {ir : List UInt8} (hir : Numerals ir) :
    takeDigits ir.length ir = ir.map digitOf := by
  have h := takeDigits_append hir [] 0
  rwa [Nat.add_zero, List.append_nil, takeDigits, List.append_nil] at h

lemma takeDigits_point {ir : List UInt8} (hir : Numerals ir) :
    takeDigits ir.length (0x2e :: ir) = ir.map digitOf := by
  cases ir with
  | nil => rfl
  | cons c ir =>
    rw [List.length_cons, takeDigits, if_pos rfl, ← List.length_cons (a := c)]
    exact takeDigits_eq_map hir

/-- The digits that are read, from the last one on. -/
lemma takeDigits_parts {body : List UInt8} (p : Parts body) {fr : List UInt8}
    (hfr : fr <:+ p.frac.reverse) :
    takeDigits (fr.length + p.whole.length) (fr ++ p.tail) =
      fr.map digitOf ++ p.whole.reverse.map digitOf := by
  rw [takeDigits_append (p.numerals_frac.reverse.of_suffix hfr), ← List.length_reverse]
  rcases p.tail_eq with ht | ⟨-, ht⟩
  · rw [ht, takeDigits_point p.numerals_whole.reverse]
  · rw [ht, takeDigits_eq_map p.numerals_whole.reverse]

/-- The scan over trailing zeros, which is made only if there are digits after the decimal point. -/
lemma backUp_parts {body : List UInt8} (p : Parts body) {fr : List UInt8}
    (hfr : fr <:+ p.frac.reverse) (hlen : fr.length + p.whole.length < 65536) :
    (if 0 < fr.length then backUp (fr ++ p.tail) (fr.length + p.whole.length) fr.length
      else (fr ++ p.tail, fr.length + p.whole.length, fr.length)) =
      (fr.dropWhile (· = 0x30) ++ p.tail, (fr.dropWhile (· = 0x30)).length + p.whole.length,
        (fr.dropWhile (· = 0x30)).length) := by
  rcases Nat.eq_zero_or_pos fr.length with h0 | h0
  · obtain rfl := List.eq_nil_of_length_eq_zero h0
    exact if_neg (lt_irrefl _)
  · rcases p.tail_eq with ht | ⟨hf, -⟩
    · rw [if_pos h0, ht, backUp_spec fr _ _ hlen]
    · rw [hf, List.reverse_nil, List.suffix_nil] at hfr
      subst hfr
      exact absurd h0 (lt_irrefl 0)

/-! ### The digits of a text -/

/-- All digits of a text, the least significant first. -/
def Parts.digits {body : List UInt8} (p : Parts body) : List ℕ :=
  p.frac.reverse.map digitOf ++ p.whole.reverse.map digitOf

lemma Parts.length_digits {body : List UInt8} (p : Parts body) :
    p.digits.length = p.frac.length + p.whole.length := by
  simp [Parts.digits]

/-- The digits do not begin with a zero. -/
lemma Parts.finishable {body : List UInt8} (p : Parts body) (hbody : body.head? ≠ some 0x30) :
    Finishable p.digits p.frac.length := by
  refine ⟨?_, by rw [p.length_digits]; omega, ?_⟩
  · exact digits_append.mpr
      ⟨digitOf_map p.numerals_frac.reverse, digitOf_map p.numerals_whole.reverse⟩
  · have h1 := NoLeadingZero.append_iff (m := 0) (k := p.frac.reverse.map digitOf)
      (l := p.whole.reverse.map digitOf)
    rw [List.length_map, List.length_reverse, Nat.add_zero] at h1
    refine h1.mpr fun hw => ?_
    obtain ⟨c, l, hcl⟩ : ∃ c l, p.whole = c :: l :=
      List.exists_cons_of_length_pos (by simpa using hw)
    have hc : isNumeral c = true := p.numerals_whole c (by rw [hcl]; exact List.mem_cons_self)
    have hc0 : c ≠ 0x30 := by
      intro h0
      refine hbody ?_
      have hb := congrArg List.reverse p.body_eq
      rw [List.reverse_reverse, List.reverse_append, List.reverse_reverse] at hb
      rcases p.tail_eq with ht | ⟨-, ht⟩
      · rw [hb, ht, hcl, h0]
        simp
      · rw [hb, ht, hcl, h0]
        simp
    rw [hcl]
    simpa using digitOf_ne_zero hc hc0

lemma stripFraction_map {fr : List UInt8} (hfr : Numerals fr) (w : List ℕ) :
    stripFraction (fr.map digitOf ++ w) fr.length =
      ((fr.dropWhile (· = 0x30)).map digitOf ++ w, (fr.dropWhile (· = 0x30)).length) := by
  induction fr with
  | nil => simp [stripFraction]
  | cons c fr ih =>
    obtain ⟨hc, hfr⟩ := numerals_cons.mp hfr
    rw [List.dropWhile_cons]
    by_cases h0 : c = 0x30
    · have hzero : digitOf c = 0 := by rw [h0]; rfl
      rw [List.map_cons, List.cons_append, hzero, List.length_cons, stripFraction, ih hfr,
        if_pos (decide_eq_true h0)]
    · have hne := digitOf_ne_zero hc h0
      rw [if_neg (by simpa using h0), List.map_cons, List.cons_append, List.length_cons]
      unfold stripFraction
      split
      · rename_i heq _
        rw [List.cons.injEq] at heq
        exact absurd heq.1 hne
      · rfl

/-- What the scan makes of a text with too many digits is what the operations make of theirs. -/
lemma scan_eq {body : List UInt8} (p : Parts body) (hlen : p.frac.length + p.whole.length < 65536)
    (negative : Bool) :
    (let c := chopNumeral body.reverse (p.frac.length + p.whole.length) p.frac.length
     let r := if 0 < c.2.2 then backUp c.1 c.2.1 c.2.2 else c
     (if fixedDigits < r.2.1 then .error .rangeError
      else .ok ⟨takeDigits r.2.1 r.1, r.2.2, if r.2.1 = 0 then false else negative, 0, 0⟩ :
        Except FixedExn Fixed)) =
      chop .rangeError p.digits p.frac.length >>= fun r => finish r.1 r.2 negative := by
  have hchop := chopNumeral_spec p.frac.reverse p.tail p.whole.length
  rw [List.length_reverse] at hchop
  set fr := p.frac.reverse.drop (p.frac.length + p.whole.length - fixedDigits) with hfr
  have hsuffix : fr <:+ p.frac.reverse := List.drop_suffix _ _
  have hfrlen : fr.length = p.frac.length - (p.frac.length + p.whole.length - fixedDigits) := by
    rw [hfr, List.length_drop, List.length_reverse]
  have hback := backUp_parts p hsuffix (by omega)
  have htake := takeDigits_parts p ((List.dropWhile_suffix (· = 0x30)).trans hsuffix)
  have hdroplen := (List.dropWhile_suffix (fun c : UInt8 => decide (c = 0x30)) (l := fr)).length_le
  dsimp only
  rw [p.body_eq, hchop]
  dsimp only
  rw [hback]
  dsimp only
  rw [htake]
  by_cases hwhole : fixedDigits < p.whole.length
  · have hnil : fr = [] := List.eq_nil_of_length_eq_zero (by omega)
    rw [hnil, if_pos (by simpa using hwhole), chop, if_pos (by rw [p.length_digits]; omega),
      if_neg (by rw [p.length_digits]; omega)]
    rfl
  · have hdigits : chop .rangeError p.digits p.frac.length =
        .ok (fr.map digitOf ++ p.whole.reverse.map digitOf, fr.length) := by
      have hdrop : p.digits.drop (p.frac.length + p.whole.length - fixedDigits) =
          fr.map digitOf ++ p.whole.reverse.map digitOf := by
        rw [Parts.digits, List.drop_append_of_le_length (by simp; omega), hfr, List.map_drop]
      rw [chop, p.length_digits]
      split_ifs with h1 h2
      · rw [hdrop, hfrlen]
      · omega
      · rw [← hdrop, hfrlen, show p.frac.length + p.whole.length - fixedDigits = 0 by omega]
        rfl
    have hagain : (fr.dropWhile (· = 0x30)).dropWhile (· = 0x30) = fr.dropWhile (· = 0x30) :=
      List.dropWhile_idempotent _ _
    have hnumerals := p.numerals_frac.reverse.of_suffix hsuffix
    rw [hdigits, if_neg (by omega)]
    change _ = finish (fr.map digitOf ++ p.whole.reverse.map digitOf) fr.length negative
    symm
    have hlength : ((fr.dropWhile (· = 0x30)).map digitOf ++ p.whole.reverse.map digitOf).length =
        (fr.dropWhile (· = 0x30)).length + p.whole.length := by simp
    have hnil : (fr.dropWhile (· = 0x30)).map digitOf ++ p.whole.reverse.map digitOf = [] ↔
        (fr.dropWhile (· = 0x30)).length + p.whole.length = 0 := by
      rw [← hlength, List.length_eq_zero_iff]
    rw [finish, stripFraction_map hnumerals, ofOctets, if_neg (by rw [hlength]; omega),
      stripFraction_map (hnumerals.of_suffix (List.dropWhile_suffix _)), hagain]
    simp only [hnil]

/-! ### The constructor -/

lemma dropWhile_head? (l : List UInt8) : (l.dropWhile (· = 0x30)).head? ≠ some 0x30 := by
  intro h
  have := List.head?_dropWhile_not (fun c : UInt8 => decide (c = 0x30)) l
  rw [h] at this
  simp at this

lemma numeralOf_head? (s : List UInt8) : (numeralOf s).head? ≠ some 0x30 := by
  unfold numeralOf
  dsimp only
  rw [List.head?_takeWhile]
  intro h
  exact dropWhile_head? _ (Option.eq_some_of_filter_eq_some h)

/-- What the constructor does with the digits once they are counted. -/
lemma ofString_eq_ok {s : List UInt8} {f : Fixed} (h : ofString s = .ok f) :
    ∃ d point negative, countDigits (numeralOf s) 0 none = .ok (d, point) ∧
      (let c := chopNumeral (numeralOf s).reverse d (ushort ((d : ℤ) - point.getD d))
       let r := if 0 < c.2.2 then backUp c.1 c.2.1 c.2.2 else c
       (if fixedDigits < r.2.1 then .error .rangeError
        else .ok ⟨takeDigits r.2.1 r.1, r.2.2, if r.2.1 = 0 then false else negative, 0, 0⟩) =
          (Except.ok f : Except FixedExn Fixed)) := by
  unfold ofString at h
  dsimp only at h
  generalize hs1 : (if (s.dropWhile isSpace).head? = some 0x2d ∨
    (s.dropWhile isSpace).head? = some 0x2b then (s.dropWhile isSpace).drop 1
    else s.dropWhile isSpace) = s1 at h
  have hnum : numeralOf s = (s1.dropWhile (· = 0x30)).takeWhile
      fun c => isNumeral c || c = 0x2e := by
    rw [← hs1]
    rfl
  rw [← hnum] at h
  by_cases h1 : ¬(isNumeral (s1.headD 0) ∨ s1.head? = some 0x2e)
  · rw [if_pos h1] at h
    cases h
  · rw [if_neg h1] at h
    obtain ⟨⟨d, point⟩, hcount, h⟩ := bind_eq_ok.mp h
    obtain ⟨-, -, h⟩ := bind_eq_ok.mp h
    exact ⟨d, point, _, hcount, h⟩

/-- No digit is lost in the counts. -/
lemma Parts.length_eq {s : List UInt8} (p : Parts (numeralOf s)) :
    p.frac.length + p.whole.length = digitCount s := by
  unfold digitCount
  rw [← List.countP_reverse, p.body_eq, List.countP_append, p.numerals_frac.reverse.countP,
    List.length_reverse]
  rcases p.tail_eq with ht | ⟨-, ht⟩
  · rw [ht, List.countP_cons_of_neg (by decide), p.numerals_whole.reverse.countP,
      List.length_reverse]
  · rw [ht, p.numerals_whole.reverse.countP, List.length_reverse]

lemma numeralOf_mem {s : List UInt8} :
    ∀ c ∈ numeralOf s, (isNumeral c || c = 0x2e) = true :=
  fun _ hc => List.mem_takeWhile_imp (p := fun c => isNumeral c || decide (c = 0x2e)) hc

lemma ofString_canonical {s : List UInt8} {f : Fixed} (hs : digitCount s < 65536)
    (h : ofString s = .ok f) : f.Canonical := by
  obtain ⟨d, point, negative, hcount, h⟩ := ofString_eq_ok h
  obtain ⟨p, hd, hpoint⟩ := countDigits_none numeralOf_mem (by rw [Nat.zero_add]; exact hs) hcount
  have hlen := p.length_eq
  rw [Nat.zero_add] at hd hpoint
  dsimp only at hd hpoint
  have hscale : ushort ((d : ℤ) - (point.getD d : ℕ)) = p.frac.length := by
    rw [hpoint]
    unfold ushort
    omega
  rw [hscale, show d = p.frac.length + p.whole.length by omega] at h
  have h := (scan_eq p (by omega) negative).symm.trans h
  obtain ⟨r, hr, hf⟩ := bind_eq_ok.mp h
  exact finish_canonical (chop_finishable (p.finishable (numeralOf_head? s)) hr) hf

end Fixed

end OmniORB
