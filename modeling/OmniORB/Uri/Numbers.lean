import OmniORB.Uri.HostPort

/-!
# Numbers in texts

`strtoul` in full, and the texts of decimal numbers.
-/

namespace OmniORB

/-! ### Decimal numbers -/

/-- The number that decimal digits spell. -/
def numeralValue (m : List UInt8) : ℕ := m.foldl (fun l d => 10 * l + (d.toNat - 0x30)) 0

/-- The decimal digits of a number. -/
structure Numeral (m : List UInt8) (p : ℕ) : Prop where
  ne_nil : m ≠ []
  digits : ∀ c ∈ m, isDigit c = true
  value : numeralValue m = p

lemma Numeral.exists_cons {m : List UInt8} {p : ℕ} (h : Numeral m p) :
    ∃ c rest, m = c :: rest ∧ isDigit c = true ∧ isSpace c = false ∧ ¬(c = 0x2d ∨ c = 0x2b) := by
  obtain ⟨c, rest, rfl⟩ := List.exists_cons_of_ne_nil h.ne_nil
  have hc := h.digits c List.mem_cons_self
  refine ⟨c, rest, rfl, hc, isSpace_of_isDigit hc, ?_⟩
  rintro (rfl | rfl)
  · cases hc
  · cases hc

lemma Numeral.notMem {m : List UInt8} {p : ℕ} (h : Numeral m p) {c : UInt8}
    (hc : isDigit c = false) : c ∉ m := by
  intro hmem
  rw [h.digits c hmem] at hc
  cases hc

lemma Numeral.unique {m : List UInt8} {p q : ℕ} (hp : Numeral m p) (hq : Numeral m q) : p = q :=
  hp.value.symm.trans hq.value

lemma numeral_decimal (n : ℕ) : Numeral (decimal n) n where
  ne_nil := decimal_ne_nil n
  digits _ hc := isDigit_of_mem_decimal hc
  value := foldl_decimal n

/-! ### `strtoul` -/

/-- The value of a digit to a base. -/
def digitOf (base : ℕ) (c : UInt8) : Option ℕ :=
  (hexDigit c).bind fun d => if d.toNat < base then some d.toNat else none

/-- The number that the digits at the front go on with, and what is left behind them. -/
def readDigits (base : ℕ) : List UInt8 → ℕ → ℕ × List UInt8
  | [], v => (v, [])
  | c :: rest, v =>
    match digitOf base c with
    | some d => readDigits base rest (base * v + d)
    | none => (v, c :: rest)

/-- `strtoul` for an `unsigned long` of 64 bits: white space and a sign may stand in front. No `0x`
gets here. -/
def strtoulBase (base : ℕ) (c : List UInt8) : ℕ × List UInt8 :=
  let p := c.dropWhile isSpace
  let digits := if peek p = 0x2d ∨ peek p = 0x2b then p.drop 1 else p
  if (digitOf base (peek digits)).isSome then
    let v := readDigits base digits 0
    (if 2 ^ 64 ≤ v.1 then 2 ^ 64 - 1 else if peek p = 0x2d then (2 ^ 64 - v.1) % 2 ^ 64 else v.1, v.2)
  else (0, c)

lemma digitOf_isDigit {c : UInt8} (h : isDigit c = true) :
    digitOf 10 c = some (c.toNat - 0x30) := by
  have h30 : (0x30 : UInt8).toNat = 0x30 := rfl
  have h39 : (0x39 : UInt8).toNat = 0x39 := rfl
  rw [isDigit, Bool.and_eq_true, decide_eq_true_eq, decide_eq_true_eq] at h
  have hval : (c - 0x30).toNat = c.toNat - 0x30 := by
    rw [UInt8.toNat_sub_of_le _ _ h.1, h30]
  have hle := UInt8.le_iff_toNat_le.mp h.2
  rw [digitOf, hexDigit, if_pos h, Option.bind_some, hval, if_pos (by omega)]

lemma readDigits_of_isDigit {m : List UInt8} (h : ∀ c ∈ m, isDigit c = true) (v : ℕ) :
    readDigits 10 m v = (m.foldl (fun l d => 10 * l + (d.toNat - 0x30)) v, []) := by
  induction m generalizing v with
  | nil => rfl
  | cons c m ih =>
    rw [readDigits, digitOf_isDigit (h c List.mem_cons_self), List.foldl_cons]
    exact ih (fun d hd => h d (List.mem_cons_of_mem _ hd)) _

/-- `strtoul` reads a number to its end. -/
lemma strtoulBase_numeral {m : List UInt8} {p : ℕ} (h : Numeral m p) (hp : p < 2 ^ 64) :
    strtoulBase 10 m = (p, []) := by
  obtain ⟨c, rest, rfl, hc, hspace, hsign⟩ := h.exists_cons
  have hstart : (c :: rest).dropWhile isSpace = c :: rest :=
    List.dropWhile_cons_of_neg (by rw [hspace]; simp)
  have hpeek : peek (c :: rest) = c := rfl
  have hread : readDigits 10 (c :: rest) 0 = (p, []) := by
    rw [readDigits_of_isDigit h.digits]
    exact congrArg (·, []) h.value
  rw [strtoulBase]
  simp only [hstart, hpeek, if_neg hsign, digitOf_isDigit hc, hread]
  rw [if_pos (by rfl), if_neg (by omega), if_neg (fun hd => hsign (.inl hd))]

end OmniORB
