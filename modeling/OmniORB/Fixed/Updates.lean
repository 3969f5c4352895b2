import OmniORB.Fixed.Marshalling
import OmniORB.Fixed.Rounding
import OmniORB.Fixed.Texts

/-!
# Updates that fail

Assignments and `NP_fromString` overwrite the variable before they check what they have written. What
is left of a variable is exactly what it was only where no check fails late.
-/

namespace OmniORB

open Library

/-- The members of `CORBA::Fixed` as they are stored, with all 31 octets of `pd_val`. -/
structure StoredFixed where
  val : List ℕ
  digits : ℕ
  scale : ℕ
  negative : Bool
  idlDigits : ℕ
  idlScale : ℕ
  deriving DecidableEq, Repr

namespace Fixed

/-- The entries of `pd_val` after the digits are zero. -/
def stored (f : Fixed) : StoredFixed :=
  ⟨f.val ++ List.replicate (fixedDigits - f.digits) 0, f.digits, f.scale, f.negative, f.idlDigits,
    f.idlScale⟩

/-! ### `NP_fromString` on a variable -/

/-- What follows white space and a sign. -/
def afterSign (s : List UInt8) : List UInt8 :=
  let s := s.dropWhile isSpace
  if s.head? = some 0x2d ∨ s.head? = some 0x2b then s.drop 1 else s

/-- Whether the sign is a `-`. -/
def isNegative (s : List UInt8) : Bool := (s.dropWhile isSpace).head? = some 0x2d

/-- There is a digit or a decimal point after the sign. -/
def Begins (s : List UInt8) : Prop :=
  isNumeral ((afterSign s).headD 0) = true ∨ (afterSign s).head? = some 0x2e

instance (s : List UInt8) : Decidable (Begins s) := inferInstanceAs (Decidable (_ ∨ _))

/-- What follows the digits and the decimal point. -/
def afterNumeral (s : List UInt8) : List UInt8 :=
  ((afterSign s).dropWhile (· = 0x30)).dropWhile fun c => isNumeral c || c = 0x2e

/-- `pd_digits` where the loop that counts ends, at a second decimal point or after the last
digit. -/
def countedDigits : List UInt8 → ℕ → Bool → ℕ
  | [], digits, _ => digits
  | c :: s, digits, point =>
    if c = 0x2e then
      if point then digits else countedDigits s digits true
    else countedDigits s (ushort (digits + 1)) point

/-- Whether `PR_checkLimits` leaves the number as it is. -/
def withinScale (f : Fixed) : Bool := f.idlDigits = 0 || f.scale ≤ f.idlScale

/-- `NP_fromString`: the variable afterwards, and whether the number is exact. -/
def fromString (x : Fixed) (s : List UInt8) : StoredFixed × Except FixedExn Bool :=
  let y := { x.stored with negative := isNegative s }
  if ¬Begins s then (y, .error .badInput)
  else
    let y := { y with digits := countedDigits (numeralOf s) 0 false }
    match countDigits (numeralOf s) 0 none with
    | .error e => (y, .error e)
    | .ok (digits, point) =>
      let scale := ushort (digits - point.getD digits)
      let y := { y with scale }
      match checkTrailing (afterNumeral s) with
      | .error e => (y, .error e)
      | .ok () =>
        let c := chopNumeral (numeralOf s).reverse digits scale
        let precise : Bool := c.2.1 = digits
        let r := if 0 < c.2.2 then backUp c.1 c.2.1 c.2.2 else c
        if fixedDigits < r.2.1 then ({ y with digits := r.2.1, scale := r.2.2 }, .error .rangeError)
        else
          let f : Fixed := ⟨takeDigits r.2.1 r.1, r.2.2, if r.2.1 = 0 then false else isNegative s,
            x.idlDigits, x.idlScale⟩
          if precise then (f.checkLimits.1.stored, f.checkLimits.2.map fun _ => f.withinScale)
          else (f.stored, .ok false)

lemma ofString_steps (s : List UInt8) : ofString s =
    if ¬Begins s then .error .badInput
    else (countDigits (numeralOf s) 0 none).bind fun n =>
      (checkTrailing (afterNumeral s)).bind fun _ =>
        let c := chopNumeral (numeralOf s).reverse n.1 (ushort ((n.1 : ℤ) - n.2.getD n.1))
        let r := if 0 < c.2.2 then backUp c.1 c.2.1 c.2.2 else c
        if fixedDigits < r.2.1 then .error .rangeError
        else .ok ⟨takeDigits r.2.1 r.1, r.2.2, if r.2.1 = 0 then false else isNegative s, 0, 0⟩ :=
  rfl

/-- The constructor from a string is `NP_fromString` on a new object. -/
lemma fromString_zero (s : List UInt8) :
    ((zero.fromString s).2.map fun _ => (zero.fromString s).1) = (ofString s).map stored := by
  rw [ofString_steps]
  unfold fromString
  dsimp only
  by_cases hbegins : Begins s
  · rw [if_neg (not_not.mpr hbegins), if_neg (not_not.mpr hbegins)]
    rcases countDigits (numeralOf s) 0 none with e | ⟨d, point⟩
    · rfl
    · dsimp only [Except.bind]
      rcases checkTrailing (afterNumeral s) with e | u
      · rfl
      · dsimp only
        generalize chopNumeral (numeralOf s).reverse d (ushort ((d : ℤ) - (point.getD d : ℕ))) = c
        generalize (if 0 < c.2.2 then backUp c.1 c.2.1 c.2.2 else c) = r
        by_cases hlong : fixedDigits < r.2.1
        · rw [if_pos hlong, if_pos hlong]
          rfl
        · rw [if_neg hlong, if_neg hlong]
          by_cases hprecise : c.2.1 = d
          · rw [if_pos (decide_eq_true hprecise)]
            rfl
          · rw [if_neg (by simpa using hprecise)]
            rfl
  · rw [if_pos hbegins, if_pos hbegins]
    rfl

/-! ### Updates -/

/-- `PR_setLimits` -/
def setLimits (x : Fixed) (idlDigits idlScale : ℕ) : Fixed × Except FixedExn Unit :=
  if fixedDigits < idlDigits ∨ idlDigits < idlScale then (x, .error .assertionFailure)
  else checkLimits { x with idlDigits, idlScale }

/-- The operators of the compound assignments. -/
inductive Operator where
  | add
  | sub
  | mul
  | div
  deriving DecidableEq, Repr

namespace Operator

def apply : Operator → Fixed → Fixed → Except FixedExn Fixed
  | add => Fixed.add
  | sub => Fixed.sub
  | mul => Fixed.mul
  | div => Fixed.div

/-- The exact result. -/
def result : Operator → ℚ → ℚ → ℚ
  | add, x, y => x + y
  | sub, x, y => x - y
  | mul, x, y => x * y
  | div, x, y => x / y

end Operator

inductive Update where
  | assign (v : Fixed)
  | compound (op : Operator) (v : Fixed)
  | fromString (s : List UInt8)
  | setLimits (idlDigits idlScale : ℕ)

/-- The variable after an update, and the exception if there is one. A compound assignment assigns
the result of its operator. -/
def Update.run (x : Fixed) : Update → StoredFixed × Except FixedExn Unit
  | assign v => ((x.assign v).1.stored, (x.assign v).2)
  | compound op v =>
    match op.apply x v with
    | .error e => (x.stored, .error e)
    | .ok r => ((x.assign r).1.stored, (x.assign r).2)
  | fromString s => ((x.fromString s).1, (x.fromString s).2.map fun _ => ())
  | setLimits d s => ((x.setLimits d s).1.stored, (x.setLimits d s).2)

/-- The operand is a number in canonical form, and a text is not too long to be counted. -/
def Update.Valid : Update → Prop
  | assign v => v.Canonical
  | compound _ v => v.Canonical
  | fromString s => digitCount s < 65536
  | setLimits _ _ => True

/-- `DATA_CONVERSION` -/
def DataConversion (e : FixedExn) : Prop := e = .rangeError ∨ e = .badInput

/-- Marshalling and the operators stay inside their buffers. -/
structure Usable (z : Fixed) : Prop where
  marshal : ∀ buffer : List UInt8, buffer.length = 16 → ∃ e, z.marshal buffer = .ok e
  inBounds : ∀ v : Fixed, v.Canonical → InBounds z v ∧ InBounds v z

/-- The variable holds the digits, scale and sign of `x`, is within its limits and can be used. -/
def Survives (x : Fixed) (y : StoredFixed) : Prop :=
  ∃ z : Fixed, y = z.stored ∧ z.val = x.val ∧ z.scale = x.scale ∧ z.negative = x.negative ∧
    Limited z ∧ Usable z

/-- If the update throws `DATA_CONVERSION`, the variable survives it. -/
def Unharmed (x : Fixed) (u : Update) : Prop :=
  ∀ e, DataConversion e → (u.run x).2 = .error e → Survives x (u.run x).1

/-! ### When nothing is harmed -/

/-- The digits before the decimal point, leading zeros left out. -/
def wholeCount (s : List UInt8) : ℕ := ((numeralOf s).takeWhile (· ≠ 0x2e)).length

/-- There are as many digits before the decimal point as the limits allow for. -/
def Room (x : Fixed) (n : ℕ) : Prop := n ≤ x.idlDigits - x.idlScale

instance (x : Fixed) (n : ℕ) : Decidable (Room x n) := inferInstanceAs (Decidable (_ ≤ _))

/-- A text that is refused repeats what has been overwritten by then. One that is read has few enough
digits before the decimal point, or more than 31 in all: the limits are not checked then. -/
def HarmlessText (x : Fixed) (s : List UInt8) : Prop :=
  if ¬Begins s then isNegative s = x.negative
  else if 1 < (numeralOf s).count 0x2e then
    isNegative s = x.negative ∧ countedDigits (numeralOf s) 0 false = x.digits
  else if checkTrailing (afterNumeral s) ≠ .ok () then
    isNegative s = x.negative ∧ digitCount s = x.digits ∧ digitCount s - wholeCount s = x.scale
  else wholeCount s ≤ fixedDigits ∧ (fixedDigits < digitCount s ∨ Room x (wholeCount s))

/-- The number fits: there are few enough digits before its decimal point, or so many that the
operator itself fails. -/
def Harmless (x : Fixed) : Update → Prop
  | .assign v => Room x (v.digits - v.scale)
  | .compound op v =>
    Room x (integerDigits (op.result x.value v.value)) ∨
      fixedDigits < integerDigits (op.result x.value v.value)
  | .fromString s => HarmlessText x s
  | .setLimits d s => d = 0 ∨ fixedDigits < d ∨ d < s ∨ x.digits - x.scale ≤ d - s

/-! ### Limits -/

section Limits

variable {x f : Fixed}

lemma Canonical.usable (hx : x.Canonical) (hlimit : Limited x) : Usable x where
  marshal _ hbuffer := by
    obtain ⟨e, he, -⟩ := marshal_encodes hx hlimit hbuffer
    exact ⟨e, he⟩
  inBounds _ hv := ⟨hx.inBounds hv, hv.inBounds hx⟩

lemma Canonical.survives (hx : x.Canonical) (hlimit : Limited x) : Survives x x.stored :=
  ⟨x, rfl, rfl, rfl, rfl, hlimit, hx.usable hlimit⟩

/-- Zeros are stripped after the decimal point only. -/
lemma finish_digits {w : List ℕ} {scale : ℕ} {negative : Bool}
    (h : finish w scale negative = .ok f) : f.digits + scale = w.length + f.scale := by
  obtain ⟨j, hj, hjw, heq, -, -⟩ := stripFraction_spec w scale
  obtain ⟨k, hk, hkw, heq', -, -⟩ := stripFraction_spec (w.drop j) (scale - j)
  rw [List.length_drop] at hkw
  rw [finish, heq, ofOctets] at h
  split_ifs at h
  rw [Except.ok.injEq] at h
  rw [← h, digits, heq']
  simp only [List.length_drop]
  omega

/-- The check throws if there are too many digits before the decimal point. What it leaves has as
many of them as there were. -/
lemma checkLimits_spec (hf : f.Canonical) (hpos : 0 < f.idlDigits) (hle : f.idlScale ≤ f.idlDigits) :
    f.checkLimits.1.idlDigits = f.idlDigits ∧ f.checkLimits.1.idlScale = f.idlScale ∧
      f.checkLimits.1.digits - f.checkLimits.1.scale = f.digits - f.scale ∧
      f.checkLimits.2 = if Room f (f.digits - f.scale) then .ok () else .error .rangeError := by
  have hrange : ∀ g : Fixed, g.scale ≤ g.digits → g.idlDigits = f.idlDigits →
      g.idlScale = f.idlScale → g.digits - g.scale = f.digits - f.scale →
      g.checkRange = if Room f (f.digits - f.scale) then .ok () else .error .rangeError := by
    intro g hscale hd hs hunscale
    rw [checkRange, hd, hs]
    by_cases hroom : Room f (f.digits - f.scale)
    · rw [if_pos hroom, if_neg]
      unfold Room at hroom
      omega
    · rw [if_neg hroom, if_pos]
      unfold Room at hroom
      omega
  have hscale := hf.scale_le
  unfold checkLimits
  rw [if_neg hpos.ne']
  by_cases hlong : f.idlScale < f.scale
  · have hcut : f.scale - f.idlScale + f.idlScale = f.scale := Nat.sub_add_cancel hlong.le
    have hfin := hf.finishable_drop hcut
    have hlen : (f.val.drop (f.scale - f.idlScale)).length = f.digits - (f.scale - f.idlScale) :=
      List.length_drop
    have hdigits := hf.digits_le
    have hroom : (f.val.drop (f.scale - f.idlScale)).length ≤ fixedDigits := by omega
    have hplaces : f.idlScale ≤ (f.val.drop (f.scale - f.idlScale)).length := by omega
    obtain ⟨g, hg, -⟩ := finish_eq hroom hplaces f.negative
    have hcanonical := finish_canonical hfin hg
    have hunscale : g.digits - g.scale = f.digits - f.scale := by
      have h := finish_digits hg
      omega
    rw [if_pos hlong, truncate_eq_finish hlong (by omega), hg]
    exact ⟨rfl, rfl, hunscale, hrange _ hcanonical.scale_le rfl rfl hunscale⟩
  · rw [if_neg hlong]
    exact ⟨rfl, rfl, rfl, hrange f hscale rfl rfl rfl⟩

/-- A variable does not survive a number that does not fit. -/
lemma checkLimits_unharmed_iff (hf : f.Canonical) (hpos : 0 < f.idlDigits)
    (hle : f.idlScale ≤ f.idlDigits) :
    (∀ e, DataConversion e → f.checkLimits.2 = .error e → Survives x f.checkLimits.1.stored) ↔
      Room f (f.digits - f.scale) := by
  obtain ⟨hd, hs, hunscale, hthrows⟩ := checkLimits_spec hf hpos hle
  constructor
  · intro h
    by_contra hno
    rw [if_neg hno] at hthrows
    obtain ⟨z, hz, -, -, -, hlimit, -⟩ := h _ (.inl rfl) hthrows
    have hzd : f.checkLimits.1.digits = z.digits := congrArg StoredFixed.digits hz
    have hzs : f.checkLimits.1.scale = z.scale := congrArg StoredFixed.scale hz
    have hzid : f.checkLimits.1.idlDigits = z.idlDigits := congrArg StoredFixed.idlDigits hz
    have hzis : f.checkLimits.1.idlScale = z.idlScale := congrArg StoredFixed.idlScale hz
    have hfits := hlimit.unscale_le
    refine hno ?_
    unfold Room
    rwa [← hzd, ← hzs, ← hzid, ← hzis, hd, hs, hunscale] at hfits
  · intro hroom e _ he
    rw [hthrows, if_pos hroom] at he
    cases he

end Limits

/-! ### Compound assignments -/

section Compound

variable {a b f : Fixed}

lemma integerDigits_truncateAt (places : ℕ) (x : ℚ) :
    integerDigits (truncateAt places x) = integerDigits x := by
  have hshift : (0 : ℚ) ≤ (⌊|x| * 10 ^ places⌋₊ : ℚ) / 10 ^ places := by positivity
  have habs : |truncateAt places x| = (⌊|x| * 10 ^ places⌋₊ : ℚ) / ((10 ^ places : ℕ) : ℚ) := by
    rw [truncateAt, abs_mul, abs_of_nonneg hshift]
    push_cast
    split_ifs
    · rw [abs_neg, abs_one, one_mul]
    · rw [abs_one, one_mul]
  have hfloor : ⌊|x| * 10 ^ places⌋₊ / 10 ^ places = ⌊|x|⌋₊ := by
    rw [← Nat.floor_div_natCast]
    push_cast
    rw [mul_div_cancel_right₀ _ (by positivity)]
  rw [integerDigits, habs, Nat.floor_div_eq_div, hfloor, integerDigits]

lemma Exactly.digits_sub_scale {x : ℚ} {r : Except FixedExn Fixed} (h : Exactly x r)
    (hr : r = .ok f) : f.Canonical ∧ f.digits - f.scale = integerDigits x := by
  obtain ⟨g, hg, hcanonical, hvalue⟩ := h.ok (h.integerDigits_le hr)
  obtain rfl : f = g := Except.ok.inj (hr.symm.trans hg)
  refine ⟨hcanonical, ?_⟩
  rw [← hcanonical.integerDigits_value, hvalue, integerDigits_truncateAt]

lemma Exactly.lt_of_error {x : ℚ} {r : Except FixedExn Fixed} (h : Exactly x r) {e : FixedExn}
    (hr : r = .error e) : fixedDigits < integerDigits x := by
  by_contra hle
  obtain ⟨g, hg, -⟩ := h.ok (not_lt.mp hle)
  rw [hr] at hg
  cases hg

/-- A quotient less than one has no digits before the decimal point. -/
lemma realDiv_digits_le_scale {negative : Bool} (hu : unscale a b ≤ 0)
    (h : realDiv a b negative = .ok f) : f.digits ≤ f.scale := by
  rcases hq : divDigits (significant b.val) (2 * fixedDigits) (-unscale a b).toNat (running a) with
    e | ⟨digits, q⟩
  · rw [unscale, running] at hq
    rw [realDiv, hq] at h
    cases h
  · rw [realDiv_eq_place hq, Int.toNat_of_nonpos hu] at h
    generalize List.replicate (-unscale a b).toNat 0 ++ q ++
      List.replicate (2 * fixedDigits - (-unscale a b).toNat - q.length) 0 = work at h
    have hstrip : stripFraction work 0 = (work, 0) := by
      obtain ⟨k, hk, -, heq, -, -⟩ := stripFraction_spec work 0
      rw [heq, Nat.le_zero.mp hk, List.drop_zero]
    rw [place, hstrip] at h
    dsimp only at h
    split_ifs at h with h1 h2
    have hdigits := finish_digits h
    rw [List.length_reverse, List.length_take] at hdigits
    omega

lemma div_digits_sub_scale (ha : a.Canonical) (hb : b.Canonical) (h : a.div b = .ok f) :
    f.digits - f.scale = integerDigits (a.value / b.value) := by
  have hb0 : b.val ≠ [] := by
    intro hnil
    rw [Fixed.div, digits, hnil, if_pos List.length_nil] at h
    cases h
  by_cases hdrops : DropsDigit a b
  · obtain ⟨ha0, ⟨hu, -⟩, -⟩ := hdrops
    rw [div_eq_realDiv ha0 hb0] at h
    have hle := realDiv_digits_le_scale hu.le h
    have hlt := magnitude_div_lt_one ha hb hb0 hu.le
    rw [value_div_eq, integerDigits_signed, integerDigits_eq_zero (magnitude_div_nonneg a b) hlt]
    omega
  · rcases (div_truncated_iff ha hb hb0).mpr hdrops with ⟨herr, -⟩ | ⟨g, places, hg, hvalue, -⟩
    · rw [h] at herr
      cases herr
    · obtain rfl : f = g := Except.ok.inj (h.symm.trans hg)
      rw [← (Canonical.div h).integerDigits_value, hvalue, integerDigits_truncateAt]

/-- A division fails for its size only, unless it is by zero. -/
lemma div_error (ha : a.Canonical) (hb : b.Canonical) {e : FixedExn} (h : a.div b = .error e) :
    integerDigits (a.value / b.value) = 0 ∨ fixedDigits < integerDigits (a.value / b.value) := by
  by_cases hb0 : b.val = []
  · have hvalue : b.value = 0 := by simp [value, magnitude, hb0]
    left
    rw [hvalue, div_zero]
    simp [integerDigits]
  · by_cases hdrops : DropsDigit a b
    · left
      rw [value_div_eq, integerDigits_signed]
      exact integerDigits_eq_zero (magnitude_div_nonneg a b)
        (magnitude_div_lt_one ha hb hb0 hdrops.2.1.1.le)
    · rcases (div_truncated_iff ha hb hb0).mpr hdrops with ⟨-, hlt⟩ | ⟨g, places, hg, -⟩
      · exact .inr hlt
      · rw [h] at hg
        cases hg

namespace Operator

/-- The result has as many digits before the decimal point as the exact one. -/
lemma apply_ok (op : Operator) (ha : a.Canonical) (hb : b.Canonical) (h : op.apply a b = .ok f) :
    f.Canonical ∧ f.digits - f.scale = integerDigits (op.result a.value b.value) := by
  cases op with
  | add => exact (ha.add_exactly hb).digits_sub_scale h
  | sub => exact (ha.sub_exactly hb).digits_sub_scale h
  | mul => exact (ha.mul_exactly hb).digits_sub_scale h
  | div => exact ⟨Canonical.div h, div_digits_sub_scale ha hb h⟩

lemma apply_error (op : Operator) (ha : a.Canonical) (hb : b.Canonical) {e : FixedExn}
    (h : op.apply a b = .error e) : integerDigits (op.result a.value b.value) = 0 ∨
      fixedDigits < integerDigits (op.result a.value b.value) := by
  cases op with
  | add => exact .inr ((ha.add_exactly hb).lt_of_error h)
  | sub => exact .inr ((ha.sub_exactly hb).lt_of_error h)
  | mul => exact .inr ((ha.mul_exactly hb).lt_of_error h)
  | div => exact div_error ha hb h

end Operator

end Compound

/-! ### Texts -/

/-- The loop ends with the count, or else at a second decimal point. -/
lemma countDigits_counted {l : List UInt8} {d : ℕ} {u : Option ℕ} {r : ℕ × Option ℕ}
    (h : countDigits l d u = .ok r) : countedDigits l d u.isSome = r.1 := by
  induction l generalizing d u with
  | nil =>
    rw [countDigits, Except.ok.injEq] at h
    rw [countedDigits, ← h]
  | cons c l ih =>
    rw [countDigits] at h
    rw [countedDigits]
    split_ifs at h ⊢ with hc hu
    · exact ih h
    · exact ih h

lemma countDigits_of_lt {l : List UInt8} {d : ℕ} {u : Option ℕ}
    (h : 1 < l.count 0x2e + u.isSome.toNat) : countDigits l d u = .error .badInput := by
  induction l generalizing d u with
  | nil =>
    have hle := Bool.toNat_le u.isSome
    rw [List.count_nil] at h
    omega
  | cons c l ih =>
    rw [List.count_cons] at h
    rw [countDigits]
    split_ifs with hc hu
    · rfl
    · refine ih ?_
      rw [if_pos (by simpa using hc)] at h
      simp only [Option.isSome_some, Bool.toNat_true]
      simp only [Bool.not_eq_true] at hu
      rw [hu] at h
      exact h
    · refine ih ?_
      rw [if_neg (by simpa using hc)] at h
      exact h

lemma countDigits_of_le {l : List UInt8} {d : ℕ} {u : Option ℕ}
    (h : l.count 0x2e + u.isSome.toNat ≤ 1) : ∃ r, countDigits l d u = .ok r := by
  induction l generalizing d u with
  | nil => exact ⟨_, rfl⟩
  | cons c l ih =>
    rw [List.count_cons] at h
    rw [countDigits]
    split_ifs with hc hu
    · rw [if_pos (by simpa using hc), hu, Bool.toNat_true] at h
      omega
    · refine ih ?_
      rw [if_pos (by simpa using hc)] at h
      simp only [Option.isSome_some, Bool.toNat_true]
      omega
    · refine ih ?_
      rw [if_neg (by simpa using hc)] at h
      exact h

lemma checkTrailing_error {s : List UInt8} (h : checkTrailing s ≠ .ok ()) :
    checkTrailing s = .error .badInput := by
  unfold checkTrailing at h ⊢
  dsimp only at h ⊢
  generalize (if s.head? = some 0x64 ∨ s.head? = some 0x44 then s.drop 1 else s) = k at h ⊢
  by_cases hk : k.all isSpace = true
  · rw [if_pos hk] at h
    exact absurd rfl h
  · rw [if_neg hk]

lemma Parts.wholeCount_eq {s : List UInt8} (p : Parts (numeralOf s)) :
    wholeCount s = p.whole.length := by
  obtain ⟨point, hbody, hpoint⟩ := p.exists_point
  have hwhole : ∀ c ∈ p.whole, decide (c ≠ 0x2e) = true := by
    intro c hc
    exact decide_eq_true (isNumeral_ne_point (p.numerals_whole c hc))
  have htail : (point ++ p.frac).takeWhile (fun c => decide (c ≠ 0x2e)) = [] := by
    rcases hpoint with h | ⟨h, hf⟩
    · rw [h]
      rfl
    · rw [h, hf]
      rfl
  unfold wholeCount
  calc ((numeralOf s).takeWhile fun c => decide (c ≠ 0x2e)).length
      = ((p.whole ++ (point ++ p.frac)).takeWhile fun c => decide (c ≠ 0x2e)).length :=
        congrArg (fun l => (List.takeWhile (fun c => decide (c ≠ 0x2e)) l).length) hbody
    _ = p.whole.length := by
        rw [List.takeWhile_append_of_pos hwhole, htail, List.append_nil]

section Text

variable {x : Fixed}

/-- The variable with its sign, count and scale overwritten. -/
def overwritten (x : Fixed) (negative : Bool) (digits scale : ℕ) : StoredFixed :=
  { x.stored with negative, digits, scale }

/-- It survives only what it was overwritten with already. -/
lemma survives_overwritten_iff (hx : x.Canonical) (hlimit : Limited x) (negative : Bool)
    (digits scale : ℕ) : Survives x (x.overwritten negative digits scale) ↔
      negative = x.negative ∧ digits = x.digits ∧ scale = x.scale := by
  constructor
  · rintro ⟨z, hz, hval, hscale, hnegative, -, -⟩
    have hzd : digits = z.digits := congrArg StoredFixed.digits hz
    have hzs : scale = z.scale := congrArg StoredFixed.scale hz
    have hzn : negative = z.negative := congrArg StoredFixed.negative hz
    refine ⟨hzn.trans hnegative, hzd.trans ?_, hzs.trans hscale⟩
    rw [Fixed.digits, Fixed.digits, hval]
  · rintro ⟨rfl, rfl, rfl⟩
    exact hx.survives hlimit

lemma fromString_unharmed_of_throws {s : List UInt8} {y : StoredFixed} {e : FixedExn}
    (h : x.fromString s = (y, .error e)) (he : DataConversion e) :
    Unharmed x (.fromString s) ↔ Survives x y := by
  have hrun : Update.run x (.fromString s) = (y, .error e) := by
    change ((x.fromString s).1, (x.fromString s).2.map fun _ => ()) = _
    rw [h]
    rfl
  unfold Unharmed
  rw [hrun]
  constructor
  · exact fun hrun => hrun e he rfl
  · exact fun hy _ _ _ => hy

/-- A text with its digits and what follows them in order. -/
lemma fromString_accepted (hx : x.Canonical) (hlimit : Limited x) {s : List UInt8}
    (hs : digitCount s < 65536) (hbegins : Begins s) {r : ℕ × Option ℕ}
    (hcount : countDigits (numeralOf s) 0 none = .ok r)
    (htrailing : checkTrailing (afterNumeral s) = .ok ()) :
    Unharmed x (.fromString s) ↔
      wholeCount s ≤ fixedDigits ∧ (fixedDigits < digitCount s ∨ Room x (wholeCount s)) := by
  obtain ⟨p, hd, hpoint⟩ := countDigits_none numeralOf_mem (by rw [Nat.zero_add]; exact hs) hcount
  obtain ⟨d, point⟩ := r
  have hlen := p.length_eq
  have hwhole := p.wholeCount_eq
  rw [Nat.zero_add] at hd hpoint
  dsimp only at hd hpoint
  have hscale : ushort ((d : ℤ) - (point.getD d : ℕ)) = p.frac.length := by
    rw [hpoint]
    unfold ushort
    omega
  have hdigits : d = p.frac.length + p.whole.length := by omega
  have hscan := scan_eq p (by omega) (isNegative s)
  have hchop := chopNumeral_spec p.frac.reverse p.tail p.whole.length
  rw [List.length_reverse, ← p.body_eq, List.length_drop, List.length_reverse] at hchop
  have hprecise : (chopNumeral (numeralOf s).reverse d p.frac.length).2.1 = d ↔
      digitCount s ≤ fixedDigits ∨ p.frac.length = 0 := by
    rw [hdigits, hchop]
    dsimp only
    omega
  have hfin := p.finishable (numeralOf_head? s)
  have hexactly := chop_exactly (e := .rangeError) hfin (fun _ => rfl) (isNegative s)
  have hinteger : integerDigits (signed (isNegative s) (num p.digits / 10 ^ p.frac.length)) =
      wholeCount s := by
    rw [integerDigits_signed, hfin.integerDigits_eq, p.length_digits, hwhole, Nat.add_sub_cancel_left]
  rw [← hscan, ← hdigits] at hexactly
  have hrun : x.fromString s =
      (let c := chopNumeral (numeralOf s).reverse d p.frac.length
       let r := if 0 < c.2.2 then backUp c.1 c.2.1 c.2.2 else c
       if fixedDigits < r.2.1 then (x.overwritten (isNegative s) r.2.1 r.2.2, .error .rangeError)
       else
         let f : Fixed := ⟨takeDigits r.2.1 r.1, r.2.2, if r.2.1 = 0 then false else isNegative s,
           x.idlDigits, x.idlScale⟩
         if c.2.1 = d then (f.checkLimits.1.stored, f.checkLimits.2.map fun _ => f.withinScale)
         else (f.stored, .ok false)) := by
    unfold fromString
    dsimp only
    rw [if_neg (not_not.mpr hbegins), hcount]
    dsimp only
    rw [hscale, htrailing]
    simp only [decide_eq_true_eq]
    rfl
  dsimp only at hexactly hrun
  generalize chopNumeral (numeralOf s).reverse d p.frac.length = c at hexactly hrun hprecise
  generalize (if 0 < c.2.2 then backUp c.1 c.2.1 c.2.2 else c) = r at hexactly hrun
  by_cases hover : fixedDigits < r.2.1
  · rw [if_pos hover] at hrun hexactly
    have hlong : fixedDigits < wholeCount s := by
      rw [← hinteger]
      exact hexactly.lt_of_error rfl
    rw [fromString_unharmed_of_throws hrun (.inl rfl), survives_overwritten_iff hx hlimit]
    refine iff_of_false (fun h => ?_) fun h => absurd hlong (not_lt.mpr h.1)
    have hle := hx.digits_le
    rw [← h.2.1] at hle
    exact absurd hover (not_lt.mpr hle)
  · rw [if_neg hover] at hrun hexactly
    have hshort : wholeCount s ≤ fixedDigits := by
      rw [← hinteger]
      exact hexactly.integerDigits_le rfl
    obtain ⟨hcanonical, hunscale⟩ := hexactly.digits_sub_scale rfl
    have hf := hcanonical.with_limits hx.idlDigits_le x.idlScale
    rw [hinteger] at hunscale
    generalize hfdef : (⟨takeDigits r.2.1 r.1, r.2.2, if r.2.1 = 0 then false else isNegative s,
      x.idlDigits, x.idlScale⟩ : Fixed) = f at hrun
    have hlimits : f.idlDigits = x.idlDigits ∧ f.idlScale = x.idlScale ∧
        f.digits - f.scale = wholeCount s ∧ f.Canonical := by
      rw [← hfdef]
      exact ⟨rfl, rfl, hunscale, hf⟩
    obtain ⟨hd, hs, hu, hf⟩ := hlimits
    have hroom : Room f (f.digits - f.scale) ↔ Room x (wholeCount s) := by
      rw [Room, Room, hd, hs, hu]
    rw [and_iff_right hshort]
    by_cases hexact : c.2.1 = d
    · have hmany : ¬fixedDigits < digitCount s := by
        rcases hprecise.mp hexact with h | h
        · exact not_lt.mpr h
        · omega
      rw [if_pos hexact] at hrun
      rw [or_iff_right hmany, ← hroom, ← checkLimits_unharmed_iff (x := x) hf
        (by rw [hd]; exact hlimit.idlDigits_pos) (by rw [hd, hs]; exact hlimit.idlScale_le)]
      have hthrows : (Update.run x (.fromString s)).2 = f.checkLimits.2 := by
        change ((x.fromString s).2.map fun _ => ()) = _
        rw [hrun]
        cases f.checkLimits.2 with
        | error e => rfl
        | ok u => rfl
      have hleft : (Update.run x (.fromString s)).1 = f.checkLimits.1.stored := by
        change (x.fromString s).1 = _
        rw [hrun]
      unfold Unharmed
      rw [hthrows, hleft]
    · have hmany : fixedDigits < digitCount s := not_le.mp fun hle => hexact (hprecise.mpr (.inl hle))
      rw [if_neg hexact] at hrun
      refine iff_of_true (fun e _ he => ?_) (.inl hmany)
      have hthrows : (Update.run x (.fromString s)).2 = .ok () := by
        change ((x.fromString s).2.map fun _ => ()) = _
        rw [hrun]
        rfl
      rw [hthrows] at he
      cases he

lemma fromString_unharmed_iff (hx : x.Canonical) (hlimit : Limited x) {s : List UInt8}
    (hs : digitCount s < 65536) : Unharmed x (.fromString s) ↔ HarmlessText x s := by
  unfold HarmlessText
  by_cases hbegins : Begins s
  · rw [if_neg (not_not.mpr hbegins)]
    by_cases hpoints : 1 < (numeralOf s).count 0x2e
    · have hrun : x.fromString s =
          (x.overwritten (isNegative s) (countedDigits (numeralOf s) 0 false) x.scale,
            .error .badInput) := by
        unfold fromString
        dsimp only
        rw [if_neg (not_not.mpr hbegins), countDigits_of_lt (d := 0) (u := none) hpoints]
        rfl
      rw [if_pos hpoints, fromString_unharmed_of_throws hrun (.inr rfl),
        survives_overwritten_iff hx hlimit, and_iff_left rfl]
    · obtain ⟨r, hcount⟩ := countDigits_of_le (d := 0) (u := none) (not_lt.mp hpoints)
      rw [if_neg hpoints]
      by_cases htrailing : checkTrailing (afterNumeral s) = .ok ()
      · rw [if_neg (not_not.mpr htrailing)]
        exact fromString_accepted hx hlimit hs hbegins hcount htrailing
      · obtain ⟨p, hd, hpoint⟩ := countDigits_none numeralOf_mem (by rw [Nat.zero_add]; exact hs) hcount
        have hlen := p.length_eq
        have hcounted := countDigits_counted hcount
        rw [Nat.zero_add] at hd hpoint
        have hscale : ushort ((r.1 : ℤ) - (r.2.getD r.1 : ℕ)) = digitCount s - wholeCount s := by
          rw [hpoint, p.wholeCount_eq]
          unfold ushort
          omega
        have hrun : x.fromString s =
            (x.overwritten (isNegative s) (digitCount s) (digitCount s - wholeCount s),
              .error .badInput) := by
          have hdigits : countedDigits (numeralOf s) 0 false = digitCount s := by
            refine hcounted.trans ?_
            omega
          unfold fromString
          dsimp only
          rw [if_neg (not_not.mpr hbegins), hcount, hdigits]
          dsimp only
          rw [hscale, checkTrailing_error htrailing]
          rfl
        rw [if_pos htrailing, fromString_unharmed_of_throws hrun (.inr rfl),
          survives_overwritten_iff hx hlimit]
  · have hrun : x.fromString s =
        (x.overwritten (isNegative s) x.digits x.scale, .error .badInput) := by
      unfold fromString
      dsimp only
      rw [if_pos hbegins]
      rfl
    rw [if_pos hbegins, fromString_unharmed_of_throws hrun (.inr rfl),
      survives_overwritten_iff hx hlimit, and_iff_left ⟨rfl, rfl⟩]

end Text

end Fixed

open Fixed in
/-- A variable of type `fixed<d,s>` is unchanged and within its limits after an update that throws
`DATA_CONVERSION`, for each update that is harmless and no other. -/
theorem fixed_update_iff {x : Fixed} (hx : x.Canonical) (hlimit : Limited x) {u : Update}
    (hu : u.Valid) : Unharmed x u ↔ Harmless x u := by
  have hassign : ∀ {v : Fixed}, v.Canonical →
      ((∀ e, DataConversion e → (x.assign v).2 = .error e → Survives x (x.assign v).1.stored) ↔
        Room x (v.digits - v.scale)) := by
    intro v hv
    exact checkLimits_unharmed_iff (hv.with_limits hx.idlDigits_le x.idlScale) hlimit.idlDigits_pos
      hlimit.idlScale_le
  cases u with
  | assign v => exact hassign hu
  | compound op v =>
    rcases happly : op.apply x v with e | r
    · have hrun : Update.run x (.compound op v) = (x.stored, .error e) := by
        unfold Update.run
        dsimp only
        rw [happly]
      refine iff_of_true (fun e' _ _ => ?_) ?_
      · rw [hrun]
        exact hx.survives hlimit
      · rcases op.apply_error hx hu happly with h | h
        · left
          rw [h]
          exact Nat.zero_le _
        · exact .inr h
    · have hrun : Update.run x (.compound op v) = ((x.assign r).1.stored, (x.assign r).2) := by
        unfold Update.run
        dsimp only
        rw [happly]
      obtain ⟨hr, hdigits⟩ := op.apply_ok hx hu happly
      have hle : ¬fixedDigits < integerDigits (op.result x.value v.value) := by
        rw [← hdigits]
        exact not_lt.mpr ((Nat.sub_le _ _).trans hr.digits_le)
      unfold Unharmed Harmless
      dsimp only
      rw [hrun, or_iff_left hle, ← hdigits]
      exact hassign hr
  | fromString s => exact fromString_unharmed_iff hx hlimit hu
  | setLimits d s =>
    unfold Unharmed Update.run Harmless setLimits
    dsimp only
    by_cases hbad : fixedDigits < d ∨ d < s
    · rw [if_pos hbad]
      refine iff_of_true (fun e he hthrows => ?_) (.inr (or_assoc.mp (.inl hbad)))
      rw [Except.error.injEq] at hthrows
      subst hthrows
      rcases he with h | h
      · cases h
      · cases h
    · rw [if_neg hbad]
      rcases Nat.eq_zero_or_pos d with h0 | hpos
      · refine iff_of_true (fun e _ hthrows => ?_) (.inl h0)
        rw [checkLimits, if_pos h0] at hthrows
        cases hthrows
      · have hcanonical := hx.with_limits (d := d) (by omega) s
        have hle : s ≤ d := by omega
        rw [checkLimits_unharmed_iff (x := x) hcanonical hpos hle]
        unfold Room Fixed.digits
        dsimp only
        omega

namespace Fixed

/-- The number 1.5 of a `fixed<2,1>`. -/
def oneAndHalf : Fixed := ⟨[5, 1], 1, false, 2, 1⟩

lemma oneAndHalf_canonical : oneAndHalf.Canonical :=
  ⟨by decide, by decide, by decide, by decide, by decide, by decide, by decide⟩

lemma oneAndHalf_limited : Limited oneAndHalf :=
  ⟨by decide, by decide, by decide, by decide, by decide⟩

end Fixed

open Fixed in
theorem fixed_update_seven :
    Unharmed oneAndHalf (.assign (ofULong 7)) ↔ Harmless oneAndHalf (.assign (ofULong 7)) :=
  fixed_update_iff oneAndHalf_canonical oneAndHalf_limited (ofULong_canonical 7)

open Fixed in
/-- Forty ones are too many, but they are counted first. -/
theorem fixed_fromString_forty :
    (Update.run oneAndHalf (.fromString (List.replicate 40 0x31))).2 = .error .rangeError ∧
      (Update.run oneAndHalf (.fromString (List.replicate 40 0x31))).1.digits = 40 ∧
      ¬Unharmed oneAndHalf (.fromString (List.replicate 40 0x31)) := by
  have hthrows : (Update.run oneAndHalf (.fromString (List.replicate 40 0x31))).2 =
      .error .rangeError := by decide
  have hdigits : (Update.run oneAndHalf (.fromString (List.replicate 40 0x31))).1.digits = 40 := by
    decide
  refine ⟨hthrows, hdigits, fun h => ?_⟩
  obtain ⟨z, hz, hval, -⟩ := h _ (.inl rfl) hthrows
  have hzd : 40 = z.val.length := by
    rw [← hdigits, hz]
    rfl
  rw [hval] at hzd
  exact absurd hzd (by decide)

end OmniORB
