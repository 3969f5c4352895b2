import OmniORB.Cdr.Stream

/-!
# Fixed point numbers

`CORBA::Fixed` of `corbaFixed.cc`. Digits are stored with the least significant first. An `Octet` of
a digit array is a number below 256, and an `int` a whole number.
-/

namespace OmniORB

/-- The exceptions of `CORBA::Fixed`. The last is none of the source's: an access outside an
array. -/
inductive FixedExn where
  | rangeError
  | badInput
  | invalidFixedValue
  | divideByZero
  | assertionFailure
  | cdr (e : Exn)
  | overrun
  deriving DecidableEq, Repr

/-- `OMNI_FIXED_DIGITS` -/
def fixedDigits : ℕ := 31

/-- `CORBA::Fixed`. `val` are the first `pd_digits` entries of `pd_val`; the entries after them are
zero. The limits are zero unless the object is an `_omni_Fixed`. -/
structure Fixed where
  val : List ℕ
  scale : ℕ
  negative : Bool
  idlDigits : ℕ
  idlScale : ℕ
  deriving DecidableEq, Repr

/-- What an `int` is stored as in an `Octet`. -/
def octet (v : ℤ) : ℕ := (v % 256).toNat

/-- What an `int` is stored as in a `UShort`. -/
def ushort (v : ℤ) : ℕ := (v % 65536).toNat

namespace Fixed

/-- `pd_digits` -/
def digits (f : Fixed) : ℕ := f.val.length

/-- `Fixed()` -/
def zero : Fixed := ⟨[], 0, false, 0, 0⟩

/-- The copy constructor: the limits are not copied. -/
def copy (f : Fixed) : Fixed := { f with idlDigits := 0, idlScale := 0 }

/-! ### Constructors -/

/-- The digits of an integer: the loop `while (val)`, for at most `n` digits. -/
def intDigits : ℕ → ℤ → List ℕ
  | 0, _ => []
  | n + 1, v => if v = 0 then [] else octet (v.tmod 10) :: intDigits n (v.tdiv 10)

/-- `Fixed(CORBA::Long)` and `Fixed(int)` -/
def ofLong (v : Int32) : Fixed :=
  let val := if v < 0 then -v else v
  ⟨intDigits fixedDigits val.toInt, 0, v < 0, 0, 0⟩

/-- `Fixed(CORBA::LongLong)` -/
def ofLongLong (v : Int64) : Fixed :=
  let val := if v < 0 then -v else v
  ⟨intDigits fixedDigits val.toInt, 0, v < 0, 0, 0⟩

/-- `Fixed(CORBA::ULong)` and `Fixed(unsigned)` -/
def ofULong (v : UInt32) : Fixed := ⟨intDigits fixedDigits v.toNat, 0, false, 0, 0⟩

/-- `Fixed(CORBA::ULongLong)` -/
def ofULongLong (v : UInt64) : Fixed := ⟨intDigits fixedDigits v.toNat, 0, false, 0, 0⟩

/-- Leave out low digits that are zero, as far as the scale goes: the digits and the scale that are
left. -/
def stripFraction : List ℕ → ℕ → List ℕ × ℕ
  | 0 :: v, scale + 1 => stripFraction v scale
  | v, scale => (v, scale)

/-- `Fixed(const Octet*, UShort digits, UShort scale, Boolean negative)` -/
def ofOctets (val : List ℕ) (scale : ℕ) (negative : Bool) : Except FixedExn Fixed :=
  if fixedDigits < val.length ∨ val.length < scale then .error .assertionFailure
  else
    let r := stripFraction val scale
    .ok ⟨r.1, r.2, if r.1 = [] then false else negative, 0, 0⟩

/-! ### Rounding -/

/-- Add one to the digits; the carry gives a new digit at their end. -/
def increment : List ℕ → List ℕ
  | [] => [1]
  | x :: v => if octet (x + 1) ≤ 9 then octet (x + 1) :: v else 0 :: increment v

def round (f : Fixed) (scale : ℕ) : Except FixedExn Fixed :=
  if f.scale ≤ scale then .ok f.copy
  else
    let cut := f.scale - scale
    if f.digits < cut then .error .assertionFailure
    else if 5 ≤ f.val.getD (cut - 1) 0 then ofOctets (increment (f.val.drop cut)) scale f.negative
    else ofOctets (f.val.drop cut) scale f.negative

def truncate (f : Fixed) (scale : ℕ) : Except FixedExn Fixed :=
  if f.scale ≤ scale then .ok f.copy
  else
    let cut := f.scale - scale
    if f.digits < cut then .error .assertionFailure
    else
      let r := stripFraction (f.val.drop cut) scale
      ofOctets r.1 r.2 f.negative

/-! ### Limits -/

/-- The check of `PR_checkLimits` on the digits before the decimal point. -/
def checkRange (f : Fixed) : Except FixedExn Unit :=
  if (f.idlDigits : ℤ) - f.idlScale < f.digits - f.scale then .error .rangeError else .ok ()

/-- `PR_checkLimits`: the object afterwards, also where an exception is thrown. The assignment in it
checks the limits again, and then the scale is within them. -/
def checkLimits (f : Fixed) : Fixed × Except FixedExn Unit :=
  if f.idlDigits = 0 then (f, .ok ())
  else if f.idlScale < f.scale then
    match f.truncate f.idlScale with
    | .error e => (f, .error e)
    | .ok g =>
      let g := { g with idlDigits := f.idlDigits, idlScale := f.idlScale }
      (g, g.checkRange)
  else (f, f.checkRange)

/-- `operator=` -/
def assign (f val : Fixed) : Fixed × Except FixedExn Unit :=
  checkLimits { val with idlDigits := f.idlDigits, idlScale := f.idlScale }

/-- The constructor of `_omni_Fixed<idlDigits, idlScale>` from a number, with `PR_setLimits`. -/
def limited (f : Fixed) (idlDigits idlScale : ℕ) : Except FixedExn Fixed :=
  if fixedDigits < idlDigits ∨ idlDigits < idlScale then .error .assertionFailure
  else
    let r := checkLimits { f with idlDigits, idlScale }
    r.2.map fun _ => r.1

/-! ### Strings -/

/-- `isspace` -/
def isSpace (c : UInt8) : Bool := c = 0x20 || (0x09 ≤ c && c ≤ 0x0d)

def isNumeral (c : UInt8) : Bool := 0x30 ≤ c && c ≤ 0x39

/-- Count the digits, in a `UShort`; at a `.` the number of digits before it is kept. -/
def countDigits : List UInt8 → ℕ → Option ℕ → Except FixedExn (ℕ × Option ℕ)
  | [], digits, unscale => .ok (digits, unscale)
  | c :: s, digits, unscale =>
    if c = 0x2e then
      if unscale.isSome then .error .badInput else countDigits s digits (some digits)
    else countDigits s (ushort (digits + 1)) unscale

/-- Nothing but white space follows the digits and a `d`. -/
def checkTrailing (s : List UInt8) : Except FixedExn Unit :=
  let s := if s.head? = some 0x64 ∨ s.head? = some 0x44 then s.drop 1 else s
  if s.all isSpace then .ok () else .error .badInput

/-- The octets from the last digit back to the first, `pd_digits` and `pd_scale`. -/
abbrev Numeral := List UInt8 × ℕ × ℕ

/-- Truncate if there are too many digits. -/
def chopNumeral : List UInt8 → ℕ → ℕ → Numeral
  | c :: r, digits + 1, scale + 1 =>
    if fixedDigits < digits + 1 then chopNumeral r digits scale else (c :: r, digits + 1, scale + 1)
  | r, digits, scale => (r, digits, scale)

/-- Back up over trailing zeros. -/
def backUp : List UInt8 → ℕ → ℕ → Numeral
  | [], digits, scale => ([], digits, scale)
  | c :: r, digits, scale =>
    if c = 0x30 then backUp r (ushort (digits - 1)) (ushort (scale - 1)) else (c :: r, digits, scale)

/-- Scan back through the string for `pd_digits` digits. -/
def takeDigits : ℕ → List UInt8 → List ℕ
  | 0, _ => []
  | _ + 1, [] => []
  | n + 1, c :: r =>
    if c = 0x2e then takeDigits (n + 1) r else octet (c.toNat - 0x30) :: takeDigits n r

/-- `Fixed(const char*)`: `NP_fromString` on a new object. -/
def ofString (s : List UInt8) : Except FixedExn Fixed := do
  let s := s.dropWhile isSpace
  let negative := s.head? = some 0x2d
  let s := if s.head? = some 0x2d ∨ s.head? = some 0x2b then s.drop 1 else s
  if ¬(isNumeral (s.headD 0) ∨ s.head? = some 0x2e) then .error .badInput
  else
    let s := s.dropWhile (· = 0x30)
    let body := s.takeWhile fun c => isNumeral c || c = 0x2e
    let (digits, point) ← countDigits body 0 none
    let unscale := point.getD digits
    let scale := ushort (digits - unscale)
    checkTrailing (s.dropWhile fun c => isNumeral c || c = 0x2e)
    let (r, digits, scale) := chopNumeral body.reverse digits scale
    let (r, digits, scale) := if 0 < scale then backUp r digits scale else (r, digits, scale)
    if fixedDigits < digits then .error .rangeError
    else
      let val := takeDigits digits r
      .ok ⟨val, scale, if digits = 0 then false else negative, 0, 0⟩

/-! ### Arithmetic -/

/-- `absCmp` on the digits, from the most significant on. -/
def absCmpDigits : List ℕ → List ℕ → ℤ
  | x :: a, y :: b => if (x : ℤ) - y ≠ 0 then x - y else absCmpDigits a b
  | _ :: _, [] => 1
  | [], _ :: _ => -1
  | [], [] => 0

def absCmp (a b : Fixed) : ℤ :=
  let c := ((a.digits : ℤ) - a.scale) - ((b.digits : ℤ) - b.scale)
  if c ≠ 0 then c else absCmpDigits a.val.reverse b.val.reverse

/-- Add digit by digit. -/
def addDigits : ℤ → List ℕ → List ℕ → List ℕ
  | carry, [], [] => if carry ≠ 0 then [octet carry] else []
  | carry, x :: a, y :: b =>
    let v := x + y + carry
    octet (if 9 < v then v - 10 else v) :: addDigits (if 9 < v then 1 else 0) a b
  | carry, x :: a, [] =>
    let v := x + carry
    octet (if 9 < v then v - 10 else v) :: addDigits (if 9 < v then 1 else 0) a []
  | carry, [], y :: b =>
    let v := y + carry
    octet (if 9 < v then v - 10 else v) :: addDigits (if 9 < v then 1 else 0) [] b

/-- Truncate, or complain with `e`, if there are too many digits. -/
def chop (e : FixedExn) (w : List ℕ) (scale : ℕ) : Except FixedExn (List ℕ × ℕ) :=
  if fixedDigits < w.length then
    if w.length ≤ fixedDigits + scale then
      .ok (w.drop (w.length - fixedDigits), scale - (w.length - fixedDigits))
    else .error e
  else .ok (w, scale)

/-- The end of each operation: strip trailing zeros. -/
def finish (w : List ℕ) (scale : ℕ) (negative : Bool) : Except FixedExn Fixed :=
  let r := stripFraction w scale
  ofOctets r.1 r.2 negative

def realAdd (a b : Fixed) (negative : Bool) : Except FixedExn Fixed := do
  let low := a.val.take (a.scale - b.scale) ++ b.val.take (b.scale - a.scale)
  let high := addDigits 0 (a.val.drop (a.scale - b.scale)) (b.val.drop (b.scale - a.scale))
  let r ← chop .rangeError (low ++ high) (max a.scale b.scale)
  finish r.1 r.2 negative

/-- Subtract digit by digit: the digits, the carry, and what is left of `b`. -/
def subDigits : ℤ → List ℕ → List ℕ → List ℕ × ℤ × List ℕ
  | carry, [], b => ([], carry, b)
  | carry, x :: a, b =>
    let v := x - (b.headD 0 : ℤ) + carry
    let r := subDigits (if v < 0 then -1 else 0) a (b.drop 1)
    (octet (if v < 0 then v + 10 else v) :: r.1, r.2)

/-- The digits of `b` below those of `a`. -/
def complementDigits : ℤ → List ℕ → List ℕ × ℤ
  | carry, [] => ([], carry)
  | carry, y :: b =>
    let r := complementDigits (-1) b
    (octet (10 - y + carry) :: r.1, r.2)

/-- Strip leading zeros, as far as the decimal point. -/
def stripLeading (scale : ℕ) (w : List ℕ) : List ℕ :=
  w.take scale ++ (w.drop scale).rdropWhile (· = 0)

def realSub (a b : Fixed) (negative : Bool) : Except FixedExn Fixed := do
  let low := complementDigits 0 (b.val.take (b.scale - a.scale))
  let high := subDigits low.2 (a.val.drop (a.scale - b.scale)) (b.val.drop (b.scale - a.scale))
  if high.2.2 ≠ [] ∨ high.2.1 ≠ 0 then .error .assertionFailure
  else do
    let scale := max a.scale b.scale
    let w := a.val.take (a.scale - b.scale) ++ low.1 ++ high.1
    let r ← chop .assertionFailure (stripLeading scale w) scale
    finish r.1 r.2 negative

/-- The variables of `realMul`. -/
structure MulState where
  work : List ℕ
  carry : ℕ
  wi : ℕ
  deriving DecidableEq, Repr

/-- The loop over the digits of `b`, from `bi` on. -/
def mulDigit (ad ai : ℕ) : List ℕ → ℕ → MulState → MulState
  | [], _, st => st
  | bd :: b, bi, st =>
    if bd = 0 ∧ st.carry = 0 then mulDigit ad ai b (bi + 1) st
    else
      let wi := ai + bi
      let v := st.work.getD wi 0 + ad * bd + st.carry
      mulDigit ad ai b (bi + 1) ⟨st.work.set wi (v % 10), v / 10, wi⟩

/-- The loop `while (carry)`, in `n` more entries of `work`. -/
def mulCarry : ℕ → MulState → Except FixedExn MulState
  | 0, st => if st.carry = 0 then .ok st else .error .overrun
  | n + 1, st =>
    if st.carry = 0 then .ok st
    else
      let wi := st.wi + 1
      let v := st.work.getD wi 0 + st.carry
      mulCarry n ⟨st.work.set wi (v % 10), v / 10, wi⟩

/-- The loop over the digits of `a`, from `ai` on. -/
def mulDigits (b : List ℕ) : List ℕ → ℕ → MulState → Except FixedExn MulState
  | [], _, st => .ok st
  | ad :: a, ai, st =>
    if ad = 0 then mulDigits b a (ai + 1) st
    else do
      let st := mulDigit ad ai b 0 st
      let st ← mulCarry (2 * fixedDigits - 1 - st.wi) st
      mulDigits b a (ai + 1) st

def realMul (a b : Fixed) (negative : Bool) : Except FixedExn Fixed := do
  let st ← mulDigits b.val a.val 0 ⟨List.replicate (2 * fixedDigits) 0, 0, 0⟩
  let scale := a.scale + b.scale
  let r ← chop .rangeError (st.work.take (max (st.wi + 1) scale)) scale
  finish r.1 r.2 negative

/-- The digits up to the most significant that is not zero. -/
def significant (v : List ℕ) : List ℕ := v.rdropWhile (· = 0)

/-- `divCmp` from the position on. -/
def divCmpDigits : List ℕ → List ℕ → ℤ
  | _, [] => 0
  | [], _ :: _ => 0
  | x :: a, y :: b => if (x : ℤ) - y ≠ 0 then x - y else divCmpDigits a b

def divCmp (av bv : List ℕ) (pos : ℕ) : Except FixedExn ℤ :=
  if (av.drop (pos + 1)).any (· ≠ 0) then .ok 1
  else if pos + 1 < bv.length then .error .assertionFailure
  else .ok (divCmpDigits (av.take (pos + 1)).reverse bv.reverse)

/-- `divDigit`, for fewer than `n` subtractions: the count and what remains. -/
def divDigit (bv : List ℕ) (pos : ℕ) : ℕ → List ℕ → Except FixedExn (ℕ × List ℕ)
  | 0, _ => .error .assertionFailure
  | n + 1, av => do
    let c ← divCmp av bv pos
    if c < 0 then .ok (0, av)
    else do
      let low := pos + 1 - bv.length
      let r ← divDigit bv pos n (av.take low ++ (subDigits 0 (av.drop low) bv).1)
      .ok (r.1 + 1, r.2)

/-- The loop of `realDiv`, at position `ri = n - 1`: the number of digits, and those of the result
from the most significant on. -/
def divDigits (bv : List ℕ) : ℕ → ℕ → List ℕ → Except FixedExn (ℕ × List ℕ)
  | n, digits, running =>
    if fixedDigits ≤ digits ∨ running.all (· = 0) then .ok (digits, [])
    else
      match n with
      | 0 => .error .overrun
      | n + 1 => do
        let c ← divDigit bv n 10 running
        let r ← divDigits bv n (if digits ≠ 0 ∨ c.1 ≠ 0 then digits + 1 else digits) c.2
        .ok (r.1, c.1 :: r.2)

/-- `realDiv`. `work` is listed from its end, where the most significant digit stands. -/
def realDiv (a b : Fixed) (negative : Bool) : Except FixedExn Fixed := do
  let av := significant a.val
  let bv := significant b.val
  let running := List.replicate (2 * fixedDigits - av.length) 0 ++ av
  let unscale : ℤ := ((av.length : ℤ) - a.scale) - ((bv.length : ℤ) - b.scale) + 1
  let initial := (-unscale).toNat
  let (digits, q) ← divDigits bv (2 * fixedDigits) initial running
  let work := List.replicate initial 0 ++ q ++
    List.replicate (2 * fixedDigits - initial - q.length) 0
  -- skip an initial zero if it was not expected
  let (work, unscale) := stripFraction work unscale.toNat
  if fixedDigits < unscale then .error .rangeError
  else
    let digits := max digits unscale
    if work.length < digits then .error .overrun
    else finish (work.take digits).reverse (digits - unscale) negative

/-! ### Operators -/

def add (a b : Fixed) : Except FixedExn Fixed :=
  if a.negative = b.negative then realAdd a b a.negative
  else if absCmp a b = 0 then .ok zero
  else if 0 < absCmp a b then realSub a b a.negative
  else realSub b a b.negative

def sub (a b : Fixed) : Except FixedExn Fixed :=
  if a.negative ≠ b.negative then realAdd a b a.negative
  else if absCmp a b = 0 then .ok zero
  else if 0 < absCmp a b then realSub a b a.negative
  else realSub b a (!a.negative)

def mul (a b : Fixed) : Except FixedExn Fixed :=
  if a.digits = 0 ∨ b.digits = 0 then .ok zero
  else if a.negative = b.negative then realMul a b false
  else realMul a b true

def div (a b : Fixed) : Except FixedExn Fixed :=
  if b.digits = 0 then .error .divideByZero
  else if a.digits = 0 then .ok zero
  else if a.negative = b.negative then realDiv a b false
  else realDiv a b true

/-- Unary `operator-` -/
def neg (f : Fixed) : Fixed := if f.digits = 0 then f.copy else { f.copy with negative := !f.negative }

/-- `NP_cmp` -/
def cmp (a b : Fixed) : ℤ :=
  if a.negative then
    if b.negative then (absCmp b a).sign else -1
  else
    if b.negative then 1 else (absCmp a b).sign

/-! ### Unmarshalling -/

/-- Digit `bi` of the buffer. -/
def nibble (buffer : List UInt8) (bi : ℕ) : ℕ :=
  if bi % 2 = 1 then (buffer.getD (bi / 2) 0).toNat % 16 else (buffer.getD (bi / 2) 0).toNat / 16

/-- The number of digits that are read: an even number is padded with one. -/
def digitsToRead (idlDigits : ℕ) : ℕ := if idlDigits % 2 = 0 then idlDigits + 1 else idlDigits

/-- The digits in the buffer, least significant first. -/
def bufferDigits (buffer : List UInt8) (n : ℕ) : List ℕ :=
  (List.range n).map fun k => nibble buffer (n - 1 - k)

/-- The sign indicator. -/
def signOf (d : ℕ) : Except FixedExn Bool :=
  if d = 0xc then .ok false else if d = 0xd then .ok true else .error .invalidFixedValue

/-- `operator<<=` -/
def unmarshal (f : Fixed) (s : CdrIn) : Except FixedExn (Fixed × CdrIn) :=
  if f.idlDigits = 0 then .error .assertionFailure
  else
    let n := digitsToRead f.idlDigits
    match s.getOctetArray (n / 2 + 1) with
    | .error e => .error (.cdr e)
    | .ok (buffer, s) => do
      let negative ← signOf (nibble buffer n)
      let r := stripFraction (bufferDigits buffer n) f.idlScale
      -- the scale that is left is what is left of the IDL's
      let scale := r.2
      if r.1.any (9 < ·) then .error .invalidFixedValue
      else
        let val := stripLeading scale r.1
        if (val.length : ℤ) - scale = (f.idlDigits : ℤ) - f.idlScale + 1 then
          .error .invalidFixedValue
        else if f.idlDigits < val.length ∨ f.idlScale < scale ∨ val.length < scale then
          .error .assertionFailure
        else .ok ({ f with val, scale, negative }, s)

end Fixed

end OmniORB
