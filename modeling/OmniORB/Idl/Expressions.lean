import OmniORB.Library.Words

/-!
# Integer expressions

The evaluation of constant expressions by the front end of the IDL compiler, as in `idlexpr.cc`: a
value is a word with a flag, and every operator tells the signs of its operands apart.
-/

namespace OmniORB.Idl

open Library

/-- The two evaluations: `evalAsLongV` and `evalAsLongLongV`. -/
inductive Mode
  | longV
  | longLongV
  deriving DecidableEq

/-- The bits of a word. -/
def Mode.width : Mode → ℕ
  | longV => 32
  | longLongV => 64

/-- The constant `0x80000000` or `0x8000000000000000`. -/
def Mode.bound : Mode → ℤ
  | longV => 0x80000000
  | longLongV => 0x8000000000000000

lemma Mode.two_pow_width (m : Mode) : (2 : ℤ) ^ m.width = 2 * m.bound := by
  cases m <;> rfl

lemma Mode.bound_pos (m : Mode) : 64 < m.bound := by
  cases m <;> decide

/-! ### Values -/

/-- `IdlLongVal` and `IdlLongLongVal`: the word `u`, which is negative as two's complement where the
flag is set. -/
structure IdlVal (m : Mode) where
  negative : Bool
  u : ℤ
  nonneg : 0 ≤ u
  lt : u < 2 ^ m.width
  large : negative = true → 2 ^ m.width ≤ 2 * u

variable {m : Mode}

namespace IdlVal

/-- The other member of the union. -/
def s (a : IdlVal m) : ℤ := signed m.width a.u

/-- The number that the value stands for. -/
def value (a : IdlVal m) : ℤ := if a.negative then a.s else a.u

/-- The constructor from an unsigned word. -/
def ofULong (m : Mode) (z : ℤ) : IdlVal m where
  negative := false
  u := unsigned m.width z
  nonneg := unsigned_nonneg _ z
  lt := unsigned_lt _ z
  large := by simp

lemma two_pow_le_unsigned {w : ℕ} {z : ℤ} (h : decide (signed w z < 0) = true) :
    2 ^ w ≤ 2 * unsigned w z := by
  have hneg := of_decide_eq_true h
  have h0 := unsigned_nonneg w z
  rw [signed] at hneg
  rw [unsigned] at h0 ⊢
  split_ifs at hneg <;> omega

/-- The constructor from a signed word. -/
def ofLong (m : Mode) (z : ℤ) : IdlVal m where
  negative := signed m.width z < 0
  u := unsigned m.width z
  nonneg := unsigned_nonneg _ z
  lt := unsigned_lt _ z
  large := two_pow_le_unsigned

end IdlVal

/-- What an evaluation gives, and whether it has reported an error; nothing where it does what is
undefined on the host. It goes on after an error, with a value in place of the one there is not. -/
abbrev Outcome (m : Mode) := Option (IdlVal m × Bool)

def Outcome.accept (v : IdlVal m) : Outcome m := some (v, false)

def Outcome.error (v : IdlVal m) : Outcome m := some (v, true)

/-- Arithmetic on signed words, which must not overflow. -/
def onHost (m : Mode) (z : ℤ) : Option ℤ := if FitsSigned m.width z then some z else none

open IdlVal Outcome

/-! ### Operators -/

/-- The operators `|`, `^` and `&`, of which only the first operand decides the sign. -/
def bitwise (op : ℤ → ℤ → ℤ) (a b : IdlVal m) : Outcome m :=
  if a.negative then accept (ofLong m (op a.s b.s)) else accept (ofULong m (op a.u b.u))

def orExpr (a b : IdlVal m) : Outcome m := bitwise Int.lor a b

def xorExpr (a b : IdlVal m) : Outcome m := bitwise Int.xor a b

def andExpr (a b : IdlVal m) : Outcome m := bitwise Int.land a b

/-- A shift: the count is compared with 64 whatever the width is, and a shift of a word by its width
is undefined. -/
def shift (op : ℤ → ℕ → ℤ) (a b : IdlVal m) : Outcome m :=
  if 64 ≤ b.u then error a
  else if m.width ≤ b.u then none
  else if a.negative then accept (ofLong m (op a.s b.u.toNat))
  else accept (ofULong m (op a.u b.u.toNat))

/-- The sign of a negative number fills the bits. -/
def rShiftExpr (a b : IdlVal m) : Outcome m := shift (fun x n => x >>> n) a b

/-- A negative number is shifted as the word that it is. -/
def lShiftExpr (a b : IdlVal m) : Outcome m := shift (fun x n => x * 2 ^ n) a b

/-- `ModExpr::evalAsLongV`: magnitudes. -/
def modExprLong (a b : IdlVal m) : Outcome m :=
  if b.u = 0 then error a
  else
    match a.negative, b.negative with
    | false, false => accept (ofULong m (a.u % b.u))
    | true, false => do
      let ma ← onHost m (-a.s)
      let mr ← onHost m (-signed m.width (ma % b.u))
      accept (ofLong m mr)
    | false, true => do
      let mb ← onHost m (-b.s)
      accept (ofULong m (a.u % mb))
    | true, true => do
      let ma ← onHost m (-a.s)
      let mb ← onHost m (-b.s)
      accept (ofLong m (-Int.tmod ma mb))

/-- `ModExpr::evalAsLongLongV`: where one operand is unsigned, the host takes both as unsigned. -/
def modExprLongLong (a b : IdlVal m) : Outcome m :=
  if b.u = 0 then error a
  else
    match a.negative, b.negative with
    | false, false => accept (ofULong m (a.u % b.u))
    | true, false => accept (ofLong m (a.u % b.u))
    | false, true => accept (ofLong m (a.u % b.u))
    | true, true => do
      -- The host divides for the remainder, so the quotient must not overflow.
      let _ ← onHost m (Int.tdiv a.s b.s)
      accept (ofLong m (Int.tmod a.s b.s))

def modExpr (a b : IdlVal m) : Outcome m :=
  match m with
  | .longV => modExprLong a b
  | .longLongV => modExprLongLong a b

/-- An unsigned number and a negative one. -/
def addMixed (u : ℤ) (s : ℤ) : Outcome m := do
  let mb ← onHost m (-s)
  if mb < u then accept (ofULong m (u - mb))
  else do
    let r ← onHost m (signed m.width u + s)
    accept (ofLong m r)

def addExpr (a b : IdlVal m) : Outcome m :=
  match a.negative, b.negative with
  | false, false =>
    let r := unsigned m.width (a.u + b.u)
    if r < a.u then error a else accept (ofULong m r)
  | true, false => addMixed b.u a.s
  | false, true => addMixed a.u b.s
  | true, true => do
    let r ← onHost m (a.s + b.s)
    if a.s < r then error a else accept (ofLong m r)

/-- The negation of a magnitude. -/
def negated (a : IdlVal m) (mr : ℤ) : Outcome m :=
  if m.bound < mr then error a
  else do
    let r ← onHost m (-signed m.width mr)
    accept (ofLong m r)

def subExpr (a b : IdlVal m) : Outcome m :=
  match a.negative, b.negative with
  | false, false =>
    if b.u ≤ a.u then accept (ofULong m (a.u - b.u)) else negated a (b.u - a.u)
  | true, false => do
    let ma ← onHost m (-a.s)
    negated a (unsigned m.width (ma + b.s))
  | false, true => do
    let mb ← onHost m (-b.s)
    let r := unsigned m.width (a.u + mb)
    if r < a.u then error a else accept (ofULong m r)
  | true, true => do
    let r ← onHost m (a.s - b.s)
    -- `a.s - b.s` is above `a.s` for every negative `b.s`
    if a.s < r then error a else accept (ofLong m r)

/-- A product of signed words, divided to see whether it is one. -/
def multMixed (a : IdlVal m) (x y : ℤ) : Outcome m := do
  let r ← onHost m (x * y)
  if y = 0 then accept (ofLong m r)
  else do
    let q ← onHost m (Int.tdiv r y)
    if q ≠ x then error a else accept (ofLong m r)

/-- A product of unsigned words. -/
def multUnsigned (a : IdlVal m) (x y : ℤ) : Outcome m :=
  let r := unsigned m.width (x * y)
  if y ≠ 0 ∧ r / y ≠ x then error a else accept (ofULong m r)

def multExpr (a b : IdlVal m) : Outcome m :=
  match a.negative, b.negative with
  | false, false => multUnsigned a a.u b.u
  | true, false => multMixed a a.s (signed m.width b.u)
  | false, true => multMixed a (signed m.width a.u) b.s
  | true, true => do
    let ma ← onHost m (-a.s)
    let mb ← onHost m (-b.s)
    multUnsigned a ma mb

def divExpr (a b : IdlVal m) : Outcome m :=
  if b.u = 0 then error a
  else
    match a.negative, b.negative with
    | false, false => accept (ofULong m (a.u / b.u))
    | true, false => do
      let ma ← onHost m (-a.s)
      let r ← onHost m (-signed m.width (ma / b.u))
      accept (ofLong m r)
    | false, true => do
      let mb ← onHost m (-b.s)
      negated a (a.u / mb)
    | true, true => do
      let ma ← onHost m (-a.s)
      let mb ← onHost m (-b.s)
      accept (ofULong m (ma / mb))

/-- The complement is taken of the word without a sign. -/
def invertExpr (e : IdlVal m) : Outcome m := accept (ofULong m (2 ^ m.width - 1 - e.u))

/-- The error does not end the evaluation here. -/
def minusExpr (e : IdlVal m) : Outcome m :=
  if e.negative then do
    let r ← onHost m (-e.s)
    accept (ofULong m r)
  else do
    let r ← onHost m (-signed m.width e.u)
    some (ofLong m r, decide (m.bound < e.u))

def plusExpr (e : IdlVal m) : Outcome m := accept e

/-! ### Expressions -/

/-- A constant with its kind; `other` is one of a kind that is no integer. -/
inductive Const
  | short (v : Int16)
  | long (v : Int32)
  | ushort (v : UInt16)
  | ulong (v : UInt32)
  | octet (v : UInt8)
  | longlong (v : Int64)
  | ulonglong (v : UInt64)
  | other
  deriving DecidableEq

inductive BinaryOp
  | or | xor | and | rShift | lShift | mod | add | sub | mult | div
  deriving DecidableEq

inductive UnaryOp
  | invert | minus | plus
  deriving DecidableEq

inductive IdlExpr
  | integer (value : UInt64)
  | const (c : Const)
  | binary (op : BinaryOp) (a b : IdlExpr)
  | unary (op : UnaryOp) (e : IdlExpr)
  deriving DecidableEq

def BinaryOp.eval : BinaryOp → IdlVal m → IdlVal m → Outcome m
  | or => orExpr
  | xor => xorExpr
  | and => andExpr
  | rShift => rShiftExpr
  | lShift => lShiftExpr
  | mod => modExpr
  | add => addExpr
  | sub => subExpr
  | mult => multExpr
  | div => divExpr

def UnaryOp.eval : UnaryOp → IdlVal m → Outcome m
  | invert => invertExpr
  | minus => minusExpr
  | plus => plusExpr

/-- `IntegerExpr`: the error of a literal that a word has no room for. -/
def integerExpr (m : Mode) (value : UInt64) : Outcome m :=
  match m with
  | .longV =>
    if 0xffffffff < value.toNat then error (ofULong _ 1) else accept (ofULong _ value.toNat)
  | .longLongV => accept (ofULong _ value.toNat)

/-- `ConstExpr`: only the constants of 64 bits are checked. -/
def constExpr (m : Mode) : Const → Outcome m
  | .short v => accept (ofLong m v.toInt)
  | .long v => accept (ofLong m v.toInt)
  | .ushort v => accept (ofULong m v.toNat)
  | .ulong v => accept (ofULong m v.toNat)
  | .octet v => accept (ofULong m v.toNat)
  | .longlong v =>
    match m with
    | .longV =>
      if v.toInt < -0x7fffffff - 1 ∨ 0xffffffff < v.toInt then error (ofULong _ 1)
      else if 0 ≤ v.toInt then accept (ofULong _ v.toInt)
      else accept (ofLong _ v.toInt)
    | .longLongV => accept (ofLong _ v.toInt)
  | .ulonglong v =>
    match m with
    | .longV => if 0xffffffff < v.toNat then error (ofULong _ 1) else accept (ofULong _ v.toNat)
    | .longLongV => accept (ofULong _ v.toNat)
  | .other => error (ofULong m 1)

namespace IdlExpr

/-- `evalAsLongV` and `evalAsLongLongV`. -/
def eval (m : Mode) : IdlExpr → Outcome m
  | integer value => integerExpr m value
  | const c => constExpr m c
  | binary op a b => do
    let (va, ea) ← a.eval m
    let (vb, eb) ← b.eval m
    let (v, e) ← op.eval va vb
    some (v, ea || eb || e)
  | unary op e => do
    let (ve, ee) ← e.eval m
    let (v, e) ← op.eval ve
    some (v, ee || e)

end IdlExpr

/-- The types an expression is evaluated for. -/
inductive Target
  | short | long | ushort | ulong | octet | longlong | ulonglong
  deriving DecidableEq

namespace Target

/-- The evaluation that the conversion starts from. -/
def mode : Target → Mode
  | longlong | ulonglong => .longLongV
  | _ => .longV

/-- The conversion of the value, and whether it reports an error. -/
def convert : (t : Target) → IdlVal t.mode → ℤ × Bool
  | short, v =>
    if v.negative then (signed 16 v.s, decide (v.s < -0x8000))
    else (signed 16 v.u, decide (0x7fff < v.u))
  | long, v => if v.negative then (v.s, false) else (signed 32 v.u, decide (0x7fffffff < v.u))
  | ushort, v => (unsigned 16 v.u, v.negative || decide (0xffff < v.u))
  | ulong, v => (v.u, v.negative)
  | octet, v => (unsigned 8 v.u, v.negative || decide (0xff < v.u))
  | longlong, v =>
    if v.negative then (v.s, false) else (signed 64 v.u, decide (0x7fffffffffffffff < v.u))
  | ulonglong, v => (v.u, v.negative)

end Target

/-- `evalAsShort` to `evalAsULongLong`. -/
def IdlExpr.evalAs (t : Target) (e : IdlExpr) : Option (ℤ × Bool) := do
  let (v, err) ← e.eval t.mode
  let (r, range) := t.convert v
  some (r, err || range)

end OmniORB.Idl
