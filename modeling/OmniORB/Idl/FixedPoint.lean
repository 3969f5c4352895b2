import OmniORB.Fixed.Numbers

/-!
# Fixed point constants

`IDL_Fixed` of `idlfixed.cc`, as far as division goes. Its arithmetic is a copy of that of
`CORBA::Fixed`, and so are the loops `divCmp` and `divDigit`. The compiler's exceptions go by the
names of those of `CORBA::Fixed`: `Overflow` is a range error.
-/

namespace OmniORB

/-- `IDL_Fixed`. `val` are the first `digits_` entries of `val_`. -/
structure IDLFixed where
  val : List ℕ
  scale : ℕ
  negative : Bool
  deriving DecidableEq, Repr

namespace IDLFixed

/-- `fixed_digits` -/
def digits (f : IDLFixed) : ℕ := f.val.length

/-- `IDL_Fixed()` -/
def zero : IDLFixed := ⟨[], 0, false⟩

/-- `IDL_Fixed(const IDL_Octet*, IDL_UShort digits, IDL_UShort scale, IDL_Boolean negative)` -/
def ofOctets (val : List ℕ) (scale : ℕ) (negative : Bool) : Except FixedExn IDLFixed :=
  if fixedDigits < val.length ∨ val.length < scale then .error .assertionFailure
  else
    let r := Fixed.stripFraction val scale
    .ok ⟨r.1, r.2, if r.1 = [] then false else negative⟩

/-- `realDiv`, with `work` from its end as in `Fixed.realDiv`. -/
def realDiv (a b : IDLFixed) (negative : Bool) : Except FixedExn IDLFixed := do
  let av := Fixed.significant a.val
  let bv := Fixed.significant b.val
  let running := List.replicate (2 * fixedDigits - av.length) 0 ++ av
  let unscale : ℤ := ((av.length : ℤ) - a.scale) - ((bv.length : ℤ) - b.scale) + 1
  let initial := (-unscale).toNat
  let (digits, q) ← Fixed.divDigits bv (2 * fixedDigits) initial running
  let work := List.replicate initial 0 ++ q ++
    List.replicate (2 * fixedDigits - initial - q.length) 0
  -- skip an initial zero if it was not expected
  let (work, unscale) := Fixed.stripFraction work unscale.toNat
  if fixedDigits < unscale then .error .rangeError
  else
    let digits := max digits unscale
    if work.length < digits then .error .overrun
    else
      -- strip trailing zeros
      let r := Fixed.stripFraction (work.take digits).reverse (digits - unscale)
      ofOctets r.1 r.2 negative

/-- `operator/` -/
def div (a b : IDLFixed) : Except FixedExn IDLFixed :=
  if b.digits = 0 then .error .divideByZero
  else if a.digits = 0 then .ok zero
  else if a.negative = b.negative then realDiv a b false
  else realDiv a b true

/-! ### The same number at run time -/

/-- The number that the compiler has for one of the runtime's. -/
def ofFixed (f : Fixed) : IDLFixed := ⟨f.val, f.scale, f.negative⟩

lemma ofOctets_eq (val : List ℕ) (scale : ℕ) (negative : Bool) :
    ofOctets val scale negative = (Fixed.ofOctets val scale negative).map ofFixed := by
  rw [ofOctets, Fixed.ofOctets]
  split_ifs <;> rfl

lemma realDiv_eq (a b : Fixed) (negative : Bool) :
    realDiv (ofFixed a) (ofFixed b) negative = (Fixed.realDiv a b negative).map ofFixed := by
  rw [realDiv, Fixed.realDiv]
  simp only [ofFixed]
  cases Fixed.divDigits (Fixed.significant b.val) (2 * fixedDigits) _ _ with
  | error e => rfl
  | ok r =>
    change _ = Except.map ofFixed (if _ then _ else if _ then _ else Fixed.finish _ _ _)
    rw [apply_ite (Except.map ofFixed), apply_ite (Except.map ofFixed), Fixed.finish, ← ofOctets_eq]
    rfl

/-- The compiler divides as the runtime does. -/
lemma div_eq (a b : Fixed) : div (ofFixed a) (ofFixed b) = (Fixed.div a b).map ofFixed := by
  rw [div, Fixed.div, apply_ite (Except.map ofFixed), apply_ite (Except.map ofFixed),
    apply_ite (Except.map ofFixed), ← realDiv_eq, ← realDiv_eq]
  rfl

end IDLFixed

end OmniORB
