import OmniORB.Fixed.Arithmetic
import OmniORB.Fixed.Order
import OmniORB.Fixed.Strings

/-!
# Programs on fixed point numbers

Any sequence of constructors, assignments, operators and unmarshalling, on any number of objects.
-/

namespace OmniORB

open Library

/-- What gives a new object: the constructors and operators of `CORBA::Fixed`, on the objects `x` and
`y`. -/
inductive FixedExpr where
  | ofLong (v : Int32)
  | ofLongLong (v : Int64)
  | ofULong (v : UInt32)
  | ofULongLong (v : UInt64)
  | ofString (s : List UInt8)
  | copy (x : ℕ)
  | limited (x idlDigits idlScale : ℕ)
  | add (x y : ℕ)
  | sub (x y : ℕ)
  | mul (x y : ℕ)
  | div (x y : ℕ)
  | round (x scale : ℕ)
  | truncate (x scale : ℕ)
  | neg (x : ℕ)

inductive FixedStmt where
  | construct (x : ℕ) (e : FixedExpr)
  | assign (x y : ℕ)
  | unmarshal (x : ℕ) (s : CdrIn)

/-- The objects of a program. -/
abbrev FixedStore := ℕ → Option Fixed

/-- The new object, if the operands are there and no exception is thrown. -/
def FixedExpr.eval (st : FixedStore) : FixedExpr → Option Fixed
  | ofLong v => some (Fixed.ofLong v)
  | ofLongLong v => some (Fixed.ofLongLong v)
  | ofULong v => some (Fixed.ofULong v)
  | ofULongLong v => some (Fixed.ofULongLong v)
  | ofString s => (Fixed.ofString s).toOption
  | copy x => (st x).map Fixed.copy
  | limited x d s => do ((← st x).limited d s).toOption
  | add x y => do ((← st x).add (← st y)).toOption
  | sub x y => do ((← st x).sub (← st y)).toOption
  | mul x y => do ((← st x).mul (← st y)).toOption
  | div x y => do ((← st x).div (← st y)).toOption
  | round x scale => do ((← st x).round scale).toOption
  | truncate x scale => do ((← st x).truncate scale).toOption
  | neg x => (st x).map Fixed.neg

/-- One statement. An object that is not constructed leaves what was there. The assignment takes
place also where it goes on to throw. Unmarshalling that throws gives no value. -/
def FixedStmt.exec (st : FixedStore) : FixedStmt → FixedStore
  | construct x e => Function.update st x (e.eval st <|> st x)
  | assign x y => Function.update st x do
      let f ← st x
      some (f.assign (← st y)).1
  | unmarshal x s => Function.update st x do
      let r ← ((← st x).unmarshal s).toOption
      some r.1

/-- A string that is not too long, or an integer that has a negation. -/
def FixedExpr.Exact : FixedExpr → Prop
  | ofLong v => v ≠ Int32.minValue
  | ofLongLong v => v ≠ Int64.minValue
  | ofString s => Fixed.digitCount s < 65536
  | _ => True

/-- The statement does not unmarshal a negative zero, and its constructor is exact. -/
def FixedStmt.Exact (st : FixedStore) : FixedStmt → Prop
  | construct _ e => e.Exact
  | assign _ _ => True
  | unmarshal x s => ∀ f ∈ st x, ∀ buffer t,
      s.getOctetArray (Fixed.digitsToRead f.idlDigits / 2 + 1) = .ok (buffer, t) →
      ¬Fixed.NegativeZero buffer (Fixed.digitsToRead f.idlDigits)

/-- The stores that a program reaches, from no objects, if all its statements are exact. -/
inductive FixedStore.Reached : FixedStore → Prop where
  | start : Reached fun _ => none
  | step {st : FixedStore} (h : Reached st) {c : FixedStmt} (hc : c.Exact st) : Reached (c.exec st)

/-- Every object is canonical. -/
def FixedStore.Canonical (st : FixedStore) : Prop := ∀ x, ∀ f ∈ st x, f.Canonical

namespace FixedStore.Canonical

variable {st : FixedStore}

lemma update (h : st.Canonical) (x : ℕ) {o : Option Fixed} (ho : ∀ f ∈ o, f.Canonical) :
    Canonical (Function.update st x o) := by
  intro y f hf
  rcases eq_or_ne y x with rfl | hyx
  · rw [Function.update_self] at hf
    exact ho f hf
  · rw [Function.update_of_ne hyx] at hf
    exact h y f hf

/-- An operator on one object. -/
lemma unary (h : st.Canonical) {x : ℕ} {op : Fixed → Except FixedExn Fixed}
    (hop : ∀ f g, f.Canonical → op f = .ok g → g.Canonical) {g : Fixed}
    (hg : g ∈ (do (op (← st x)).toOption : Option Fixed)) : g.Canonical := by
  obtain ⟨f, hf, hg⟩ := Option.bind_eq_some_iff.mp hg
  exact hop f g (h x f hf) (toOption_eq_some.mp hg)

/-- An operator on two objects. -/
lemma binary (h : st.Canonical) {x y : ℕ} {op : Fixed → Fixed → Except FixedExn Fixed}
    (hop : ∀ a b g, a.Canonical → b.Canonical → op a b = .ok g → g.Canonical) {g : Fixed}
    (hg : g ∈ (do (op (← st x) (← st y)).toOption : Option Fixed)) : g.Canonical := by
  obtain ⟨a, ha, hg⟩ := Option.bind_eq_some_iff.mp hg
  obtain ⟨b, hb, hg⟩ := Option.bind_eq_some_iff.mp hg
  exact hop a b g (h x a ha) (h y b hb) (toOption_eq_some.mp hg)

lemma eval (h : st.Canonical) {e : FixedExpr} (he : e.Exact) {g : Fixed} (hg : g ∈ e.eval st) :
    g.Canonical := by
  cases e with
  | ofLong v =>
    obtain rfl := Option.some.inj hg
    exact Fixed.ofLong_canonical he
  | ofLongLong v =>
    obtain rfl := Option.some.inj hg
    exact Fixed.ofLongLong_canonical he
  | ofULong v =>
    obtain rfl := Option.some.inj hg
    exact Fixed.ofULong_canonical v
  | ofULongLong v =>
    obtain rfl := Option.some.inj hg
    exact Fixed.ofULongLong_canonical v
  | ofString s => exact Fixed.ofString_canonical he (toOption_eq_some.mp hg)
  | copy x =>
    obtain ⟨f, hf, rfl⟩ := Option.map_eq_some_iff.mp hg
    exact (h x f hf).copy
  | limited x d s => exact h.unary (fun f g hf hg => hf.limited hg) hg
  | add x y => exact h.binary (fun a b g ha hb hg => ha.add hb hg) hg
  | sub x y => exact h.binary (fun a b g ha hb hg => ha.sub hb hg) hg
  | mul x y => exact h.binary (fun a b g ha hb hg => ha.mul hb hg) hg
  | div x y => exact h.binary (fun a b g _ _ hg => Fixed.Canonical.div hg) hg
  | round x scale => exact h.unary (fun f g hf hg => hf.round hg) hg
  | truncate x scale => exact h.unary (fun f g hf hg => hf.truncate hg) hg
  | neg x =>
    obtain ⟨f, hf, rfl⟩ := Option.map_eq_some_iff.mp hg
    exact (h x f hf).neg

/-- A statement keeps all objects canonical. -/
lemma exec (h : st.Canonical) {c : FixedStmt} (hc : c.Exact st) : Canonical (c.exec st) := by
  cases c with
  | construct x e =>
    refine h.update x fun g hg => ?_
    rcases he : e.eval st with - | f
    · rw [he] at hg
      exact h x g hg
    · rw [he] at hg
      obtain rfl := Option.some.inj hg
      exact h.eval hc he
  | assign x y =>
    refine h.update x fun g hg => ?_
    obtain ⟨f, hf, hg⟩ := Option.bind_eq_some_iff.mp hg
    obtain ⟨v, hv, hg⟩ := Option.bind_eq_some_iff.mp hg
    obtain rfl := Option.some.inj hg
    exact (h x f hf).assign (h y v hv)
  | unmarshal x s =>
    refine h.update x fun g hg => ?_
    obtain ⟨f, hf, hg⟩ := Option.bind_eq_some_iff.mp hg
    obtain ⟨⟨v, t⟩, hv, hg⟩ := Option.bind_eq_some_iff.mp hg
    obtain rfl := Option.some.inj hg
    exact Fixed.unmarshal_canonical (h x f hf).idlDigits_le (hc f hf) (toOption_eq_some.mp hv)

end FixedStore.Canonical

end OmniORB
