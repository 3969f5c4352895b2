import OmniORB.Idl.Exactness

/-!
# Evaluation of expressions

From one operator to a whole expression: the evaluation is exact on every part of an expression if
and only if the operands are safe at every operator of it.
-/

namespace OmniORB.Idl

open Library IdlVal Outcome

namespace IdlExpr

/-- What the operator at the top does, and its own error only. -/
def apply (m : Mode) : IdlExpr → Outcome m
  | integer value => integerExpr m value
  | const c => constExpr m c
  | binary op a b => do op.eval (← a.eval m).1 (← b.eval m).1
  | unary op e => do op.eval (← e.eval m).1

/-- What the operator at the top ought to do: the exact result or an error. Where there is an error,
the number that stands in for the value goes into the next operator. -/
def result (m : Mode) : IdlExpr → ℤ × Bool
  | integer value => settle m 1 (some value.toNat)
  | const c => settle m 1 c.value
  | binary op a b => settle m (a.result m).1 (op.exact (a.result m).1 (b.result m).1)
  | unary op e => settle m (op.instead m (e.result m).1) (some (op.exact (e.result m).1))

/-- The operator at the top does what it ought to. -/
def Right (m : Mode) (e : IdlExpr) : Prop := (e.apply m).Is (e.result m)

/-- The operands are safe for the operator at the top. -/
def SafeAt (m : Mode) : IdlExpr → Prop
  | binary op a b => op.Safe m (a.result m).1 (b.result m).1
  | unary op e => op.Safe m (e.result m).1
  | _ => True

/-- Past an error, the operator at the top still does what it ought to, on what stands in. -/
def GoesOn (e : IdlExpr) : Prop := ∀ m, ¬ (∀ o ∈ e.operands, o.Fitting m) → e.Right m

variable {m : Mode} {e o s : IdlExpr}

/-! ### Parts -/

lemma self_mem_parts (e : IdlExpr) : e ∈ e.parts := by
  cases e <;> simp [parts]

lemma mem_parts_iff : s ∈ e.parts ↔ s = e ∨ ∃ o ∈ e.operands, s ∈ o.parts := by
  cases e <;> simp [parts, operands]

/-- What holds at every part holds at the top and at every part of the operands. -/
lemma forall_parts_iff {P : IdlExpr → Prop} :
    (∀ s ∈ e.parts, P s) ↔ P e ∧ ∀ o ∈ e.operands, ∀ s ∈ o.parts, P s := by
  constructor
  · exact fun h => ⟨h e (self_mem_parts e), fun o ho s hs => h s (mem_parts_iff.mpr
      (Or.inr ⟨o, ho, hs⟩))⟩
  · rintro ⟨he, ho⟩ s hs
    rcases mem_parts_iff.mp hs with rfl | ⟨o, hmem, hs⟩
    · exact he
    · exact ho o hmem s hs

/-- Induction over the operands. -/
lemma induct {P : IdlExpr → Prop} (h : ∀ e : IdlExpr, (∀ o ∈ e.operands, P o) → P e)
    (e : IdlExpr) : P e := by
  induction e with
  | integer value => exact h _ (by simp [operands])
  | const c => exact h _ (by simp [operands])
  | binary op a b iha ihb => exact h _ (by simp [operands, iha, ihb])
  | unary op e ih => exact h _ (by simp [operands, ih])

/-! ### Errors and what is denoted -/

lemma settle_eq_false {exact : Option ℤ} {x : ℤ} (h : (settle m x exact).2 = false) :
    exact = some (settle m x exact).1 ∧ FitsWord m.width (settle m x exact).1 := by
  cases exact with
  | none => cases h
  | some z =>
    rw [settle] at h ⊢
    split_ifs at h ⊢ with hz
    exact ⟨rfl, hz⟩

lemma settle_of_fits {x z : ℤ} (h : FitsWord m.width z) : settle m x (some z) = (z, false) :=
  if_pos h

/-- Where no operator has an error, the result is what the expression denotes. -/
lemma denote_eq (h : ∀ s ∈ e.parts, (s.result m).2 = false) :
    e.denote = some (e.result m).1 ∧ FitsWord m.width (e.result m).1 := by
  induction e using induct with
  | h e ih =>
    obtain ⟨htop, hops⟩ := forall_parts_iff.mp h
    have hdenote := fun o ho => (ih o ho (hops o ho)).1
    cases e with
    | integer value => exact settle_eq_false htop
    | const c => exact settle_eq_false htop
    | binary op a b =>
      have ha := hdenote a (by simp [operands])
      have hb := hdenote b (by simp [operands])
      obtain ⟨hx, hf⟩ := settle_eq_false htop
      refine ⟨?_, hf⟩
      rw [denote, ha, hb]
      exact hx
    | unary op e =>
      have he := hdenote e (by simp [operands])
      obtain ⟨hx, hf⟩ := settle_eq_false htop
      refine ⟨?_, hf⟩
      rw [denote, he]
      exact hx

lemma fitting_iff : e.Fitting m ↔ ∀ s ∈ e.parts, (s.result m).2 = false := by
  induction e using induct with
  | h e ih =>
    rw [Fitting, forall_parts_iff, forall_parts_iff]
    have hops : (∀ o ∈ e.operands, ∀ s ∈ o.parts, ∃ z ∈ s.denote, FitsWord m.width z) ↔
        ∀ o ∈ e.operands, ∀ s ∈ o.parts, (s.result m).2 = false :=
      forall₂_congr ih
    rw [hops]
    refine and_congr_left fun hok => ?_
    have hdenote := fun o ho => (denote_eq (hok o ho)).1
    constructor
    · rintro ⟨z, hz, hf⟩
      cases e with
      | integer value =>
        cases hz
        rw [result, settle_of_fits hf]
      | const c =>
        rw [result]
        rw [denote] at hz
        rw [hz, settle_of_fits hf]
      | binary op a b =>
        rw [denote, hdenote a (by simp [operands]), hdenote b (by simp [operands])] at hz
        change op.exact (a.result m).1 (b.result m).1 = some z at hz
        rw [result, hz, settle_of_fits hf]
      | unary op e =>
        rw [denote, hdenote e (by simp [operands])] at hz
        cases hz
        rw [result, settle_of_fits hf]
    · intro htop
      have h := denote_eq (e := e) (m := m) (forall_parts_iff.mpr ⟨htop, hok⟩)
      exact ⟨_, h.1, h.2⟩

/-! ### Operators that are right -/

/-- The operands have been evaluated, and there has been an error or not. -/
lemma eval_eq (h : ∀ s ∈ e.parts, s.Right m) :
    ∃ v err, e.eval m = some (v, err) ∧ v.value = (e.result m).1 ∧
      (err = false ↔ ∀ s ∈ e.parts, (s.result m).2 = false) := by
  induction e using induct with
  | h e ih =>
    obtain ⟨htop, hops⟩ := forall_parts_iff.mp h
    have hev := fun o ho => ih o ho (hops o ho)
    obtain ⟨v, happly, hv⟩ := htop
    cases e with
    | integer value => exact ⟨v, _, happly, hv, by simp [parts]⟩
    | const c => exact ⟨v, _, happly, hv, by simp [parts]⟩
    | binary op a b =>
      obtain ⟨va, ea, ha, -, hea⟩ := hev a (by simp [operands])
      obtain ⟨vb, eb, hb, -, heb⟩ := hev b (by simp [operands])
      rw [apply, ha, hb] at happly
      change op.eval va vb = _ at happly
      refine ⟨v, ea || eb || (result m (binary op a b)).2, ?_, hv, ?_⟩
      · rw [eval, ha, hb]
        change (op.eval va vb >>= _) = _
        rw [happly]
        rfl
      · rw [forall_parts_iff]
        simp only [operands, List.forall_mem_cons, List.not_mem_nil, false_imp_iff, implies_true,
          and_true, ← hea, ← heb]
        simp only [Bool.or_eq_false_iff]
        tauto
    | unary op e =>
      obtain ⟨ve, ee, he, -, hee⟩ := hev e (by simp [operands])
      rw [apply, he] at happly
      change op.eval ve = _ at happly
      refine ⟨v, ee || (result m (unary op e)).2, ?_, hv, ?_⟩
      · rw [eval, he]
        change (op.eval ve >>= _) = _
        rw [happly]
        rfl
      · rw [forall_parts_iff]
        simp only [operands, List.forall_mem_cons, List.not_mem_nil, false_imp_iff, implies_true,
          and_true, ← hee]
        simp only [Bool.or_eq_false_iff]
        tauto

/-- With operands that are right, the operator at the top is right if and only if they are safe. -/
lemma right_iff (h : ∀ o ∈ e.operands, ∀ s ∈ o.parts, s.Right m) : e.Right m ↔ e.SafeAt m := by
  have hev := fun o ho => eval_eq (h o ho)
  cases e with
  | integer value => exact iff_of_true (integerExpr_is value) trivial
  | const c => exact iff_of_true (constExpr_is c) trivial
  | binary op a b =>
    obtain ⟨va, ea, ha, hva, -⟩ := hev a (by simp [operands])
    obtain ⟨vb, eb, hb, hvb, -⟩ := hev b (by simp [operands])
    rw [Right, apply, ha, hb, SafeAt, result, ← hva, ← hvb]
    exact op.eval_is
  | unary op e =>
    obtain ⟨ve, ee, he, hve, -⟩ := hev e (by simp [operands])
    rw [Right, apply, he, SafeAt, result, ← hve]
    exact op.eval_is

lemma forall_right_iff : (∀ s ∈ e.parts, s.Right m) ↔ ∀ s ∈ e.parts, s.SafeAt m := by
  induction e using induct with
  | h e ih =>
    rw [forall_parts_iff, forall_parts_iff, ← forall₂_congr ih]
    exact and_congr_left fun hops => right_iff hops

lemma forall_right_iff' :
    (∀ s ∈ e.parts, ∀ m, s.Right m) ↔ ∀ s ∈ e.parts, ∀ m, s.SafeAt m := by
  constructor
  · exact fun h s hs m => forall_right_iff.mp (fun s hs => h s hs m) s hs
  · exact fun h s hs m => forall_right_iff.mpr (fun s hs => h s hs m) s hs

/-! ### Exact evaluation -/

lemma evalAs_eq {t : Target} {v : IdlVal t.mode} {err : Bool} (h : e.eval t.mode = some (v, err)) :
    e.evalAs t = some ((t.convert v).1, err || (t.convert v).2) := by
  rw [evalAs, h]
  rfl

/-- With every operator right, in both widths, the evaluation is exact. -/
lemma exact_of_right (h : ∀ s ∈ e.parts, ∀ m, s.Right m) : e.Exact := by
  have hev : ∀ m, ∃ v err, e.eval m = some (v, err) ∧ v.value = (e.result m).1 ∧
      (err = false ↔ e.Fitting m) := by
    intro m
    rw [fitting_iff]
    exact eval_eq fun s hs => h s hs m
  have hdenote : ∀ m, e.Fitting m → e.denote = some (e.result m).1 :=
    fun m hm => (denote_eq (fitting_iff.mp hm)).1
  refine ⟨?_, ?_, ?_, ?_⟩
  · intro t
    obtain ⟨v, err, heval, -, -⟩ := hev t.mode
    exact ⟨_, evalAs_eq heval⟩
  · intro t r hr
    obtain ⟨v, err, heval, hv, hfit⟩ := hev t.mode
    rw [evalAs_eq heval] at hr
    obtain ⟨rfl, herr⟩ := Prod.mk.inj (Option.some.inj hr)
    obtain ⟨hno, hrange⟩ := Bool.or_eq_false_iff.mp herr
    obtain ⟨hspec, hkeep⟩ := t.convert_spec v
    have hhas : t.Has v.value := by
      by_contra hnot
      rw [hspec.mpr hnot] at hrange
      cases hrange
    rw [hkeep hhas, hv]
    exact hdenote _ (hfit.mp hno)
  · intro t r hr hfitting z hz hhas
    obtain ⟨v, err, heval, hv, hfit⟩ := hev t.mode
    rw [evalAs_eq heval, hfit.mpr hfitting] at hr
    obtain ⟨-, hrange⟩ := Prod.mk.inj (Option.some.inj hr)
    rw [hdenote _ hfitting] at hz
    cases hz
    rw [← hv] at hhas
    exact (t.convert_spec v).1.mp hrange hhas
  · intro v v' hl hll
    obtain ⟨_, _, heval, hv, hfit⟩ := hev .longV
    obtain ⟨_, _, heval', hv', hfit'⟩ := hev .longLongV
    rw [heval] at hl
    rw [heval'] at hll
    obtain ⟨rfl, rfl⟩ := Prod.mk.inj (Option.some.inj hl)
    obtain ⟨rfl, rfl⟩ := Prod.mk.inj (Option.some.inj hll)
    have hd := hdenote _ (hfit.mp rfl)
    rw [hdenote _ (hfit'.mp rfl)] at hd
    rw [hv, hv', Option.some.inj hd]

/-- An outcome with an error has what stands in, and one without has a value that fits. -/
lemma is_of_apply {exact : Option ℤ} {x : ℤ} {v : IdlVal m} {err : Bool}
    (hacc : err = false → exact = some v.value)
    (herr : err = true → v.value = x ∧ ∀ z ∈ exact, ¬ FitsWord m.width z) :
    Outcome.Is (some (v, err)) (settle m x exact) := by
  cases err with
  | false => exact is_accept.mpr (hacc rfl)
  | true =>
    obtain ⟨rfl, hfit⟩ := herr rfl
    exact is_error.mpr hfit

/-- With operands that fit, what is accepted is the number denoted, and an error means that it does
not fit. -/
lemma Exact.accepts (h : e.Exact) (hops : ∀ o ∈ e.operands, o.Fitting m) {v : IdlVal m}
    {err : Bool} (hev : e.eval m = some (v, err)) :
    (err = false → e.denote = some v.value) ∧
      (err = true → ∀ z ∈ e.denote, ¬ FitsWord m.width z) := by
  constructor
  · rintro rfl
    obtain ⟨t, rfl, hhas⟩ := Target.exists_has v.fits_value
    have has := evalAs_eq hev
    obtain ⟨hspec, hkeep⟩ := t.convert_spec v
    have hrange : (t.convert v).2 = false := by
      rw [← Bool.not_eq_true]
      exact fun hr => hspec.mp hr hhas
    rw [hrange, hkeep hhas] at has
    exact h.exact t _ has
  · rintro rfl z hz hf
    obtain ⟨t, rfl, hhas⟩ := Target.exists_has hf
    exact h.error t _ (evalAs_eq hev) (forall_parts_iff.mpr ⟨⟨z, hz, hf⟩, hops⟩) z hz hhas

/-- With operands that fit, all errors are those of the operator at the top. -/
lemma eval_eq_apply (hops : ∀ o ∈ e.operands, ∀ s ∈ o.parts, s.Right m)
    (hfit : ∀ o ∈ e.operands, o.Fitting m) : e.eval m = e.apply m := by
  have hev : ∀ o ∈ e.operands, ∃ v, o.eval m = some (v, false) := by
    intro o ho
    obtain ⟨v, err, heval, -, herr⟩ := eval_eq (hops o ho)
    rw [herr.mpr (fitting_iff.mp (hfit o ho))] at heval
    exact ⟨v, heval⟩
  cases e with
  | integer value => rfl
  | const c => rfl
  | binary op a b =>
    obtain ⟨va, ha⟩ := hev a (by simp [operands])
    obtain ⟨vb, hb⟩ := hev b (by simp [operands])
    rw [eval, apply, ha, hb]
    change (op.eval va vb >>= fun r => some (r.1, false || false || r.2)) = op.eval va vb
    cases op.eval va vb <;> rfl
  | unary op e =>
    obtain ⟨ve, he⟩ := hev e (by simp [operands])
    rw [eval, apply, he]
    change (op.eval ve >>= fun r => some (r.1, false || r.2)) = op.eval ve
    cases op.eval ve <;> rfl

lemma Exact.exists_eval (h : e.Exact) (m : Mode) : ∃ v err, e.eval m = some (v, err) := by
  obtain ⟨t, rfl, -⟩ := Target.exists_has (m := m) (z := 0) (fits_iff.mpr (by
    have := m.bound_pos
    omega))
  obtain ⟨r, hr⟩ := h.defined t
  obtain ⟨⟨v, err⟩, heval, -⟩ := Option.bind_eq_some_iff.mp hr
  exact ⟨v, err, heval⟩

/-- With operands that are right and fit, the operator at the top of an exact evaluation is right. -/
lemma Exact.right (h : e.Exact) (hops : ∀ o ∈ e.operands, ∀ s ∈ o.parts, s.Right m)
    (hfit : ∀ o ∈ e.operands, o.Fitting m) : e.Right m := by
  obtain ⟨v, err, heval⟩ := h.exists_eval m
  obtain ⟨hacc, herr⟩ := h.accepts hfit heval
  have happly := heval
  rw [eval_eq_apply hops hfit] at happly
  have hdenote := fun o ho => (denote_eq (fitting_iff.mp (hfit o ho))).1
  have hev := fun o ho => eval_eq (hops o ho)
  cases e with
  | integer value => exact (right_iff hops).mpr trivial
  | const c => exact (right_iff hops).mpr trivial
  | binary op a b =>
    obtain ⟨va, ea, ha, hva, -⟩ := hev a (by simp [operands])
    obtain ⟨vb, eb, hb, -, -⟩ := hev b (by simp [operands])
    have hd : denote (binary op a b) = op.exact (a.result m).1 (b.result m).1 := by
      rw [denote, hdenote a (by simp [operands]), hdenote b (by simp [operands])]
      rfl
    rw [hd] at hacc herr
    rw [Right, happly, result]
    refine is_of_apply hacc fun hr => ⟨?_, herr hr⟩
    rw [apply, ha, hb, hr] at happly
    rw [op.stays va vb v happly, hva]
  | unary op e =>
    obtain ⟨ve, ee, he, hve, -⟩ := hev e (by simp [operands])
    have hd : denote (unary op e) = some (op.exact (e.result m).1) := by
      rw [denote, hdenote e (by simp [operands])]
      rfl
    rw [hd] at hacc herr
    rw [Right, happly, result]
    refine is_of_apply hacc fun hr => ⟨?_, herr hr⟩
    rw [apply, he, hr] at happly
    rw [op.stays happly, hve]

/-- The evaluation of every part of an expression is exact, and goes on as it ought to after an
error, if and only if the operands are safe at every operator in both widths. -/
theorem exact_iff_safe (e : IdlExpr) :
    (∀ s ∈ e.parts, s.Exact ∧ s.GoesOn) ↔ ∀ s ∈ e.parts, ∀ m, s.SafeAt m := by
  rw [← forall_right_iff']
  induction e using induct with
  | h e ih =>
    have hparts := forall₂_congr ih
    constructor
    · intro h
      obtain ⟨⟨htop, hgoes⟩, hops⟩ := forall_parts_iff.mp h
      have hright := hparts.mp hops
      refine forall_parts_iff.mpr ⟨fun m => ?_, hright⟩
      by_cases hfit : ∀ o ∈ e.operands, o.Fitting m
      · exact htop.right (fun o ho s hs => hright o ho s hs m) hfit
      · exact hgoes m hfit
    · intro h
      obtain ⟨htop, hops⟩ := forall_parts_iff.mp h
      exact forall_parts_iff.mpr ⟨⟨exact_of_right h, fun m _ => htop m⟩, hparts.mpr hops⟩

/-- `-5 - -3` is reported to overflow, though it is `-2`. -/
theorem difference_of_negatives :
    ¬ Exact (binary .sub (unary .minus (integer 5)) (unary .minus (integer 3))) := by
  intro h
  refine h.error .long (-5) (by decide) (fitting_iff.mpr (by decide)) (-2) rfl ?_
  decide

end IdlExpr

end OmniORB.Idl
