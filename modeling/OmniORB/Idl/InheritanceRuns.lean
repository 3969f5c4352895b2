import OmniORB.Idl.InheritanceSteps

/-!
# Runs of declarations

Every declaration that is accepted adds an interface or a valuetype that has passed the checks, or
nothing but a forward declaration. From that follows what holds of all that a run declares.
-/

namespace OmniORB.Idl

open Library Relation

namespace Ast

variable {ast ast' : Ast}

/-! ### What is accepted -/

lemma mapM_isSome {α β : Type} {f : α → Option β} {l : List α}
    (h : ∀ x ∈ l, (f x).isSome = true) : (l.mapM f).isSome = true := by
  induction l with
  | nil => rfl
  | cons x l ih =>
    obtain ⟨y, hy⟩ := Option.isSome_iff_exists.mp (h x List.mem_cons_self)
    obtain ⟨ys, hys⟩ :=
      Option.isSome_iff_exists.mp (ih fun z hz => h z (List.mem_cons_of_mem _ hz))
    rw [List.mapM_cons, hy, hys]
    rfl

lemma eq_nil_of_mapM {α β : Type} {f : α → Option (List β)} {l : List α}
    (h : (l.mapM f).map List.flatten = some []) : ∀ x ∈ l, f x = some [] := by
  induction l with
  | nil => simp
  | cons x l ih =>
    obtain ⟨ys, hys, hflat⟩ := Option.map_eq_some_iff.mp h
    rw [List.mapM_cons] at hys
    obtain ⟨y, hy, hys⟩ := Option.bind_eq_some_iff.mp hys
    obtain ⟨zs, hzs, hys⟩ := Option.bind_eq_some_iff.mp hys
    cases hys
    obtain ⟨hnil, hrest⟩ := List.append_eq_nil_iff.mp hflat
    intro z hz
    rcases List.mem_cons.mp hz with rfl | hz
    · rw [hy, hnil]
    · exact ih (by rw [hzs, Option.map_some, hrest]) z hz

lemma isAbstract_of_supportErrors {supports : List ℕ} (h : ast.supportErrors supports = []) :
    ∀ i ∈ supports.tail, ast.isAbstract i = true := by
  rw [supportErrors, List.map_eq_nil_iff, List.filter_eq_nil_iff] at h
  intro i hi
  simpa using h i hi

lemma addValue_eq_ok {fwd : Option ℕ} {d : Valuetype} {errors : List InheritError}
    (h : ast.addValue fwd d errors = .ok ast') :
    errors = [] ∧ ast' = { ast with
      values := ast.values ++ [d]
      valueForwards := ast.defineValueForward fwd ast.values.length } := by
  rw [addValue] at h
  split_ifs at h with herr
  exact ⟨herr, (Except.ok.inj h).symm⟩

/-- A valuetype that was declared: it has passed the checks, and its bases after the first are
abstract. -/
structure DeclaresValue (ast ast' : Ast) (fwd : Option ℕ) (d : Valuetype) : Prop where
  adds : AddsValue ast ast' d
  forwards : ast'.forwards = ast.forwards
  valueForwards : ast'.valueForwards = ast.defineValueForward fwd ast.values.length
  checks : ast.Checks d
  first : ∀ k s, d.inherits[k]? = some s → ast.isValue s.value = true → k = 0

theorem declareValueAbs_spec {fwd : Option ℕ} {inherits : List ValueInheritSpec}
    {supports : List ℕ} (hinherits : ∀ s ∈ inherits, s.value < ast.values.length)
    (hsupports : ∀ i ∈ supports, i < ast.interfaces.length)
    (h : ast.declareValueAbs fwd inherits supports = .ok ast') :
    DeclaresValue ast ast' fwd ⟨true, false, inherits, supports⟩ := by
  obtain ⟨herr, rfl⟩ := addValue_eq_ok h
  obtain ⟨herr, hsup⟩ := List.append_eq_nil_iff.mp herr
  obtain ⟨-, hbases⟩ := List.append_eq_nil_iff.mp herr
  rw [List.map_eq_nil_iff, List.filter_eq_nil_iff] at hbases
  refine ⟨⟨rfl, rfl, hinherits, hsupports⟩, rfl, rfl, ⟨?_, by simp, by simp⟩, ?_⟩
  · exact isAbstract_of_supportErrors hsup
  · intro k s hs hval
    exact absurd hval (hbases s (List.mem_of_getElem? hs))

/-- What `conflictErrors` has looked at. -/
lemma checks_of_conflictErrors {steps : ℕ} {custom : Bool} {inherits : List ValueInheritSpec}
    {supports : List ℕ} (hsup : ast.supportErrors supports = [])
    (h : ast.conflictErrors steps inherits supports = some []) :
    ast.Checks ⟨false, custom, inherits, supports⟩ where
  supports := isAbstract_of_supportErrors hsup
  derived := by
    rintro - i hi hconcrete s hs t ht htc
    cases supports with
    | nil => cases hi
    | cons j is =>
      cases hi
      rw [conflictErrors, if_neg (by rw [hconcrete]; exact Bool.false_ne_true)] at h
      exact derived_of_derivedErrors (eq_nil_of_mapM h s hs) ht htc
  same := by
    rintro - hnil
    cases supports with
    | nil =>
      obtain ⟨i, -, hall⟩ := eq_of_clashErrors h
      exact ⟨i, hall⟩
    | cons j is => cases hnil

theorem declareValue_spec {steps : ℕ} {fwd : Option ℕ} {custom : Bool}
    {inherits : List ValueInheritSpec} {supports : List ℕ}
    (hinherits : ∀ s ∈ inherits, s.value < ast.values.length)
    (hsupports : ∀ i ∈ supports, i < ast.interfaces.length)
    (h : ast.declareValue steps fwd custom inherits supports = some (.ok ast')) :
    DeclaresValue ast ast' fwd ⟨false, custom, inherits, supports⟩ := by
  obtain ⟨conflicts, hconf, hadd⟩ := Option.map_eq_some_iff.mp h
  obtain ⟨herr, rfl⟩ := addValue_eq_ok hadd
  obtain ⟨herr, hnone⟩ := List.append_eq_nil_iff.mp herr
  obtain ⟨herr, hsup⟩ := List.append_eq_nil_iff.mp herr
  obtain ⟨-, hbases⟩ := List.append_eq_nil_iff.mp herr
  rw [hnone] at hconf
  refine ⟨⟨rfl, rfl, hinherits, hsupports⟩, rfl, rfl, checks_of_conflictErrors hsup hconf, ?_⟩
  intro k s hs hval
  cases inherits with
  | nil => cases hs
  | cons first list =>
    cases k with
    | zero => rfl
    | succ k =>
      obtain ⟨-, hlist⟩ := List.append_eq_nil_iff.mp hbases
      rw [List.map_eq_nil_iff, List.filter_eq_nil_iff] at hlist
      have hmem : s ∈ list := List.mem_of_getElem? hs
      exact absurd hval (hlist s hmem)

/-- An interface that was declared. -/
theorem declareInterface_spec (hwf : ast.WellFormed) {fwd : Option ℕ} {isAbstract isLocal : Bool}
    {names : List InterfaceName}
    (h : ast.declareInterface fwd isAbstract isLocal names = .ok ast') :
    (∃ x, AddsInterface ast ast' x) ∧
      ast'.forwards = ast.defineForward fwd ast.interfaces.length ∧
      ast'.valueForwards = ast.valueForwards := by
  rw [declareInterface] at h
  cases hlist : ast.inheritList names with
  | error e =>
    rw [hlist] at h
    cases h
  | ok list =>
    rw [hlist] at h
    simp only [bind, Except.bind] at h
    split_ifs at h
    cases h
    exact ⟨⟨_, rfl, rfl, lt_of_inheritList hwf hlist⟩, rfl, rfl⟩

/-! ### Forward declarations -/

lemma mem_modify {α : Type} {l : List α} {n : ℕ} {f : α → α} {x : α} (h : x ∈ l.modify n f) :
    x ∈ l ∨ ∃ y ∈ l, x = f y := by
  obtain ⟨k, hk⟩ := List.mem_iff_getElem?.mp h
  rw [List.getElem?_modify] at hk
  obtain ⟨y, hy, rfl⟩ := Option.map_eq_some_iff.mp hk
  have hmem := List.mem_of_getElem? hy
  split_ifs
  · exact .inr ⟨y, hmem, rfl⟩
  · exact .inl hmem

lemma definition_of_defineForward {fwd : Option ℕ} {i j : ℕ} {d : Forward}
    (hd : d ∈ ast.defineForward fwd i) (hj : d.definition = some j) :
    j = i ∨ ∃ e ∈ ast.forwards, e.definition = some j := by
  cases fwd with
  | none => exact .inr ⟨d, hd, hj⟩
  | some f =>
    rcases mem_modify hd with hd | ⟨e, -, rfl⟩
    · exact .inr ⟨d, hd, hj⟩
    · exact .inl (Option.some.inj hj).symm

lemma definition_of_defineValueForward {fwd : Option ℕ} {v w : ℕ} {d : ValueForward}
    (hd : d ∈ ast.defineValueForward fwd v) (hw : d.definition = some w) :
    w = v ∨ ∃ e ∈ ast.valueForwards, e.definition = some w := by
  cases fwd with
  | none => exact .inr ⟨d, hd, hw⟩
  | some f =>
    rcases mem_modify hd with hd | ⟨e, -, rfl⟩
    · exact .inr ⟨d, hd, hw⟩
    · exact .inl (Option.some.inj hw).symm

/-! ### References go backwards -/

lemma WellFormed.addsInterface (hwf : ast.WellFormed) {x : Interface} {fwd : Option ℕ}
    (h : AddsInterface ast ast' x)
    (hf : ast'.forwards = ast.defineForward fwd ast.interfaces.length)
    (hvf : ast'.valueForwards = ast.valueForwards) : ast'.WellFormed where
  interfaces := by
    rw [h.interfaceTable]
    apply hwf.interfaces.append
    rw [length_interfaceTable]
    exact h.inherits
  values := by
    rw [h.valueTable]
    exact hwf.values
  supports := by
    rw [h.values, h.interfaces]
    intro v d hd i hi
    have hlt := hwf.supports v d hd i hi
    rw [List.length_append]
    omega
  forwards := by
    rw [hf, h.interfaces, List.length_append, List.length_singleton]
    intro d hd i hi
    rcases definition_of_defineForward hd hi with rfl | ⟨e, he, hei⟩
    · omega
    · have hlt := hwf.forwards e he i hei
      omega
  valueForwards := by
    rw [hvf, h.values]
    exact hwf.valueForwards

lemma WellFormed.declaresValue (hwf : ast.WellFormed) {d : Valuetype} {fwd : Option ℕ}
    (h : DeclaresValue ast ast' fwd d) : ast'.WellFormed where
  interfaces := by
    rw [h.adds.interfaceTable]
    exact hwf.interfaces
  values := by
    rw [h.adds.valueTable]
    exact hwf.values.append h.adds.bases_lt
  supports := by
    rw [h.adds.values, h.adds.interfaces]
    intro v e he i hi
    by_cases hv : v < ast.values.length
    · rw [List.getElem?_append_left hv] at he
      exact hwf.supports v e he i hi
    · have hlen := (List.getElem?_eq_some_iff.mp he).1
      rw [List.length_append, List.length_singleton] at hlen
      obtain rfl : v = ast.values.length := by omega
      rw [List.getElem?_concat_length] at he
      cases he
      exact h.adds.supports i hi
  forwards := by
    rw [h.forwards, h.adds.interfaces]
    exact hwf.forwards
  valueForwards := by
    rw [h.valueForwards, h.adds.values, List.length_append, List.length_singleton]
    intro e he w hw
    rcases definition_of_defineValueForward he hw with rfl | ⟨e', he', hw'⟩
    · omega
    · have hlt := hwf.valueForwards e' he' w hw'
      omega

/-- What an accepted declaration does. -/
inductive Step (ast ast' : Ast) : Declaration → Prop
  | forward {a l : Bool} (hi : ast'.interfaces = ast.interfaces) (hv : ast'.values = ast.values)
      (hf : ast'.forwards = ast.forwards ++ [⟨a, l, none⟩])
      (hvf : ast'.valueForwards = ast.valueForwards) : Step ast ast' (.forward a l)
  | valueForward {a : Bool} (hi : ast'.interfaces = ast.interfaces) (hv : ast'.values = ast.values)
      (hf : ast'.forwards = ast.forwards)
      (hvf : ast'.valueForwards = ast.valueForwards ++ [⟨a, none⟩]) :
      Step ast ast' (.valueForward a)
  | interface {fwd : Option ℕ} {a l : Bool} {names : List InterfaceName} {x : Interface}
      (h : AddsInterface ast ast' x)
      (hf : ast'.forwards = ast.defineForward fwd ast.interfaces.length)
      (hvf : ast'.valueForwards = ast.valueForwards) : Step ast ast' (.interface fwd a l names)
  | valueAbs {fwd : Option ℕ} {truncatable : Bool} {inherits : List ValueName}
      {supports : List InterfaceName} {lists : List ValueInheritSpec × List ℕ}
      (hlists : ast.valueLists truncatable inherits supports = .ok lists)
      (h : DeclaresValue ast ast' fwd ⟨true, false, lists.1, lists.2⟩) :
      Step ast ast' (.valueAbs fwd truncatable inherits supports)
  | value {fwd : Option ℕ} {custom truncatable : Bool} {inherits : List ValueName}
      {supports : List InterfaceName} {lists : List ValueInheritSpec × List ℕ}
      (hlists : ast.valueLists truncatable inherits supports = .ok lists)
      (h : DeclaresValue ast ast' fwd ⟨false, custom, lists.1, lists.2⟩) :
      Step ast ast' (.value fwd custom truncatable inherits supports)

theorem step_of_declare (hwf : ast.WellFormed) {steps : ℕ} {decl : Declaration}
    (h : ast.declare steps decl = some (.ok ast')) : Step ast ast' decl := by
  cases decl with
  | forward a l =>
    cases h
    exact .forward rfl rfl rfl rfl
  | valueForward a =>
    cases h
    exact .valueForward rfl rfl rfl rfl
  | interface fwd a l names =>
    obtain ⟨⟨x, hx⟩, hf, hvf⟩ := declareInterface_spec hwf (Option.some.inj h)
    exact .interface hx hf hvf
  | valueAbs fwd truncatable inherits supports =>
    rw [declare] at h
    cases hlists : ast.valueLists truncatable inherits supports with
    | error e =>
      rw [hlists] at h
      cases h
    | ok lists =>
      rw [hlists] at h
      obtain ⟨hv, hi⟩ := lt_of_valueLists hwf hlists
      exact .valueAbs hlists (declareValueAbs_spec hv hi (Option.some.inj h))
  | value fwd custom truncatable inherits supports =>
    rw [declare] at h
    cases hlists : ast.valueLists truncatable inherits supports with
    | error e =>
      rw [hlists] at h
      cases h
    | ok lists =>
      rw [hlists] at h
      obtain ⟨hv, hi⟩ := lt_of_valueLists hwf hlists
      exact .value hlists (declareValue_spec hv hi h)

theorem Step.wellFormed (hwf : ast.WellFormed) {decl : Declaration} (h : Step ast ast' decl) :
    ast'.WellFormed := by
  cases h with
  | forward hi hv hf hvf =>
    constructor
    · rw [interfaceTable, hi]
      exact hwf.interfaces
    · rw [valueTable, hv]
      exact hwf.values
    · rw [hv, hi]
      exact hwf.supports
    · rw [hf, hi]
      intro d hd i hdef
      rcases List.mem_append.mp hd with hd | hd
      · exact hwf.forwards d hd i hdef
      · rw [List.mem_singleton.mp hd] at hdef
        cases hdef
    · rw [hvf, hv]
      exact hwf.valueForwards
  | valueForward hi hv hf hvf =>
    constructor
    · rw [interfaceTable, hi]
      exact hwf.interfaces
    · rw [valueTable, hv]
      exact hwf.values
    · rw [hv, hi]
      exact hwf.supports
    · rw [hf, hi]
      exact hwf.forwards
    · rw [hvf, hv]
      intro d hd v hdef
      rcases List.mem_append.mp hd with hd | hd
      · exact hwf.valueForwards d hd v hdef
      · rw [List.mem_singleton.mp hd] at hdef
        cases hdef
  | interface hx hf hvf => exact hwf.addsInterface hx hf hvf
  | valueAbs _ hd => exact hwf.declaresValue hd
  | value _ hd => exact hwf.declaresValue hd

/-! ### Every valuetype -/

lemma DeclaresValue.firstOnly {d : Valuetype} {fwd : Option ℕ} (h : DeclaresValue ast ast' fwd d)
    (hwf : ast.WellFormed) (hfirst : ∀ v, ast.FirstOnly v) (v : ℕ) : ast'.FirstOnly v := by
  intro e he k s hs hval
  by_cases hv : v < ast.values.length
  · rw [h.adds.values, List.getElem?_append_left hv] at he
    have hlt := hwf.values v s.value
      (parent_valueTable.mpr ⟨e, he, s, List.mem_of_getElem? hs, rfl⟩)
    rw [h.adds.isValue (by omega)] at hval
    exact hfirst v e he k s hs hval
  · have hlen := (List.getElem?_eq_some_iff.mp he).1
    rw [h.adds.values, List.length_append, List.length_singleton] at hlen
    obtain rfl : v = ast.values.length := by omega
    rw [h.adds.values, List.getElem?_concat_length] at he
    cases he
    rw [h.adds.isValue (h.adds.inherits s (List.mem_of_getElem? hs))] at hval
    exact h.first k s hs hval

lemma DeclaresValue.headed {d : Valuetype} {fwd : Option ℕ} (h : DeclaresValue ast ast' fwd d)
    (hwf : ast.WellFormed) (hheaded : ∀ v < ast.values.length, ast.Headed v)
    (hseen : ast.SeenLists d.isAbstract d.inherits d.supports) :
    ∀ v < ast'.values.length, ast'.Headed v := by
  intro v hv
  rw [h.adds.values, List.length_append, List.length_singleton] at hv
  by_cases hlt : v < ast.values.length
  · exact (hheaded v hlt).addsValue hlt h.adds hwf
  · obtain rfl : v = ast.values.length := by omega
    exact headed_of_checks h.adds hwf (fun s hs => hheaded _ (h.adds.inherits s hs)) h.checks hseen

theorem Step.firstOnly (hwf : ast.WellFormed) {decl : Declaration} (h : Step ast ast' decl)
    (hfirst : ∀ v, ast.FirstOnly v) (v : ℕ) : ast'.FirstOnly v := by
  cases h with
  | forward _ hv =>
    simpa only [FirstOnly, isValue, hv] using hfirst v
  | valueForward _ hv =>
    simpa only [FirstOnly, isValue, hv] using hfirst v
  | interface hx =>
    simpa only [FirstOnly, isValue, hx.values] using hfirst v
  | valueAbs _ hd => exact hd.firstOnly hwf hfirst v
  | value _ hd => exact hd.firstOnly hwf hfirst v

/-- The same interfaces and valuetypes, with the same above them. -/
lemma Headed.congr {v : ℕ} (h : ast.Headed v) (hi : ast'.interfaces = ast.interfaces)
    (hv : ast'.values = ast.values) : ast'.Headed v := by
  have hder : ast'.Derived = ast.Derived := by
    unfold Derived interfaceTable
    rw [hi]
  have hown : ast'.Own = ast.Own := by
    unfold Own isAbstract
    rw [hi, hv]
  have hsup : ast'.supported v = ast.supported v := by
    unfold supported valueTable
    rw [hv, hown]
  exact ⟨by rw [hsup, hder]; exact h.head, by rw [hsup, hder, hown]; exact h.own⟩

theorem Step.headed (hwf : ast.WellFormed) {decl : Declaration} (h : Step ast ast' decl)
    (hseen : ast.Seen decl) (hheaded : ∀ v < ast.values.length, ast.Headed v) :
    ∀ v < ast'.values.length, ast'.Headed v := by
  cases h with
  | forward hi hv =>
    rw [hv]
    exact fun v hlt => (hheaded v hlt).congr hi hv
  | valueForward hi hv =>
    rw [hv]
    exact fun v hlt => (hheaded v hlt).congr hi hv
  | interface hx =>
    rw [hx.values]
    exact fun v hlt => (hheaded v hlt).addsInterface hx hwf
  | valueAbs hlists hd => exact hd.headed hwf hheaded (hseen _ hlists)
  | value hlists hd => exact hd.headed hwf hheaded (hseen _ hlists)

/-! ### The loops end -/

lemma derivedErrors_isSome (hwf : ast.WellFormed) {steps thisi : ℕ} {s : ValueInheritSpec}
    (hs : s.value < ast.values.length) (hsteps : ast.values.length ≤ steps)
    (hthisi : thisi < steps) : (ast.derivedErrors steps thisi s).isSome = true := by
  have hlt : s.value < steps := by omega
  obtain ⟨⟨r, iv⟩, hr⟩ := Option.isSome_iff_exists.mp (climb_isSome hwf hs hlt)
  rw [derivedErrors, hr]
  cases r with
  | none => rfl
  | some base =>
    dsimp only
    split_ifs
    · rfl
    · obtain ⟨b, hb⟩ := Option.isSome_iff_exists.mp (isDerived_isSome hwf base hthisi)
      rw [hb]
      cases b with
      | true => rfl
      | false => rfl

lemma clashErrors_isSome (hwf : ast.WellFormed) {steps : ℕ} (hsteps : ast.values.length ≤ steps)
    {list : List ValueInheritSpec} (hlist : ∀ s ∈ list, s.value < ast.values.length)
    (ii : Option ℕ) : (ast.clashErrors steps ii list).isSome = true := by
  induction list generalizing ii with
  | nil => rfl
  | cons s list ih =>
    have hs := hlist s List.mem_cons_self
    have hrest := ih fun s' hs' => hlist s' (List.mem_cons_of_mem _ hs')
    have hlt : s.value < steps := by omega
    obtain ⟨⟨r, iv⟩, hr⟩ := Option.isSome_iff_exists.mp (climb_isSome hwf hs hlt)
    rw [clashErrors, hr]
    cases r with
    | none => exact hrest ii
    | some base =>
      dsimp only
      split_ifs
      · exact hrest ii
      · cases ii with
        | none => exact hrest (some base)
        | some i => simpa using hrest (some i)

/-- The loops of a declaration come to an end. -/
theorem declare_isSome (hwf : ast.WellFormed) (decl : Declaration) {steps : ℕ}
    (hsteps : ast.interfaces.length + ast.values.length < steps) :
    (ast.declare steps decl).isSome = true := by
  cases decl with
  | forward a l => rfl
  | valueForward a => rfl
  | interface fwd a l names => rfl
  | valueAbs fwd truncatable inherits supports =>
    rw [declare]
    cases ast.valueLists truncatable inherits supports with
    | error e => rfl
    | ok lists => rfl
  | value fwd custom truncatable inherits supports =>
    rw [declare]
    cases hlists : ast.valueLists truncatable inherits supports with
    | error e => rfl
    | ok lists =>
      obtain ⟨hv, hi⟩ := lt_of_valueLists hwf hlists
      change (ast.declareValue steps fwd custom lists.1 lists.2).isSome = true
      rw [declareValue, Option.isSome_map]
      cases hsup : lists.2 with
      | nil => exact clashErrors_isSome hwf (by omega) hv none
      | cons thisi is =>
        rw [conflictErrors]
        split_ifs
        · rfl
        · rw [Option.isSome_map]
          apply mapM_isSome
          intro s hs
          have hthisi := hi thisi (by rw [hsup]; exact List.mem_cons_self)
          exact derivedErrors_isSome hwf (hv s hs) (by omega) (by omega)

end Ast

/-! ### Runs -/

lemma Ast.WellFormed.empty : Ast.WellFormed ⟨[], [], [], []⟩ where
  interfaces := by
    rintro v w ⟨ps, hps, -⟩
    cases hps
  values := by
    rintro v w ⟨ps, hps, -⟩
    cases hps
  supports := by
    intro v d hd
    cases hd
  forwards := by simp
  valueForwards := by simp

theorem Declared.wellFormed {P : Ast → Declaration → Prop} {ast : Ast} (h : Declared P ast) :
    ast.WellFormed := by
  induction h with
  | empty => exact .empty
  | step _ _ hdecl ih => exact (Ast.step_of_declare ih hdecl).wellFormed ih

theorem Declared.mono {P Q : Ast → Declaration → Prop} {ast : Ast} (h : Declared P ast)
    (hPQ : ∀ ast decl, P ast decl → Q ast decl) : Declared Q ast := by
  induction h with
  | empty => exact .empty
  | step _ hP hdecl ih => exact .step ih (hPQ _ _ hP) hdecl

theorem Declared.firstOnly {P : Ast → Declaration → Prop} {ast : Ast} (h : Declared P ast) :
    ∀ v, ast.FirstOnly v := by
  induction h with
  | empty =>
    intro v d hd
    cases hd
  | step hrun _ hdecl ih =>
    exact (Ast.step_of_declare hrun.wellFormed hdecl).firstOnly hrun.wellFormed ih

theorem Declared.headed {ast : Ast} (h : Declared Ast.Seen ast) :
    ∀ v < ast.values.length, ast.Headed v := by
  induction h with
  | empty =>
    intro v hv
    cases hv
  | step hrun hP hdecl ih =>
    exact (Ast.step_of_declare hrun.wellFormed hdecl).headed hrun.wellFormed hP ih

/-- In what is declared without an error, a valuetype has no base after the first that is not
abstract, and the loops of the next declaration end. Where the checks of every declaration have
seen what its bases support, one of the interfaces that a valuetype and its bases support is derived
from all of them, and it is the valuetype's own if it has one. -/
theorem valuetypes_declared {ast : Ast} (h : Declared (fun _ _ => True) ast) :
    (∀ v, ast.FirstOnly v) ∧
      (∀ decl steps, ast.interfaces.length + ast.values.length < steps →
        (ast.declare steps decl).isSome = true) ∧
      (Declared Ast.Seen ast → ∀ v < ast.values.length, ast.Headed v) :=
  ⟨h.firstOnly, fun decl _ hsteps => Ast.declare_isSome h.wellFormed decl hsteps, Declared.headed⟩

/-! ### Two interfaces that are not related -/

/-- A valuetype without bases that supports one interface shows it. -/
lemma Ast.shown_of_supports {ast : Ast} {v i : ℕ} {d : Valuetype} (hd : ast.values[v]? = some d)
    (hinherits : d.inherits = []) (hsupports : d.supports = [i]) : ast.Shown v := by
  rintro j ⟨w, hw, e, he, hj, hconcrete⟩
  rcases ReflTransGen.cases_head hw with rfl | ⟨p, hp, -⟩
  · rw [hd] at he
    cases he
    rw [hsupports, List.mem_singleton] at hj
    rw [hj] at hconcrete ⊢
    exact ⟨i, .own hd hsupports, hconcrete, .refl i⟩
  · obtain ⟨e', he', s, hs, -⟩ := parent_valueTable.mp hp
    rw [hd] at he'
    cases he'
    rw [hinherits] at hs
    cases hs

/-- Without bases there is nothing to see. -/
lemma Ast.seenLists_nil {ast : Ast} {isAbstract : Bool} {supports : List ℕ} :
    ast.SeenLists isAbstract [] supports :=
  ⟨by simp, by simp, by simp⟩

/-- Interfaces `A`, `B` and `S : A, B`; a valuetype `V` that supports `A`, and an abstract one `W`
that supports `B`. -/
def unrelated : Ast where
  interfaces := [⟨false, false, []⟩, ⟨false, false, []⟩, ⟨false, false, [0, 1]⟩]
  forwards := []
  values := [⟨false, false, [], [0]⟩, ⟨true, false, [], [1]⟩]
  valueForwards := []

/-- And a valuetype with both of them as bases that supports `S`. -/
def unrelatedJoined : Ast :=
  { unrelated with
    values := unrelated.values ++ [⟨false, false, [⟨0, false⟩, ⟨1, false⟩], [2]⟩] }

lemma unrelatedJoined_declared : Declared Ast.Seen unrelatedJoined := by
  have hA : Declared Ast.Seen ⟨[⟨false, false, []⟩], [], [], []⟩ := by
    refine .step .empty ?_
      (show Ast.declare _ 1 (.interface none false false []) = some (.ok _) from rfl)
    trivial
  have hB : Declared Ast.Seen ⟨[⟨false, false, []⟩, ⟨false, false, []⟩], [], [], []⟩ := by
    refine .step hA ?_
      (show Ast.declare _ 1 (.interface none false false []) = some (.ok _) from rfl)
    trivial
  have hS : Declared Ast.Seen { unrelated with values := [] } := by
    refine .step hB ?_
      (show Ast.declare _ 1 (.interface none false false [.interface 0, .interface 1])
        = some (.ok _) from rfl)
    trivial
  have hV : Declared Ast.Seen { unrelated with values := [⟨false, false, [], [0]⟩] } := by
    refine .step hS ?_
      (show Ast.declare _ 4 (.value none false false [] [.interface 0]) = some (.ok _) from rfl)
    rintro lists ⟨⟩
    exact Ast.seenLists_nil
  have hW : Declared Ast.Seen unrelated := by
    refine .step hV ?_
      (show Ast.declare _ 1 (.valueAbs none false [] [.interface 1]) = some (.ok _) from rfl)
    rintro lists ⟨⟩
    exact Ast.seenLists_nil
  refine .step hW ?_
    (show Ast.declare _ 6 (.value none false false [.value 0, .value 1] [.interface 2])
      = some (.ok _) from rfl)
  rintro lists ⟨⟩
  have hcompared : ¬unrelated.Uncompared false [2] := by
    rintro (h | ⟨i, ⟨⟩, h⟩)
    · cases h
    · cases h
  refine ⟨?_, fun h => absurd h hcompared, fun h => absurd h hcompared⟩
  rintro - s hs
  rcases List.mem_cons.mp hs with rfl | hs
  · exact Ast.shown_of_supports (i := 0) rfl rfl rfl
  · rw [List.mem_singleton.mp hs]
    exact Ast.shown_of_supports (i := 1) rfl rfl rfl

theorem valuetypes_declared_joined :
    unrelatedJoined.FirstOnly 2 ∧ (unrelatedJoined.declare 7 (.valueForward true)).isSome = true ∧
      unrelatedJoined.Headed 2 := by
  obtain ⟨hfirst, hsome, hheaded⟩ :=
    valuetypes_declared (unrelatedJoined_declared.mono fun _ _ _ => trivial)
  exact ⟨hfirst 2, hsome _ 7 (by decide), hheaded unrelatedJoined_declared 2 (by decide)⟩

/-- `S` is derived from both, but `A` and `B` are not on one chain. -/
theorem unrelatedJoined_not_chained :
    ¬∀ ast, Declared (fun _ _ => True) ast → ∀ v < ast.values.length, ast.Chained v := by
  intro h
  have hchained := h _ (unrelatedJoined_declared.mono fun _ _ _ => trivial) 2 (by decide)
  have hparent : ∀ w, w = 0 ∨ w = 1 → Ancestor unrelatedJoined.valueTable 2 w := by
    rintro w (rfl | rfl)
    · exact ReflTransGen.single ⟨[0, 1], rfl, by decide⟩
    · exact ReflTransGen.single ⟨[0, 1], rfl, by decide⟩
  have hA : 0 ∈ unrelatedJoined.supported 2 :=
    ⟨0, hparent 0 (.inl rfl), ⟨false, false, [], [0]⟩, rfl, by decide, rfl⟩
  have hB : 1 ∈ unrelatedJoined.supported 2 :=
    ⟨1, hparent 1 (.inr rfl), ⟨true, false, [], [1]⟩, rfl, by decide, rfl⟩
  have hAB : unrelatedJoined.isDerived 4 0 1 = some false := by decide
  have hBA : unrelatedJoined.isDerived 4 1 0 = some false := by decide
  rcases hchained.chain hA hB (by decide) with hder | hder
  · cases (Ast.isDerived_spec hAB).mpr hder
  · cases (Ast.isDerived_spec hBA).mpr hder

end OmniORB.Idl
