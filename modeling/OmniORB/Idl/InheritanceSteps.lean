import OmniORB.Idl.Inheritance

/-!
# Declarations, one at a time

A declaration leaves what was declared before it alone. What the checks of a valuetype say about its
bases gives what holds of the whole hierarchy.
-/

namespace OmniORB.Idl

open Library Relation

namespace Ast

variable {ast ast' : Ast}

/-! ### Lists -/

lemma mem_of_foldlM {ν : Type} {resolve : ν → Except (List InheritError) ℕ}
    {twice : ℕ → List InheritError} {bound : ℕ}
    (hresolve : ∀ name i, resolve name = .ok i → i < bound) {names : List ν} {before list : List ℕ}
    (h : names.foldlM (fun list name => do
      let i ← resolve name
      if i ∈ list then .error (twice i) else .ok (list ++ [i])) before = .ok list)
    (hbefore : ∀ i ∈ before, i < bound) : ∀ i ∈ list, i < bound := by
  induction names generalizing before with
  | nil =>
    cases h
    exact hbefore
  | cons name names ih =>
    rw [List.foldlM_cons] at h
    cases hi : resolve name with
    | error e =>
      rw [hi] at h
      cases h
    | ok i =>
      rw [hi] at h
      simp only [bind, Except.bind] at h
      split_ifs at h with hmem
      apply ih h
      intro j hj
      rcases List.mem_append.mp hj with hj | hj
      · exact hbefore j hj
      · rw [List.mem_singleton.mp hj]
        exact hresolve name i hi

lemma lt_of_inheritList (hwf : ast.WellFormed) {names : List InterfaceName} {list : List ℕ}
    (h : ast.inheritList names = .ok list) : ∀ i ∈ list, i < ast.interfaces.length := by
  refine mem_of_foldlM ?_ h (by simp)
  intro name i hi
  cases name with
  | object => cases hi
  | other => cases hi
  | interface j =>
    rw [inheritSpec] at hi
    split_ifs at hi with hj
    cases hi
    exact hj
  | forward f =>
    rw [inheritSpec] at hi
    cases hf : ast.forwards[f]? with
    | none =>
      rw [hf] at hi
      cases hi
    | some d =>
      rw [hf] at hi
      cases hdef : d.definition with
      | none => simp [hdef] at hi
      | some j =>
        simp only [hdef, Except.ok.injEq] at hi
        rw [← hi]
        exact hwf.forwards d (List.mem_of_getElem? hf) j hdef

lemma lt_of_valueInheritList (hwf : ast.WellFormed) {names : List ValueName} {list : List ℕ}
    (h : ast.valueInheritList names = .ok list) : ∀ v ∈ list, v < ast.values.length := by
  refine mem_of_foldlM ?_ h (by simp)
  intro name v hv
  cases name with
  | other => cases hv
  | value w =>
    rw [valueInheritSpec] at hv
    split_ifs at hv with hw
    cases hv
    exact hw
  | forward f =>
    rw [valueInheritSpec] at hv
    cases hf : ast.valueForwards[f]? with
    | none =>
      rw [hf] at hv
      cases hv
    | some d =>
      rw [hf] at hv
      cases hdef : d.definition with
      | none => simp [hdef] at hv
      | some w =>
        simp only [hdef, Except.ok.injEq] at hv
        rw [← hv]
        exact hwf.valueForwards d (List.mem_of_getElem? hf) w hdef

lemma value_mem_of_mem_truncate {truncatable : Bool} {list : List ℕ} {s : ValueInheritSpec}
    (h : s ∈ truncate truncatable list) : s.value ∈ list := by
  cases list with
  | nil => cases h
  | cons v list =>
    rcases List.mem_cons.mp h with rfl | h
    · exact List.mem_cons_self
    · obtain ⟨w, hw, rfl⟩ := List.mem_map.mp h
      exact List.mem_cons_of_mem _ hw

/-- The lists of a valuetype name what was declared before. -/
lemma lt_of_valueLists (hwf : ast.WellFormed) {truncatable : Bool} {inherits : List ValueName}
    {supports : List InterfaceName} {lists : List ValueInheritSpec × List ℕ}
    (h : ast.valueLists truncatable inherits supports = .ok lists) :
    (∀ s ∈ lists.1, s.value < ast.values.length) ∧ ∀ i ∈ lists.2, i < ast.interfaces.length := by
  rw [valueLists] at h
  cases hvalues : ast.valueInheritList inherits with
  | error e =>
    rw [hvalues] at h
    cases h
  | ok values =>
    cases hinterfaces : ast.inheritList supports with
    | error e =>
      rw [hvalues, hinterfaces] at h
      cases h
    | ok interfaces =>
      rw [hvalues, hinterfaces] at h
      cases h
      exact ⟨fun s hs => lt_of_valueInheritList hwf hvalues _ (value_mem_of_mem_truncate hs),
        lt_of_inheritList hwf hinterfaces⟩

/-! ### A new interface -/

/-- One interface more. -/
structure AddsInterface (ast ast' : Ast) (x : Interface) : Prop where
  interfaces : ast'.interfaces = ast.interfaces ++ [x]
  values : ast'.values = ast.values
  inherits : ∀ i ∈ x.inherits, i < ast.interfaces.length

namespace AddsInterface

variable {x : Interface} (h : AddsInterface ast ast' x) (hwf : ast.WellFormed)
include h

lemma interfaceTable : ast'.interfaceTable = ast.interfaceTable ++ [x.inherits] := by
  rw [Ast.interfaceTable, Ast.interfaceTable, h.interfaces, List.map_append]
  rfl

lemma valueTable : ast'.valueTable = ast.valueTable := by
  rw [Ast.valueTable, Ast.valueTable, h.values]

lemma isAbstract {i : ℕ} (hi : i < ast.interfaces.length) :
    ast'.isAbstract i = ast.isAbstract i := by
  rw [Ast.isAbstract, Ast.isAbstract, h.interfaces, List.getElem?_append_left hi]

include hwf

lemma own_iff {v i : ℕ} : ast'.Own v i ↔ ast.Own v i := by
  rw [Own, Own, h.values]
  constructor
  · rintro ⟨d, hd, hi, hconcrete⟩
    rw [h.isAbstract (hwf.supports v d hd i hi)] at hconcrete
    exact ⟨d, hd, hi, hconcrete⟩
  · rintro ⟨d, hd, hi, hconcrete⟩
    rw [← h.isAbstract (hwf.supports v d hd i hi)] at hconcrete
    exact ⟨d, hd, hi, hconcrete⟩

lemma supported_eq (v : ℕ) : ast'.supported v = ast.supported v := by
  ext i
  simp only [supported, Set.mem_ofPred_eq, h.valueTable, h.own_iff hwf]

lemma derived_iff {i j : ℕ} (hi : i < ast.interfaces.length) :
    ast'.Derived i j ↔ ast.Derived i j := by
  rw [Derived, Derived, h.interfaceTable]
  exact ancestor_append_of_lt hwf.interfaces (by simpa using hi)

end AddsInterface

lemma lt_of_mem_supported (hwf : ast.WellFormed) {v i : ℕ} (h : i ∈ ast.supported v) :
    i < ast.interfaces.length := by
  obtain ⟨w, -, d, hd, hi, -⟩ := h
  exact hwf.supports w d hd i hi

lemma lt_of_own (hwf : ast.WellFormed) {v i : ℕ} (h : ast.Own v i) : i < ast.interfaces.length := by
  obtain ⟨d, hd, hi, -⟩ := h
  exact hwf.supports v d hd i hi

/-- A new interface changes nothing above a valuetype. -/
lemma Headed.addsInterface {x : Interface} {v : ℕ} (hv : ast.Headed v)
    (h : AddsInterface ast ast' x) (hwf : ast.WellFormed) : ast'.Headed v where
  head := by
    rw [h.supported_eq hwf]
    intro hne
    obtain ⟨t, ht, hall⟩ := hv.head hne
    refine ⟨t, ht, ?_⟩
    intro j hj
    rw [h.derived_iff hwf (lt_of_mem_supported hwf ht)]
    exact hall j hj
  own := by
    rw [h.supported_eq hwf]
    intro i hi j hj
    rw [h.own_iff hwf] at hi
    rw [h.derived_iff hwf (lt_of_own hwf hi)]
    exact hv.own i hi j hj

/-! ### A new valuetype -/

/-- One valuetype more. -/
structure AddsValue (ast ast' : Ast) (d : Valuetype) : Prop where
  interfaces : ast'.interfaces = ast.interfaces
  values : ast'.values = ast.values ++ [d]
  inherits : ∀ s ∈ d.inherits, s.value < ast.values.length
  supports : ∀ i ∈ d.supports, i < ast.interfaces.length

namespace AddsValue

variable {d : Valuetype} (h : AddsValue ast ast' d) (hwf : ast.WellFormed)
include h

lemma interfaceTable : ast'.interfaceTable = ast.interfaceTable := by
  rw [Ast.interfaceTable, Ast.interfaceTable, h.interfaces]

lemma valueTable :
    ast'.valueTable = ast.valueTable ++ [d.inherits.map ValueInheritSpec.value] := by
  rw [Ast.valueTable, Ast.valueTable, h.values, List.map_append]
  rfl

lemma isAbstract (i : ℕ) : ast'.isAbstract i = ast.isAbstract i := by
  rw [Ast.isAbstract, Ast.isAbstract, h.interfaces]

lemma isValue {v : ℕ} (hv : v < ast.values.length) : ast'.isValue v = ast.isValue v := by
  rw [Ast.isValue, Ast.isValue, h.values, List.getElem?_append_left hv]

lemma derived_iff {i j : ℕ} : ast'.Derived i j ↔ ast.Derived i j := by
  rw [Derived, Derived, h.interfaceTable]

lemma bases_lt : ∀ p ∈ d.inherits.map ValueInheritSpec.value, p < ast.valueTable.length := by
  intro p hp
  obtain ⟨s, hs, rfl⟩ := List.mem_map.mp hp
  rw [length_valueTable]
  exact h.inherits s hs

lemma own_iff_of_lt {v i : ℕ} (hv : v < ast.values.length) : ast'.Own v i ↔ ast.Own v i := by
  simp only [Own, h.values, List.getElem?_append_left hv, h.isAbstract]

lemma own_length_iff {i : ℕ} :
    ast'.Own ast.values.length i ↔ i ∈ d.supports ∧ ast.isAbstract i = false := by
  simp only [Own, h.values, List.getElem?_concat_length, h.isAbstract]
  simp

include hwf

lemma supported_of_lt {v : ℕ} (hv : v < ast.values.length) :
    ast'.supported v = ast.supported v := by
  have happ : ∀ w, Ancestor ast'.valueTable v w ↔ Ancestor ast.valueTable v w := by
    intro w
    rw [h.valueTable]
    exact ancestor_append_of_lt hwf.values (by simpa using hv)
  ext i
  simp only [supported, Set.mem_ofPred_eq, happ]
  constructor
  · rintro ⟨w, hw, hown⟩
    exact ⟨w, hw, (h.own_iff_of_lt (lt_of_le_of_lt (hw.le hwf.values) hv)).mp hown⟩
  · rintro ⟨w, hw, hown⟩
    exact ⟨w, hw, (h.own_iff_of_lt (lt_of_le_of_lt (hw.le hwf.values) hv)).mpr hown⟩

/-- What is supported at the new valuetype and above it. -/
lemma mem_supported_length {i : ℕ} :
    i ∈ ast'.supported ast.values.length ↔
      (i ∈ d.supports ∧ ast.isAbstract i = false) ∨
        ∃ s ∈ d.inherits, i ∈ ast.supported s.value := by
  have hanc : ∀ w, Ancestor ast'.valueTable ast.values.length w ↔
      w = ast.values.length ∨ ∃ s ∈ d.inherits, Ancestor ast.valueTable s.value w := by
    intro w
    have happ := ancestor_append_length (w := w) hwf.values h.bases_lt
    rw [length_valueTable] at happ
    rw [h.valueTable, happ]
    simp
  constructor
  · rintro ⟨w, hw, hown⟩
    rcases (hanc w).mp hw with rfl | ⟨s, hs, hw⟩
    · exact .inl (h.own_length_iff.mp hown)
    · have hlt := lt_of_le_of_lt (hw.le hwf.values) (h.inherits s hs)
      exact .inr ⟨s, hs, w, hw, (h.own_iff_of_lt hlt).mp hown⟩
  · rintro (hi | ⟨s, hs, w, hw, hown⟩)
    · exact ⟨_, .refl _, h.own_length_iff.mpr hi⟩
    · have hlt := lt_of_le_of_lt (hw.le hwf.values) (h.inherits s hs)
      exact ⟨w, (hanc w).mpr (.inr ⟨s, hs, hw⟩), (h.own_iff_of_lt hlt).mpr hown⟩

end AddsValue

/-- The new valuetype changes nothing above an old one. -/
lemma Headed.addsValue {d : Valuetype} {v : ℕ} (hv : ast.Headed v) (hlt : v < ast.values.length)
    (h : AddsValue ast ast' d) (hwf : ast.WellFormed) : ast'.Headed v where
  head := by
    rw [h.supported_of_lt hwf hlt]
    intro hne
    obtain ⟨t, ht, hall⟩ := hv.head hne
    exact ⟨t, ht, fun j hj => h.derived_iff.mpr (hall j hj)⟩
  own := by
    rw [h.supported_of_lt hwf hlt]
    intro i hi j hj
    exact h.derived_iff.mpr (hv.own i ((h.own_iff_of_lt hlt).mp hi) j hj)

/-- What the checks establish of a declaration. -/
structure Checks (ast : Ast) (d : Valuetype) : Prop where
  /-- Supported interfaces after the first are abstract. -/
  supports : ∀ i ∈ d.supports.tail, ast.isAbstract i = true
  /-- The interface that is supported is derived from those that the bases show. -/
  derived : d.isAbstract = false → ∀ i ∈ d.supports.head?, ast.isAbstract i = false →
    ∀ s ∈ d.inherits, ∀ t, ast.FirstSupported s.value t → ast.isAbstract t = false →
      ast.Derived i t
  /-- The bases of a valuetype that supports nothing show one interface. -/
  same : d.isAbstract = false → d.supports = [] → ∃ i, ∀ s ∈ d.inherits, ∀ t,
    ast.FirstSupported s.value t → ast.isAbstract t = false → t = i

/-- A valuetype supports one interface that is not abstract at most. -/
lemma Checks.head_eq {d : Valuetype} (hc : ast.Checks d) {i : ℕ} (hi : i ∈ d.supports)
    (hconcrete : ast.isAbstract i = false) : d.supports.head? = some i := by
  cases hs : d.supports with
  | nil =>
    rw [hs] at hi
    cases hi
  | cons j is =>
    rw [hs] at hi
    rcases List.mem_cons.mp hi with rfl | hi
    · rfl
    · have habs := hc.supports i (by rw [hs]; exact hi)
      rw [habs] at hconcrete
      cases hconcrete

/-- The step: if the bases are headed and their lines show what they support, the checks make the
new valuetype headed. -/
theorem headed_of_checks {d : Valuetype} (h : AddsValue ast ast' d) (hwf : ast.WellFormed)
    (hheaded : ∀ s ∈ d.inherits, ast.Headed s.value) (hc : ast.Checks d)
    (hseen : ast.SeenLists d.isAbstract d.inherits d.supports) :
    ast'.Headed ast.values.length := by
  by_cases hcomp : ast.Uncompared d.isAbstract d.supports
  · -- nothing is compared: the valuetype supports something itself, or one of its bases does
    have hown : ∀ i ∈ d.supports, ast.isAbstract i = false →
        ∀ j ∈ ast'.supported ast.values.length, j = i := by
      intro i hi hconcrete j hj
      rcases (h.mem_supported_length hwf).mp hj with ⟨hj, hj'⟩ | ⟨s, hs, hj⟩
      · have hsame := (hc.head_eq hi hconcrete).symm.trans (hc.head_eq hj hj')
        exact (Option.some.inj hsame).symm
      · rw [hseen.alone hcomp i hi hconcrete s hs] at hj
        cases hj
    constructor
    · rintro ⟨i, hi⟩
      rcases (h.mem_supported_length hwf).mp hi with ⟨hi', hconcrete⟩ | ⟨s, hs, hi'⟩
      · refine ⟨i, hi, ?_⟩
        intro j hj
        rw [hown i hi' hconcrete j hj]
        exact .refl i
      · obtain ⟨t, ht, hall⟩ := (hheaded s hs).head ⟨i, hi'⟩
        refine ⟨t, (h.mem_supported_length hwf).mpr (.inr ⟨s, hs, ht⟩), ?_⟩
        intro j hj
        rw [h.derived_iff]
        rcases (h.mem_supported_length hwf).mp hj with ⟨hj', hconcrete⟩ | ⟨s', hs', hj'⟩
        · rw [hseen.alone hcomp j hj' hconcrete s hs] at ht
          cases ht
        · by_cases hne : s.value = s'.value
          · rw [← hne] at hj'
            exact hall j hj'
          · rcases hseen.single hcomp s hs s' hs' hne with hempty | hempty
            · rw [hempty] at ht
              cases ht
            · rw [hempty] at hj'
              cases hj'
    · intro i hi j hj
      obtain ⟨hi', hconcrete⟩ := h.own_length_iff.mp hi
      rw [hown i hi' hconcrete j hj]
      exact .refl i
  · have habs : d.isAbstract = false := by
      by_contra habs
      exact hcomp (.inl (Bool.eq_true_of_not_eq_false habs))
    -- what the valuetype itself supports is derived from all that its bases support
    have hown : ∀ i ∈ d.supports, ast.isAbstract i = false →
        ∀ j ∈ ast'.supported ast.values.length, ast.Derived i j := by
      intro i hi hconcrete j hj
      have hhead := hc.head_eq hi hconcrete
      rcases (h.mem_supported_length hwf).mp hj with ⟨hj', hconcrete'⟩ | ⟨s, hs, hj'⟩
      · have hsame := hhead.symm.trans (hc.head_eq hj' hconcrete')
        rw [Option.some.inj hsame]
        exact .refl j
      · obtain ⟨t, ht, htc, htj⟩ := hseen.shown hcomp s hs j hj'
        exact (hc.derived habs i hhead hconcrete s hs t ht htc).trans htj
    constructor
    · rintro ⟨i, hi⟩
      rcases (h.mem_supported_length hwf).mp hi with ⟨hi', hconcrete⟩ | ⟨s, hs, hi'⟩
      · exact ⟨i, hi, fun j hj => h.derived_iff.mpr (hown i hi' hconcrete j hj)⟩
      · cases hsup : d.supports with
        | cons k ks =>
          have hk : ast.isAbstract k = false := by
            by_contra hk
            exact hcomp (.inr ⟨k, by rw [hsup]; rfl, Bool.eq_true_of_not_eq_false hk⟩)
          have hmem : k ∈ d.supports := by
            rw [hsup]
            exact List.mem_cons_self
          exact ⟨k, (h.mem_supported_length hwf).mpr (.inl ⟨hmem, hk⟩),
            fun j hj => h.derived_iff.mpr (hown k hmem hk j hj)⟩
        | nil =>
          obtain ⟨top, htop⟩ := hc.same habs hsup
          have hbase : ∀ s ∈ d.inherits, ∀ j ∈ ast.supported s.value,
              ast.FirstSupported s.value top ∧ ast.isAbstract top = false ∧
                ast.Derived top j := by
            intro s hs j hj
            obtain ⟨t, ht, htc, htj⟩ := hseen.shown hcomp s hs j hj
            obtain rfl := htop s hs t ht htc
            exact ⟨ht, htc, htj⟩
          obtain ⟨ht, htc, -⟩ := hbase s hs i hi'
          refine ⟨top, (h.mem_supported_length hwf).mpr
            (.inr ⟨s, hs, mem_supported_of_firstSupported ht htc⟩), ?_⟩
          intro j hj
          rw [h.derived_iff]
          rcases (h.mem_supported_length hwf).mp hj with ⟨hj', -⟩ | ⟨s', hs', hj'⟩
          · rw [hsup] at hj'
            cases hj'
          · exact (hbase s' hs' j hj').2.2
    · intro i hi j hj
      obtain ⟨hi', hconcrete⟩ := h.own_length_iff.mp hi
      exact h.derived_iff.mpr (hown i hi' hconcrete j hj)

end Ast

end OmniORB.Idl
