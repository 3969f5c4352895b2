import OmniORB.Idl.Valuetypes
import OmniORB.Library.Ancestry

/-!
# Inheritance of valuetypes

What holds of the valuetypes that are declared without an error: where their base that is not
abstract stands, and which interfaces they and their bases support.
-/

namespace OmniORB.Idl

open Library Relation

/-! ### Derivation and support -/

namespace Ast

variable (ast : Ast)

def interfaceTable : List (List ℕ) := ast.interfaces.map Interface.inherits

def valueTable : List (List ℕ) := ast.values.map fun d => d.inherits.map ValueInheritSpec.value

/-- The interface `j` is `i` or one of its direct or indirect bases. -/
def Derived (i j : ℕ) : Prop := Ancestor ast.interfaceTable i j

/-- The valuetype itself supports the interface, which is not abstract. -/
def Own (v i : ℕ) : Prop :=
  ∃ d, ast.values[v]? = some d ∧ i ∈ d.supports ∧ ast.isAbstract i = false

/-- The interfaces that are not abstract and that the valuetype or one of its direct or indirect
bases supports. -/
def supported (v : ℕ) : Set ℕ := {i | ∃ w, Ancestor ast.valueTable v w ∧ ast.Own w i}

/-- The valuetype has no base that is not abstract but the first. -/
def FirstOnly (v : ℕ) : Prop :=
  ∀ d, ast.values[v]? = some d → ∀ k s, d.inherits[k]? = some s →
    ast.isValue s.value = true → k = 0

/-- The interfaces that a valuetype and its bases support lie on one chain, and its own ends it. -/
structure Chained (v : ℕ) : Prop where
  chain : IsChain ast.Derived (ast.supported v)
  own : ∀ i, ast.Own v i → ∀ j ∈ ast.supported v, ast.Derived i j

/-- One of the interfaces that a valuetype and its bases support is derived from all of them, and
its own is. -/
structure Headed (v : ℕ) : Prop where
  head : (ast.supported v).Nonempty →
    ∃ t ∈ ast.supported v, ∀ j ∈ ast.supported v, ast.Derived t j
  own : ∀ i, ast.Own v i → ∀ j ∈ ast.supported v, ast.Derived i j

/-- The first interface of the first list of supported interfaces on the line of the first bases. -/
inductive FirstSupported : ℕ → ℕ → Prop
  | own {v i : ℕ} {d : Valuetype} {is : List ℕ} (hv : ast.values[v]? = some d)
      (hs : d.supports = i :: is) : FirstSupported v i
  | base {v i : ℕ} {d : Valuetype} {p : ValueInheritSpec} {ps : List ValueInheritSpec}
      (hv : ast.values[v]? = some d) (hs : d.supports = []) (hp : d.inherits = p :: ps)
      (h : FirstSupported p.value i) : FirstSupported v i

/-- The line of first bases shows an interface that is derived from all that the valuetype and its
bases support. -/
def Shown (v : ℕ) : Prop :=
  ∀ j ∈ ast.supported v, ∃ t, ast.FirstSupported v t ∧ ast.isAbstract t = false ∧ ast.Derived t j

/-- The lists are those of a valuetype for which nothing is compared. -/
def Uncompared (isAbstract : Bool) (supports : List ℕ) : Prop :=
  isAbstract = true ∨ ∃ i ∈ supports.head?, ast.isAbstract i = true

/-- The bases show all that they support; where nothing is compared, at most one of them supports
anything, and nothing is supported beside it. -/
structure SeenLists (isAbstract : Bool) (inherits : List ValueInheritSpec) (supports : List ℕ) :
    Prop where
  shown : ¬ast.Uncompared isAbstract supports → ∀ s ∈ inherits, ast.Shown s.value
  single : ast.Uncompared isAbstract supports → ∀ s ∈ inherits, ∀ s' ∈ inherits,
    s.value ≠ s'.value → ast.supported s.value = ∅ ∨ ast.supported s'.value = ∅
  alone : ast.Uncompared isAbstract supports → ∀ i ∈ supports, ast.isAbstract i = false →
    ∀ s ∈ inherits, ast.supported s.value = ∅

/-- The checks of the declaration see what there is to see. -/
def Seen : Declaration → Prop
  | .value _ _ truncatable inherits supports =>
    ∀ lists, ast.valueLists truncatable inherits supports = .ok lists →
      ast.SeenLists false lists.1 lists.2
  | .valueAbs _ truncatable inherits supports =>
    ∀ lists, ast.valueLists truncatable inherits supports = .ok lists →
      ast.SeenLists true lists.1 lists.2
  | _ => True

end Ast

/-- What is declared without an error, where each declaration meets a condition. -/
inductive Declared (P : Ast → Declaration → Prop) : Ast → Prop
  | empty : Declared P ⟨[], [], [], []⟩
  | step {ast ast' : Ast} {steps : ℕ} {decl : Declaration} (h : Declared P ast)
      (hP : P ast decl) (hdecl : ast.declare steps decl = some (.ok ast')) : Declared P ast'

/-- References go to what was declared before. -/
structure Ast.WellFormed (ast : Ast) : Prop where
  interfaces : Backward ast.interfaceTable
  values : Backward ast.valueTable
  supports : ∀ (v : ℕ) (d : Valuetype), ast.values[v]? = some d → ∀ i ∈ d.supports, i < ast.interfaces.length
  forwards : ∀ d ∈ ast.forwards, ∀ i, d.definition = some i → i < ast.interfaces.length
  valueForwards : ∀ d ∈ ast.valueForwards, ∀ v, d.definition = some v → v < ast.values.length

namespace Ast

variable {ast ast' : Ast}

@[simp] lemma length_interfaceTable : ast.interfaceTable.length = ast.interfaces.length :=
  List.length_map _

@[simp] lemma length_valueTable : ast.valueTable.length = ast.values.length :=
  List.length_map _

lemma parent_interfaceTable {i j : ℕ} :
    Parent ast.interfaceTable i j ↔ ∃ d, ast.interfaces[i]? = some d ∧ j ∈ d.inherits := by
  simp only [Parent, interfaceTable, List.getElem?_map, Option.map_eq_some_iff]
  constructor
  · rintro ⟨_, ⟨d, hd, rfl⟩, hj⟩
    exact ⟨d, hd, hj⟩
  · rintro ⟨d, hd, hj⟩
    exact ⟨_, ⟨d, hd, rfl⟩, hj⟩

lemma parent_valueTable {v w : ℕ} :
    Parent ast.valueTable v w ↔
      ∃ d, ast.values[v]? = some d ∧ ∃ s ∈ d.inherits, s.value = w := by
  simp only [Parent, valueTable, List.getElem?_map, Option.map_eq_some_iff]
  constructor
  · rintro ⟨_, ⟨d, hd, rfl⟩, hw⟩
    exact ⟨d, hd, List.mem_map.mp hw⟩
  · rintro ⟨d, hd, hw⟩
    exact ⟨_, ⟨d, hd, rfl⟩, List.mem_map.mpr hw⟩

lemma Own.lt_length {v i : ℕ} (h : ast.Own v i) : v < ast.values.length := by
  obtain ⟨d, hd, -⟩ := h
  exact (List.getElem?_eq_some_iff.mp hd).1

/-! ### The loops -/

lemma anyDerived_eq_true {derived : ℕ → Option Bool} {base : ℕ} {list : List ℕ}
    (h : anyDerived derived base list = some true) :
    ∃ i ∈ list, i = base ∨ derived i = some true := by
  induction list with
  | nil => cases h
  | cons i list ih =>
    rw [anyDerived] at h
    split_ifs at h with hi
    · exact ⟨i, List.mem_cons_self, .inl hi⟩
    · cases hd : derived i with
      | none =>
        rw [hd] at h
        cases h
      | some r =>
        rw [hd] at h
        cases r with
        | true => exact ⟨i, List.mem_cons_self, .inr hd⟩
        | false =>
          obtain ⟨k, hk, hor⟩ := ih h
          exact ⟨k, List.mem_cons_of_mem _ hk, hor⟩

lemma anyDerived_eq_false {derived : ℕ → Option Bool} {base : ℕ} {list : List ℕ}
    (h : anyDerived derived base list = some false) : ∀ i ∈ list, derived i = some false := by
  induction list with
  | nil => simp
  | cons i list ih =>
    rw [anyDerived] at h
    split_ifs at h with hi
    · cases h
    · cases hd : derived i with
      | none =>
        rw [hd] at h
        cases h
      | some r =>
        rw [hd] at h
        cases r with
        | true => cases h
        | false =>
          intro k hk
          rcases List.mem_cons.mp hk with rfl | hk
          · exact hd
          · exact ih h k hk

lemma anyDerived_isSome {derived : ℕ → Option Bool} {base : ℕ} {list : List ℕ}
    (h : ∀ i ∈ list, (derived i).isSome = true) : (anyDerived derived base list).isSome = true := by
  induction list with
  | nil => rfl
  | cons i list ih =>
    rw [anyDerived]
    split_ifs with hi
    · rfl
    · obtain ⟨r, hr⟩ := Option.isSome_iff_exists.mp (h i List.mem_cons_self)
      rw [hr]
      cases r with
      | true => rfl
      | false => exact ih fun k hk => h k (List.mem_cons_of_mem _ hk)

lemma derived_iff {i j : ℕ} :
    ast.Derived i j ↔ i = j ∨ ∃ d, ast.interfaces[i]? = some d ∧ ∃ k ∈ d.inherits, ast.Derived k j := by
  rw [Derived, Ancestor, ReflTransGen.cases_head_iff]
  constructor
  · rintro (h | ⟨k, hk, hkj⟩)
    · exact .inl h
    · obtain ⟨d, hd, hmem⟩ := parent_interfaceTable.mp hk
      exact .inr ⟨d, hd, k, hmem, hkj⟩
  · rintro (h | ⟨d, hd, k, hmem, hkj⟩)
    · exact .inl h
    · exact .inr ⟨k, parent_interfaceTable.mpr ⟨d, hd, hmem⟩, hkj⟩

/-- `isDerived` finds the bases. -/
theorem isDerived_spec {depth this base : ℕ} {b : Bool}
    (h : ast.isDerived depth this base = some b) : b = true ↔ ast.Derived this base := by
  induction depth generalizing this b with
  | zero => cases h
  | succ depth ih =>
    rw [isDerived] at h
    rw [derived_iff]
    split_ifs at h with hbase
    · cases h
      simp [hbase]
    · have hne : ¬this = base := fun heq => hbase heq.symm
      cases hd : ast.interfaces[this]? with
      | none =>
        rw [hd] at h
        cases h
        simp [hne]
      | some d =>
        rw [hd] at h
        cases b with
        | true =>
          refine iff_of_true rfl (.inr ⟨d, rfl, ?_⟩)
          obtain ⟨i, hi, rfl | hi'⟩ := anyDerived_eq_true h
          · exact ⟨i, hi, .refl i⟩
          · exact ⟨i, hi, (ih hi').mp rfl⟩
        | false =>
          refine iff_of_false Bool.false_ne_true ?_
          rintro (heq | ⟨_, ⟨⟩, i, hi, hder⟩)
          · exact hne heq
          · have hfalse := (ih (anyDerived_eq_false h i hi)).mpr hder
            cases hfalse

/-- `isDerived` comes back. -/
theorem isDerived_isSome (hwf : ast.WellFormed) {depth this : ℕ} (base : ℕ) (h : this < depth) :
    (ast.isDerived depth this base).isSome = true := by
  induction depth generalizing this with
  | zero => omega
  | succ depth ih =>
    rw [isDerived]
    split_ifs with hbase
    · rfl
    · cases hd : ast.interfaces[this]? with
      | none => rfl
      | some d =>
        apply anyDerived_isSome
        intro i hi
        have hlt := hwf.interfaces this i (parent_interfaceTable.mpr ⟨d, hd, hi⟩)
        exact ih (by omega)

/-- The climb ends at the first list of supported interfaces, if there is one. -/
theorem climb_spec {steps v iv : ℕ} {r : Option ℕ} (h : ast.climb steps v = some (r, iv)) (i : ℕ) :
    r = some i ↔ ast.FirstSupported v i := by
  induction steps generalizing v with
  | zero => cases h
  | succ steps ih =>
    rw [climb] at h
    cases hd : ast.values[v]? with
    | none =>
      rw [hd] at h
      cases h
    | some d =>
      rw [hd] at h
      have hown : ∀ i' is, d.supports = i' :: is → (i' = i ↔ ast.FirstSupported v i) := by
        intro i' is hs
        constructor
        · rintro rfl
          exact .own hd hs
        · intro hf
          cases hf with
          | own hv hs' =>
            rw [hd] at hv
            cases hv
            rw [hs] at hs'
            cases hs'
            rfl
          | base hv hs' _ _ =>
            rw [hd] at hv
            cases hv
            rw [hs] at hs'
            cases hs'
      cases hs : d.supports with
      | cons i' is =>
        have hr : r = some i' := by
          cases hp : d.inherits with
          | nil =>
            simp only [hs, hp, Option.some.injEq, Prod.mk.injEq] at h
            exact h.1.symm
          | cons p ps =>
            simp only [hs, hp, Option.some.injEq, Prod.mk.injEq] at h
            exact h.1.symm
        rw [hr, Option.some.injEq]
        exact hown i' is hs
      | nil =>
        cases hp : d.inherits with
        | nil =>
          simp only [hs, hp, Option.some.injEq, Prod.mk.injEq] at h
          rw [← h.1]
          refine iff_of_false (by simp) ?_
          intro hf
          cases hf with
          | own hv hs' =>
            rw [hd] at hv
            cases hv
            rw [hs] at hs'
            cases hs'
          | base hv _ hp' _ =>
            rw [hd] at hv
            cases hv
            rw [hp] at hp'
            cases hp'
        | cons p ps =>
          simp only [hs, hp] at h
          rw [ih h]
          constructor
          · exact .base hd hs hp
          · intro hf
            cases hf with
            | own hv hs' =>
              rw [hd] at hv
              cases hv
              rw [hs] at hs'
              cases hs'
            | base hv _ hp' hf =>
              rw [hd] at hv
              cases hv
              rw [hp] at hp'
              cases hp'
              exact hf

/-- The climb comes to an end: the valuetypes on the line were declared earlier and earlier. -/
theorem climb_isSome (hwf : ast.WellFormed) {steps v : ℕ} (hv : v < ast.values.length)
    (h : v < steps) : (ast.climb steps v).isSome = true := by
  induction steps generalizing v with
  | zero => omega
  | succ steps ih =>
    rw [climb, List.getElem?_eq_getElem hv]
    cases hs : ast.values[v].supports with
    | cons i is =>
      cases hp : ast.values[v].inherits with
      | nil => simp [hs, hp]
      | cons p ps => simp [hs, hp]
    | nil =>
      cases hp : ast.values[v].inherits with
      | nil => simp [hs, hp]
      | cons p ps =>
        have hlt := hwf.values v p.value (parent_valueTable.mpr
          ⟨_, List.getElem?_eq_getElem hv, p, by rw [hp]; exact List.mem_cons_self, rfl⟩)
        simp only [hs, hp]
        exact ih (by omega) (by omega)

/-! ### What the checks say -/

lemma mem_supported_of_firstSupported {v i : ℕ} (h : ast.FirstSupported v i)
    (hi : ast.isAbstract i = false) : i ∈ ast.supported v := by
  induction h with
  | own hv hs => exact ⟨_, .refl _, _, hv, by rw [hs]; exact List.mem_cons_self, hi⟩
  | base hv _ hp _ ih =>
    obtain ⟨w, hw, hown⟩ := ih hi
    refine ⟨w, ReflTransGen.head (parent_valueTable.mpr ⟨_, hv, _, ?_, rfl⟩) hw, hown⟩
    rw [hp]
    exact List.mem_cons_self

/-- Nothing is reported of a base from which the interface is derived. -/
lemma derived_of_derivedErrors {steps thisi : ℕ} {s : ValueInheritSpec}
    (h : ast.derivedErrors steps thisi s = some []) {t : ℕ} (ht : ast.FirstSupported s.value t)
    (hconcrete : ast.isAbstract t = false) : ast.Derived thisi t := by
  rw [derivedErrors] at h
  cases hclimb : ast.climb steps s.value with
  | none =>
    rw [hclimb] at h
    cases h
  | some r =>
    obtain ⟨r, iv⟩ := r
    have hr := (climb_spec hclimb t).mpr ht
    rw [hclimb, hr] at h
    simp only [hconcrete] at h
    rw [if_neg Bool.false_ne_true] at h
    cases hder : ast.isDerived steps thisi t with
    | none =>
      rw [hder] at h
      cases h
    | some b =>
      rw [hder] at h
      cases b with
      | false => cases h
      | true => exact (isDerived_spec hder).mp rfl

/-- Where no clash is reported, the bases show one interface. -/
lemma eq_of_clashErrors {steps : ℕ} {list : List ValueInheritSpec} {ii : Option ℕ}
    (h : ast.clashErrors steps ii list = some []) :
    ∃ i, (∀ j, ii = some j → j = i) ∧ ∀ s ∈ list, ∀ t, ast.FirstSupported s.value t →
      ast.isAbstract t = false → t = i := by
  induction list generalizing ii with
  | nil =>
    refine ⟨ii.getD 0, ?_, by simp⟩
    rintro j rfl
    rfl
  | cons s list ih =>
    rw [clashErrors] at h
    cases hclimb : ast.climb steps s.value with
    | none =>
      rw [hclimb] at h
      cases h
    | some r =>
      obtain ⟨r, iv⟩ := r
      rw [hclimb] at h
      have hspec := climb_spec hclimb
      -- a base that shows no interface, or an abstract one, is passed over
      have hskip : ast.clashErrors steps ii list = some [] →
          (∀ t, r = some t → ast.isAbstract t = true) →
          ∃ i, (∀ j, ii = some j → j = i) ∧ ∀ s' ∈ s :: list, ∀ t,
            ast.FirstSupported s'.value t → ast.isAbstract t = false → t = i := by
        intro hrest habs
        obtain ⟨i, hii, hall⟩ := ih hrest
        refine ⟨i, hii, ?_⟩
        intro s' hs' t ht hconcrete
        rcases List.mem_cons.mp hs' with rfl | hs'
        · rw [habs t ((hspec t).mpr ht)] at hconcrete
          cases hconcrete
        · exact hall s' hs' t ht hconcrete
      cases r with
      | none => exact hskip h (by simp)
      | some base =>
        dsimp only at h
        cases habs : ast.isAbstract base with
        | true =>
          rw [if_pos habs] at h
          apply hskip h
          rintro t ⟨⟩
          exact habs
        | false =>
          rw [if_neg (by rw [habs]; exact Bool.false_ne_true)] at h
          have hbase : ∀ t, ast.FirstSupported s.value t → t = base := by
            intro t ht
            have heq := (hspec t).mpr ht
            cases heq
            rfl
          cases ii with
          | none =>
            obtain ⟨i, hii, hall⟩ := ih h
            refine ⟨i, by simp, ?_⟩
            intro s' hs' t ht hconcrete
            rcases List.mem_cons.mp hs' with rfl | hs'
            · rw [hbase t ht]
              exact hii base rfl
            · exact hall s' hs' t ht hconcrete
          | some j =>
            obtain ⟨errors, herr, happ⟩ := Option.map_eq_some_iff.mp h
            obtain ⟨hclash, rfl⟩ := List.append_eq_nil_iff.mp happ
            have hj : base = j := by
              by_contra hne
              rw [if_pos hne] at hclash
              cases hclash
            obtain ⟨i, hii, hall⟩ := ih herr
            refine ⟨i, hii, ?_⟩
            intro s' hs' t ht hconcrete
            rcases List.mem_cons.mp hs' with rfl | hs'
            · rw [hbase t ht, hj]
              exact hii j rfl
            · exact hall s' hs' t ht hconcrete

end Ast

end OmniORB.Idl
