import OmniORB.TypeCodes.Equality

/-!
# Equivalent TypeCodes

What `equivalent` finds, and when both comparisons mean what they should.
-/

namespace OmniORB

open Library

namespace TypeCodes

variable {ν : Type}

namespace TypeCode

/-- The repository id; empty for the kinds that have none. -/
def repoId : TypeCode ν → String
  | objref _ id _ | struct id _ _ | except id _ _ | enum id _ _ | union id _ _ _ _ | value id _ _ _ _
  | valueBox id _ _ => id
  | _ => ""

/-- The kind has repository ids, and is no alias. -/
def HasId : TypeCode ν → Prop
  | objref _ _ _ | struct _ _ _ | except _ _ _ | enum _ _ _ | union _ _ _ _ _ | value _ _ _ _ _
  | valueBox _ _ _ => True
  | _ => False

/-- Without ids and names. -/
def anonymous : TypeCode Unit → TypeCode Unit
  | objref kind _ _ => objref kind "" ""
  | .alias _ _ content => .alias "" "" content
  | struct _ _ members => struct "" "" (members.map fun m => { m with name := "" })
  | except _ _ members => except "" "" (members.map fun m => { m with name := "" })
  | enum _ _ members => enum "" "" (members.map fun _ => "")
  | union _ _ discrim default members =>
    union "" "" discrim default (members.map fun m => { m with name := "" })
  | value _ _ modifier base members => value "" "" modifier base (members.map fun m => { m with name := "" })
  | valueBox _ _ boxed => valueBox "" "" boxed
  | t => t

/-- The structure of a TypeCode. -/
def shape (t : TypeCode ν) : TypeCode Unit := t.data.anonymous

/-- The kind of a TypeCode that has an id. -/
def bare : TypeCode Unit → TypeCode Unit
  | struct _ _ _ => struct "" "" []
  | except _ _ _ => except "" "" []
  | enum _ _ _ => enum "" "" []
  | union _ _ _ _ _ => union "" "" () 0 []
  | value _ _ _ _ _ => value "" "" 0 () []
  | t => t.anonymous

def kind (t : TypeCode ν) : TypeCode Unit := t.data.bare

/-- No alias, and no indirection. -/
def IsPlain : TypeCode ν → Prop
  | .alias _ _ _ | indirect _ => False
  | _ => True

/-- What equivalence asks of two TypeCodes without aliases in front: the same id, if both have one, and
the same structure otherwise. -/
def Alike (R : ν → ν → Prop) (t u : TypeCode ν) : Prop :=
  if t.repoId ≠ "" ∧ u.repoId ≠ "" then t.kind = u.kind ∧ t.repoId = u.repoId
  else t.shape = u.shape ∧ List.Forall₂ R t.children u.children

/-- What `equivalent` asks of the ids. -/
def IdsMatch (t u : TypeCode ν) : Prop :=
  t.repoId = u.repoId ∨ (∃ kind id name, t = objref kind id name) ∧
    (t.repoId = "" ∧ u.repoId = objectRepoId ∨ u.repoId = "" ∧ t.repoId = objectRepoId)

variable {R R' : ν → ν → Prop} {t u : TypeCode ν}

lemma Alike.mono (hR : ∀ x y, R x y → R' x y) (h : t.Alike R u) : t.Alike R' u := by
  rw [Alike] at h ⊢
  split_ifs at h ⊢
  · exact h
  · exact ⟨h.1, h.2.imp hR⟩

lemma Alike.refl (hR : ∀ x, R x x) (t : TypeCode ν) : t.Alike R t := by
  rw [Alike]
  split_ifs
  · exact ⟨rfl, rfl⟩
  · exact ⟨rfl, List.forall₂_same.mpr fun c _ => hR c⟩

lemma repoId_of_not_hasId (h : ¬ t.HasId) : t.repoId = "" := by
  cases t with
  | objref | struct | except | enum | union | value | valueBox => exact absurd trivial h
  | _ => rfl

lemma kind_of_shape (h : t.shape = u.shape) : t.kind = u.kind := by
  have hbare : ∀ s : TypeCode Unit, s.anonymous.bare = s.bare := by
    intro s
    cases s <;> rfl
  rw [kind, kind, ← hbare t.data, ← hbare u.data]
  exact congrArg bare h

/-- Without ids there are no names. -/
lemma data_of_shape (hplain : t.IsPlain) (ht : ¬ t.HasId) (h : t.shape = u.shape) : t.data = u.data := by
  have hself : t.shape = t.data := by
    cases t with
    | objref | struct | except | enum | union | value | valueBox => exact absurd trivial ht
    | «alias» => exact hplain.elim
    | _ => rfl
  rw [hself] at h
  have hsame : u.shape = u.data := by
    cases u with
    | objref | struct | except | enum | union | value | valueBox | «alias» =>
      cases t with
      | objref | struct | except | enum | union | value | valueBox => exact absurd trivial ht
      | «alias» => exact hplain.elim
      | _ => cases h
    | _ => rfl
  rw [h, hsame]

lemma repoId_of_data (h : t.data = u.data) : t.repoId = u.repoId := by
  have hself : ∀ t : TypeCode ν, t.data.repoId = t.repoId := by
    intro t
    cases t <;> rfl
  rw [← hself t, ← hself u, h]

/-- TypeCodes of different kinds. -/
lemma not_holds_of_check_false {l : List (Obligation ν)} (h : l = [.check false]) :
    ¬ ∀ p ∈ l, p.Holds R := by
  intro hall
  exact Bool.false_ne_true (hall (.check false) (h ▸ List.mem_cons_self))

/-- `equivalent` compares the ids and nothing else, where there are some. -/
lemma extendedEqual_true_iff_of_hasId (ht : t.HasId) :
    (∀ p ∈ t.extendedEqual true u, p.Holds R) ↔ t.kind = u.kind ∧ t.IdsMatch u := by
  have hne : t.extendedEqual true u = [.check false] → t.kind ≠ u.kind →
      ((∀ p ∈ t.extendedEqual true u, p.Holds R) ↔ t.kind = u.kind ∧ t.IdsMatch u) :=
    fun h hkind => iff_of_false (not_holds_of_check_false h) fun h => hkind h.1
  cases t with
  | objref =>
    cases u with
    | objref => simp [extendedEqual, kind, data, bare, anonymous, IdsMatch, repoId]
    | _ => exact hne rfl fun h => by cases h
  | struct =>
    cases u with
    | struct => simp [extendedEqual, kind, data, bare, IdsMatch, repoId]
    | _ => exact hne rfl fun h => by cases h
  | except =>
    cases u with
    | except => simp [extendedEqual, kind, data, bare, IdsMatch, repoId]
    | _ => exact hne rfl fun h => by cases h
  | enum =>
    cases u with
    | enum => simp [extendedEqual, kind, data, bare, IdsMatch, repoId]
    | _ => exact hne rfl fun h => by cases h
  | union =>
    cases u with
    | union => simp [extendedEqual, kind, data, bare, IdsMatch, repoId]
    | _ => exact hne rfl fun h => by cases h
  | value =>
    cases u with
    | value => simp [extendedEqual, kind, data, bare, IdsMatch, repoId]
    | _ => exact hne rfl fun h => by cases h
  | valueBox =>
    cases u with
    | valueBox => simp [extendedEqual, kind, data, bare, anonymous, IdsMatch, repoId]
    | _ => exact hne rfl fun h => by cases h
  | _ => exact ht.elim

/-- It compares everything where there are none. -/
lemma extendedEqual_true_iff_of_not_hasId (hplain : t.IsPlain) (ht : ¬ t.HasId) :
    (∀ p ∈ t.extendedEqual true u, p.Holds R) ↔
      t.data = u.data ∧ List.Forall₂ R t.children u.children := by
  have hne : t.extendedEqual true u = [.check false] → t.data ≠ u.data →
      ((∀ p ∈ t.extendedEqual true u, p.Holds R) ↔
        t.data = u.data ∧ List.Forall₂ R t.children u.children) :=
    fun h hdata => iff_of_false (not_holds_of_check_false h) fun h => hdata h.1
  cases t with
  | simple =>
    cases u with
    | simple => simp [extendedEqual, data, children]
    | _ => exact hne rfl fun h => by cases h
  | string =>
    cases u with
    | string => simp [extendedEqual, data, children]
    | _ => exact hne rfl fun h => by cases h
  | wstring =>
    cases u with
    | wstring => simp [extendedEqual, data, children]
    | _ => exact hne rfl fun h => by cases h
  | fixed =>
    cases u with
    | fixed => simp [extendedEqual, data, children]
    | _ => exact hne rfl fun h => by cases h
  | sequence =>
    cases u with
    | sequence => simp [extendedEqual, data, children]
    | _ => exact hne rfl fun h => by cases h
  | array =>
    cases u with
    | array => simp [extendedEqual, data, children]
    | _ => exact hne rfl fun h => by cases h
  | «alias» => exact hplain.elim
  | indirect => exact hplain.elim
  | _ => exact absurd trivial ht

/-- Conditions, and for sequences and arrays the contents. -/
lemma pairLast_extendedEqual_true (t u : TypeCode ν) : PairLast (t.extendedEqual true u) := by
  cases t with
  | simple => cases u <;> trivial
  | string => cases u <;> trivial
  | wstring => cases u <;> trivial
  | fixed => cases u <;> trivial
  | objref => cases u <;> trivial
  | «alias» => cases u <;> trivial
  | struct => cases u <;> trivial
  | except => cases u <;> trivial
  | enum => cases u <;> trivial
  | union => cases u <;> trivial
  | value => cases u <;> trivial
  | valueBox => cases u <;> trivial
  | indirect => trivial
  | sequence =>
    cases u with
    | sequence => rfl
    | _ => trivial
  | array =>
    cases u with
    | array => rfl
    | _ => trivial

/-- The pairs that `equivalent` goes on with. -/
lemma mem_extendedEqual_true {x y : ν} (hplain : t.IsPlain) :
    ((∀ b, Obligation.check b ∈ t.extendedEqual true u → b = true) ∧
      Obligation.pair x y ∈ t.extendedEqual true u) ↔
      ¬ t.HasId ∧ t.data = u.data ∧ (x, y) ∈ t.children.zip u.children := by
  by_cases ht : t.HasId
  · refine iff_of_false ?_ fun h => h.1 ht
    rintro ⟨-, hmem⟩
    cases t with
    | objref => cases u <;> simp [extendedEqual] at hmem
    | struct => cases u <;> simp [extendedEqual] at hmem
    | except => cases u <;> simp [extendedEqual] at hmem
    | enum => cases u <;> simp [extendedEqual] at hmem
    | union => cases u <;> simp [extendedEqual] at hmem
    | value => cases u <;> simp [extendedEqual] at hmem
    | valueBox => cases u <;> simp [extendedEqual] at hmem
    | _ => exact ht
  · have hiff := extendedEqual_true_iff_of_not_hasId (R := fun _ _ => True) (u := u) hplain ht
    have hpair : t.data = u.data →
        (Obligation.pair x y ∈ t.extendedEqual true u ↔ (x, y) ∈ t.children.zip u.children) := by
      intro hdata
      cases t with
      | sequence =>
        cases u with
        | sequence => simp [extendedEqual, children]
        | _ => cases hdata
      | array =>
        cases u with
        | array => simp [extendedEqual, children]
        | _ => cases hdata
      | simple => cases u <;> simp [extendedEqual, children]
      | string => cases u <;> simp [extendedEqual, children]
      | wstring => cases u <;> simp [extendedEqual, children]
      | fixed => cases u <;> simp [extendedEqual, children]
      | «alias» => exact hplain.elim
      | indirect => exact hplain.elim
      | _ => exact absurd trivial ht
    constructor
    · rintro ⟨hchecks, hmem⟩
      have hdata : t.data = u.data := (hiff.mp fun p hp => by
        cases p with
        | check b => exact hchecks b hp
        | pair c d => trivial).1
      exact ⟨ht, hdata, (hpair hdata).mp hmem⟩
    · rintro ⟨-, hdata, hmem⟩
      have hlength := length_children_of_compared (congrArg erase hdata)
      have hall := hiff.mpr ⟨hdata, List.forall₂_iff_zip.mpr ⟨hlength, fun _ => trivial⟩⟩
      exact ⟨fun b hb => hall _ hb, (hpair hdata).mpr hmem⟩

end TypeCode

namespace Graph

variable {g : Graph ν} {x y x' y' : ν} {n : ℕ} {p q : ν × ν}

/-! ### Expansion -/

/-- The TypeCode behind the aliases. -/
def Expands (g : Graph ν) (x x' : ν) : Prop := ∃ n, g.expand n x = some x'

lemma Expands.unique {x'' : ν} (h : g.Expands x x') (h' : g.Expands x x'') : x' = x'' := by
  obtain ⟨n, hn⟩ := h
  obtain ⟨m, hm⟩ := h'
  have h1 := expand_mono (le_max_left n m) hn
  have h2 := expand_mono (le_max_right n m) hm
  exact Option.some.inj (h1.symm.trans h2)

lemma Expands.plain (h : g.Expands x x') : (g.node x').IsPlain := by
  obtain ⟨n, hn⟩ := h
  induction n generalizing x with
  | zero => cases hn
  | succ n ih =>
    rw [expand] at hn
    cases hx : g.node x with
    | «alias» | indirect =>
      rw [hx] at hn
      exact ih hn
    | _ =>
      rw [hx] at hn
      obtain rfl := Option.some.inj hn
      rw [hx]
      trivial

lemma expands_of_plain (h : (g.node x).IsPlain) : g.Expands x x := by
  refine ⟨1, ?_⟩
  rw [expand]
  cases hx : g.node x with
  | «alias» | indirect =>
    rw [hx] at h
    exact h.elim
  | _ => rfl

lemma Expands.self (h : g.Expands x x') : g.Expands x' x' := expands_of_plain h.plain

/-- A step of the expansion does not change what it comes to. -/
lemma expands_iff_of_step {z : ν} (h : ∀ n, g.expand (n + 1) x = g.expand n z) :
    g.Expands x x' ↔ g.Expands z x' := by
  constructor
  · rintro ⟨n, hn⟩
    cases n with
    | zero => cases hn
    | succ n => exact ⟨n, (h n).symm.trans hn⟩
  · rintro ⟨n, hn⟩
    exact ⟨n + 1, (h n).trans hn⟩

lemma expands_alias {id name : String} {z : ν} (h : g.node x = .alias id name z) :
    g.Expands x x' ↔ g.Expands z x' :=
  expands_iff_of_step fun n => by rw [expand, h]

lemma expands_strip : g.Expands (g.strip x) x' ↔ g.Expands x x' := by
  cases hx : g.node x with
  | indirect z =>
    have hstrip : g.strip x = z := by rw [strip, hx]
    rw [hstrip]
    exact (expands_iff_of_step fun n => by rw [expand, hx]).symm
  | _ => rw [strip_of_not_indirect (by rw [hx]; exact id)]

/-! ### Equivalence -/

/-- The TypeCodes are equivalent. Aliases that lead back to themselves are so with each other. -/
def Equivalent (g : Graph ν) (x y : ν) : Prop :=
  ∃ R : ν → ν → Prop, R x y ∧ ∀ a b, R a b →
    ((∀ a', ¬ g.Expands a a') ∧ ∀ b', ¬ g.Expands b b') ∨
      ∃ a' b', g.Expands a a' ∧ g.Expands b b' ∧ (g.node a').Alike R (g.node b')

lemma Equivalent.unfold (h : g.Equivalent x y) :
    ((∀ x', ¬ g.Expands x x') ∧ ∀ y', ¬ g.Expands y y') ∨
      ∃ x' y', g.Expands x x' ∧ g.Expands y y' ∧ (g.node x').Alike g.Equivalent (g.node y') := by
  obtain ⟨R, hxy, hR⟩ := h
  rcases hR x y hxy with h | ⟨x', y', hx, hy, h⟩
  · exact Or.inl h
  · exact Or.inr ⟨x', y', hx, hy, h.mono fun a b hab => ⟨R, hab, hR⟩⟩

lemma equivalent_iff (hx : g.Expands x x') (hy : g.Expands y y') :
    g.Equivalent x y ↔ (g.node x').Alike g.Equivalent (g.node y') := by
  constructor
  · intro h
    rcases h.unfold with ⟨hnone, -⟩ | ⟨x'', y'', hx', hy', h⟩
    · exact absurd hx (hnone x')
    · rwa [hx.unique hx', hy.unique hy']
  · intro h
    refine ⟨fun a b => (a = x ∧ b = y) ∨ g.Equivalent a b, Or.inl ⟨rfl, rfl⟩, ?_⟩
    rintro a b (⟨rfl, rfl⟩ | hab)
    · exact Or.inr ⟨x', y', hx, hy, h.mono fun _ _ => Or.inr⟩
    · rcases hab.unfold with h | ⟨a', b', ha, hb, h⟩
      · exact Or.inl h
      · exact Or.inr ⟨a', b', ha, hb, h.mono fun _ _ => Or.inr⟩

lemma equivalent_expanded (hx : g.Expands x x') (hy : g.Expands y y') :
    g.Equivalent x' y' ↔ g.Equivalent x y :=
  (equivalent_iff hx.self hy.self).trans (equivalent_iff hx hy).symm

lemma equivalent_refl (g : Graph ν) (x : ν) : g.Equivalent x x := by
  refine ⟨Eq, rfl, ?_⟩
  rintro a _ rfl
  by_cases h : ∃ a', g.Expands a a'
  · obtain ⟨a', ha⟩ := h
    exact Or.inr ⟨a', a', ha, ha, TypeCode.Alike.refl (fun _ => rfl) _⟩
  · push Not at h
    exact Or.inl ⟨h, h⟩

/-- Only what is behind the aliases matters. -/
lemma Equivalent.congr {a b : ν} (ha : ∀ z, g.Expands a z ↔ g.Expands x z)
    (hb : ∀ z, g.Expands b z ↔ g.Expands y z) (h : g.Equivalent x y) : g.Equivalent a b := by
  rcases h.unfold with ⟨hx, hy⟩ | ⟨x', y', hx, hy, h⟩
  · refine ⟨fun c d => c = a ∧ d = b, ⟨rfl, rfl⟩, ?_⟩
    rintro _ _ ⟨rfl, rfl⟩
    exact Or.inl ⟨fun z hz => hx z ((ha z).mp hz), fun z hz => hy z ((hb z).mp hz)⟩
  · exact (equivalent_iff ((ha x').mpr hx) ((hb y').mpr hy)).mpr h

/-! ### The chain of a comparison -/

/-- The contents of two sequences or arrays of the same length, behind the aliases. -/
def Follows (g : Graph ν) (p q : ν × ν) : Prop :=
  g.strip p.1 ≠ g.strip p.2 ∧ ∃ x' y', g.Expands p.1 x' ∧ g.Expands p.2 y' ∧
    ¬ (g.node x').HasId ∧ (g.node x').data = (g.node y').data ∧
    q ∈ (g.node x').children.zip (g.node y').children

/-- Pairs that come up after another. -/
def FollowsAfter (g : Graph ν) : ν × ν → ν × ν → Prop := Relation.ReflTransGen g.Follows

/-- The ids say something other than the structure, since one of them is empty. -/
def IdsConfused (g : Graph ν) (x' y' : ν) : Prop :=
  (g.node x').HasId ∧ (g.node x').kind = (g.node y').kind ∧
    ((g.node x').repoId = "" ∨ (g.node y').repoId = "") ∧
    ¬ ((g.node x').IdsMatch (g.node y') ↔ g.Equivalent x' y')

/-- What comes up is the same TypeCode, or has an end behind its aliases and ids that do not mislead. -/
def EquivalentFits (g : Graph ν) (x y : ν) : Prop :=
  ∀ q, g.FollowsAfter (x, y) q → g.strip q.1 = g.strip q.2 ∨
    ∃ x' y', g.Expands q.1 x' ∧ g.Expands q.2 y' ∧ ¬ g.IdsConfused x' y'

variable [DecidableEq ν]

omit [DecidableEq ν] in
lemma pairLast_map_stripPair {l : List (Obligation ν)} (h : PairLast l) :
    PairLast (l.map g.stripPair) := by
  induction l with
  | nil => trivial
  | cons p l ih =>
    cases p with
    | check b => exact ih h
    | pair a b =>
      obtain rfl : l = [] := h
      exact rfl

lemma pairLast_parts (g : Graph ν) (n : ℕ) (x y : ν) (l : List (Obligation ν))
    (h : g.parts true n x y = some l) : PairLast l := by
  rw [parts] at h
  by_cases hxy : x = y
  · rw [if_pos hxy] at h
    exact Option.some.inj h ▸ trivial
  · rw [if_neg hxy, if_pos rfl] at h
    obtain ⟨x', -, h⟩ := Option.bind_eq_some_iff.mp h
    obtain ⟨y', -, h⟩ := Option.bind_eq_some_iff.mp h
    exact Option.some.inj h ▸ pairLast_map_stripPair (TypeCode.pairLast_extendedEqual_true _ _)

/-- What is asked of two different TypeCodes that have an end behind their aliases. -/
lemma parts_of_expands (hne : g.strip x ≠ g.strip y) (hx : g.Expands x x') (hy : g.Expands y y') :
    ∃ n, g.parts true n (g.strip x) (g.strip y) =
      some (((g.node x').extendedEqual true (g.node y')).map g.stripPair) := by
  obtain ⟨n, hn⟩ := expands_strip.mpr hx
  obtain ⟨m, hm⟩ := expands_strip.mpr hy
  refine ⟨max n m, ?_⟩
  rw [parts, if_neg hne, if_pos rfl, expand_mono (le_max_left n m) hn,
    expand_mono (le_max_right n m) hm]
  rfl

lemma expands_of_parts {l : List (Obligation ν)} (hne : g.strip x ≠ g.strip y)
    (h : g.parts true n (g.strip x) (g.strip y) = some l) :
    ∃ x' y', g.Expands x x' ∧ g.Expands y y' ∧
      l = ((g.node x').extendedEqual true (g.node y')).map g.stripPair := by
  rw [parts, if_neg hne, if_pos rfl] at h
  obtain ⟨x', hx, h⟩ := Option.bind_eq_some_iff.mp h
  obtain ⟨y', hy, h⟩ := Option.bind_eq_some_iff.mp h
  exact ⟨x', y', expands_strip.mp ⟨n, hx⟩, expands_strip.mp ⟨n, hy⟩, (Option.some.inj h).symm⟩

/-- The pairs of TypeCodes without their indirections. -/
def stripped (g : Graph ν) (p : ν × ν) : ν × ν := (g.strip p.1, g.strip p.2)

lemma leads_of_follows (h : g.Follows p q) : Leads (g.parts true) (g.stripped p) (g.stripped q) := by
  obtain ⟨hne, x', y', hx, hy, hid, hdata, hmem⟩ := h
  obtain ⟨n, hn⟩ := parts_of_expands hne hx hy
  obtain ⟨hchecks, hpair⟩ :=
    (TypeCode.mem_extendedEqual_true hx.plain).mpr ⟨hid, hdata, hmem⟩
  refine ⟨n, _, hn, fun b hb => ?_, List.mem_map_of_mem (f := g.stripPair) hpair⟩
  obtain ⟨r, hr, heq⟩ := List.mem_map.mp hb
  cases r with
  | check c => exact Obligation.check.inj heq ▸ hchecks c hr
  | pair c d => cases heq

lemma follows_of_leads {q' : ν × ν} (h : Leads (g.parts true) (g.stripped p) q') :
    ∃ q, g.Follows p q ∧ q' = g.stripped q := by
  obtain ⟨n, l, hl, hchecks, hmem⟩ := h
  by_cases hne : g.strip p.1 = g.strip p.2
  · rw [stripped, parts, if_pos hne] at hl
    obtain rfl := Option.some.inj hl
    exact absurd hmem List.not_mem_nil
  · obtain ⟨x', y', hx, hy, rfl⟩ := expands_of_parts hne hl
    obtain ⟨r, hr, heq⟩ := List.mem_map.mp hmem
    cases r with
    | check c => cases heq
    | pair c d =>
      obtain ⟨h1, h2⟩ := Obligation.pair.inj heq
      obtain ⟨hid, hdata, hzip⟩ := (TypeCode.mem_extendedEqual_true hx.plain).mp
        ⟨fun b hb => hchecks b (List.mem_map_of_mem (f := g.stripPair) hb), hr⟩
      exact ⟨(c, d), ⟨hne, x', y', hx, hy, hid, hdata, hzip⟩, Prod.ext h1.symm h2.symm⟩

lemma reaches_of_followsAfter (h : g.FollowsAfter p q) :
    Library.Reaches (g.parts true) (g.stripped p) (g.stripped q) := by
  induction h with
  | refl => exact .refl
  | tail _ hlast ih => exact ih.tail (leads_of_follows hlast)

lemma followsAfter_of_reaches {q' : ν × ν} (h : Library.Reaches (g.parts true) (g.stripped p) q') :
    ∃ q, g.FollowsAfter p q ∧ q' = g.stripped q := by
  induction h with
  | refl => exact ⟨p, .refl, rfl⟩
  | tail _ hlast ih =>
    obtain ⟨q, hq, rfl⟩ := ih
    obtain ⟨q', hq', rfl⟩ := follows_of_leads hlast
    exact ⟨q', hq.tail hq', rfl⟩

omit [DecidableEq ν] in
/-- Sequences and arrays have one child. -/
lemma children_of_mem_zip {t u : TypeCode ν} {c d : ν} (hplain : t.IsPlain) (hid : ¬ t.HasId)
    (hdata : t.data = u.data) (h : (c, d) ∈ t.children.zip u.children) :
    t.children = [c] ∧ u.children = [d] := by
  have hmem := (TypeCode.mem_extendedEqual_true hplain).mpr ⟨hid, hdata, h⟩
  have hlength := TypeCode.length_children_of_compared (congrArg TypeCode.erase hdata)
  have hle : t.children.length ≤ 1 := by
    cases t with
    | objref | struct | except | enum | union | value | valueBox => exact absurd trivial hid
    | «alias» | indirect => exact hplain.elim
    | sequence | array => exact le_rfl
    | _ => exact Nat.zero_le 1
  obtain ⟨c', hc⟩ : ∃ c', t.children = [c'] := by
    refine List.length_eq_one_iff.mp (le_antisymm hle ?_)
    exact List.length_pos_of_mem (List.of_mem_zip h).1
  obtain ⟨d', hd⟩ : ∃ d', u.children = [d'] := List.length_eq_one_iff.mp (by rw [← hlength, hc]; rfl)
  rw [hc, hd] at h ⊢
  obtain ⟨rfl, rfl⟩ := Prod.mk.inj (List.mem_singleton.mp h)
  exact ⟨rfl, rfl⟩

omit [DecidableEq ν] in
/-- Without ids, equivalence is that of the contents. -/
lemma alike_iff_of_not_hasId {R : ν → ν → Prop} {t u : TypeCode ν} (hid : ¬ t.HasId)
    (hdata : t.data = u.data) : t.Alike R u ↔ List.Forall₂ R t.children u.children := by
  rw [TypeCode.Alike, if_neg fun h => h.1 (TypeCode.repoId_of_not_hasId hid)]
  exact and_iff_right (congrArg TypeCode.anonymous hdata)

omit [DecidableEq ν] in
lemma equivalent_iff_of_follows (h : g.Follows p q) :
    g.Equivalent p.1 p.2 ↔ g.Equivalent q.1 q.2 := by
  obtain ⟨-, x', y', hx, hy, hid, hdata, hmem⟩ := h
  obtain ⟨hc, hd⟩ := children_of_mem_zip hx.plain hid hdata hmem
  rw [equivalent_iff hx hy, alike_iff_of_not_hasId hid hdata, hc, hd, List.forall₂_cons]
  exact and_iff_left .nil

omit [DecidableEq ν] in
lemma equivalent_iff_of_followsAfter (h : g.FollowsAfter p q) :
    g.Equivalent p.1 p.2 ↔ g.Equivalent q.1 q.2 := by
  induction h with
  | refl => exact Iff.rfl
  | tail _ hlast ih => exact ih.trans (equivalent_iff_of_follows hlast)

lemma related_of_strip_eq (h : g.strip x = g.strip y) :
    Related (g.parts true) (g.strip x) (g.strip y) :=
  .of_parts (n := 0) (if_pos h) fun _ hp => absurd hp List.not_mem_nil

omit [DecidableEq ν] in
lemma equivalent_of_strip_eq (h : g.strip x = g.strip y) : g.Equivalent x y := by
  refine (equivalent_refl g (g.strip x)).congr (fun z => expands_strip.symm) fun z => ?_
  rw [h]
  exact expands_strip.symm

/-- Where nothing misleads, what `equivalent` finds is equivalent. -/
lemma equivalent_of_related (hfits : g.EquivalentFits x y)
    (h : Related (g.parts true) (g.strip x) (g.strip y)) : g.Equivalent x y := by
  refine ⟨fun a b => (g.FollowsAfter (x, y) (a, b) ∧
    Related (g.parts true) (g.strip a) (g.strip b)) ∨ g.Equivalent a b, Or.inl ⟨.refl, h⟩, ?_⟩
  rintro a b (⟨hafter, hrel⟩ | hab)
  · rcases hfits _ hafter with heq | ⟨a', b', ha, hb, hnot⟩
    · rcases (equivalent_of_strip_eq heq).unfold with hnone | ⟨a', b', ha, hb, h⟩
      · exact Or.inl hnone
      · exact Or.inr ⟨a', b', ha, hb, h.mono fun _ _ => Or.inr⟩
    · by_cases hne : g.strip a = g.strip b
      · have h := (equivalent_iff ha hb).mp (equivalent_of_strip_eq hne)
        exact Or.inr ⟨a', b', ha, hb, h.mono fun _ _ => Or.inr⟩
      · refine Or.inr ⟨a', b', ha, hb, ?_⟩
        obtain ⟨n, l, hl, hold⟩ := hrel.unfold
        obtain ⟨m, hm⟩ := parts_of_expands hne ha hb
        obtain rfl := (steady_parts g true).eq hl hm
        have hparts : ∀ p ∈ (g.node a').extendedEqual true (g.node b'),
            p.Holds fun c d => Related (g.parts true) (g.strip c) (g.strip d) := fun p hp =>
          holds_stripPair.mp (hold _ (List.mem_map_of_mem hp))
        by_cases hid : (g.node a').HasId
        · obtain ⟨hkind, hids⟩ := (TypeCode.extendedEqual_true_iff_of_hasId hid).mp hparts
          by_cases hboth : (g.node a').repoId ≠ "" ∧ (g.node b').repoId ≠ ""
          · rw [TypeCode.Alike, if_pos hboth]
            refine ⟨hkind, hids.resolve_right ?_⟩
            rintro ⟨-, ⟨h1, -⟩ | ⟨h2, -⟩⟩
            · exact hboth.1 h1
            · exact hboth.2 h2
          · have hempty : (g.node a').repoId = "" ∨ (g.node b').repoId = "" := by
              by_contra hnone
              exact hboth (not_or.mp hnone)
            have hiff : (g.node a').IdsMatch (g.node b') ↔ g.Equivalent a' b' := by
              by_contra hconfused
              exact hnot ⟨hid, hkind, hempty, hconfused⟩
            exact ((equivalent_iff ha.self hb.self).mp (hiff.mp hids)).mono fun _ _ => Or.inr
        · obtain ⟨hdata, hchildren⟩ :=
            (TypeCode.extendedEqual_true_iff_of_not_hasId ha.plain hid).mp hparts
          refine (alike_iff_of_not_hasId hid hdata).mpr (List.forall₂_iff_zip.mpr
            ⟨hchildren.length_eq, fun {c d} hcd => Or.inl ⟨?_, ?_⟩⟩)
          · exact hafter.tail ⟨hne, a', b', ha, hb, hid, hdata, hcd⟩
          · exact (List.forall₂_iff_zip.mp hchildren).2 hcd
  · rcases hab.unfold with hnone | ⟨a', b', ha, hb, h⟩
    · exact Or.inl hnone
    · exact Or.inr ⟨a', b', ha, hb, h.mono fun _ _ => Or.inr⟩

/-- Where nothing misleads, `equivalent` finds what is equivalent. -/
lemma related_of_equivalent (hfits : g.EquivalentFits x y) (h : g.Equivalent x y) :
    Related (g.parts true) (g.strip x) (g.strip y) := by
  refine ⟨fun a b => ∃ q, g.FollowsAfter (x, y) q ∧ g.Equivalent q.1 q.2 ∧ a = g.strip q.1 ∧
    b = g.strip q.2, ⟨(x, y), .refl, h, rfl, rfl⟩, ?_⟩
  rintro _ _ ⟨q, hafter, hq, rfl, rfl⟩
  by_cases hne : g.strip q.1 = g.strip q.2
  · exact ⟨0, [], if_pos hne, fun _ hp => absurd hp List.not_mem_nil⟩
  · obtain ⟨a', b', ha, hb, hnot⟩ := (hfits q hafter).resolve_left hne
    obtain ⟨n, hn⟩ := parts_of_expands hne ha hb
    refine ⟨n, _, hn, fun p hp => ?_⟩
    obtain ⟨r, hr, rfl⟩ := List.mem_map.mp hp
    refine holds_stripPair.mpr ?_
    have halike := (equivalent_iff ha hb).mp hq
    by_cases hid : (g.node a').HasId
    · refine (TypeCode.extendedEqual_true_iff_of_hasId hid).mpr ?_ r hr
      by_cases hboth : (g.node a').repoId ≠ "" ∧ (g.node b').repoId ≠ ""
      · rw [TypeCode.Alike, if_pos hboth] at halike
        exact ⟨halike.1, Or.inl halike.2⟩
      · rw [TypeCode.Alike, if_neg hboth] at halike
        have hkind := TypeCode.kind_of_shape halike.1
        refine ⟨hkind, ?_⟩
        have hempty : (g.node a').repoId = "" ∨ (g.node b').repoId = "" := by
          by_contra hnone
          exact hboth (not_or.mp hnone)
        by_contra hids
        refine hnot ⟨hid, hkind, hempty, fun hiff => hids (hiff.mpr ?_)⟩
        exact (equivalent_expanded ha hb).mpr hq
    · have hshape : (g.node a').shape = (g.node b').shape ∧
          List.Forall₂ g.Equivalent (g.node a').children (g.node b').children := by
        rw [TypeCode.Alike, if_neg fun h => h.1 (TypeCode.repoId_of_not_hasId hid)] at halike
        exact halike
      have hdata := TypeCode.data_of_shape ha.plain hid hshape.1
      refine (TypeCode.extendedEqual_true_iff_of_not_hasId ha.plain hid).mpr ⟨hdata, ?_⟩ r hr
      refine List.forall₂_iff_zip.mpr ⟨hshape.2.length_eq, fun {c d} hcd => ?_⟩
      exact ⟨(c, d), hafter.tail ⟨hne, a', b', ha, hb, hid, hdata, hcd⟩,
        (List.forall₂_iff_zip.mp hshape.2).2 hcd, rfl, rfl⟩

/-- `equivalent` returns and is right exactly when nothing misleads. -/
lemma equivalent_right_iff [Fintype ν] :
    (∃ n r, g.equivalent n x y = some r ∧ (r = true ↔ g.Equivalent x y)) ↔ g.EquivalentFits x y := by
  have hreturns := compareNodes_returns_iff (x := g.strip x) (y := g.strip y) (pairLast_parts g)
    (steady_parts g true)
  have hcompare : ∀ n r, g.equivalent n x y = some r →
      (r = true ↔ Related (g.parts true) (g.strip x) (g.strip y)) := by
    intro n r hr
    rw [equivalent, npEqual_eq] at hr
    exact compareNodes_iff (steady_parts g true) hr
  constructor
  · rintro ⟨n, r, hr, hiff⟩ q hq
    by_cases hne : g.strip q.1 = g.strip q.2
    · exact Or.inl hne
    · right
      have hreaches : Library.Reaches (g.parts true) (g.strip x, g.strip y) (g.stripped q) :=
        reaches_of_followsAfter hq
      have hcode : g.npEqual true n [] x y = some r := hr
      rw [npEqual_eq] at hcode
      obtain ⟨m, l, hl⟩ := hreturns.mp ⟨n, r, hcode⟩ _ hreaches
      obtain ⟨x', y', hx, hy, rfl⟩ := expands_of_parts hne hl
      refine ⟨x', y', hx, hy, ?_⟩
      rintro ⟨hid, hkind, -, hconfused⟩
      apply hconfused
      have hrelated : Related (g.parts true) (g.strip q.1) (g.strip q.2) ↔
          (g.node x').IdsMatch (g.node y') := by
        constructor
        · intro h
          obtain ⟨k, l', hl', hold⟩ := h.unfold
          obtain rfl := (steady_parts g true).eq hl hl'
          exact ((TypeCode.extendedEqual_true_iff_of_hasId hid).mp fun p hp =>
            holds_stripPair.mp (hold _ (List.mem_map_of_mem hp))).2
        · intro h
          refine .of_parts hl fun p hp => ?_
          obtain ⟨r, hr, rfl⟩ := List.mem_map.mp hp
          exact holds_stripPair.mpr
            ((TypeCode.extendedEqual_true_iff_of_hasId hid).mpr ⟨hkind, h⟩ r hr)
      have hchain := related_iff_of_reaches (pairLast_parts g) (steady_parts g true) hreaches
      rw [← hrelated, equivalent_expanded hx hy, ← equivalent_iff_of_followsAfter hq, ← hiff,
        hcompare n r hr]
      exact hchain.symm
  · intro hfits
    have hends : ∀ q, Library.Reaches (g.parts true) (g.strip x, g.strip y) q →
        ∃ n l, g.parts true n q.1 q.2 = some l := by
      intro q hq
      obtain ⟨q, hafter, rfl⟩ := followsAfter_of_reaches (p := (x, y)) hq
      by_cases hne : g.strip q.1 = g.strip q.2
      · exact ⟨0, [], if_pos hne⟩
      · obtain ⟨x', y', hx, hy, -⟩ := (hfits q hafter).resolve_left hne
        obtain ⟨n, hn⟩ := parts_of_expands hne hx hy
        exact ⟨n, _, hn⟩
    obtain ⟨n, r, hr⟩ := hreturns.mpr hends
    have hr' : g.equivalent n x y = some r := by
      rw [equivalent, npEqual_eq]
      exact hr
    exact ⟨n, r, hr', (hcompare n r hr').trans
      ⟨equivalent_of_related hfits, related_of_equivalent hfits⟩⟩

/-! ### Equal TypeCodes are equivalent -/

omit [DecidableEq ν] in
lemma same_of_tc_eq (h : g.tc x = g.tc y) : g.Same x y := by
  refine ⟨fun a b => g.tc a = g.tc b, h, fun a b hab => ?_⟩
  dsimp only at hab ⊢
  rw [hab]
  exact ⟨rfl, List.forall₂_same.mpr fun _ _ => rfl⟩

omit [DecidableEq ν] in
lemma tc_of_plain (h : (g.node x).IsPlain) : g.tc x = g.node x := by
  rw [tc, strip_of_not_indirect]
  cases hx : g.node x with
  | indirect =>
    rw [hx] at h
    exact absurd h id
  | _ => exact id

omit [DecidableEq ν] in
/-- What is the same as an alias is one, of the same. -/
lemma Same.alias {i name : String} {c : ν} (h : g.Same x y) (hx : g.tc x = .alias i name c) :
    ∃ d, g.tc y = .alias i name d ∧ g.Same c d := by
  obtain ⟨hdata, hchildren⟩ := h.unfold
  rw [hx] at hdata hchildren
  cases hy : g.tc y with
  | «alias» id' name' d =>
    rw [hy] at hdata hchildren
    cases hdata
    exact ⟨d, rfl, (List.forall₂_cons.mp hchildren).1⟩
  | _ =>
    rw [hy] at hdata
    cases hdata

omit [DecidableEq ν] in
lemma Same.expands (h : g.Same x y) (hx : g.Expands x x') :
    ∃ y', g.Expands y y' ∧ g.Same x' y' := by
  obtain ⟨n, hn⟩ := hx
  induction n generalizing x y with
  | zero => cases hn
  | succ n ih =>
    rw [expand] at hn
    cases hx : g.node x with
    | indirect z =>
      rw [hx] at hn
      have hstrip : g.strip x = z := by rw [strip, hx]
      have htc : g.tc z = g.tc x := by rw [tc, tc, ← hstrip, strip_strip]
      exact ih ((same_of_tc_eq htc).trans h) hn
    | «alias» i name c =>
      rw [hx] at hn
      have htc : g.tc x = .alias i name c := by
        rw [tc, strip_of_not_indirect (by rw [hx]; exact id), hx]
      obtain ⟨d, hy, hcd⟩ := h.alias htc
      obtain ⟨y', hd, hsame⟩ := ih hcd hn
      exact ⟨y', expands_strip.mp ((expands_alias hy).mpr hd), hsame⟩
    | _ =>
      rw [hx] at hn
      obtain rfl := Option.some.inj hn
      have hplain : (g.tc y).IsPlain := by
        have hdata := h.unfold.1
        rw [tc_of_plain (by rw [hx]; trivial), hx] at hdata
        cases hy : g.tc y with
        | «alias» | indirect =>
          rw [hy] at hdata
          cases hdata
        | _ => trivial
      refine ⟨g.strip y, expands_strip.mp (expands_of_plain hplain), h.trans (same_of_tc_eq ?_)⟩
      rw [tc, tc, strip_strip]

omit [DecidableEq ν] in
/-- TypeCodes that are the same are equivalent. -/
lemma Same.equivalent (h : g.Same x y) : g.Equivalent x y := by
  refine ⟨g.Same, h, fun a b hab => ?_⟩
  by_cases ha : ∃ a', g.Expands a a'
  · obtain ⟨a', ha⟩ := ha
    obtain ⟨b', hb, hsame⟩ := hab.expands ha
    refine Or.inr ⟨a', b', ha, hb, ?_⟩
    obtain ⟨hdata, hchildren⟩ := hsame.unfold
    rw [tc_of_plain ha.plain, tc_of_plain hb.plain] at hdata hchildren
    rw [TypeCode.Alike]
    split_ifs
    · exact ⟨congrArg TypeCode.bare hdata, TypeCode.repoId_of_data hdata⟩
    · exact ⟨congrArg TypeCode.anonymous hdata, hchildren⟩
  · push Not at ha
    refine Or.inl ⟨ha, fun b' hb => ?_⟩
    obtain ⟨a', ha', -⟩ := Same.expands (SameTree.symm hab) hb
    exact ha a' ha'

/-! ### The comparisons -/

/-- Both comparisons return, and say what they should. -/
structure ComparesRight (g : Graph ν) (x y : ν) : Prop where
  equal : ∃ n r, g.equal n x y = some r ∧ (r = true ↔ g.Same x y)
  equivalent : ∃ n r, g.equivalent n x y = some r ∧ (r = true ↔ g.Equivalent x y)

/-- When both comparisons are right. -/
structure ComparisonFits (g : Graph ν) (x y : ν) : Prop where
  equal : g.EqualFits x y
  equivalent : g.EquivalentFits x y

end Graph

/-- Being the same is an equivalence relation, and implies being equivalent; and the comparisons find
them out exactly when nothing that is not compared, no empty id and no endless alias misleads them. -/
theorem type_codes_compared_right {ν : Type} [DecidableEq ν] [Fintype ν] (g : Graph ν) :
    Equivalence g.Same ∧ (∀ x y, g.Same x y → g.Equivalent x y) ∧
      ∀ x y, g.ComparesRight x y ↔ g.ComparisonFits x y := by
  refine ⟨equivalence_sameTree _ _, fun x y h => h.equivalent, fun x y => ⟨fun h => ?_, fun h => ?_⟩⟩
  · exact ⟨Graph.equal_right_iff.mp h.equal, Graph.equivalent_right_iff.mp h.equivalent⟩
  · exact ⟨Graph.equal_right_iff.mpr h.equal, Graph.equivalent_right_iff.mpr h.equivalent⟩

/-- Two interfaces that have the name in common. -/
def sampleInterface (b : Bool) : TypeCode Bool :=
  .objref .objref (if b then "IDL:A/I:1.0" else "IDL:B/I:1.0") "I"

lemma sampleInterface_resolved (x y z : Bool) (h : sampleInterface x = .indirect y) :
    sampleInterface y ≠ .indirect z := by
  cases h

def sampleInterfaces : Graph Bool := ⟨sampleInterface, sampleInterface_resolved⟩

/-- Interfaces with different ids are found equal, because their names are. -/
theorem interfaces_found_equal :
    sampleInterfaces.equal 1 true false = some true ∧ ¬ sampleInterfaces.Same true false ∧
      ¬ ∀ x y, sampleInterfaces.ComparesRight x y := by
  have hequal : sampleInterfaces.equal 1 true false = some true := by decide
  have hsame : ¬ sampleInterfaces.Same true false := by
    intro h
    exact absurd h.unfold.1 (by decide)
  refine ⟨hequal, hsame, fun h => ?_⟩
  obtain ⟨n, r, hr, hiff⟩ := (h true false).equal
  exact hsame (hiff.mp ((Graph.equal_iff hr).mpr ((Graph.equal_iff hequal).mp rfl)))

end TypeCodes

end OmniORB
