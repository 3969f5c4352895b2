import OmniORB.TypeCodes.Graphs

/-!
# Equal TypeCodes

What `equal` finds: TypeCodes that unfold to the same tree, apart from what it does not compare.
-/

namespace OmniORB

open Library

namespace TypeCodes

variable {ν μ : Type}

/-! ### The contents of a TypeCode -/

namespace TypeCode

/-- The TypeCodes that a TypeCode refers to. -/
def children : TypeCode ν → List ν
  | .alias _ _ content | sequence _ content | array _ content | valueBox _ _ content | indirect content =>
    [content]
  | struct _ _ members | except _ _ members => members.map Member.type
  | union _ _ discrim _ members => discrim :: members.map UnionMember.type
  | value _ _ _ base members => base :: members.map ValueMember.type
  | _ => []

/-- A member of a union without its type, and without its label if it is the default. -/
def unionMemberData (default : ℤ) (m : UnionMember ν × ℕ) : UnionMember Unit :=
  ⟨m.1.name, if (m.2 : ℤ) = default then 0 else m.1.label, ()⟩

/-- Everything that a TypeCode says, apart from the TypeCodes that it refers to. -/
def data : TypeCode ν → TypeCode Unit
  | simple kind => simple kind
  | string length => string length
  | wstring length => wstring length
  | fixed digits scale => fixed digits scale
  | objref kind id name => objref kind id name
  | .alias id name _ => .alias id name ()
  | sequence length _ => sequence length ()
  | array length _ => array length ()
  | struct id name members => struct id name (members.map fun m => ⟨m.name, ()⟩)
  | except id name members => except id name (members.map fun m => ⟨m.name, ()⟩)
  | enum id name members => enum id name members
  | union id name _ default members =>
    union id name () (if 0 ≤ default then default else -1) (members.zipIdx.map (unionMemberData default))
  | value id name modifier _ members =>
    value id name modifier () (members.map fun m => ⟨m.name, (), m.access⟩)
  | valueBox id name _ => valueBox id name ()
  | indirect _ => indirect ()

/-- Without what `equal` does not compare: the ids of interfaces, and the names of aliases and of value
boxes. -/
def erase : TypeCode Unit → TypeCode Unit
  | objref kind _ name => objref kind "" name
  | .alias id _ content => .alias id "" content
  | valueBox id _ boxed => valueBox id "" boxed
  | t => t

/-- Everything that `equal` compares. -/
def compared (t : TypeCode ν) : TypeCode Unit := t.data.erase

lemma length_children_data (t : TypeCode ν) : t.data.children.length = t.children.length := by
  cases t <;> simp [data, children]

lemma length_children_erase (t : TypeCode Unit) : t.erase.children.length = t.children.length := by
  cases t <;> rfl

lemma length_children_of_compared {t u : TypeCode ν} (h : t.compared = u.compared) :
    t.children.length = u.children.length := by
  rw [← length_children_data t, ← length_children_data u, ← length_children_erase t.data,
    ← length_children_erase u.data]
  exact congrArg (fun t => t.children.length) h

/-- Nothing but the place of a TypeCode. -/
def IsIndirect : TypeCode ν → Prop
  | indirect _ => True
  | _ => False

/-! ### What `equal` compares -/

section

variable {R : ν → ν → Prop}

lemma memberParts_iff {β : Type} {f : β → β → List (Obligation ν)} {l l' : List β} :
    (l.length = l'.length ∧ ∀ p ∈ memberParts f l l', p.Holds R) ↔
      List.Forall₂ (fun a b => ∀ p ∈ f a b, p.Holds R) l l' := by
  rw [List.forall₂_iff_zip]
  refine and_congr_right fun _ => ?_
  rw [memberParts, List.forall_mem_flatMap]
  exact ⟨fun h a b hab => h (a, b) hab, fun h p hp => h hp⟩

lemma members_iff (members members' : List (Member ν)) :
    (members.length = members'.length ∧
      ∀ p ∈ memberParts (fun m m' => [.check (m.name = m'.name), .pair m.type m'.type]) members members',
        p.Holds R) ↔
      (members.map fun m => (⟨m.name, ()⟩ : Member Unit)) = (members'.map fun m => ⟨m.name, ()⟩) ∧
        List.Forall₂ R (members.map Member.type) (members'.map Member.type) := by
  rw [memberParts_iff, ← forall₂_map_and]
  simp

lemma enumMembers_iff (members members' : List String) :
    (members.length = members'.length ∧
      ∀ p ∈ memberParts (ν := ν) (fun m m' => [.check (m = m')]) members members', p.Holds R) ↔
      members = members' := by
  rw [memberParts_iff]
  simp

lemma valueMembers_iff (members members' : List (ValueMember ν)) :
    (members.length = members'.length ∧
      ∀ p ∈ memberParts (fun m m' => [.check (m.access = m'.access), .check (m.name = m'.name),
        .pair m.type m'.type]) members members', p.Holds R) ↔
      (members.map fun m => (⟨m.name, (), m.access⟩ : ValueMember Unit)) =
          (members'.map fun m => ⟨m.name, (), m.access⟩) ∧
        List.Forall₂ R (members.map ValueMember.type) (members'.map ValueMember.type) := by
  rw [memberParts_iff, ← forall₂_map_and]
  simp [and_assoc, and_left_comm]

/-- With the defaults of both unions the same, the labels of the others decide. -/
lemma unionMembers_iff {default default' : ℤ} (members members' : List (UnionMember ν)) {k : ℕ}
    (hdefault : ∀ i : ℕ, (i : ℤ) = default ↔ (i : ℤ) = default') :
    ((members.zipIdx k).length = (members'.zipIdx k).length ∧
      ∀ p ∈ memberParts (fun m m' => [.check ((m.2 : ℤ) = default ∨ m.1.label = m'.1.label),
        .pair m.1.type m'.1.type, .check (m.1.name = m'.1.name)]) (members.zipIdx k) (members'.zipIdx k),
        p.Holds R) ↔
      (members.zipIdx k).map (unionMemberData default) =
          (members'.zipIdx k).map (unionMemberData default') ∧
        List.Forall₂ R (members.map UnionMember.type) (members'.map UnionMember.type) := by
  rw [memberParts_iff]
  induction members generalizing members' k with
  | nil =>
    cases members' with
    | nil => simp
    | cons m' members' => simp
  | cons m members ih =>
    cases members' with
    | nil => simp
    | cons m' members' =>
      have hlabel : ((k : ℤ) = default ∨ m.label = m'.label) ↔
          (if (k : ℤ) = default then 0 else m.label) = if (k : ℤ) = default' then 0 else m'.label := by
        by_cases hk : (k : ℤ) = default
        · rw [if_pos hk, if_pos ((hdefault k).mp hk)]
          simp [hk]
        · rw [if_neg hk, if_neg fun h => hk ((hdefault k).mpr h)]
          simp [hk]
      simp only [List.zipIdx_cons, List.forall₂_cons, ih, List.map_cons, List.cons.injEq,
        unionMemberData, UnionMember.mk.injEq, ← hlabel]
      simp
      tauto

lemma default_iff {default default' : ℤ} :
    (default = default' ∨ ¬ (0 ≤ default ∨ 0 ≤ default')) ↔
      (if 0 ≤ default then default else -1) = if 0 ≤ default' then default' else -1 := by
  split_ifs <;> omega

lemma index_iff_of_default {default default' : ℤ}
    (h : default = default' ∨ ¬ (0 ≤ default ∨ 0 ≤ default')) (i : ℕ) :
    (i : ℤ) = default ↔ (i : ℤ) = default' := by
  rcases h with rfl | h
  · exact Iff.rfl
  · omega

/-- TypeCodes of different kinds. -/
lemma extendedEqual_iff_of_ne {t u : TypeCode ν} (h : t.extendedEqual false u = [.check false])
    (hne : t.compared ≠ u.compared) :
    (∀ p ∈ t.extendedEqual false u, p.Holds R) ↔
      t.compared = u.compared ∧ List.Forall₂ R t.children u.children := by
  rw [h]
  exact iff_of_false (fun hall => Bool.false_ne_true (hall _ List.mem_cons_self)) fun h => hne h.1

/-- `equal` compares what is to be compared, and the TypeCodes that are referred to. -/
lemma extendedEqual_iff {t u : TypeCode ν} (ht : ¬ t.IsIndirect) :
    (∀ p ∈ t.extendedEqual false u, p.Holds R) ↔
      t.compared = u.compared ∧ List.Forall₂ R t.children u.children := by
  cases t with
  | indirect r => exact absurd trivial ht
  | simple kind =>
    cases u with
    | simple kind' => simp [extendedEqual, compared, data, erase, children]
    | _ => exact extendedEqual_iff_of_ne rfl fun h => by cases h
  | string length =>
    cases u with
    | string length' => simp [extendedEqual, compared, data, erase, children]
    | _ => exact extendedEqual_iff_of_ne rfl fun h => by cases h
  | wstring length =>
    cases u with
    | wstring length' => simp [extendedEqual, compared, data, erase, children]
    | _ => exact extendedEqual_iff_of_ne rfl fun h => by cases h
  | fixed digits scale =>
    cases u with
    | fixed digits' scale' => simp [extendedEqual, compared, data, erase, children]
    | _ => exact extendedEqual_iff_of_ne rfl fun h => by cases h
  | objref kind id name =>
    cases u with
    | objref kind' id' name' => simp [extendedEqual, compared, data, erase, children]
    | _ => exact extendedEqual_iff_of_ne rfl fun h => by cases h
  | «alias» id name content =>
    cases u with
    | «alias» id' name' content' => simp [extendedEqual, compared, data, erase, children]
    | _ => exact extendedEqual_iff_of_ne rfl fun h => by cases h
  | sequence length content =>
    cases u with
    | sequence length' content' => simp [extendedEqual, compared, data, erase, children]
    | _ => exact extendedEqual_iff_of_ne rfl fun h => by cases h
  | array length content =>
    cases u with
    | array length' content' => simp [extendedEqual, compared, data, erase, children]
    | _ => exact extendedEqual_iff_of_ne rfl fun h => by cases h
  | valueBox id name boxed =>
    cases u with
    | valueBox id' name' boxed' => simp [extendedEqual, compared, data, erase, children]
    | _ => exact extendedEqual_iff_of_ne rfl fun h => by cases h
  | struct id name members =>
    cases u with
    | struct id' name' members' =>
      have := members_iff (R := R) members members'
      simp [extendedEqual, compared, data, erase, children] at this ⊢
      tauto
    | _ => exact extendedEqual_iff_of_ne rfl fun h => by cases h
  | except id name members =>
    cases u with
    | except id' name' members' =>
      have := members_iff (R := R) members members'
      simp [extendedEqual, compared, data, erase, children] at this ⊢
      tauto
    | _ => exact extendedEqual_iff_of_ne rfl fun h => by cases h
  | enum id name members =>
    cases u with
    | enum id' name' members' =>
      have := enumMembers_iff (R := R) members members'
      simp [extendedEqual, compared, data, erase, children] at this ⊢
      tauto
    | _ => exact extendedEqual_iff_of_ne rfl fun h => by cases h
  | value id name modifier base members =>
    cases u with
    | value id' name' modifier' base' members' =>
      have := valueMembers_iff (R := R) members members'
      simp [extendedEqual, compared, data, erase, children, or_imp, forall_and] at this ⊢
      tauto
    | _ => exact extendedEqual_iff_of_ne rfl fun h => by cases h
  | union id name discrim default members =>
    cases u with
    | union id' name' discrim' default' members' =>
      by_cases hdefault : default = default' ∨ ¬ (0 ≤ default ∨ 0 ≤ default')
      · have hindex := index_iff_of_default hdefault
        have := unionMembers_iff (R := R) members members' (k := 0) hindex
        have hnormal := default_iff.mp hdefault
        have hdefault' : default = default' ∨ default < 0 ∧ default' < 0 := by omega
        simp [extendedEqual, compared, data, erase, children, hnormal, hdefault'] at this ⊢
        tauto
      · refine iff_of_false (fun hall => hdefault ?_) fun h => hdefault (default_iff.mpr ?_)
        · simpa [extendedEqual] using (hall (.check (default = default' ∨ ¬ (0 ≤ default ∨ 0 ≤ default')))
            (by simp [extendedEqual]))
        · exact (TypeCode.union.inj h.1).2.2.2.1
    | _ => exact extendedEqual_iff_of_ne rfl fun h => by cases h

end

end TypeCode

/-! ### The comparison as one of graphs -/

namespace Graph

variable {g : Graph ν} {x y : ν} {n : ℕ}

/-- The TypeCode of that name. -/
def tc (g : Graph ν) (x : ν) : TypeCode ν := g.node (g.strip x)

lemma tc_not_indirect (g : Graph ν) (x : ν) : ¬ (g.tc x).IsIndirect := by
  rw [tc, strip]
  cases hx : g.node x with
  | indirect y =>
    dsimp only
    cases hy : g.node y with
    | indirect z => exact absurd hy (g.resolved x y z hx)
    | _ => exact id
  | _ =>
    dsimp only
    rw [hx]
    exact id

lemma strip_of_not_indirect (h : ¬ (g.node x).IsIndirect) : g.strip x = x := by
  rw [strip]
  cases hx : g.node x with
  | indirect y => exact absurd (hx ▸ trivial) h
  | _ => rfl

lemma strip_strip (g : Graph ν) (x : ν) : g.strip (g.strip x) = g.strip x :=
  strip_of_not_indirect (g.tc_not_indirect x)

/-- The TypeCodes of an obligation, without their indirections. -/
def stripPair (g : Graph ν) : Obligation ν → Obligation ν
  | .check b => .check b
  | .pair x y => .pair (g.strip x) (g.strip y)

lemma holdAll_map_stripPair (f : ν → ν → Option Bool) (l : List (Obligation ν)) :
    holdAll f (l.map g.stripPair) = holdAll (fun x y => f (g.strip x) (g.strip y)) l := by
  induction l with
  | nil => rfl
  | cons p l ih =>
    cases p with
    | check b => exact if_congr Iff.rfl ih rfl
    | pair x y => exact congrArg _ (funext fun b => if_congr Iff.rfl ih rfl)

lemma holds_stripPair {R : ν → ν → Prop} {p : Obligation ν} :
    (g.stripPair p).Holds R ↔ p.Holds fun x y => R (g.strip x) (g.strip y) := by
  cases p with
  | check b => exact Iff.rfl
  | pair x y => exact Iff.rfl

variable [DecidableEq ν]

/-- What `NP_equal` asks of two TypeCodes that are no indirections. -/
def parts (g : Graph ν) (isEquivalent : Bool) (n : ℕ) (x y : ν) : Option (List (Obligation ν)) :=
  if x = y then some []
  else if isEquivalent then
    (g.expand n x).bind fun x' => (g.expand n y).bind fun y' =>
      some (((g.node x').extendedEqual true (g.node y')).map g.stripPair)
  else some (((g.node x).extendedEqual false (g.node y)).map g.stripPair)

lemma npEqual_eq (isEquivalent : Bool) (tcpl : List (ν × ν)) :
    g.npEqual isEquivalent n tcpl x y =
      compareNodes (g.parts isEquivalent) n tcpl (g.strip x) (g.strip y) := by
  induction n generalizing x y tcpl with
  | zero => rfl
  | succ n ih =>
    rw [npEqual, compareNodes, parts]
    by_cases hseen : (g.strip x, g.strip y) ∈ tcpl
    · rw [if_pos hseen, if_pos hseen, ite_self]
    · rw [if_neg hseen, if_neg hseen]
      by_cases hxy : g.strip x = g.strip y
      · rw [if_pos hxy, if_pos hxy]
        rfl
      · rw [if_neg hxy, if_neg hxy]
        have hih : (fun a b => compareNodes (g.parts isEquivalent) n ((g.strip x, g.strip y) :: tcpl)
            (g.strip a) (g.strip b)) = g.npEqual isEquivalent n ((g.strip x, g.strip y) :: tcpl) := by
          funext a b
          exact (ih _).symm
        cases isEquivalent with
        | true =>
          rw [if_pos rfl, if_pos rfl, Option.bind_assoc]
          refine congrArg _ (funext fun x' => ?_)
          rw [Option.bind_assoc]
          refine congrArg _ (funext fun y' => ?_)
          rw [Option.bind_some, holdAll_map_stripPair, hih]
        | false =>
          rw [if_neg Bool.false_ne_true, if_neg Bool.false_ne_true, Option.bind_some,
            holdAll_map_stripPair, hih]

omit [DecidableEq ν] in
lemma expand_mono {m : ℕ} {x' : ν} (hnm : n ≤ m) (h : g.expand n x = some x') :
    g.expand m x = some x' := by
  induction n generalizing m x with
  | zero => cases h
  | succ n ih =>
    obtain ⟨m, rfl⟩ := Nat.exists_eq_add_of_le hnm
    rw [Nat.add_right_comm]
    rw [expand] at h ⊢
    cases hx : g.node x with
    | «alias» _ _ content =>
      rw [hx] at h
      exact ih (Nat.le_add_right n m) h
    | indirect y =>
      rw [hx] at h
      exact ih (Nat.le_add_right n m) h
    | _ =>
      rw [hx] at h
      exact h

lemma steady_parts (g : Graph ν) (isEquivalent : Bool) : Steady (g.parts isEquivalent) := by
  intro n m x y l hnm h
  rw [parts] at h ⊢
  by_cases hxy : x = y
  · rw [if_pos hxy] at h ⊢
    exact h
  · rw [if_neg hxy] at h ⊢
    cases isEquivalent with
    | false => exact h
    | true =>
      rw [if_pos rfl] at h ⊢
      obtain ⟨x', hx, h⟩ := Option.bind_eq_some_iff.mp h
      obtain ⟨y', hy, h⟩ := Option.bind_eq_some_iff.mp h
      exact Option.bind_eq_some_iff.mpr ⟨x', expand_mono hnm hx,
        Option.bind_eq_some_iff.mpr ⟨y', expand_mono hnm hy, h⟩⟩

/-! ### `equal` -/

/-- The TypeCodes unfold to the same in everything. -/
def Same (g : Graph ν) : ν → ν → Prop := SameTree (fun x => (g.tc x).data) fun x => (g.tc x).children

/-- The TypeCodes unfold to the same in everything that is compared. -/
def SameCompared (g : Graph ν) : ν → ν → Prop :=
  SameTree (fun x => (g.tc x).compared) fun x => (g.tc x).children

omit [DecidableEq ν] in
lemma Same.unfold (h : g.Same x y) :
    (g.tc x).data = (g.tc y).data ∧ List.Forall₂ g.Same (g.tc x).children (g.tc y).children :=
  SameTree.unfold h

/-- TypeCodes at the same place of two. -/
def Corresponds (g : Graph ν) : ν × ν → ν × ν → Prop := SamePlace fun x => (g.tc x).children

lemma parts_equal_self (x : ν) : Related (g.parts false) x x :=
  .of_parts (n := 0) (if_pos rfl) fun _ hp => absurd hp List.not_mem_nil

lemma related_iff_sameCompared :
    Related (g.parts false) (g.strip x) (g.strip y) ↔ g.SameCompared x y := by
  constructor
  · intro h
    refine ⟨fun a b => Related (g.parts false) (g.strip a) (g.strip b), h, fun a b hab => ?_⟩
    by_cases heq : g.strip a = g.strip b
    · have htc : g.tc a = g.tc b := congrArg g.node heq
      dsimp only
      rw [htc]
      exact ⟨rfl, List.forall₂_same.mpr fun c _ => parts_equal_self _⟩
    · obtain ⟨n, l, hl, hold⟩ := hab.unfold
      rw [parts, if_neg heq] at hl
      obtain rfl := Option.some.inj hl
      refine (TypeCode.extendedEqual_iff (g.tc_not_indirect a)).mp fun p hp => ?_
      exact holds_stripPair.mp (hold _ (List.mem_map_of_mem hp))
  · intro h
    refine ⟨fun a b => ∃ x y, g.strip x = a ∧ g.strip y = b ∧ g.SameCompared x y,
      ⟨x, y, rfl, rfl, h⟩, ?_⟩
    rintro _ _ ⟨x, y, rfl, rfl, h⟩
    by_cases heq : g.strip x = g.strip y
    · exact ⟨0, [], by rw [parts, if_pos heq], fun _ hp => absurd hp List.not_mem_nil⟩
    · refine ⟨0, _, by rw [parts, if_neg heq]; rfl, fun p hp => ?_⟩
      obtain ⟨p', hp', rfl⟩ := List.mem_map.mp hp
      have := (TypeCode.extendedEqual_iff (g.tc_not_indirect x)).mpr (SameTree.unfold h) p' hp'
      exact holds_stripPair.mpr (this.mono fun a b hab => ⟨a, b, rfl, rfl, hab⟩)

lemma equal_returns [Fintype ν] (g : Graph ν) (x y : ν) : ∃ n r, g.equal n x y = some r := by
  simp only [equal, npEqual_eq]
  refine compareNodes_returns (steady_parts g false) (P := fun _ _ => True) (fun a b _ => ?_) trivial
  by_cases hab : a = b
  · exact ⟨0, [], if_pos hab, fun _ _ _ => trivial⟩
  · exact ⟨0, _, if_neg hab, fun _ _ _ => trivial⟩

lemma equal_iff {r : Bool} (h : g.equal n x y = some r) : r = true ↔ g.SameCompared x y := by
  rw [equal, npEqual_eq] at h
  exact (compareNodes_iff (steady_parts g false) h).trans related_iff_sameCompared

/-- The TypeCodes differ, but not in what is compared. -/
def Confused (g : Graph ν) (q : ν × ν) : Prop :=
  (g.tc q.1).compared = (g.tc q.2).compared ∧ (g.tc q.1).data ≠ (g.tc q.2).data

/-- TypeCodes at the same place do not differ only in what is not compared; unless others differ. -/
def EqualFits (g : Graph ν) (x y : ν) : Prop :=
  (∀ q, g.Corresponds (x, y) q → ¬ g.Confused q) ∨
    ∃ q, g.Corresponds (x, y) q ∧ (g.tc q.1).compared ≠ (g.tc q.2).compared

omit [DecidableEq ν] in
lemma same_iff : g.Same x y ↔ ∀ q, g.Corresponds (x, y) q → (g.tc q.1).data = (g.tc q.2).data :=
  sameTree_iff fun _ _ h => TypeCode.length_children_of_compared (congrArg TypeCode.erase h)

omit [DecidableEq ν] in
lemma sameCompared_iff :
    g.SameCompared x y ↔ ∀ q, g.Corresponds (x, y) q → (g.tc q.1).compared = (g.tc q.2).compared :=
  sameTree_iff fun _ _ h => TypeCode.length_children_of_compared h

omit [DecidableEq ν] in
lemma sameCompared_iff_same : (g.SameCompared x y ↔ g.Same x y) ↔ g.EqualFits x y := by
  rw [same_iff, sameCompared_iff]
  constructor
  · intro h
    by_cases hall : ∀ q, g.Corresponds (x, y) q → (g.tc q.1).compared = (g.tc q.2).compared
    · exact Or.inl fun q hq hconfused => hconfused.2 (h.mp hall q hq)
    · push Not at hall
      exact Or.inr hall
  · rintro (h | ⟨q, hq, hne⟩)
    · refine ⟨fun hall q hq => ?_, fun hall q hq => congrArg TypeCode.erase (hall q hq)⟩
      by_contra hne
      exact h q hq ⟨hall q hq, hne⟩
    · exact iff_of_false (fun h => hne (h q hq)) fun h => hne (congrArg TypeCode.erase (h q hq))

/-- `equal` returns, and it is right exactly when nothing is confused. -/
lemma equal_right_iff [Fintype ν] :
    (∃ n r, g.equal n x y = some r ∧ (r = true ↔ g.Same x y)) ↔ g.EqualFits x y := by
  rw [← sameCompared_iff_same]
  constructor
  · rintro ⟨n, r, hr, h⟩
    exact (equal_iff hr).symm.trans h
  · intro h
    obtain ⟨n, r, hr⟩ := g.equal_returns x y
    exact ⟨n, r, hr, (equal_iff hr).trans h⟩

end Graph

end TypeCodes

end OmniORB
