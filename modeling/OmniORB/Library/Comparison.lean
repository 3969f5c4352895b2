import Mathlib

/-!
# Comparing graphs

Two nodes of a graph are compared by a list of parts, checked in order: conditions, and pairs of nodes
that are compared in turn. Pairs that are being compared already are taken to agree. What is found so is
the greatest relation that the parts allow.
-/

namespace OmniORB.Library

/-- A part of a comparison. -/
inductive Obligation (α : Type) where
  | check (b : Bool)
  | pair (x y : α)

variable {α : Type}

/-- The part holds, where the pairs are related by `R`. -/
def Obligation.Holds (R : α → α → Prop) : Obligation α → Prop
  | check b => b = true
  | pair x y => R x y

@[simp] lemma Obligation.holds_check (R : α → α → Prop) (b : Bool) : (check b).Holds R ↔ b = true := Iff.rfl

@[simp] lemma Obligation.holds_pair (R : α → α → Prop) (x y : α) : (pair x y).Holds R ↔ R x y := Iff.rfl

lemma Obligation.Holds.mono {R R' : α → α → Prop} {p : Obligation α} (hR : ∀ x y, R x y → R' x y)
    (h : p.Holds R) : p.Holds R' := by
  cases p with
  | check b => exact h
  | pair x y => exact hR x y h

/-- The parts hold, in order; `f` compares the pairs. -/
def holdAll (f : α → α → Option Bool) : List (Obligation α) → Option Bool
  | [] => some true
  | .check b :: l => if b then holdAll f l else some false
  | .pair x y :: l => (f x y).bind fun b => if b then holdAll f l else some false

lemma lawfulBEq_pair [DecidableEq α] : LawfulBEq (α × α) := inferInstance

attribute [local instance] lawfulBEq_pair

/-- The comparison, with fuel. `parts` may use it up as well. -/
def compareNodes [DecidableEq α] (parts : ℕ → α → α → Option (List (Obligation α))) :
    ℕ → List (α × α) → α → α → Option Bool
  | 0, _, _, _ => none
  | n + 1, seen, x, y =>
    if (x, y) ∈ seen then some true
    else (parts n x y).bind (holdAll (compareNodes parts n ((x, y) :: seen)))

/-- More fuel does not change the parts. -/
def Steady (parts : ℕ → α → α → Option (List (Obligation α))) : Prop :=
  ∀ n m x y l, n ≤ m → parts n x y = some l → parts m x y = some l

section

variable {f g : α → α → Option Bool} {l : List (Obligation α)} {b : Bool}

lemma holdAll_congr (hfg : ∀ x y b, f x y = some b → g x y = some b) (h : holdAll f l = some b) :
    holdAll g l = some b := by
  induction l with
  | nil => exact h
  | cons p l ih =>
    cases p with
    | check c =>
      cases c with
      | false => exact h
      | true => exact ih h
    | pair x y =>
      obtain ⟨c, hc, h⟩ := Option.bind_eq_some_iff.mp h
      refine Option.bind_eq_some_iff.mpr ⟨c, hfg x y c hc, ?_⟩
      cases c with
      | false => exact h
      | true => exact ih h

lemma holds_of_holdAll (h : holdAll f l = some true) :
    ∀ p ∈ l, p.Holds fun x y => f x y = some true := by
  induction l with
  | nil => exact fun p hp => absurd hp List.not_mem_nil
  | cons p l ih =>
    cases p with
    | check c =>
      cases c with
      | false => cases h
      | true => exact List.forall_mem_cons.mpr ⟨rfl, ih h⟩
    | pair x y =>
      obtain ⟨c, hc, h⟩ := Option.bind_eq_some_iff.mp h
      cases c with
      | false => cases h
      | true => exact List.forall_mem_cons.mpr ⟨hc, ih h⟩

lemma not_holds_of_holdAll {R : α → α → Prop} (hf : ∀ x y, f x y = some false → ¬ R x y)
    (h : holdAll f l = some false) : ∃ p ∈ l, ¬ p.Holds R := by
  induction l with
  | nil => cases h
  | cons p l ih =>
    have hrest : holdAll f l = some false → ∃ q ∈ p :: l, ¬ q.Holds R := fun h =>
      let ⟨q, hq, hnot⟩ := ih h
      ⟨q, List.mem_cons_of_mem p hq, hnot⟩
    cases p with
    | check c =>
      cases c with
      | false => exact ⟨_, List.mem_cons_self, Bool.false_ne_true⟩
      | true => exact hrest h
    | pair x y =>
      obtain ⟨c, hc, h⟩ := Option.bind_eq_some_iff.mp h
      cases c with
      | false => exact ⟨_, List.mem_cons_self, hf x y hc⟩
      | true => exact hrest h

end

variable {parts : ℕ → α → α → Option (List (Obligation α))} {x y : α} {l : List (Obligation α)} {p q : α × α}

/-! ### What the comparison says -/

/-- Two nodes are related if they are so by a relation that the parts allow. -/
def Related (parts : ℕ → α → α → Option (List (Obligation α))) (x y : α) : Prop :=
  ∃ R : α → α → Prop, R x y ∧ ∀ a b, R a b → ∃ n l, parts n a b = some l ∧ ∀ p ∈ l, p.Holds R

lemma Related.unfold (h : Related parts x y) :
    ∃ n l, parts n x y = some l ∧ ∀ p ∈ l, p.Holds (Related parts) := by
  obtain ⟨R, hxy, hR⟩ := h
  obtain ⟨n, l, hl, hold⟩ := hR x y hxy
  exact ⟨n, l, hl, fun p hp => (hold p hp).mono fun a b hab => ⟨R, hab, hR⟩⟩

lemma Related.of_parts {n : ℕ} (hl : parts n x y = some l) (h : ∀ p ∈ l, p.Holds (Related parts)) :
    Related parts x y := by
  refine ⟨fun a b => (a = x ∧ b = y) ∨ Related parts a b, Or.inl ⟨rfl, rfl⟩, ?_⟩
  rintro a b (⟨rfl, rfl⟩ | hab)
  · exact ⟨n, l, hl, fun p hp => (h p hp).mono fun _ _ => Or.inr⟩
  · obtain ⟨n, l, hl, hold⟩ := hab.unfold
    exact ⟨n, l, hl, fun p hp => (hold p hp).mono fun _ _ => Or.inr⟩

lemma Steady.eq (h : Steady parts) {n m : ℕ} {l' : List (Obligation α)} (hl : parts n x y = some l)
    (hl' : parts m x y = some l') : l = l' := by
  have h1 := h n (max n m) x y l (le_max_left n m) hl
  have h2 := h m (max n m) x y l' (le_max_right n m) hl'
  exact Option.some.inj (h1.symm.trans h2)

/-- The pair `q` is a part of the comparison of `p`, whose conditions hold. -/
def Leads (parts : ℕ → α → α → Option (List (Obligation α))) (p q : α × α) : Prop :=
  ∃ n l, parts n p.1 p.2 = some l ∧ (∀ b, Obligation.check b ∈ l → b = true) ∧ Obligation.pair q.1 q.2 ∈ l

/-- The pair comes up in the comparison of another. -/
def Reaches (parts : ℕ → α → α → Option (List (Obligation α))) : α × α → α × α → Prop :=
  Relation.ReflTransGen (Leads parts)

/-- The conditions of the pair hold. -/
def Agrees (parts : ℕ → α → α → Option (List (Obligation α))) (q : α × α) : Prop :=
  ∃ n l, parts n q.1 q.2 = some l ∧ ∀ b, Obligation.check b ∈ l → b = true

lemma Related.leads (hsteady : Steady parts) (h : Related parts p.1 p.2) (hq : Leads parts p q) :
    Related parts q.1 q.2 := by
  obtain ⟨n, l, hl, hold⟩ := h.unfold
  obtain ⟨m, l', hl', -, hmem⟩ := hq
  obtain rfl := hsteady.eq hl hl'
  exact hold _ hmem

lemma Related.reaches (hsteady : Steady parts) (h : Related parts p.1 p.2) (hq : Reaches parts p q) :
    Related parts q.1 q.2 := by
  induction hq with
  | refl => exact h
  | tail _ hlast ih => exact ih.leads hsteady hlast

/-- Two nodes are related if and only if all the pairs that come up agree. -/
lemma related_iff_reaches (hsteady : Steady parts) :
    Related parts x y ↔ ∀ q, Reaches parts (x, y) q → Agrees parts q := by
  constructor
  · intro h q hq
    obtain ⟨n, l, hl, hold⟩ := Related.unfold (Related.reaches (p := (x, y)) hsteady h hq)
    exact ⟨n, l, hl, fun b hb => hold _ hb⟩
  · intro h
    refine ⟨fun a b => Reaches parts (x, y) (a, b), .refl, ?_⟩
    intro a b hab
    obtain ⟨n, l, hl, hchecks⟩ := h _ hab
    refine ⟨n, l, hl, fun p hp => ?_⟩
    cases p with
    | check c => exact hchecks c hp
    | pair c d => exact hab.tail ⟨n, l, hl, hchecks, hp⟩

/-! ### What the comparison computes -/

variable [DecidableEq α] {n : ℕ} {seen : List (α × α)} {r : Bool}

lemma compareNodes_mono (hsteady : Steady parts) {m : ℕ} (hnm : n ≤ m)
    (h : compareNodes parts n seen x y = some r) : compareNodes parts m seen x y = some r := by
  induction n generalizing m seen x y r with
  | zero => cases h
  | succ n ih =>
    obtain ⟨m, rfl⟩ := Nat.exists_eq_add_of_le hnm
    rw [Nat.add_right_comm]
    rw [compareNodes] at h ⊢
    by_cases hseen : (x, y) ∈ seen
    · rw [if_pos hseen] at h ⊢
      exact h
    · rw [if_neg hseen] at h ⊢
      obtain ⟨l, hl, h⟩ := Option.bind_eq_some_iff.mp h
      refine Option.bind_eq_some_iff.mpr ⟨l, hsteady _ _ _ _ _ (Nat.le_add_right n m) hl, ?_⟩
      exact holdAll_congr (fun a b c hab => ih (Nat.le_add_right n m) hab) h

/-- A pair that comes up without going through one that is being compared. -/
def ReachesApart (parts : ℕ → α → α → Option (List (Obligation α))) (seen : List (α × α)) :
    α × α → α × α → Prop :=
  Relation.ReflTransGen fun p q => p ∉ seen ∧ Leads parts p q

omit [DecidableEq α] in
lemma Reaches.apart (h : Reaches parts p q) : ReachesApart parts [] p q := by
  induction h with
  | refl => exact .refl
  | tail _ hlast ih => exact ih.tail ⟨List.not_mem_nil, hlast⟩

/-- What comes up after a pair comes up after its last time. -/
lemma ReachesApart.last (h : ReachesApart parts seen p q) :
    q = p ∨ ∃ c, Leads parts p c ∧ ReachesApart parts (p :: seen) c q := by
  induction h with
  | refl => exact Or.inl rfl
  | @tail b c hb hc ih =>
    obtain ⟨hseen, hleads⟩ := hc
    by_cases hbp : b = p
    · exact Or.inr ⟨c, hbp ▸ hleads, .refl⟩
    · rcases ih with rfl | ⟨d, hd, hdb⟩
      · exact absurd rfl hbp
      · refine Or.inr ⟨d, hd, hdb.tail ⟨?_, hleads⟩⟩
        exact fun hmem => (List.mem_cons.mp hmem).elim hbp hseen

lemma agrees_of_compareNodes (h : compareNodes parts n seen x y = some true) (hsteady : Steady parts)
    (hq : ReachesApart parts seen (x, y) q) (hseen : q ∉ seen) : Agrees parts q := by
  induction n generalizing seen x y q with
  | zero => cases h
  | succ n ih =>
    rw [compareNodes] at h
    by_cases hxy : (x, y) ∈ seen
    · cases hq using Relation.ReflTransGen.head_induction_on with
      | refl => exact absurd hxy hseen
      | head hstep _ => exact absurd hxy hstep.1
    · rw [if_neg hxy] at h
      obtain ⟨l, hl, h⟩ := Option.bind_eq_some_iff.mp h
      have hold := holds_of_holdAll h
      rcases hq.last with rfl | ⟨c, ⟨m, l', hl', -, hc⟩, hcq⟩
      · exact ⟨n, l, hl, fun b hb => hold _ hb⟩
      · obtain rfl := hsteady.eq hl hl'
        by_cases hqxy : q = (x, y)
        · exact hqxy ▸ ⟨n, l, hl, fun b hb => hold _ hb⟩
        · exact ih (hold _ hc) hcq fun hmem => (List.mem_cons.mp hmem).elim hqxy hseen

/-- What the comparison finds to be so is so. -/
lemma related_of_compareNodes (hsteady : Steady parts) (h : compareNodes parts n [] x y = some true) :
    Related parts x y := by
  refine (related_iff_reaches hsteady).mpr fun q hq => ?_
  exact agrees_of_compareNodes h hsteady hq.apart List.not_mem_nil

lemma not_related_of_compare (hsteady : Steady parts) (h : compareNodes parts n seen x y = some false) :
    ¬ Related parts x y := by
  induction n generalizing seen x y with
  | zero => cases h
  | succ n ih =>
    rw [compareNodes] at h
    by_cases hxy : (x, y) ∈ seen
    · rw [if_pos hxy] at h
      cases h
    · rw [if_neg hxy] at h
      obtain ⟨l, hl, h⟩ := Option.bind_eq_some_iff.mp h
      obtain ⟨p, hp, hnot⟩ := not_holds_of_holdAll (fun a b => ih) h
      intro hrel
      obtain ⟨m, l', hl', hold⟩ := hrel.unfold
      obtain rfl := hsteady.eq hl hl'
      exact hnot (hold p hp)

lemma compareNodes_iff (hsteady : Steady parts) (h : compareNodes parts n [] x y = some r) :
    r = true ↔ Related parts x y := by
  cases r with
  | true => exact iff_of_true rfl (related_of_compareNodes hsteady h)
  | false => exact iff_of_false Bool.false_ne_true (not_related_of_compare hsteady h)

/-! ### When the comparison ends -/

/-- The pair is met if the conditions before it hold. -/
def Met (l : List (Obligation α)) (a b : α) : Prop :=
  ∃ l1 l2, l = l1 ++ .pair a b :: l2 ∧ ∀ c, Obligation.check c ∈ l1 → c = true

omit [DecidableEq α] in
lemma holdAll_returns {f : ℕ → α → α → Option Bool}
    (hmono : ∀ n m a b r, n ≤ m → f n a b = some r → f m a b = some r)
    (h : ∀ a b, Met l a b → ∃ n r, f n a b = some r) : ∃ n r, holdAll (f n) l = some r := by
  induction l with
  | nil => exact ⟨0, true, rfl⟩
  | cons p l ih =>
    cases p with
    | check c =>
      cases c with
      | false => exact ⟨0, false, rfl⟩
      | true =>
        apply ih
        rintro a b ⟨l1, l2, rfl, hchecks⟩
        refine h a b ⟨.check true :: l1, l2, rfl, fun c hc => ?_⟩
        rcases List.mem_cons.mp hc with heq | hc
        · exact Obligation.check.inj heq
        · exact hchecks c hc
    | pair a b =>
      obtain ⟨n, r, hr⟩ := h a b ⟨[], l, rfl, fun c hc => absurd hc List.not_mem_nil⟩
      cases r with
      | false => exact ⟨n, false, Option.bind_eq_some_iff.mpr ⟨false, hr, rfl⟩⟩
      | true =>
        obtain ⟨m, r, hm⟩ := ih (by
          rintro c d ⟨l1, l2, rfl, hchecks⟩
          refine h c d ⟨.pair a b :: l1, l2, rfl, fun e he => ?_⟩
          rcases List.mem_cons.mp he with heq | he
          · cases heq
          · exact hchecks e he)
        refine ⟨max n m, r, Option.bind_eq_some_iff.mpr
          ⟨true, hmono n _ a b true (le_max_left n m) hr, ?_⟩⟩
        exact holdAll_congr (fun c d e => hmono m _ c d e (le_max_right n m)) hm

/-- On a finite graph the comparison ends, if the pairs that are met have parts. -/
lemma compareNodes_returns [Fintype α] (hsteady : Steady parts) {P : α → α → Prop}
    (hP : ∀ a b, P a b → ∃ n l, parts n a b = some l ∧ ∀ c d, Met l c d → P c d) (h : P x y) :
    ∃ n r, compareNodes parts n seen x y = some r := by
  induction hk : (Finset.univ.filter fun q => q ∉ seen).card using Nat.strong_induction_on
    generalizing seen x y with
  | _ k ih =>
    by_cases hxy : (x, y) ∈ seen
    · exact ⟨1, true, by rw [compareNodes, if_pos hxy]⟩
    · obtain ⟨n, l, hl, hmet⟩ := hP x y h
      have hlt : (Finset.univ.filter fun q => q ∉ (x, y) :: seen).card < k := by
        rw [← hk]
        refine Finset.card_lt_card ⟨?_, ?_⟩
        · intro q hq
          have := (Finset.mem_filter.mp hq).2
          exact Finset.mem_filter.mpr ⟨Finset.mem_univ q, fun hmem => this (List.mem_cons_of_mem _ hmem)⟩
        · intro hsub
          have := hsub (Finset.mem_filter.mpr ⟨Finset.mem_univ (x, y), hxy⟩)
          exact (Finset.mem_filter.mp this).2 List.mem_cons_self
      obtain ⟨m, r, hm⟩ := holdAll_returns (f := fun m => compareNodes parts m ((x, y) :: seen))
        (fun n m a b r hnm => compareNodes_mono hsteady hnm) fun a b hab => ih _ hlt (hmet a b hab) rfl
      refine ⟨max n m + 1, r, ?_⟩
      rw [compareNodes, if_neg hxy]
      refine Option.bind_eq_some_iff.mpr ⟨l, hsteady _ _ _ _ _ (le_max_left n m) hl, ?_⟩
      exact holdAll_congr (fun a b r => compareNodes_mono hsteady (le_max_right n m)) hm

/-! ### Chains -/

/-- Conditions, and then one pair at most. -/
def PairLast : List (Obligation α) → Prop
  | [] => True
  | .check _ :: l => PairLast l
  | .pair _ _ :: l => l = []

omit [DecidableEq α] in
lemma PairLast.met (h : PairLast l) {a b : α} (hmet : Met l a b) :
    (∀ c, Obligation.check c ∈ l → c = true) ∧ Obligation.pair a b ∈ l := by
  obtain ⟨l1, l2, rfl, hchecks⟩ := hmet
  refine ⟨?_, List.mem_append_right _ List.mem_cons_self⟩
  have hnil : l2 = [] := by
    clear hchecks
    induction l1 with
    | nil => exact h
    | cons p l1 ih =>
      cases p with
      | check c => exact ih h
      | pair c d => exact absurd h (by simp [PairLast])
  intro c hc
  rcases List.mem_append.mp hc with hc | hc
  · exact hchecks c hc
  · rw [hnil, List.mem_singleton] at hc
    cases hc

omit [DecidableEq α] in
lemma PairLast.pair_eq (h : PairLast l) {a b c d : α} (h1 : Obligation.pair a b ∈ l) (h2 : Obligation.pair c d ∈ l) :
    c = a ∧ d = b := by
  induction l with
  | nil => exact absurd h1 List.not_mem_nil
  | cons p l ih =>
    cases p with
    | check e =>
      refine ih h ?_ ?_
      · exact (List.mem_cons.mp h1).resolve_left fun h => by cases h
      · exact (List.mem_cons.mp h2).resolve_left fun h => by cases h
    | pair e e' =>
      obtain rfl : l = [] := h
      obtain ⟨rfl, rfl⟩ := Obligation.pair.inj (List.mem_singleton.mp h1)
      exact Obligation.pair.inj (List.mem_singleton.mp h2)

omit [DecidableEq α] in
lemma PairLast.holdAll (h : PairLast l) {f : α → α → Option Bool} {a b : α}
    (hchecks : ∀ c, Obligation.check c ∈ l → c = true) (hmem : Obligation.pair a b ∈ l)
    (hold : holdAll f l = some r) : ∃ r, f a b = some r := by
  induction l with
  | nil => exact absurd hmem List.not_mem_nil
  | cons p l ih =>
    cases p with
    | check c =>
      obtain rfl := hchecks c List.mem_cons_self
      refine ih h (fun c hc => hchecks c (List.mem_cons_of_mem _ hc)) ?_ hold
      exact (List.mem_cons.mp hmem).resolve_left fun h => by cases h
    | pair c d =>
      obtain rfl : l = [] := h
      obtain ⟨rfl, rfl⟩ := Obligation.pair.inj (List.mem_singleton.mp hmem)
      obtain ⟨r, hr, -⟩ := Option.bind_eq_some_iff.mp hold
      exact ⟨r, hr⟩

variable (hchain : ∀ n x y l, parts n x y = some l → PairLast l)

include hchain

omit [DecidableEq α] in
/-- Along a chain all pairs are related, or none. -/
lemma related_iff_of_reaches (hsteady : Steady parts) (h : Reaches parts p q) :
    Related parts p.1 p.2 ↔ Related parts q.1 q.2 := by
  induction h with
  | refl => exact Iff.rfl
  | tail _ hlast ih =>
    refine ih.trans ⟨fun h => h.leads hsteady hlast, fun h => ?_⟩
    obtain ⟨n, l, hl, hchecks, hmem⟩ := hlast
    refine .of_parts hl fun p hp => ?_
    cases p with
    | check c => exact hchecks c hp
    | pair a b =>
      obtain ⟨rfl, rfl⟩ := (hchain n _ _ l hl).pair_eq hmem hp
      exact h

lemma parts_of_compareNodes (hsteady : Steady parts) (h : compareNodes parts n seen x y = some r)
    (hq : ReachesApart parts seen (x, y) q) (hseen : q ∉ seen) :
    ∃ n l, parts n q.1 q.2 = some l := by
  induction n generalizing seen x y q r with
  | zero => cases h
  | succ n ih =>
    rw [compareNodes] at h
    by_cases hxy : (x, y) ∈ seen
    · cases hq using Relation.ReflTransGen.head_induction_on with
      | refl => exact absurd hxy hseen
      | head hstep _ => exact absurd hxy hstep.1
    · rw [if_neg hxy] at h
      obtain ⟨l, hl, h⟩ := Option.bind_eq_some_iff.mp h
      rcases hq.last with rfl | ⟨c, ⟨m, l', hl', hchecks, hc⟩, hcq⟩
      · exact ⟨n, l, hl⟩
      · obtain rfl := hsteady.eq hl hl'
        by_cases hqxy : q = (x, y)
        · exact hqxy ▸ ⟨n, l, hl⟩
        · obtain ⟨r', hr'⟩ := (hchain n _ _ l hl).holdAll hchecks hc h
          exact ih hr' hcq fun hmem => (List.mem_cons.mp hmem).elim hqxy hseen

/-- A comparison along a chain ends if and only if all the pairs that come up have parts. -/
lemma compareNodes_returns_iff [Fintype α] (hsteady : Steady parts) :
    (∃ n r, compareNodes parts n [] x y = some r) ↔
      ∀ q, Reaches parts (x, y) q → ∃ n l, parts n q.1 q.2 = some l := by
  constructor
  · rintro ⟨n, r, h⟩ q hq
    exact parts_of_compareNodes hchain hsteady h hq.apart List.not_mem_nil
  · intro h
    refine compareNodes_returns hsteady (P := fun a b =>
      ∀ q, Reaches parts (a, b) q → ∃ n l, parts n q.1 q.2 = some l) ?_ h
    intro a b hab
    obtain ⟨n, l, hl⟩ := hab (a, b) .refl
    refine ⟨n, l, hl, fun c d hcd q hq => hab q ?_⟩
    obtain ⟨hchecks, hmem⟩ := (hchain n a b l hl).met hcd
    exact Relation.ReflTransGen.head ⟨n, l, hl, hchecks, hmem⟩ hq

omit hchain

/-! ### Unfolding -/

section

variable {δ : Type} {label : α → δ} {children : α → List α} {x y z : α}

omit [DecidableEq α]

lemma forall₂_map_and {β γ : Type} {R : γ → γ → Prop} {f : β → δ} {g : β → γ} {l l' : List β} :
    List.Forall₂ (fun a b => f a = f b ∧ R (g a) (g b)) l l' ↔
      l.map f = l'.map f ∧ List.Forall₂ R (l.map g) (l'.map g) := by
  induction l generalizing l' with
  | nil =>
    cases l' with
    | nil => simp
    | cons b l' => simp
  | cons a l ih =>
    cases l' with
    | nil => simp
    | cons b l' =>
      simp only [List.forall₂_cons, ih, List.map_cons, List.cons.injEq]
      tauto

/-- Two nodes unfold to the same tree, of labels. -/
def SameTree (label : α → δ) (children : α → List α) (x y : α) : Prop :=
  ∃ R : α → α → Prop, R x y ∧
    ∀ a b, R a b → label a = label b ∧ List.Forall₂ R (children a) (children b)

lemma SameTree.unfold (h : SameTree label children x y) :
    label x = label y ∧ List.Forall₂ (SameTree label children) (children x) (children y) := by
  obtain ⟨R, hxy, hR⟩ := h
  obtain ⟨hlabel, hchildren⟩ := hR x y hxy
  exact ⟨hlabel, hchildren.imp fun a b hab => ⟨R, hab, hR⟩⟩

lemma SameTree.refl (x : α) : SameTree label children x x :=
  ⟨Eq, rfl, fun _ _ h => h ▸ ⟨rfl, List.forall₂_eq_eq_eq ▸ rfl⟩⟩

lemma SameTree.symm (h : SameTree label children x y) : SameTree label children y x := by
  refine ⟨fun a b => SameTree label children b a, h, fun a b hab => ?_⟩
  obtain ⟨hlabel, hchildren⟩ := hab.unfold
  exact ⟨hlabel.symm, hchildren.flip⟩

lemma SameTree.trans (h : SameTree label children x y) (h' : SameTree label children y z) :
    SameTree label children x z := by
  refine ⟨fun a c => ∃ b, SameTree label children a b ∧ SameTree label children b c, ⟨y, h, h'⟩, ?_⟩
  rintro a c ⟨b, hab, hbc⟩
  obtain ⟨hlabel, hchildren⟩ := hab.unfold
  obtain ⟨hlabel', hchildren'⟩ := hbc.unfold
  refine ⟨hlabel.trans hlabel', ?_⟩
  generalize children a = la, children b = lb, children c = lc at hchildren hchildren'
  induction hchildren generalizing lc with
  | nil =>
    cases hchildren'
    exact .nil
  | cons hd _ ih =>
    cases hchildren' with
    | cons hd' htl' => exact .cons ⟨_, hd, hd'⟩ (ih _ htl')

lemma equivalence_sameTree (label : α → δ) (children : α → List α) :
    Equivalence (SameTree label children) :=
  ⟨SameTree.refl, SameTree.symm, SameTree.trans⟩

/-- Nodes at the same place of the trees that two nodes unfold to. -/
def SamePlace (children : α → List α) : α × α → α × α → Prop :=
  Relation.ReflTransGen fun p q => q ∈ (children p.1).zip (children p.2)

/-- Two trees are the same if and only if the labels at the same place are. -/
lemma sameTree_iff (hlength : ∀ a b, label a = label b → (children a).length = (children b).length) :
    SameTree label children x y ↔ ∀ q, SamePlace children (x, y) q → label q.1 = label q.2 := by
  constructor
  · intro h q hq
    have hsame : SameTree label children q.1 q.2 := by
      induction hq with
      | refl => exact h
      | tail _ hlast ih => exact (List.forall₂_iff_zip.mp ih.unfold.2).2 hlast
    exact hsame.unfold.1
  · intro h
    refine ⟨fun a b => SamePlace children (x, y) (a, b), .refl, fun a b hab => ?_⟩
    have hlabel := h _ hab
    exact ⟨hlabel, List.forall₂_iff_zip.mpr ⟨hlength a b hlabel, fun hq => hab.tail hq⟩⟩

end

end OmniORB.Library
