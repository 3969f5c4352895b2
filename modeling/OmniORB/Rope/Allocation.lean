import OmniORB.Rope.Accounts

/-!
# What acquireClient finds

The ways in which `acquireClient` gets a `GIOP_C`, or gets none.
-/

namespace OmniORB

open Library ClientStrand RopeCaller

namespace GIOPRope

variable {par : RopeParameters} {s s' : GIOPRope} {v : GIOPVersion} {k t : ℕ} {c : RopeCaller}

@[simp] lemma strand_setStrand_self (x : ClientStrand) : (s.setStrand k x).strand k = x := by
  simp [setStrand]

lemma strand_setStrand_of_ne {j : ℕ} (hj : j ≠ k) (x : ClientStrand) :
    (s.setStrand k x).strand j = s.strand j := by
  simp [setStrand, hj]

lemma assert_of {cond : Prop} [Decidable cond] (hc : cond) : s.assert cond = s := by
  rw [assert, decide_eq_true hc, Bool.not_true, Bool.or_false]

/-! ### Strands that are reactivated or retired -/

/-- The ropes differ at most in that strands were reactivated or retired. -/
structure Alike (s s' : GIOPRope) : Prop where
  rest : s' = { s with
    strand := s'.strand
    active := s'.active
    activeTimedout := s'.activeTimedout
    passive := s'.passive }
  strand : ∀ j, (s.strand j).Alike (s'.strand j)
  links : ∀ j, s'.links j = s.links j

lemma Alike.refl (s : GIOPRope) : Alike s s := ⟨rfl, fun _ => .refl _, fun _ => rfl⟩

lemma Alike.trans {s1 s2 s3 : GIOPRope} (h1 : Alike s1 s2) (h2 : Alike s2 s3) : Alike s1 s3 := by
  refine ⟨?_, fun j => (h1.strand j).trans (h2.strand j), fun j => (h2.links j).trans (h1.links j)⟩
  rw [h2.rest, h1.rest]

section Alike

variable (h : Alike s s')
include h

lemma Alike.strands : s'.strands = s.strands := by rw [h.rest]

lemma Alike.nStrands : s'.nStrands = s.nStrands := by rw [h.rest]

lemma Alike.callers : s'.callers = s.callers := by rw [h.rest]

lemma Alike.caller (t : ℕ) : s'.caller t = s.caller t := by rw [GIOPRope.caller, h.callers]; rfl

lemma Alike.hasAddress : s'.hasAddress = s.hasAddress := by rw [h.rest]

lemma Alike.filtering : s'.filtering = s.filtering := by rw [h.rest]

lemma Alike.refcount : s'.refcount = s.refcount := by rw [h.rest]

lemma Alike.deleted : s'.deleted = s.deleted := by rw [h.rest]

lemma Alike.nwaiting : s'.nwaiting = s.nwaiting := by rw [h.rest]

lemma Alike.failed : s'.failed = s.failed := by rw [h.rest]

lemma Alike.countStrands {f : ClientStrand → Bool} (hf : ∀ x y : ClientStrand, x.Alike y → f y = f x) :
    s'.countStrands f = s.countStrands f := by
  rw [GIOPRope.countStrands, h.strands]
  exact List.countP_congr fun k _ => by rw [hf _ _ (h.strand k)]

lemma Alike.users (k g : ℕ) : s'.users k g = s.users k g := by
  rw [GIOPRope.users, h.strands, (h.strand k).clients]
  rfl

lemma Alike.strandsOk (hs : StrandsOk par s) : StrandsOk par s' := by
  refine ⟨?_, ?_, fun k => ?_, ?_, fun v => ?_⟩
  · rw [h.strands]
    exact hs.nodup
  · rw [h.strands, h.nStrands]
    exact hs.known
  · rw [h.links, h.strands]
    exact hs.links k
  · rw [h.strands]
    exact fun k hk => (h.strand k).ok (hs.strand k hk)
  · rw [h.countStrands fun _ _ => ClientStrand.Alike.isLive]
    exact hs.limit v

lemma Alike.ok (hs : Ok par s) : Ok par s' := by
  refine ⟨h.strandsOk hs.toStrandsOk, ?_, fun k g => ?_, ?_, ?_, ?_, ?_, ?_⟩
  · rw [h.failed, hs.failed]
  · rw [h.callers, h.users, hs.calls]
  · rw [h.callers, h.nwaiting, hs.nwaiting]
  · rw [h.callers, h.filtering, hs.filtering]
  · rw [h.callers, h.filtering]
    exact hs.filterWait
  · rw [h.callers, h.refcount]
    exact hs.references
  · rw [h.deleted, h.refcount, h.strands]
    exact hs.deleted

end Alike

lemma links_removeFromStrandList (hk : s.links k ≤ 1) (j : ℕ) :
    (s.removeFromStrandList k).links j = if j = k then 0 else s.links j := by
  simp only [links, removeFromStrandList] at hk ⊢
  split_ifs with hj
  · subst hj
    rw [List.count_erase_self, List.count_erase_self, List.count_erase_self]
    omega
  · rw [List.count_erase_of_ne hj, List.count_erase_of_ne hj, List.count_erase_of_ne hj]

lemma StrandsOk.links_le_one (h : StrandsOk par s) (k : ℕ) : s.links k ≤ 1 := by
  rw [h.links]
  split_ifs
  · exact Nat.le_refl 1
  · exact Nat.zero_le 1

lemma alike_setState {state : StrandState} (hstate : state = .dying ↔ (s.strand k).state = .dying) (j : ℕ) :
    (s.strand j).Alike ((s.setStrand k { s.strand k with state }).strand j) := by
  by_cases hj : j = k
  · subst hj
    rw [strand_setStrand_self]
    exact ⟨state, rfl, hstate⟩
  · rw [strand_setStrand_of_ne hj]
    exact .refl _

/-- The strand is put into one of the lists, after it was removed from them. -/
lemma StrandsOk.links_insert (h : StrandsOk par s) (hk : k ∈ s.strands) {j n : ℕ}
    (hn : n = (s.removeFromStrandList k).links j + if j = k then 1 else 0) : n = s.links j := by
  rw [hn, links_removeFromStrandList (h.links_le_one k)]
  split_ifs with hj
  · rw [hj, h.links, if_pos hk]
  · rfl

lemma StrandsOk.reactivate (h : StrandsOk par s) (hk : k ∈ s.strands) (hlive : (s.strand k).state ≠ .dying) :
    Alike s (s.reactivate k) := by
  refine ⟨rfl, alike_setState (by simp [hlive]), fun j => h.links_insert hk ?_⟩
  simp only [GIOPRope.links, GIOPRope.reactivate, setStrand, List.count_append, List.count_singleton,
    beq_iff_eq, eq_comm (a := k)]
  omega

lemma StrandsOk.retire (h : StrandsOk par s) (hk : k ∈ s.strands) (hlive : (s.strand k).state ≠ .dying) :
    Alike s (s.retire k) := by
  refine ⟨rfl, alike_setState (by simp [hlive]), fun j => h.links_insert hk ?_⟩
  simp only [GIOPRope.links, GIOPRope.retire, setStrand, List.count_append, List.count_singleton,
    beq_iff_eq, eq_comm (a := k)]
  omega

/-- Strands are reactivated or retired one after the other. -/
lemma StrandsOk.foldl (f : GIOPRope → ℕ → GIOPRope)
    (hf : ∀ s k, StrandsOk par s → k ∈ s.strands → Alike s (f s k)) (h : StrandsOk par s) {l : List ℕ}
    (hl : ∀ k ∈ l, k ∈ s.strands) : Alike s (l.foldl f s) := by
  induction l generalizing s with
  | nil => exact .refl s
  | cons k l ih =>
    have hk := hf s k h (hl k List.mem_cons_self)
    refine hk.trans (ih (hk.strandsOk h) fun j hj => ?_)
    rw [hk.strands]
    exact hl j (List.mem_cons_of_mem k hj)

/-! ### The strands that acquireClient looks at -/

/-- What `findIdle` returns for the strands of a list. -/
structure Finds (s : GIOPRope) (v : GIOPVersion) (l : List ℕ) (r : GIOPRope × Option ℕ) : Prop where
  alike : Alike s r.1
  found : ∀ k, r.2 = some k → k ∈ s.strands ∧ (s.strand k).isIdle v = true
  stays : ∀ j, (s.strand j).state ≠ .timedout → r.1.strand j = s.strand j
  busy : r.2 = none → ∀ k ∈ l, (s.strand k).isIdle v = false ∧ (r.1.strand k).state ≠ .timedout

lemma Finds.trans {s1 : GIOPRope} {l : List ℕ} {r : GIOPRope × Option ℕ} (hr : Finds s1 v l r)
    (h : Alike s s1) (hstay : ∀ j, (s.strand j).state ≠ .timedout → s1.strand j = s.strand j)
    (hk : (s.strand k).isIdle v = false) (hstate : (s1.strand k).state ≠ .timedout) :
    Finds s v (k :: l) r := by
  refine ⟨h.trans hr.alike, fun j hj => ?_, fun j hj => ?_, fun hnone j hj => ?_⟩
  · rw [← h.strands, ← (h.strand j).isIdle]
    exact hr.found j hj
  · rw [← hstay j hj]
    refine hr.stays j ?_
    rwa [hstay j hj]
  · rcases List.mem_cons.mp hj with rfl | hj
    · rw [hr.stays j hstate]
      exact ⟨hk, hstate⟩
    · rw [← (h.strand j).isIdle]
      exact hr.busy hnone j hj

/-- One strand of those that `findIdle` looks at. -/
lemma StrandsOk.reactivateTimedout (h : StrandsOk par s) (hk : k ∈ s.strands)
    (hlive : (s.strand k).state ≠ .dying) {s1 : GIOPRope}
    (hs : s1 = if (s.strand k).state = .timedout then s.reactivate k else s) :
    Alike s s1 ∧ (s1.strand k).state = .active ∧
      ∀ j, (s.strand j).state ≠ .timedout → s1.strand j = s.strand j := by
  rw [hs]
  split_ifs with hstate
  · refine ⟨h.reactivate hk hlive, congrArg ClientStrand.state (strand_setStrand_self _), fun j hj => ?_⟩
    have hne : j ≠ k := by
      rintro rfl
      exact hj hstate
    exact strand_setStrand_of_ne hne _
  · refine ⟨.refl s, ?_, fun _ _ => rfl⟩
    rcases hx : (s.strand k).state
    · rfl
    · exact absurd hx hlive
    · exact absurd hx hstate

lemma StrandsOk.findIdle (h : StrandsOk par s) (v : GIOPVersion) {l : List ℕ}
    (hl : ∀ k ∈ l, k ∈ s.strands) : Finds s v l (findIdle v l s) := by
  induction l generalizing s with
  | nil =>
    exact ⟨.refl s, by simp [GIOPRope.findIdle], fun _ _ => rfl, fun _ _ hk => absurd hk List.not_mem_nil⟩
  | cons k l ih =>
    have hk := hl k List.mem_cons_self
    have hl' : ∀ j ∈ l, j ∈ s.strands := fun j hj => hl j (List.mem_cons_of_mem k hj)
    simp only [GIOPRope.findIdle]
    split
    next hdying =>
      refine (ih h hl').trans (.refl s) (fun _ _ => rfl) ?_ (by simp [hdying])
      simp [isIdle, isLive, isDying, hdying]
    next hlive =>
      obtain ⟨halike, hactive, hstay⟩ := h.reactivateTimedout hk hlive rfl
      generalize (if (s.strand k).state = .timedout then s.reactivate k else s) = s1 at *
      rw [(halike.strand k).isIdle]
      split_ifs with hidle
      · refine ⟨halike, fun j hj => ?_, hstay, by simp⟩
        obtain rfl := Option.some.inj hj
        exact ⟨hk, hidle⟩
      · refine (ih (halike.strandsOk h) ?_).trans halike hstay (by simpa using hidle) (by simp [hactive])
        rwa [halike.strands]

/-- What `acquireClient` does for a thread, once the strands that it may use are active. -/
inductive Allocates (par : RopeParameters) (s : GIOPRope) (t : ℕ) (v : GIOPVersion) : GIOPRope → Prop
  | reuse {k : ℕ} (hk : k ∈ s.strands) (hidle : (s.strand k).isIdle v = true) : Allocates par s t v (s.give t k)
  | noAddress (hidle : s.countStrands (isIdle v) = 0)
      (hroom : s.countStrands (isBusy v) + s.countStrands isDying < par.maxStrands)
      (haddress : s.hasAddress = false) : Allocates par s t v ((s.resetAddressOrder par).setPhase t .done)
  | fresh (hidle : s.countStrands (isIdle v) = 0)
      (hroom : s.countStrands (isBusy v) + s.countStrands isDying < par.maxStrands)
      (haddress : s.hasAddress = true) : Allocates par s t v ((s.newStrand v).giveNew t s.nStrands)
  | wait (hidle : s.countStrands (isIdle v) = 0)
      (hroom : par.maxStrands ≤ s.countStrands (isBusy v) + s.countStrands isDying)
      (hone : par.oneCallPerConnection = true ∨ par.maxStrands ≤ s.countStrands isDying) :
      Allocates par s t v ({ s with nwaiting := s.nwaiting + 1 }.setPhase t (.waiting false))
  | share {k : ℕ} (hidle : s.countStrands (isIdle v) = 0) (hone : par.oneCallPerConnection = false)
      (hdying : s.countStrands isDying < par.maxStrands) (hk : k ∈ s.strands)
      (hbusy : (s.strand k).isBusy v = true) : Allocates par s t v (s.giveNew t k)

lemma mem_sharable : k ∈ s.sharable v ↔
    k ∈ s.strands ∧ (s.strand k).state = .active ∧ (s.strand k).version = v := by
  simp [sharable]

/-- A strand that did not time out and is not idle is busy if it is active. -/
lemma isActive_iff {x : ClientStrand} (hidle : ¬x.isIdle v = true) (hstate : x.state ≠ .timedout) :
    x.state = .active ∧ x.version = v ↔ x.isBusy v = true := by
  have hlive : x.isLive v = true ↔ x.state = .active ∧ x.version = v := by
    rw [isLive, isDying]
    rcases hx : x.state
    · simp
    · simp
    · exact absurd hx hstate
  rw [← hlive, (isBusy_or_isIdle v x).1]
  simp [hidle]

lemma StrandsOk.allocate_cases (h : StrandsOk par s) (t rand : ℕ) :
    ∃ s1, Alike s s1 ∧ Allocates par s1 t (s.caller t).version (s.allocate par t rand) := by
  set v := (s.caller t).version with hv
  have hfind := h.findIdle v fun _ hk => hk
  rw [allocate, ← hv]
  rcases hr : GIOPRope.findIdle v s.strands s with ⟨s1, found⟩
  rw [hr] at hfind
  refine ⟨s1, hfind.alike, ?_⟩
  have hok := hfind.alike.strandsOk h
  rcases found with _ | k
  · have hidle : s1.countStrands (isIdle v) = 0 := by
      rw [hfind.alike.countStrands fun _ _ => ClientStrand.Alike.isIdle]
      refine List.countP_eq_zero.mpr fun k hk => ?_
      simp [(hfind.busy rfl k hk).1]
    simp only
    split_ifs with hroom haddress hone
    · exact .noAddress hidle hroom (by simpa using haddress)
    · exact .fresh hidle hroom (by simpa using haddress)
    · exact .wait hidle (Nat.le_of_not_lt hroom) (by simpa using hone)
    · simp only [Bool.or_eq_true, decide_eq_true_eq, not_or, Bool.not_eq_true, Nat.not_le] at hone
      replace hroom : ¬s1.countStrands (isBusy v) + s1.countStrands isDying < par.maxStrands := hroom
      have hbusy : 0 < s1.countStrands (isBusy v) := by omega
      rw [assert_of hbusy]
      have hsharable : ∀ k, k ∈ s1.sharable v ↔ k ∈ s1.strands ∧ (s1.strand k).isBusy v = true := by
        intro k
        rw [mem_sharable, and_congr_right_iff]
        intro hk
        have hidle := List.countP_eq_zero.mp hidle k hk
        have hstate := (hfind.busy rfl k (by rwa [← hfind.alike.strands])).2
        exact isActive_iff hidle hstate
      obtain ⟨j, hj, hj'⟩ := List.countP_pos_iff.mp hbusy
      rcases hpick : ((s1.sharable v)[rand % s1.countStrands (isBusy v)]?).or (s1.sharable v).head? with _ | k
      · have hnil := List.head?_eq_none_iff.mp (Option.or_eq_none_iff.mp hpick).2
        exact absurd ((hsharable j).mpr ⟨hj, hj'⟩) (by simp [hnil])
      · have hk : k ∈ s1.sharable v := by
          rcases Option.or_eq_some_iff.mp hpick with hk | ⟨-, hk⟩
          · exact List.mem_of_getElem? hk
          · exact List.mem_of_mem_head? hk
        exact .share hidle hone.1 hone.2 ((hsharable k).mp hk).1 ((hsharable k).mp hk).2
  · obtain ⟨hk, hidle⟩ := hfind.found k rfl
    refine .reuse ?_ ?_
    · rwa [hfind.alike.strands]
    · rwa [(hfind.alike.strand k).isIdle]

end GIOPRope

end OmniORB
