import OmniORB.Rope.Allocation

/-!
# The steps of a rope

Each of them keeps the accounts.
-/

namespace OmniORB

open Library ClientStrand RopeCaller

namespace ClientStrand

variable {par : RopeParameters} {x y : ClientStrand} {v : GIOPVersion} {g : ℕ}

lemma isLive_congr (hstate : y.state = x.state) (hversion : y.version = x.version) :
    y.isLive v = x.isLive v := by
  rw [isLive, isDying, hstate, hversion]
  rfl

lemma stopIdleCounter_eq (x : ClientStrand) :
    x.stopIdleCounter = { x with idlebeats := x.stopIdleCounter.idlebeats } := by
  rw [stopIdleCounter]
  split <;> rfl

lemma startIdleCounter_eq (par : RopeParameters) (x : ClientStrand) :
    x.startIdleCounter par = { x with idlebeats := (x.startIdleCounter par).idlebeats } := by
  rw [startIdleCounter]
  split_ifs <;> rfl

lemma isLive_useClient : (x.useClient g).isLive v = x.isLive v := by
  rw [useClient, stopIdleCounter_eq]
  rfl

lemma isLive_newClient : x.newClient.isLive v = x.isLive v := by
  rw [newClient, stopIdleCounter_eq]
  rfl

/-- What is left of the `GIOP_C` of a strand when one leaves. -/
lemma Ok.count_leave (h : x.Ok par) (hg : ⟨g, true⟩ ∈ x.clients) (i : ℕ) :
    (x.clients.filter fun c => c.id ≠ g).count ⟨i, true⟩ + (if g = i then 1 else 0)
      = x.clients.count ⟨i, true⟩ := by
  split_ifs with hi
  · subst hi
    have hone : x.clients.count ⟨g, true⟩ = 1 :=
      le_antisymm (h.count_le_one _) (List.count_pos_iff.mpr hg)
    rw [hone, List.count_eq_zero_of_not_mem]
    simp
  · rw [List.count_filter (by simpa using Ne.symm hi)]
    rfl

end ClientStrand

namespace GIOPRope

variable {par : RopeParameters} {s s' : GIOPRope} {v : GIOPVersion} {k t g : ℕ} {x : ClientStrand}

/-! ### Strands -/

lemma countStrands_isLive (s : GIOPRope) (v : GIOPVersion) :
    s.countStrands (isLive v) = s.countStrands (isBusy v) + s.countStrands (isIdle v) := by
  rw [countStrands, countStrands, countStrands]
  induction s.strands with
  | nil => rfl
  | cons k l ih =>
    obtain ⟨hor, hand⟩ := isBusy_or_isIdle v (s.strand k)
    simp only [List.countP_cons, ih, hor]
    cases hbusy : (s.strand k).isBusy v <;> cases hidle : (s.strand k).isIdle v
    · simp
    · simp [Nat.add_assoc]
    · simp [Nat.add_right_comm]
    · simp [hbusy, hidle] at hand

lemma countStrands_setStrand_le {f : ClientStrand → Bool} (hf : f x = true → f (s.strand k) = true) :
    (s.setStrand k x).countStrands f ≤ s.countStrands f := by
  refine List.countP_mono_left fun j _ hj => ?_
  by_cases hjk : j = k
  · subst hjk
    rw [strand_setStrand_self] at hj
    exact hf hj
  · rwa [strand_setStrand_of_ne hjk] at hj

lemma StrandsOk.setStrand (h : StrandsOk par s) (hx : x.Ok par)
    (hlive : ∀ v, x.isLive v = true → (s.strand k).isLive v = true) : StrandsOk par (s.setStrand k x) := by
  refine ⟨h.nodup, h.known, h.links, fun j hj => ?_, fun v => ?_⟩
  · by_cases hjk : j = k
    · rw [hjk, strand_setStrand_self]
      exact hx
    · rw [strand_setStrand_of_ne hjk]
      exact h.strand j hj
  · exact (countStrands_setStrand_le (hlive v)).trans (h.limit v)

lemma users_setStrand (hk : k ∈ s.strands) (j g : ℕ) : (s.setStrand k x).users j g =
    if j = k then x.clients.count ⟨g, true⟩ else s.users j g := by
  split_ifs with hj
  · subst hj
    rw [users, strand_setStrand_self]
    exact if_pos hk
  · rw [users, strand_setStrand_of_ne hj]
    rfl

lemma users_of_mem (hk : k ∈ s.strands) (g : ℕ) : s.users k g = (s.strand k).clients.count ⟨g, true⟩ :=
  if_pos hk

/-- A strand leaves the rope. -/
lemma StrandsOk.removeStrand (h : StrandsOk par s) (k : ℕ) (x : ClientStrand) :
    StrandsOk par ((s.setStrand k x).removeStrand k) := by
  have hmem : ∀ j, j ∈ s.strands.erase k ↔ j ≠ k ∧ j ∈ s.strands := fun j => h.nodup.mem_erase_iff
  refine ⟨h.nodup.erase k, fun j hj => h.known j ((hmem j).mp hj).2, fun j => ?_, fun j hj => ?_,
    fun v => le_trans ?_ (h.limit v)⟩
  · have hlinks := links_removeFromStrandList (h.links_le_one k) j
    refine hlinks.trans ?_
    change _ = if j ∈ s.strands.erase k then 1 else 0
    rw [h.links]
    split_ifs <;> simp_all
  · have hj := (hmem j).mp hj
    change ((s.setStrand k x).strand j).Ok par
    rw [strand_setStrand_of_ne hj.1]
    exact h.strand j hj.2
  · have hrest : (s.strands.erase k).countP (fun j => isLive v ((s.setStrand k x).strand j)) =
        (s.strands.erase k).countP fun j => isLive v (s.strand j) := by
      refine List.countP_congr fun j hj => ?_
      rw [strand_setStrand_of_ne ((hmem j).mp hj).1]
    exact hrest.le.trans (List.Sublist.countP_le List.erase_sublist)

lemma users_removeStrand (h : StrandsOk par s) (x : ClientStrand) (j g : ℕ) :
    ((s.setStrand k x).removeStrand k).users j g = if j = k then 0 else s.users j g := by
  have hmem : j ∈ s.strands.erase k ↔ j ≠ k ∧ j ∈ s.strands := h.nodup.mem_erase_iff
  change (if j ∈ s.strands.erase k then ((s.setStrand k x).strand j).clients.count ⟨g, true⟩ else 0) = _
  simp only [hmem]
  split_ifs with hj hjk hjk
  · exact absurd hjk hj.1
  · rw [strand_setStrand_of_ne hjk, users, if_pos hj.2]
  · rfl
  · rw [users, if_neg fun hk => hj ⟨hjk, hk⟩]

/-! ### Threads -/

lemma strandsOk_setPhase (phase : CallerPhase) (h : StrandsOk par s) : StrandsOk par (s.setPhase t phase) :=
  ⟨h.nodup, h.known, h.links, h.strand, h.limit⟩

lemma caller_setPhase_self (ht : t < s.callers.length) (phase : CallerPhase) :
    (s.setPhase t phase).caller t = { s.caller t with phase } := by
  simp [caller, setPhase, List.getD_eq_getElem?_getD, ht]

lemma lt_length_of_phase (ht : (s.caller t).phase ≠ .done) : t < s.callers.length := by
  by_contra hlt
  exact ht (congrArg RopeCaller.phase (List.getD_eq_default s.callers blank (Nat.le_of_not_lt hlt)))

/-- All threads but one are as before. -/
lemma forall_callers_set {p : RopeCaller → Prop} {l : List RopeCaller} {c : RopeCaller}
    (h : ∀ c ∈ l, p c) (hc : p c) : ∀ c' ∈ l.set t c, p c' := by
  intro c' hc'
  rcases List.mem_or_eq_of_mem_set hc' with hc' | rfl
  · exact h c' hc'
  · exact hc

/-- A thread that has a reference moves on. -/
lemma Ok.moves {s1 : GIOPRope} {phase : CallerPhase} (h : Ok par s) (hs : StrandsOk par s1)
    (ht : t < s.callers.length) (href : s.refcount ≠ 0)
    (hrest : s1.callers = s.callers ∧ s1.refcount = s.refcount ∧ s1.deleted = s.deleted ∧
      s1.failed = s.failed)
    (hcalls : ∀ k g, s1.users k g + (if (s.caller t).phase = .calling k g then 1 else 0)
      = s.users k g + if phase = .calling k g then 1 else 0)
    (hnwaiting : s1.nwaiting + (if (s.caller t).waits then 1 else 0)
      = s.nwaiting + if phase = .waiting false ∨ phase = .waiting true then 1 else 0)
    (hfiltering : (if s1.filtering then 1 else 0) + (if (s.caller t).phase = .filtering then 1 else 0)
      = (if s.filtering then 1 else 0) + if phase = .filtering then 1 else 0)
    (hfilterWait : s1.filtering = false → phase ≠ .filterWait false ∧
      ∀ c ∈ s.callers, c.phase ≠ .filterWait false) : Ok par (s1.setPhase t phase) := by
  obtain ⟨hcallers, hrefcount, hdeleted, hfailed⟩ := hrest
  have hset : (s1.setPhase t phase).callers = s.callers.set t { s.caller t with phase } := by
    rw [setPhase, hcallers, caller, hcallers]
    rfl
  have hm : MovesTo blank s.callers (s1.setPhase t phase).callers t { s.caller t with phase } := by
    rw [hset]
    exact movesTo_set_of_lt ht _
  refine h.change (strandsOk_setPhase phase hs) hm (hfailed.trans h.failed) (fun k g => ?_) ?_ ?_ ?_ ?_ ?_
  · have hc := hcalls k g
    simp only [uses, decide_eq_true_eq]
    exact hc
  · simp only [waits, decide_eq_true_eq] at hnwaiting ⊢
    exact hnwaiting
  · simp only [filters, decide_eq_true_eq]
    exact hfiltering
  · intro hf
    rw [hset]
    exact forall_callers_set (hfilterWait hf).2 (hfilterWait hf).1
  · intro hzero
    exact absurd (hrefcount.symm.trans hzero) href
  · intro hd
    exact absurd (h.deleted (hdeleted.symm.trans hd)).1 href

/-- A thread that holds the lock gets a `GIOP_C`. -/
lemma Ok.calls_of_done {s1 : GIOPRope} (h : Ok par s) (hs : StrandsOk par s1)
    (ht : t < s.callers.length) (href : s.refcount ≠ 0) (hdone : (s.caller t).phase = .done)
    (hrest : s1.callers = s.callers ∧ s1.refcount = s.refcount ∧ s1.deleted = s.deleted ∧
      s1.failed = s.failed) (hnwaiting : s1.nwaiting = s.nwaiting) (hfiltering : s1.filtering = s.filtering)
    (hcalls : ∀ j i, s1.users j i = s.users j i + if k = j ∧ g = i then 1 else 0) :
    Ok par (s1.setPhase t (.calling k g)) := by
  refine h.moves hs ht href hrest (fun j i => ?_) ?_ ?_ fun hf => ⟨by simp, h.filterWait (hfiltering ▸ hf)⟩
  · rw [hcalls]
    simp [hdone]
  · simp [hnwaiting, waits, hdone]
  · simp [hfiltering, hdone]

lemma give_of_idle {i : ℕ} (hi : (s.strand k).clients = [⟨i, false⟩]) :
    s.give t k = (s.setStrand k ((s.strand k).useClient i)).setPhase t (.calling k i) := by
  rw [give, hi]
  rfl

lemma count_useClient {i : ℕ} (hi : x.clients = [⟨i, false⟩]) (j : ℕ) :
    (x.useClient i).clients.count ⟨j, true⟩ = x.clients.count ⟨j, true⟩ + if i = j then 1 else 0 := by
  simp [ClientStrand.useClient, hi, List.count_singleton]

lemma count_newClient (x : ClientStrand) (j : ℕ) : x.newClient.clients.count ⟨j, true⟩ =
    x.clients.count ⟨j, true⟩ + if x.nClients = j then 1 else 0 := by
  simp [ClientStrand.newClient, List.count_append, List.count_singleton]

/-- The users of a strand that has one more. -/
lemma users_setStrand_add (hk : k ∈ s.strands)
    (hx : ∀ i, x.clients.count ⟨i, true⟩ = (s.strand k).clients.count ⟨i, true⟩ + if g = i then 1 else 0)
    (j i : ℕ) : (s.setStrand k x).users j i = s.users j i + if k = j ∧ g = i then 1 else 0 := by
  rw [users_setStrand hk]
  split_ifs with hj hand hand
  · rw [hj, users_of_mem hk, hx, if_pos hand.2]
  · rw [hj, users_of_mem hk, hx, if_neg fun hg => hand ⟨hj.symm, hg⟩]
  · exact absurd hand.1.symm hj
  · rfl

lemma Ok.reuse (h : Ok par s) (ht : t < s.callers.length) (href : s.refcount ≠ 0)
    (hdone : (s.caller t).phase = .done) (hk : k ∈ s.strands) (hidle : (s.strand k).isIdle v = true) :
    Ok par (s.give t k) := by
  have hx := h.strand k hk
  obtain ⟨i, hi⟩ := hx.eq_of_isIdle hidle
  rw [give_of_idle hi]
  refine h.calls_of_done ?_ ht href hdone ⟨rfl, rfl, rfl, rfl⟩ rfl rfl
    (users_setStrand_add hk (count_useClient hi))
  exact h.setStrand (hx.useClient hi) fun v hv => by rwa [isLive_useClient] at hv

lemma Ok.share (h : Ok par s) (ht : t < s.callers.length) (href : s.refcount ≠ 0)
    (hdone : (s.caller t).phase = .done) (hk : k ∈ s.strands) (hbusy : (s.strand k).isBusy v = true)
    (hone : par.oneCallPerConnection = false) : Ok par (s.giveNew t k) := by
  refine h.calls_of_done ?_ ht href hdone ⟨rfl, rfl, rfl, rfl⟩ rfl rfl
    (users_setStrand_add hk (count_newClient _))
  exact h.setStrand ((h.strand k hk).newClient hbusy hone) fun v hv => by rwa [isLive_newClient] at hv

/-- The rope has one strand more. -/
def addStrand (s : GIOPRope) (x : ClientStrand) : GIOPRope :=
  { s.setStrand s.nStrands x with
    strands := s.strands ++ [s.nStrands]
    active := s.active ++ [s.nStrands]
    nStrands := s.nStrands + 1 }

lemma giveNew_newStrand : (s.newStrand v).giveNew t s.nStrands =
    (s.addStrand (newClient ⟨v, .active, -1, [], 0⟩)).setPhase t (.calling s.nStrands 0) := by
  simp [giveNew, newStrand, addStrand, setStrand]

@[simp] lemma strand_addStrand_self : (s.addStrand x).strand s.nStrands = x := strand_setStrand_self x

lemma StrandsOk.notMem (h : StrandsOk par s) : s.nStrands ∉ s.strands := fun hmem => (h.known _ hmem).false

lemma StrandsOk.strand_addStrand (h : StrandsOk par s) (hk : k ∈ s.strands) :
    (s.addStrand x).strand k = s.strand k :=
  strand_setStrand_of_ne (ne_of_mem_of_not_mem hk h.notMem) x

lemma StrandsOk.countStrands_addStrand (h : StrandsOk par s) (x : ClientStrand) (f : ClientStrand → Bool) :
    (s.addStrand x).countStrands f = s.countStrands f + if f x then 1 else 0 := by
  have hold : s.strands.countP (fun k => f ((s.addStrand x).strand k)) = s.countStrands f :=
    List.countP_congr fun k hk => by rw [h.strand_addStrand hk]
  change (s.strands ++ [s.nStrands]).countP (fun k => f ((s.addStrand x).strand k)) = _
  rw [List.countP_append, List.countP_singleton, strand_addStrand_self, hold]

lemma mem_addStrand : k ∈ (s.addStrand x).strands ↔ k ∈ s.strands ∨ k = s.nStrands := by
  simp [addStrand]

lemma links_addStrand : (s.addStrand x).links k = s.links k + if k = s.nStrands then 1 else 0 := by
  simp only [links, addStrand, setStrand, List.count_append, List.count_singleton, beq_iff_eq,
    eq_comm (a := k)]
  omega

lemma StrandsOk.addStrand (h : StrandsOk par s) (hidle : s.countStrands (isIdle v) = 0)
    (hroom : s.countStrands (isBusy v) + s.countStrands isDying < par.maxStrands)
    (hx : x.Ok par) (hv : ∀ v', x.isLive v' = true → v' = v) : StrandsOk par (s.addStrand x) := by
  refine ⟨?_, fun k hk => ?_, fun k => ?_, fun k hk => ?_, fun v' => ?_⟩
  · refine List.nodup_append.mpr ⟨h.nodup, List.nodup_singleton _, ?_⟩
    intro a ha b hb heq
    rw [heq, List.mem_singleton.mp hb] at ha
    exact h.notMem ha
  · rcases mem_addStrand.mp hk with hk | rfl
    · exact Nat.lt_succ_of_lt (h.known k hk)
    · exact Nat.lt_succ_self _
  · rw [links_addStrand, h.links]
    simp only [mem_addStrand]
    by_cases hk : k = s.nStrands
    · simp [hk, h.notMem]
    · simp [hk]
  · rcases mem_addStrand.mp hk with hk | rfl
    · rw [h.strand_addStrand hk]
      exact h.strand k hk
    · rw [strand_addStrand_self]
      exact hx
  · rw [h.countStrands_addStrand]
    split_ifs with hlive
    · rw [hv v' hlive, countStrands_isLive, hidle]
      omega
    · exact h.limit v'

lemma StrandsOk.users_addStrand (h : StrandsOk par s) (j i : ℕ) : (s.addStrand x).users j i =
    s.users j i + if j = s.nStrands then x.clients.count ⟨i, true⟩ else 0 := by
  simp only [users, mem_addStrand]
  by_cases hj : j ∈ s.strands
  · have hne : j ≠ s.nStrands := fun heq => h.notMem (heq ▸ hj)
    simp [hj, hne, h.strand_addStrand hj]
  · by_cases heq : j = s.nStrands
    · subst heq
      simp [hj]
    · simp [hj, heq]

lemma Ok.fresh (h : Ok par s) (ht : t < s.callers.length) (href : s.refcount ≠ 0)
    (hdone : (s.caller t).phase = .done) (hidle : s.countStrands (isIdle v) = 0)
    (hroom : s.countStrands (isBusy v) + s.countStrands isDying < par.maxStrands) :
    Ok par ((s.newStrand v).giveNew t s.nStrands) := by
  have hx : (newClient ⟨v, .active, -1, [], 0⟩).Ok par :=
    newClient_ok (by simp) (by simp) (by simp) (by simp) (by simp)
  rw [giveNew_newStrand]
  refine h.calls_of_done (h.toStrandsOk.addStrand hidle hroom hx ?_) ht href hdone ⟨rfl, rfl, rfl, rfl⟩ rfl rfl
    fun j i => ?_
  · intro v' hv'
    rw [isLive_newClient, isLive, Bool.and_eq_true, decide_eq_true_eq] at hv'
    exact hv'.2.symm
  · rw [h.users_addStrand, count_newClient]
    simp only [List.count_nil, zero_add, ite_and, eq_comm (a := j)]

/-- `resetAddressOrder` does nothing, or the addresses are gone. -/
lemma resetAddressOrder_cases (par : RopeParameters) (s : GIOPRope) : ∃ hasAddress addrsFiltered,
    s.resetAddressOrder par = { s with hasAddress, addrsFiltered } ∧
      (hasAddress = true → s.hasAddress = true) := by
  rw [resetAddressOrder]
  split
  · exact ⟨s.hasAddress, s.addrsFiltered, rfl, id⟩
  · exact ⟨false, false, rfl, nofun⟩

/-- A thread that is not in a call moves on, and not to a call. -/
lemma Ok.movesOn {s1 : GIOPRope} {phase : CallerPhase} (h : Ok par s) (ht : t < s.callers.length)
    (href : s.refcount ≠ 0)
    (hrest : s1.callers = s.callers ∧ s1.refcount = s.refcount ∧ s1.deleted = s.deleted ∧
      s1.failed = s.failed)
    (hstrands : StrandsOk par s1) (husers : s1.users = s.users)
    (hold : ∀ k g, (s.caller t).phase ≠ .calling k g) (hnew : ∀ k g, phase ≠ .calling k g)
    (hnwaiting : s1.nwaiting + (if (s.caller t).waits then 1 else 0)
      = s.nwaiting + if phase = .waiting false ∨ phase = .waiting true then 1 else 0)
    (hfiltering : (if s1.filtering then 1 else 0) + (if (s.caller t).phase = .filtering then 1 else 0)
      = (if s.filtering then 1 else 0) + if phase = .filtering then 1 else 0)
    (hfilterWait : s1.filtering = false → phase ≠ .filterWait false ∧
      ∀ c ∈ s.callers, c.phase ≠ .filterWait false) : Ok par (s1.setPhase t phase) := by
  refine h.moves hstrands ht href hrest (fun j i => ?_) hnwaiting hfiltering hfilterWait
  simp [husers, hold, hnew]

/-- A thread that held the lock moves on, and not to a call. -/
lemma Ok.moves_of_done {s1 : GIOPRope} {phase : CallerPhase} (h : Ok par s) (ht : t < s.callers.length)
    (href : s.refcount ≠ 0) (hdone : (s.caller t).phase = .done)
    (hrest : s1.callers = s.callers ∧ s1.refcount = s.refcount ∧ s1.deleted = s.deleted ∧
      s1.failed = s.failed)
    (hstrands : StrandsOk par s1) (husers : s1.users = s.users) (hnew : ∀ k g, phase ≠ .calling k g)
    (hnwaiting : s1.nwaiting = s.nwaiting + if phase = .waiting false ∨ phase = .waiting true then 1 else 0)
    (hfiltering : (if s1.filtering then 1 else 0) =
      (if s.filtering then 1 else 0) + if phase = .filtering then 1 else 0)
    (hfilterWait : s1.filtering = false → phase ≠ .filterWait false) : Ok par (s1.setPhase t phase) := by
  refine h.movesOn ht href hrest hstrands husers (by simp [hdone]) hnew ?_ ?_
    fun hf => ⟨hfilterWait hf, h.filterWait ?_⟩
  · simp [hnwaiting, waits, hdone]
  · simp [hfiltering, hdone]
  · by_contra hs
    rw [Bool.not_eq_false] at hs
    simp only [hf, hs, Bool.false_eq_true, if_false, if_true] at hfiltering
    omega

lemma Ok.noAddress (h : Ok par s) (ht : t < s.callers.length) (href : s.refcount ≠ 0)
    (hdone : (s.caller t).phase = .done) : Ok par ((s.resetAddressOrder par).setPhase t .done) := by
  obtain ⟨_, _, hs, -⟩ := resetAddressOrder_cases par s
  rw [hs]
  exact h.moves_of_done ht href hdone ⟨rfl, rfl, rfl, rfl⟩ ⟨h.nodup, h.known, h.links, h.strand, h.limit⟩ rfl
    (by simp) (by simp) (by simp) (by simp)

lemma Ok.wait (h : Ok par s) (ht : t < s.callers.length) (href : s.refcount ≠ 0)
    (hdone : (s.caller t).phase = .done) :
    Ok par ({ s with nwaiting := s.nwaiting + 1 }.setPhase t (.waiting false)) :=
  h.moves_of_done ht href hdone ⟨rfl, rfl, rfl, rfl⟩ ⟨h.nodup, h.known, h.links, h.strand, h.limit⟩ rfl
    (by simp) (by simp) (by simp) (by simp)

lemma Ok.allocates (h : Ok par s) (ht : t < s.callers.length) (href : s.refcount ≠ 0)
    (hdone : (s.caller t).phase = .done) (hs : Allocates par s t v s') : Ok par s' := by
  cases hs with
  | reuse hk hidle => exact h.reuse ht href hdone hk hidle
  | noAddress => exact h.noAddress ht href hdone
  | fresh hidle hroom => exact h.fresh ht href hdone hidle hroom
  | wait => exact h.wait ht href hdone
  | share hidle hone hdying hk hbusy => exact h.share ht href hdone hk hbusy hone

lemma Ok.allocate (h : Ok par s) (ht : t < s.callers.length) (href : s.refcount ≠ 0)
    (hdone : (s.caller t).phase = .done) (rand : ℕ) : Ok par (s.allocate par t rand) := by
  obtain ⟨s1, halike, hs⟩ := h.allocate_cases t rand
  refine (halike.ok h).allocates ?_ ?_ ?_ hs
  · rwa [halike.callers]
  · rwa [halike.refcount]
  · rwa [halike.caller]

lemma Ok.enter (h : Ok par s) (ht : t < s.callers.length) (href : s.refcount ≠ 0)
    (hdone : (s.caller t).phase = .done) (rand : ℕ) : Ok par (s.enter par t rand) := by
  rw [GIOPRope.enter]
  split_ifs with hfiltered hfiltering
  · exact h.allocate ht href hdone rand
  · exact h.moves_of_done ht href hdone ⟨rfl, rfl, rfl, rfl⟩ h.toStrandsOk rfl (by simp) (by simp) (by simp)
      (by simp [hfiltering])
  · exact h.moves_of_done ht href hdone ⟨rfl, rfl, rfl, rfl⟩
      ⟨h.nodup, h.known, h.links, h.strand, h.limit⟩ rfl (by simp) (by simp) (by simp [hfiltering]) (by simp)

/-- A thread calls `acquireClient`. -/
lemma Ok.newCaller (h : Ok par s) (v : GIOPVersion) : Ok par (s.newCaller v) := by
  have hcount : ∀ f : RopeCaller → Bool, f ⟨v, .done⟩ = false →
      (s.newCaller v).callers.countP f = s.callers.countP f := by
    intro f hf
    simp [GIOPRope.newCaller, List.countP_append, hf]
  have hmem : ∀ p : RopeCaller → Prop, p ⟨v, .done⟩ → (∀ c ∈ s.callers, p c) →
      ∀ c ∈ (s.newCaller v).callers, p c := by
    intro p hp hall c hc
    rcases List.mem_append.mp hc with hc | hc
    · exact hall c hc
    · rwa [List.mem_singleton.mp hc]
  exact ⟨⟨h.nodup, h.known, h.links, h.strand, h.limit⟩, h.failed,
    fun k g => (hcount _ (by simp [uses])).trans (h.calls k g),
    h.nwaiting.trans (hcount _ (by simp [waits])).symm,
    (hcount _ (by simp [filters])).trans h.filtering,
    fun hf => hmem (fun c => c.phase ≠ .filterWait false) (by simp) (h.filterWait hf),
    fun hzero => hmem (fun c => c.phase = .done) rfl (h.references hzero), h.deleted⟩

lemma Ok.acquireClient (h : Ok par s) (href : s.refcount ≠ 0) (v : GIOPVersion) (rand : ℕ) :
    Ok par ((s.newCaller v).enter par s.callers.length rand) := by
  refine (h.newCaller v).enter ?_ href ?_ rand
  · simp [GIOPRope.newCaller]
  · simp [GIOPRope.newCaller, caller]

/-! ### Threads that waited -/

lemma lt_length_of_eq {phase : CallerPhase} (hphase : (s.caller t).phase = phase) (hne : phase ≠ .done) :
    t < s.callers.length :=
  lt_length_of_phase (hphase ▸ hne)

lemma mem_callers (ht : t < s.callers.length) : s.caller t ∈ s.callers := by
  rw [caller, List.getD_eq_getElem _ _ ht]
  exact List.getElem_mem ht

/-- A thread that is in a call has a reference to the rope. -/
lemma Ok.refcount_ne_zero {phase : CallerPhase} (h : Ok par s) (hphase : (s.caller t).phase = phase)
    (hne : phase ≠ .done) : s.refcount ≠ 0 := by
  intro hzero
  have hdone := h.references hzero _ (mem_callers (lt_length_of_eq hphase hne))
  exact hne (hphase.symm.trans hdone)

lemma length_setPhase (phase : CallerPhase) : (s.setPhase t phase).callers.length = s.callers.length := by
  simp [setPhase]

lemma phase_setPhase_self (ht : t < s.callers.length) (phase : CallerPhase) :
    ((s.setPhase t phase).caller t).phase = phase := by
  rw [caller_setPhase_self ht]

lemma caller_map_wake (s : GIOPRope) (t : ℕ) :
    (s.callers.map RopeCaller.wake).getD t blank = (s.caller t).wake :=
  List.getD_map (f := RopeCaller.wake) (d := blank) ..

lemma uses_wake (k g : ℕ) (c : RopeCaller) : c.wake.uses k g = c.uses k g := by
  obtain ⟨v, phase⟩ := c
  cases phase <;> simp [wake, uses]

lemma filters_wake (c : RopeCaller) : c.wake.filters = c.filters := by
  obtain ⟨v, phase⟩ := c
  cases phase <;> simp [wake, filters]

lemma waits_wake (c : RopeCaller) : c.wake.waits = c.waits := by
  obtain ⟨v, phase⟩ := c
  cases phase <;> simp [wake, waits]

lemma sleeps_wake (c : RopeCaller) : c.wake.sleeps = false := by
  obtain ⟨v, phase⟩ := c
  cases phase <;> simp [wake, sleeps]

lemma done_wake {c : RopeCaller} (hc : c.phase = .done) : c.wake.phase = .done := by
  simp [wake, hc]

lemma filterWait_of_sleeps {c : RopeCaller} (hc : c.sleeps = false) : c.phase ≠ .filterWait false := by
  intro hphase
  simp [sleeps, hphase] at hc

/-- `pd_cond.broadcast` -/
def broadcast (s : GIOPRope) : GIOPRope := { s with callers := s.callers.map RopeCaller.wake }

lemma caller_broadcast : s.broadcast.caller t = (s.caller t).wake := caller_map_wake s t

lemma forall_callers_broadcast {p : RopeCaller → Prop} (h : ∀ c ∈ s.callers, p c.wake) :
    ∀ c ∈ s.broadcast.callers, p c := by
  intro c' hc'
  obtain ⟨c, hc, rfl⟩ := List.mem_map.mp hc'
  exact h c hc

lemma Ok.broadcast (h : Ok par s) : Ok par s.broadcast := by
  refine ⟨⟨h.nodup, h.known, h.links, h.strand, h.limit⟩, h.failed, fun k g => ?_, ?_, ?_, fun _ => ?_,
    fun hzero => ?_, h.deleted⟩
  · simp only [GIOPRope.broadcast, List.countP_map, Function.comp_def, uses_wake]
    exact h.calls k g
  · simp only [GIOPRope.broadcast, List.countP_map, Function.comp_def, waits_wake]
    exact h.nwaiting
  · simp only [GIOPRope.broadcast, List.countP_map, Function.comp_def, filters_wake]
    exact h.filtering
  · exact forall_callers_broadcast fun c _ => filterWait_of_sleeps (sleeps_wake c)
  · exact forall_callers_broadcast fun c hc => done_wake (h.references hzero c hc)

/-- The thread that filtered the addresses has the lock once more. -/
def afterFilter (s : GIOPRope) (t : ℕ) (hasAddress : Bool) : GIOPRope :=
  { s.broadcast with filtering := false, addrsFiltered := true, hasAddress }.setPhase t .done

lemma filtered_eq (hasAddress : Bool) (rand : ℕ) :
    s.filtered par t hasAddress rand = (s.afterFilter t hasAddress).allocate par t rand := rfl

lemma Ok.filtering_of_phase (h : Ok par s) (hphase : (s.caller t).phase = .filtering) :
    s.filtering = true := by
  by_contra hf
  have hcount := h.filtering
  rw [if_neg hf] at hcount
  have hnot := List.countP_eq_zero.mp hcount _ (mem_callers (lt_length_of_eq hphase (by simp)))
  simp [filters, hphase] at hnot

lemma Ok.afterFilter (h : Ok par s) (hphase : (s.caller t).phase = .filtering) (hasAddress : Bool) :
    Ok par (s.afterFilter t hasAddress) := by
  have hwake : (s.broadcast.caller t).phase = .filtering := by simp [caller_broadcast, wake, hphase]
  have hb := h.broadcast
  have hf : s.broadcast.filtering = true := h.filtering_of_phase hphase
  have ht := lt_length_of_eq hwake (by simp)
  rw [GIOPRope.afterFilter]
  refine hb.movesOn ht (h.refcount_ne_zero hphase (by simp)) ⟨rfl, rfl, rfl, rfl⟩
    ⟨h.nodup, h.known, h.links, h.strand, h.limit⟩ rfl ?_ ?_ ?_ ?_ fun _ => ⟨?_, ?_⟩
  · simp [hwake]
  · simp
  · simp [waits, hwake]
  · simp [hwake, hf]
  · simp
  · exact forall_callers_broadcast fun c _ => filterWait_of_sleeps (sleeps_wake c)

lemma Ok.filtered (h : Ok par s) (hphase : (s.caller t).phase = .filtering) (hasAddress : Bool) (rand : ℕ) :
    Ok par (s.filtered par t hasAddress rand) := by
  have ht : t < s.broadcast.callers.length := by
    simpa [GIOPRope.broadcast] using lt_length_of_eq hphase (by simp)
  rw [filtered_eq]
  refine (h.afterFilter hphase hasAddress).allocate ?_ (h.refcount_ne_zero hphase (by simp)) ?_ rand
  · exact (length_setPhase _).symm ▸ ht
  · exact phase_setPhase_self ht _

/-- A thread wakes up that waited for another one to filter the addresses. -/
lemma Ok.doneFilterWait (h : Ok par s) (hphase : (s.caller t).phase = .filterWait true)
    {phase : CallerPhase} (hnew : phase = .done ∨ phase = .filterWait false ∧ s.filtering = true) :
    Ok par (s.setPhase t phase) := by
  refine h.movesOn (lt_length_of_eq hphase (by simp)) (h.refcount_ne_zero hphase (by simp))
    ⟨rfl, rfl, rfl, rfl⟩ h.toStrandsOk rfl ?_ ?_ ?_ ?_ fun hf => ⟨?_, h.filterWait hf⟩
  · simp [hphase]
  · rcases hnew with rfl | ⟨rfl, -⟩ <;> simp
  · rcases hnew with rfl | ⟨rfl, -⟩ <;> simp [waits, hphase]
  · rcases hnew with rfl | ⟨rfl, -⟩ <;> simp [hphase]
  · rcases hnew with rfl | ⟨rfl, hfiltering⟩
    · simp
    · simp [hf] at hfiltering

lemma Ok.nwaiting_pos (h : Ok par s) {b : Bool} (hphase : (s.caller t).phase = .waiting b) :
    0 < s.nwaiting := by
  rw [h.nwaiting]
  refine List.countP_pos_iff.mpr ⟨_, mem_callers (lt_length_of_eq hphase (by simp)), ?_⟩
  cases b <;> simp [waits, hphase]

/-- A thread does not wait for a strand any more. -/
lemma Ok.doneWaiting (h : Ok par s) {b : Bool} (hphase : (s.caller t).phase = .waiting b) :
    Ok par ({ s with nwaiting := s.nwaiting - 1 }.setPhase t .done) := by
  refine h.movesOn (lt_length_of_eq hphase (by simp)) (h.refcount_ne_zero hphase (by simp))
    ⟨rfl, rfl, rfl, rfl⟩ ⟨h.nodup, h.known, h.links, h.strand, h.limit⟩ rfl ?_ ?_ ?_ ?_
    fun hf => ⟨?_, h.filterWait hf⟩
  · simp [hphase]
  · simp
  · have hpos := h.nwaiting_pos hphase
    have hwaits : (s.caller t).waits = true := by cases b <;> simp [waits, hphase]
    rw [hwaits]
    exact Nat.sub_add_cancel hpos
  · simp [hphase]
  · simp

lemma Ok.resume (h : Ok par s) {rand : ℕ} (hs : s.resume par t rand = some s') : Ok par s' := by
  rw [GIOPRope.resume] at hs
  split at hs
  next hphase =>
    have ht := lt_length_of_eq hphase (by simp)
    obtain rfl := Option.some.inj hs
    split_ifs with hf
    · exact h.doneFilterWait hphase (.inr ⟨rfl, hf⟩)
    · exact (h.doneFilterWait hphase (.inl rfl)).enter ((length_setPhase _).symm ▸ ht)
        (h.refcount_ne_zero hphase (by simp)) (phase_setPhase_self ht _) rand
  next hphase =>
    have ht := lt_length_of_eq hphase (by simp)
    obtain rfl := Option.some.inj hs
    exact (h.doneWaiting hphase).allocate ((length_setPhase _).symm ▸ ht)
      (h.refcount_ne_zero hphase (by simp)) (phase_setPhase_self (s := { s with nwaiting := _ }) ht _) rand
  next => cases hs

/-! ### releaseClient -/

/-- A thread that is in a call uses a `GIOP_C` of a strand of the rope. -/
lemma Ok.calling (h : Ok par s) (hphase : (s.caller t).phase = .calling k g) :
    k ∈ s.strands ∧ ⟨g, true⟩ ∈ (s.strand k).clients := by
  have hpos : 0 < s.callers.countP (uses k g) := by
    refine List.countP_pos_iff.mpr ⟨_, mem_callers (lt_length_of_eq hphase (by simp)), ?_⟩
    simp [uses, hphase]
  rw [h.calls, users] at hpos
  split_ifs at hpos with hk
  · exact ⟨hk, List.count_pos_iff.mp hpos⟩
  · cases hpos

/-- The call of a thread is over. -/
lemma Ok.doneCalling {s1 : GIOPRope} (h : Ok par s) (hphase : (s.caller t).phase = .calling k g)
    (hs : StrandsOk par s1)
    (hrest : s1.callers = s.callers ∧ s1.refcount = s.refcount ∧ s1.deleted = s.deleted ∧
      s1.failed = s.failed) (hnwaiting : s1.nwaiting = s.nwaiting) (hfiltering : s1.filtering = s.filtering)
    (husers : ∀ j i, s1.users j i + (if k = j ∧ g = i then 1 else 0) = s.users j i) :
    Ok par (s1.setPhase t .done) := by
  refine h.moves hs (lt_length_of_eq hphase (by simp)) (h.refcount_ne_zero hphase (by simp)) hrest
    (fun j i => ?_) ?_ ?_ fun hf => ⟨by simp, h.filterWait (hfiltering ▸ hf)⟩
  · rw [hphase, ← husers j i]
    simp
  · simp [hnwaiting, waits, hphase]
  · simp [hfiltering, hphase]

/-- The users of a strand that has one less. -/
lemma users_setStrand_sub (hk : k ∈ s.strands)
    (hx : ∀ i, x.clients.count ⟨i, true⟩ + (if g = i then 1 else 0) = (s.strand k).clients.count ⟨i, true⟩)
    (j i : ℕ) : (s.setStrand k x).users j i + (if k = j ∧ g = i then 1 else 0) = s.users j i := by
  rw [users_setStrand hk]
  split_ifs with hj hand hand
  · rw [hj, users_of_mem hk, ← hx, if_pos hand.2]
  · rw [hj, users_of_mem hk, ← hx, if_neg fun hg => hand ⟨hj.symm, hg⟩]
  · exact absurd hand.1.symm hj
  · rfl

/-- The ways in which a strand is left by a `GIOP_C`. -/
inductive Detaches (par : RopeParameters) (s : GIOPRope) (k g : ℕ) : GIOPRope × Bool → Prop
  | remove (hnil : (s.strand k).clients.filter (fun c => c.id ≠ g) = []) (x : ClientStrand) :
      Detaches par s k g ((s.setStrand k x).removeStrand k, true)
  | dying (hne : (s.strand k).clients.filter (fun c => c.id ≠ g) ≠ []) :
      Detaches par s k g (s.setStrand k { s.strand k with
        clients := (s.strand k).clients.filter fun c => c.id ≠ g, state := .dying }, true)
  | leave (hne : (s.strand k).clients.filter (fun c => c.id ≠ g) ≠ []) :
      Detaches par s k g (s.setStrand k { s.strand k with
        clients := (s.strand k).clients.filter fun c => c.id ≠ g }, false)
  | rest (hnil : (s.strand k).clients.filter (fun c => c.id ≠ g) = []) :
      Detaches par s k g
        (s.setStrand k (startIdleCounter par { s.strand k with clients := [⟨g, false⟩] }), true)

lemma detaches (par : RopeParameters) (s : GIOPRope) (k g : ℕ) (idle : Bool) :
    Detaches par s k g (s.detach par k g idle) := by
  rw [detach]
  cases idle with
  | false =>
    simp only [Bool.false_eq_true, if_false, if_true]
    split_ifs with hnil
    · exact .remove hnil _
    · exact .dying hnil
  | true =>
    simp only [if_true]
    split_ifs with hstate hnil hne
    · exact .remove hnil _
    · rw [hstate]
      exact .dying hnil
    · exact .leave hne
    · exact .rest (not_not.mp hne)

lemma Ok.detach (h : Ok par s) (hphase : (s.caller t).phase = .calling k g) {r : GIOPRope × Bool}
    (hr : Detaches par s k g r) : Ok par (r.1.setPhase t .done) := by
  obtain ⟨hk, hg⟩ := h.calling hphase
  have hx := h.strand k hk
  have hleave := hx.count_leave hg
  cases hr with
  | remove hnil x =>
    refine h.doneCalling hphase (h.removeStrand k x) ⟨rfl, rfl, rfl, rfl⟩ rfl rfl fun j i => ?_
    have hi := hleave i
    rw [hnil, List.count_nil, zero_add] at hi
    rw [users_removeStrand h.toStrandsOk]
    split_ifs with hj hand hand
    · rw [hj, users_of_mem hk, ← hi, if_pos hand.2]
    · rw [hj, users_of_mem hk, ← hi, if_neg fun hg => hand ⟨hj.symm, hg⟩]
    · exact absurd hand.1.symm hj
    · rfl
  | dying hne =>
    refine h.doneCalling hphase (h.setStrand (hx.leave hg hne _) fun v hv => ?_) ⟨rfl, rfl, rfl, rfl⟩ rfl rfl
      (users_setStrand_sub hk hleave)
    simp [isLive, isDying] at hv
  | leave hne =>
    exact h.doneCalling hphase (h.setStrand (hx.leave hg hne _) fun v hv => hv) ⟨rfl, rfl, rfl, rfl⟩ rfl rfl
      (users_setStrand_sub hk hleave)
  | rest hnil =>
    refine h.doneCalling hphase (h.setStrand (hx.rest hg) fun v hv => ?_) ⟨rfl, rfl, rfl, rfl⟩ rfl rfl
      (users_setStrand_sub hk fun i => ?_)
    · rwa [startIdleCounter_eq] at hv
    · rw [startIdleCounter_eq, ← hleave i, hnil]
      simp

/-- `pd_cond.signal` -/
lemma Ok.signal (h : Ok par s) {w : Option ℕ} (hw : s.MayWake w) : Ok par (s.signal w) := by
  cases w with
  | none => exact h
  | some w =>
    have hlt : w < s.callers.length := by
      refine lt_length_of_phase fun hdone => ?_
      simp [MayWake, sleeps, hdone] at hw
    have hm : MovesTo blank s.callers (s.signal (some w)).callers w (s.caller w).wake :=
      movesTo_set_of_lt hlt _
    refine h.change ⟨h.nodup, h.known, h.links, h.strand, h.limit⟩ hm h.failed (fun k g => ?_) ?_ ?_
      (fun hf => ?_) (fun hzero => ?_) h.deleted
    · rw [uses_wake]
      rfl
    · rw [waits_wake]
      rfl
    · rw [filters_wake]
      rfl
    · exact forall_callers_set (h.filterWait hf) (filterWait_of_sleeps (sleeps_wake _))
    · refine forall_callers_set (h.references hzero) (done_wake ?_)
      exact h.references hzero _ (mem_callers hlt)

lemma Ok.releaseClient (h : Ok par s) {idle : Bool} {w : Option ℕ}
    (hs : s.releaseClient par t idle w = some s') : Ok par s' := by
  rw [GIOPRope.releaseClient] at hs
  split at hs
  next k g hphase =>
    have hok := h.detach hphase (detaches par s k g idle)
    simp only at hs
    split_ifs at hs with hsignal hwake hw
    · obtain rfl := Option.some.inj hs
      exact hok.signal hwake
    · obtain rfl := Option.some.inj hs
      exact hok
  next => cases hs

end GIOPRope

end OmniORB
