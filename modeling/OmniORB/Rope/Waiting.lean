import OmniORB.Rope.Scavenging

/-!
# Threads that wait for a strand

Which steps leave a thread waiting that could go on.
-/

namespace OmniORB

open Library ClientStrand RopeCaller

namespace ClientStrand

variable {par : RopeParameters} {x : ClientStrand} {v v' : GIOPVersion} {g : ℕ}

lemma version_of_isLive (h : x.isLive v = true) : x.version = v := of_decide_eq_true (Bool.and_eq_true_iff.mp h).2

lemma isDying_of_isLive (h : x.isLive v = true) : x.isDying = false := by
  simpa using (Bool.and_eq_true_iff.mp h).1

lemma isLive_eq (h : x.isLive v = true) (v' : GIOPVersion) : x.isLive v' = decide (v' = v) := by
  rw [isLive, isDying_of_isLive h, version_of_isLive h, Bool.not_false, Bool.true_and]
  exact decide_eq_decide.mpr eq_comm

/-- A strand whose `GIOP_C` are used is busy if it may be used. -/
lemma isBusy_of_used (hne : x.clients ≠ []) (hused : ∀ c ∈ x.clients, c.used = true) (v : GIOPVersion) :
    x.isBusy v = x.isLive v := by
  rw [isBusy, List.all_eq_true.mpr hused]
  simp [hne]

lemma isIdle_of_used (hne : x.clients ≠ []) (hused : ∀ c ∈ x.clients, c.used = true) (v : GIOPVersion) :
    x.isIdle v = false := by
  rw [isIdle, isBusy_of_used hne hused]
  simp

lemma isBusy_of_unused (h : x.clients = [⟨g, false⟩]) (v : GIOPVersion) : x.isBusy v = false := by
  simp [isBusy, h]

lemma isIdle_of_unused (h : x.clients = [⟨g, false⟩]) (v : GIOPVersion) : x.isIdle v = x.isLive v := by
  rw [isIdle, isBusy_of_unused h]
  simp

lemma isDying_useClient : (x.useClient g).isDying = x.isDying := by
  rw [useClient, stopIdleCounter_eq]
  rfl

lemma isDying_newClient : x.newClient.isDying = x.isDying := by
  rw [newClient, stopIdleCounter_eq]
  rfl

end ClientStrand

namespace GIOPRope

variable {par : RopeParameters} {s s' : GIOPRope} {v v' : GIOPVersion} {k t g : ℕ} {x : ClientStrand}

/-- A strand could be used or created for a call of the version, also if there were only so many that
are DYING, and if `n` calls of the version were to come first. -/
def HasRoom (par : RopeParameters) (s : GIOPRope) (v : GIOPVersion) (ndying n : ℕ) : Prop :=
  n < s.countStrands (isIdle v) ∨
    s.hasAddress = true ∧ s.countStrands (isBusy v) + n + ndying < par.maxStrands ∨
    par.oneCallPerConnection = false ∧ ndying < par.maxStrands ∧
      (0 < s.countStrands (isBusy v) ∨ 0 < n ∧ (0 < s.countStrands (isIdle v) ∨ s.hasAddress = true))

instance (ndying n : ℕ) : Decidable (s.HasRoom par v ndying n) := inferInstanceAs (Decidable (_ ∨ _))

/-- A strand could be used or created for a call of the version. -/
def Available (par : RopeParameters) (s : GIOPRope) (v : GIOPVersion) : Prop :=
  s.HasRoom par v (s.countStrands isDying) 0

/-- `pd_cond` has been signalled for a thread that waits, or will be for all. -/
def WakeUpPending (s : GIOPRope) : Prop := s.filtering = true ∨ ∃ c ∈ s.callers, c.phase = .waiting true

instance (s : GIOPRope) : Decidable s.WakeUpPending := inferInstanceAs (Decidable (_ ∨ ∃ c ∈ s.callers, _))

/-- No thread waits in vain. -/
def Woken (par : RopeParameters) (s : GIOPRope) : Prop :=
  ∀ c ∈ s.callers, c.phase = .waiting false → s.Available par c.version → s.WakeUpPending

lemma Woken.mono (h : s.Woken par)
    (hcallers : ∀ c ∈ s'.callers, c.phase = .waiting false → c ∈ s.callers ∨ ¬s'.Available par c.version)
    (hpending : s.WakeUpPending → s'.WakeUpPending)
    (hroom : ∀ v, s'.Available par v → s.Available par v) : s'.Woken par := by
  intro c hc hphase havailable
  rcases hcallers c hc hphase with hold | hnot
  · exact hpending (h c hold hphase (hroom _ havailable))
  · exact absurd havailable hnot

/-- No thread sleeps that waits for a strand. -/
lemma woken_of_not_waiting (h : ∀ c ∈ s.callers, c.phase ≠ .waiting false) : s.Woken par :=
  fun c hc hphase => absurd hphase (h c hc)

lemma HasRoom.less {ndying : ℕ} (h : s.HasRoom par v ndying 1) : s.HasRoom par v ndying 0 := by
  rcases h with hidle | ⟨haddress, hlt⟩ | ⟨hone, hdying, hbusy | ⟨-, hidle | haddress⟩⟩
  · exact .inl (by omega)
  · exact .inr (.inl ⟨haddress, by omega⟩)
  · exact .inr (.inr ⟨hone, hdying, .inl hbusy⟩)
  · exact .inl hidle
  · by_cases hbusy : 0 < s.countStrands (isBusy v)
    · exact .inr (.inr ⟨hone, hdying, .inl hbusy⟩)
    · exact .inr (.inl ⟨haddress, by omega⟩)

/-! ### What is available after an allocation -/

lemma give_rest (s : GIOPRope) (t k : ℕ) : ∃ x phase, s.give t k = (s.setStrand k x).setPhase t phase := by
  rw [give]
  split
  · exact ⟨_, _, rfl⟩
  · exact ⟨_, _, rfl⟩

lemma hasAddress_give : (s.give t k).hasAddress = s.hasAddress := by
  obtain ⟨x, phase, hs⟩ := give_rest s t k
  rw [hs]
  rfl

@[simp] lemma countStrands_setPhase (phase : CallerPhase) (f : ClientStrand → Bool) :
    (s.setPhase t phase).countStrands f = s.countStrands f := rfl

lemma StrandsOk.countStrands_setStrand (h : StrandsOk par s) (hk : k ∈ s.strands) (x : ClientStrand)
    (f : ClientStrand → Bool) : (s.setStrand k x).countStrands f + (if f (s.strand k) then 1 else 0)
      = s.countStrands f + if f x then 1 else 0 :=
  countP_update h.nodup hk s.strand x f

/-- How the strands that are busy, idle or DYING change when a thread gets a `GIOP_C`. -/
lemma StrandsOk.countStrands_give (h : StrandsOk par s) (hk : k ∈ s.strands)
    (hidle : (s.strand k).isIdle v = true) (v' : GIOPVersion) :
    (s.give t k).countStrands (isBusy v') = s.countStrands (isBusy v') + (if v' = v then 1 else 0) ∧
      (s.give t k).countStrands (isIdle v') + (if v' = v then 1 else 0) = s.countStrands (isIdle v') ∧
      (s.give t k).countStrands isDying = s.countStrands isDying := by
  obtain ⟨i, hi⟩ := (h.strand k hk).eq_of_isIdle hidle
  have hlive := isLive_eq (isLive_of_isIdle hidle) v'
  have hused : ((s.strand k).useClient i).clients = [⟨i, true⟩] := by simp [useClient, hi]
  have hcount := h.countStrands_setStrand hk ((s.strand k).useClient i)
  rw [give_of_idle hi]
  refine ⟨?_, ?_, ?_⟩
  · have hb := hcount (isBusy v')
    rw [isBusy_of_unused hi, isBusy_of_used (by simp [hused]) (by simp [hused]), isLive_useClient, hlive] at hb
    simpa using hb
  · have hb := hcount (isIdle v')
    rw [isIdle_of_unused hi, isIdle_of_used (by simp [hused]) (by simp [hused]), hlive] at hb
    simpa using hb
  · have hb := hcount isDying
    rw [isDying_useClient] at hb
    exact Nat.add_right_cancel hb

lemma StrandsOk.countStrands_giveNew (h : StrandsOk par s) (hk : k ∈ s.strands)
    (hbusy : (s.strand k).isBusy v = true) (v' : GIOPVersion) :
    (s.giveNew t k).countStrands (isBusy v') = s.countStrands (isBusy v') ∧
      (s.giveNew t k).countStrands (isIdle v') = s.countStrands (isIdle v') ∧
      (s.giveNew t k).countStrands isDying = s.countStrands isDying := by
  have hused := ((h.strand k hk).all_used hbusy).1
  have hne := (h.strand k hk).nonempty
  have hused' : ∀ c ∈ (s.strand k).newClient.clients, c.used = true := by
    intro c hc
    rcases List.mem_append.mp hc with hc | hc
    · exact hused c hc
    · rw [List.mem_singleton.mp hc]
  have hne' : (s.strand k).newClient.clients ≠ [] := by simp [newClient]
  have hcount := h.countStrands_setStrand hk (s.strand k).newClient
  refine ⟨?_, ?_, ?_⟩
  · have hb := hcount (isBusy v')
    rw [isBusy_of_used hne hused, isBusy_of_used hne' hused', isLive_newClient] at hb
    exact Nat.add_right_cancel hb
  · have hb := hcount (isIdle v')
    rw [isIdle_of_used hne hused, isIdle_of_used hne' hused'] at hb
    exact hb
  · have hb := hcount isDying
    rw [isDying_newClient] at hb
    exact Nat.add_right_cancel hb

lemma StrandsOk.countStrands_fresh (h : StrandsOk par s) (v' : GIOPVersion) :
    ((s.newStrand v).giveNew t s.nStrands).countStrands (isBusy v') =
        s.countStrands (isBusy v') + (if v' = v then 1 else 0) ∧
      ((s.newStrand v).giveNew t s.nStrands).countStrands (isIdle v') = s.countStrands (isIdle v') ∧
      ((s.newStrand v).giveNew t s.nStrands).countStrands isDying = s.countStrands isDying := by
  have hne : (newClient ⟨v, .active, -1, [], 0⟩).clients ≠ [] := by simp [newClient]
  have hused : ∀ c ∈ (newClient ⟨v, .active, -1, [], 0⟩).clients, c.used = true := by simp [newClient]
  have hlive : (newClient ⟨v, .active, -1, [], 0⟩).isLive v = true := by
    rw [isLive_newClient]
    simp [isLive, isDying]
  have hcount := h.countStrands_addStrand (newClient ⟨v, .active, -1, [], 0⟩)
  rw [giveNew_newStrand]
  refine ⟨?_, ?_, ?_⟩
  · have hb := hcount (isBusy v')
    rw [isBusy_of_used hne hused, isLive_eq hlive] at hb
    simpa using hb
  · have hb := hcount (isIdle v')
    rw [isIdle_of_used hne hused] at hb
    exact hb
  · have hb := hcount isDying
    rw [isDying_of_isLive hlive] at hb
    exact hb

lemma hasRoom_congr {ndying n : ℕ} (hbusy : s'.countStrands (isBusy v) = s.countStrands (isBusy v))
    (hidle : s'.countStrands (isIdle v) = s.countStrands (isIdle v))
    (haddress : s'.hasAddress = s.hasAddress) :
    s'.HasRoom par v ndying n ↔ s.HasRoom par v ndying n := by
  rw [HasRoom, HasRoom, hbusy, hidle, haddress]

/-- Nothing is available once no strand is idle, and no other one may be used or created. -/
lemma not_available (hidle : s.countStrands (isIdle v) = 0)
    (hroom : par.maxStrands ≤ s.countStrands (isBusy v) + s.countStrands isDying)
    (hone : par.oneCallPerConnection = true ∨ par.maxStrands ≤ s.countStrands isDying) :
    ¬s.Available par v := by
  rintro (hlt | ⟨-, hlt⟩ | ⟨hshare, hlt, -⟩)
  · omega
  · omega
  · rcases hone with hone | hle
    · exact absurd (hshare.symm.trans hone) Bool.false_ne_true
    · omega

/-- What is available after an allocation was available before, after one call more of the version. -/
lemma StrandsOk.hasRoom_of_allocates (h : StrandsOk par s) (hs : Allocates par s t v s')
    (havailable : s'.Available par v') :
    s.HasRoom par v' (s.countStrands isDying) (if v' = v then 1 else 0) := by
  cases hs with
  | @reuse k hk hidle =>
    obtain ⟨hbusy', hidle', hdying'⟩ := h.countStrands_give (t := t) hk hidle v'
    rw [Available, hdying'] at havailable
    split_ifs at hbusy' hidle' ⊢ with hv
    · have hpos : 0 < s.countStrands (isIdle v') := by omega
      rcases havailable with hlt | ⟨haddress, hlt⟩ | ⟨hone, hlt, -⟩
      · exact .inl (by omega)
      · refine .inr (.inl ⟨?_, by omega⟩)
        rwa [hasAddress_give] at haddress
      · exact .inr (.inr ⟨hone, hlt, .inr ⟨Nat.one_pos, .inl hpos⟩⟩)
    · exact (hasRoom_congr hbusy' hidle' hasAddress_give).mp havailable
  | noAddress hidle hroom haddress =>
    obtain ⟨a, _, hs, ha⟩ := resetAddressOrder_cases par s
    have haddress' : a = s.hasAddress := by
      rw [haddress, ← Bool.not_eq_true]
      exact fun htrue => absurd (haddress.symm.trans (ha htrue)) Bool.false_ne_true
    subst haddress'
    rw [hs] at havailable
    replace havailable : s.Available par v' := havailable
    split_ifs with hv
    · subst hv
      rcases havailable with hlt | ⟨htrue, -⟩ | ⟨hone, hlt, hbusy | ⟨hlt', -⟩⟩
      · omega
      · exact absurd (haddress.symm.trans htrue) Bool.false_ne_true
      · exact .inr (.inr ⟨hone, hlt, .inl hbusy⟩)
      · cases hlt'
    · exact havailable
  | fresh hidle hroom haddress =>
    obtain ⟨hbusy', hidle', hdying'⟩ := h.countStrands_fresh (t := t) (v := v) v'
    rw [Available, hdying'] at havailable
    split_ifs at hbusy' ⊢ with hv
    · subst hv
      rcases havailable with hlt | ⟨-, hlt⟩ | ⟨hone, hlt, -⟩
      · omega
      · exact .inr (.inl ⟨haddress, by omega⟩)
      · exact .inr (.inr ⟨hone, hlt, .inr ⟨Nat.one_pos, .inr haddress⟩⟩)
    · exact (hasRoom_congr hbusy' hidle' rfl).mp havailable
  | wait hidle hroom hone =>
    split_ifs with hv
    · subst hv
      exact absurd havailable (not_available hidle hroom hone)
    · exact havailable
  | share hidle hone hdying hk hbusy =>
    obtain ⟨hbusy', hidle', hdying'⟩ := h.countStrands_giveNew (t := t) hk hbusy v'
    rw [Available, hdying'] at havailable
    split_ifs with hv
    · subst hv
      refine .inr (.inr ⟨hone, hdying, .inl ?_⟩)
      exact List.countP_pos_iff.mpr ⟨_, hk, hbusy⟩
    · exact (hasRoom_congr hbusy' hidle' rfl).mp havailable

/-- The callers after an allocation. A thread waits only if nothing is available to it. -/
lemma Allocates.callers (hs : Allocates par s t v s') (hv : (s.caller t).version = v) :
    ∃ phase, s'.callers = s.callers.set t ⟨v, phase⟩ ∧ (phase = .waiting false → ¬s'.Available par v) := by
  have hset : ∀ phase, { s.caller t with phase } = (⟨v, phase⟩ : RopeCaller) := fun phase => by rw [← hv]
  cases hs with
  | @reuse k hk hidle =>
    obtain ⟨i, hi⟩ : ∃ i, (s.give t k).callers = s.callers.set t ⟨v, .calling k i⟩ := by
      rw [give]
      split
      · exact ⟨_, congrArg _ (hset _)⟩
      · exact ⟨_, congrArg _ (hset _)⟩
    exact ⟨_, hi, by simp⟩
  | noAddress hidle hroom haddress =>
    obtain ⟨_, _, hs, -⟩ := resetAddressOrder_cases par s
    rw [hs]
    exact ⟨_, congrArg _ (hset _), by simp⟩
  | fresh hidle hroom haddress =>
    exact ⟨_, congrArg _ (hset _), by simp⟩
  | wait hidle hroom hone =>
    exact ⟨_, congrArg _ (hset _), fun _ => not_available hidle hroom hone⟩
  | share hidle hone hdying hk hbusy =>
    exact ⟨_, congrArg _ (hset _), by simp⟩

lemma Allocates.filtering (hs : Allocates par s t v s') : s'.filtering = s.filtering := by
  cases hs with
  | @reuse k hk hidle =>
    obtain ⟨x, phase, hs⟩ := give_rest s t k
    rw [hs]
    rfl
  | noAddress hidle hroom haddress =>
    obtain ⟨_, _, hs, -⟩ := resetAddressOrder_cases par s
    rw [hs]
    rfl
  | fresh => rfl
  | wait => rfl
  | share => rfl

/-! ### The steps of callers -/

lemma mem_callers_set {c x : RopeCaller} (hc : c ∈ s.callers) (hne : c ≠ s.caller t) :
    c ∈ s.callers.set t x := by
  obtain ⟨i, hi, rfl⟩ := List.getElem_of_mem hc
  have hit : t ≠ i := by
    rintro rfl
    exact hne (List.getD_eq_getElem _ _ hi).symm
  refine List.mem_iff_getElem.mpr ⟨i, by simpa using hi, ?_⟩
  rw [List.getElem_set_ne hit]

/-- A wake-up stays pending while the thread it is for does not go on. -/
lemma WakeUpPending.set {x : RopeCaller} (h : s.WakeUpPending) (ht : (s.caller t).phase ≠ .waiting true)
    (hcallers : s'.callers = s.callers.set t x) (hfiltering : s'.filtering = s.filtering) :
    s'.WakeUpPending := by
  rcases h with hf | ⟨c, hc, hphase⟩
  · exact .inl (hfiltering.trans hf)
  · refine .inr ⟨c, ?_, hphase⟩
    rw [hcallers]
    refine mem_callers_set hc ?_
    rintro rfl
    exact ht hphase

lemma Woken.alike (h : s.Woken par) (halike : Alike s s') : s'.Woken par := by
  have hdying := halike.countStrands (f := isDying) fun _ _ => ClientStrand.Alike.isDying
  refine h.mono (fun c hc _ => .inl ?_) (fun hp => ?_) fun v hv => ?_
  · rwa [halike.callers] at hc
  · rwa [WakeUpPending, halike.filtering, halike.callers]
  · rw [Available, hdying] at hv
    exact (hasRoom_congr (halike.countStrands fun _ _ => ClientStrand.Alike.isBusy)
      (halike.countStrands fun _ _ => ClientStrand.Alike.isIdle) halike.hasAddress).mp hv

/-- A thread that holds the lock allocates a `GIOP_C`, or waits. -/
lemma Woken.allocate (h : s.Woken par) (hok : StrandsOk par s) (hdone : (s.caller t).phase = .done)
    (rand : ℕ) : (s.allocate par t rand).Woken par := by
  obtain ⟨s1, halike, hs⟩ := hok.allocate_cases t rand
  have hdone1 : (s1.caller t).phase = .done := by rwa [halike.caller]
  obtain ⟨phase, hset, hnot⟩ := hs.callers (by rw [halike.caller])
  refine (h.alike halike).mono (fun c hc hphase => ?_) (fun hp => ?_) fun v hv => ?_
  · rw [hset] at hc
    rcases List.mem_or_eq_of_mem_set hc with hc | rfl
    · exact .inl hc
    · exact .inr (hnot hphase)
  · exact hp.set (by simp [hdone1]) hset hs.filtering
  · have hroom := (halike.strandsOk hok).hasRoom_of_allocates hs hv
    split_ifs at hroom
    · exact hroom.less
    · exact hroom

/-- A thread that waited allocates a `GIOP_C`, and nothing is left for the others. -/
lemma woken_allocate_of_not_hasRoom (hok : StrandsOk par s)
    (hnot : ∀ c ∈ s.callers, c.phase = .waiting false → ¬s.HasRoom par c.version (s.countStrands isDying)
      (if c.version = (s.caller t).version then 1 else 0)) (rand : ℕ) :
    (s.allocate par t rand).Woken par := by
  obtain ⟨s1, halike, hs⟩ := hok.allocate_cases t rand
  obtain ⟨phase, hset, hwaits⟩ := hs.callers (by rw [halike.caller])
  have hdying := halike.countStrands (f := isDying) fun _ _ => ClientStrand.Alike.isDying
  intro c hc hphase hv
  rw [hset] at hc
  rcases List.mem_or_eq_of_mem_set hc with hc | rfl
  · have hroom := (halike.strandsOk hok).hasRoom_of_allocates hs hv
    rw [hdying, hasRoom_congr (halike.countStrands fun _ _ => ClientStrand.Alike.isBusy)
      (halike.countStrands fun _ _ => ClientStrand.Alike.isIdle) halike.hasAddress] at hroom
    rw [halike.callers] at hc
    exact absurd hroom (hnot c hc hphase)
  · exact absurd hv (hwaits hphase)

/-- A thread moves on that was not woken for a strand, and does not wait for one. -/
lemma Woken.setPhase (h : s.Woken par) (hold : (s.caller t).phase ≠ .waiting true) {phase : CallerPhase}
    (hnew : phase ≠ .waiting false) : (s.setPhase t phase).Woken par := by
  refine h.mono (fun c hc hphase => .inl ?_) (fun hp => hp.set hold rfl rfl) fun v hv => hv
  rcases List.mem_or_eq_of_mem_set hc with hc | rfl
  · exact hc
  · exact absurd hphase hnew

lemma Woken.enter (h : s.Woken par) (hok : StrandsOk par s) (hdone : (s.caller t).phase = .done)
    (rand : ℕ) : (s.enter par t rand).Woken par := by
  rw [GIOPRope.enter]
  split_ifs
  · exact h.allocate hok hdone rand
  · exact h.setPhase (by simp [hdone]) (by simp)
  · exact fun _ _ _ _ => .inl rfl

lemma Woken.newCaller (h : s.Woken par) (v : GIOPVersion) : (s.newCaller v).Woken par := by
  refine h.mono (fun c hc hphase => .inl ?_) (fun hp => ?_) fun v hv => hv
  · rcases List.mem_append.mp hc with hc | hc
    · exact hc
    · rw [List.mem_singleton.mp hc] at hphase
      cases hphase
  · rcases hp with hf | ⟨c, hc, hphase⟩
    · exact .inl hf
    · exact .inr ⟨c, List.mem_append_left _ hc, hphase⟩

lemma Woken.acquireClient (h : s.Woken par) (hok : Ok par s) (v : GIOPVersion) (rand : ℕ) :
    ((s.newCaller v).enter par s.callers.length rand).Woken par := by
  refine (h.newCaller v).enter (hok.newCaller v).toStrandsOk ?_ rand
  simp [GIOPRope.newCaller, caller]

lemma Woken.filtered (hok : Ok par s) (hphase : (s.caller t).phase = .filtering) (hasAddress : Bool)
    (rand : ℕ) : (s.filtered par t hasAddress rand).Woken par := by
  have ht : t < s.broadcast.callers.length := by
    simpa [GIOPRope.broadcast] using lt_length_of_eq hphase (by simp)
  rw [filtered_eq]
  refine Woken.allocate (woken_of_not_waiting ?_) (hok.afterFilter hphase hasAddress).toStrandsOk
    (phase_setPhase_self ht _) rand
  refine forall_callers_set (forall_callers_broadcast fun c _ hwaiting => ?_) (by simp)
  have hawake := sleeps_wake c
  simp [sleeps, hwaiting] at hawake

/-- Which steps do not leave a thread waiting for a strand that it could have. A thread that was woken,
and is the only one, leaves nothing that is available to the others that wait. The scavenger removes no
DYING strand in whose place they could have one. -/
def KeepsWaking (par : RopeParameters) (s : GIOPRope) : RopeAction → Prop
  | .resume t _ => (s.caller t).phase = .waiting true →
    s.filtering = true ∨ (∃ w ≠ t, (s.caller w).phase = .waiting true) ∨
      ∀ c ∈ s.callers, c.phase = .waiting false → ¬s.HasRoom par c.version (s.countStrands isDying)
        (if c.version = (s.caller t).version then 1 else 0)
  | .scavenge => s.WakeUpPending ∨ ∀ c ∈ s.callers, c.phase = .waiting false →
    ¬s.HasRoom par c.version (s.countStrands fun x => x.isDying && !x.expires) 0
  | _ => True

lemma Woken.resume (h : s.Woken par) (hok : Ok par s) {rand : ℕ} (hmet : s.KeepsWaking par (.resume t rand))
    (hs : s.resume par t rand = some s') : s'.Woken par := by
  rw [GIOPRope.resume] at hs
  split at hs
  next hphase =>
    have ht := lt_length_of_eq hphase (by simp)
    obtain rfl := Option.some.inj hs
    split_ifs with hf
    · exact fun _ _ _ _ => .inl hf
    · exact (h.setPhase (by simp [hphase]) (by simp)).enter (hok.doneFilterWait hphase (.inl rfl)).toStrandsOk
        (phase_setPhase_self ht _) rand
  next hphase =>
    have ht := lt_length_of_eq hphase (by simp)
    obtain rfl := Option.some.inj hs
    have hok' := (hok.doneWaiting hphase).toStrandsOk
    have hdone := phase_setPhase_self (s := { s with nwaiting := s.nwaiting - 1 }) ht .done
    rcases hmet hphase with hf | ⟨w, hw, hwoken⟩ | hnot
    · have hpending : ({ s with nwaiting := s.nwaiting - 1 }.setPhase t .done).Woken par :=
        fun _ _ _ _ => .inl hf
      exact hpending.allocate hok' hdone rand
    · have hother : ({ s with nwaiting := s.nwaiting - 1 }.setPhase t .done).caller w = s.caller w :=
        (movesTo_set_of_lt ht _).others w hw
      have hpending : ({ s with nwaiting := s.nwaiting - 1 }.setPhase t .done).Woken par := by
        rw [← hother] at hwoken
        exact fun _ _ _ _ => .inr ⟨_, mem_callers (lt_length_of_eq hwoken (by simp)), hwoken⟩
      exact hpending.allocate hok' hdone rand
    · refine woken_allocate_of_not_hasRoom hok' (fun c hc hsleeps => ?_) rand
      rw [caller_setPhase_self (s := { s with nwaiting := s.nwaiting - 1 }) ht]
      rcases List.mem_or_eq_of_mem_set hc with hc | rfl
      · exact hnot c hc hsleeps
      · cases hsleeps
  next => cases hs

end GIOPRope

end OmniORB
