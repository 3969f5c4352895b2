import OmniORB.Rope.Waiting

/-!
# The clients of a rope

What holds in all runs of a rope, and in which of them no thread waits in vain.
-/

namespace OmniORB

open Library ClientStrand RopeCaller

namespace GIOPRope

variable {par : RopeParameters} {s s' : GIOPRope} {v : GIOPVersion} {k t g : ℕ}

/-! ### The other steps -/

lemma phase_of_mayWake {w : ℕ} (hw : s.MayWake (some w)) :
    (s.caller w).phase = .filterWait false ∨ (s.caller w).phase = .waiting false := of_decide_eq_true hw

lemma Woken.signal (hok : Ok par s) {w : Option ℕ} (hw : s.MayWake w) : (s.signal w).Woken par := by
  cases w with
  | none =>
    refine woken_of_not_waiting fun c hc hphase => ?_
    have hawake := hw c hc
    simp [sleeps, hphase] at hawake
  | some w =>
    have hphase := phase_of_mayWake hw
    have hlt : w < s.callers.length := lt_length_of_phase (by rcases hphase with h | h <;> simp [h])
    have hmem : (s.caller w).wake ∈ s.callers.set w (s.caller w).wake := List.mem_set hlt _
    rcases hphase with hphase | hphase
    · -- it waits for the addresses, and they are being filtered
      have hf : s.filtering = true := by
        by_contra hf
        exact hok.filterWait (by simpa using hf) _ (mem_callers hlt) hphase
      exact fun _ _ _ _ => .inl hf
    · exact fun _ _ _ _ => .inr ⟨_, hmem, by simp [wake, hphase]⟩

lemma Ok.not_waiting (h : Ok par s) (hzero : s.nwaiting = 0) : ∀ c ∈ s.callers, c.phase ≠ .waiting false := by
  intro c hc hphase
  rw [h.nwaiting] at hzero
  have hnot := List.countP_eq_zero.mp hzero c hc
  simp [waits, hphase] at hnot

/-- A `GIOP_C` leaves a strand that is used by others. -/
lemma Woken.leave (h : s.Woken par) (hok : Ok par s) (hphase : (s.caller t).phase = .calling k g)
    (hne : (s.strand k).clients.filter (fun c => c.id ≠ g) ≠ []) :
    ((s.setStrand k { s.strand k with
      clients := (s.strand k).clients.filter fun c => c.id ≠ g }).setPhase t .done).Woken par := by
  obtain ⟨hk, hg⟩ := hok.calling hphase
  have hx := hok.strand k hk
  have hused : ∀ c ∈ (s.strand k).clients, c.used = true := by
    refine (hx.clients.resolve_left ?_).1
    rintro ⟨i, hi⟩
    simp [hi] at hg
  have hused' : ∀ c ∈ (s.strand k).clients.filter fun c => c.id ≠ g, c.used = true :=
    fun c hc => hused c (List.mem_filter.mp hc).1
  have hcount := hok.countStrands_setStrand hk { s.strand k with
    clients := (s.strand k).clients.filter fun c => c.id ≠ g }
  have hset : (s.setStrand k { s.strand k with
      clients := (s.strand k).clients.filter fun c => c.id ≠ g }).Woken par := by
    refine h.mono (fun c hc _ => .inl hc) id fun v hv => ?_
    have hbusy := hcount (isBusy v)
    have hidle := hcount (isIdle v)
    have hdying := hcount isDying
    rw [isBusy_of_used hx.nonempty hused, isBusy_of_used hne hused'] at hbusy
    rw [isIdle_of_used hx.nonempty hused, isIdle_of_used hne hused'] at hidle
    rw [Available, Nat.add_right_cancel hdying] at hv
    exact (hasRoom_congr (Nat.add_right_cancel hbusy) (Nat.add_right_cancel hidle) rfl).mp hv
  refine hset.setPhase ?_ (by simp)
  change (s.caller t).phase ≠ _
  simp [hphase]

lemma Woken.releaseClient (h : s.Woken par) (hok : Ok par s) {idle : Bool} {w : Option ℕ}
    (hs : s.releaseClient par t idle w = some s') : s'.Woken par := by
  rw [GIOPRope.releaseClient] at hs
  split at hs
  next k g hphase =>
    have hdetach := detaches par s k g idle
    have hok' := hok.detach hphase hdetach
    simp only at hs
    generalize s.detach par k g idle = r at *
    split_ifs at hs with hsignal hwake hw
    · obtain rfl := Option.some.inj hs
      exact Woken.signal hok' hwake
    · obtain rfl := Option.some.inj hs
      by_cases hzero : (r.1.setPhase t .done).nwaiting = 0
      · exact woken_of_not_waiting (hok'.not_waiting hzero)
      · cases hdetach with
        | leave hne => exact h.leave hok hphase hne
        | remove | dying | rest => exact absurd ⟨rfl, Nat.pos_of_ne_zero hzero⟩ hsignal
  next => cases hs

lemma Woken.setDying (h : s.Woken par) (hok : Ok par s) (hk : k ∈ s.strands) :
    (s.setStrand k { s.strand k with state := .dying }).Woken par := by
  refine h.mono (fun c hc _ => .inl hc) id fun v hv => ?_
  generalize hx : { s.strand k with state := .dying } = x at *
  have hdead : x.isDying = true := by rw [← hx]; rfl
  have hlive : ∀ v, x.isLive v = false := fun v => by rw [isLive, hdead]; rfl
  have hbusy := hok.countStrands_setStrand hk x (isBusy v)
  have hidle := hok.countStrands_setStrand hk x (isIdle v)
  have hdying := hok.countStrands_setStrand hk x isDying
  rw [show x.isBusy v = false by rw [isBusy, hlive]; rfl] at hbusy
  rw [show x.isIdle v = false by rw [isIdle, hlive]; rfl] at hidle
  rw [hdead] at hdying
  have hor : (s.strand k).isBusy v = true → (s.strand k).isDying = false := fun hb =>
    isDying_of_isLive (isLive_of_isBusy hb)
  have hle : s.countStrands (isBusy v) + s.countStrands isDying ≤
      (s.setStrand k x).countStrands (isBusy v) + (s.setStrand k x).countStrands isDying := by
    by_cases hb : (s.strand k).isBusy v = true
    · simp only [hb, hor hb, if_true, Bool.false_eq_true, if_false] at hbusy hdying
      omega
    · simp only [hb, if_true, Bool.false_eq_true, if_false] at hbusy hdying
      split_ifs at hdying <;> omega
  simp only [Bool.false_eq_true, if_false, if_true, Nat.add_zero] at hbusy hidle hdying
  rcases hv with hlt | ⟨haddress, hlt⟩ | ⟨hone, hlt, hpos | ⟨hlt', -⟩⟩
  · exact .inl (by omega)
  · exact .inr (.inl ⟨haddress, by omega⟩)
  · refine .inr (.inr ⟨hone, ?_, .inl (by omega)⟩)
    split_ifs at hdying <;> omega
  · cases hlt'

lemma Woken.resetAddressOrder (h : s.Woken par) : (s.resetAddressOrder par).Woken par := by
  obtain ⟨a, _, hreset, ha⟩ := resetAddressOrder_cases par s
  rw [hreset]
  refine h.mono (fun c hc _ => .inl hc) id fun v hv => ?_
  rcases hv with hlt | ⟨haddress, hlt⟩ | ⟨hone, hlt, hpos | ⟨hlt', -⟩⟩
  · exact .inl hlt
  · exact .inr (.inl ⟨ha haddress, hlt⟩)
  · exact .inr (.inr ⟨hone, hlt, .inl hpos⟩)
  · cases hlt'

/-- What is counted of the strands that are left. -/
lemma Scavenged.countStrands {src : List ℕ} (hs : Scavenged s src s') {f : ClientStrand → Bool}
    (hf : ∀ x, f (beat x) = f x) :
    s'.countStrands f = s.strands.countP fun j => f (s.strand j) && !s.expired src j := by
  rw [GIOPRope.countStrands, hs.strands, List.countP_filter]
  refine List.countP_congr fun j _ => ?_
  rw [hs.strand]
  split_ifs
  · rw [hf]
  · rfl

lemma Woken.scavenge (hok : Ok par s) (hmet : s.KeepsWaking par .scavenge) :
    s.scavenge.Woken par := by
  obtain ⟨src, hs⟩ := hok.toStrandsOk.scavenge
  have hcallers : s.scavenge.callers = s.callers := by rw [hs.rest]
  have hfiltering : s.scavenge.filtering = s.filtering := by rw [hs.rest]
  have haddress : s.scavenge.hasAddress = s.hasAddress := by rw [hs.rest]
  have hpending : s.WakeUpPending → s.scavenge.WakeUpPending := by
    rw [WakeUpPending, WakeUpPending, hcallers, hfiltering]
    exact id
  have hbusy : ∀ v, s.scavenge.countStrands (isBusy v) = s.countStrands (isBusy v) := by
    intro v
    rw [hs.countStrands fun _ => isBusy_beat]
    refine List.countP_congr fun j hj => ?_
    cases hexpired : s.expired src j
    · simp
    · have hexpires := (Bool.and_eq_true_iff.mp hexpired).2
      simp [(hok.strand j hj).not_isBusy_of_expires hexpires]
  have hidle : ∀ v, s.scavenge.countStrands (isIdle v) ≤ s.countStrands (isIdle v) := by
    intro v
    rw [hs.countStrands fun _ => isIdle_beat]
    exact List.countP_mono_left fun j _ hj => (Bool.and_eq_true_iff.mp hj).1
  have hdying : (s.countStrands fun x => x.isDying && !x.expires) ≤ s.scavenge.countStrands isDying := by
    rw [hs.countStrands fun _ => isDying_beat]
    refine List.countP_mono_left fun j _ hj => ?_
    obtain ⟨hj, hstays⟩ := Bool.and_eq_true_iff.mp hj
    rw [Bool.not_eq_true'] at hstays
    simp [hj, expired, hstays]
  intro c hc hphase hv
  rcases hmet with hp | hnot
  · exact hpending hp
  · rw [hcallers] at hc
    refine absurd ?_ (hnot c hc hphase)
    have hb := hbusy c.version
    have hi := hidle c.version
    rcases hv with hlt | ⟨ha, hlt⟩ | ⟨hone, hlt, hpos | ⟨hlt', -⟩⟩
    · exact .inl (by omega)
    · exact .inr (.inl ⟨haddress ▸ ha, by omega⟩)
    · exact .inr (.inr ⟨hone, by omega, .inl (by omega)⟩)
    · cases hlt'

/-! ### Runs -/

/-- What a step of each kind does, and when it may be taken. -/
inductive Steps (par : RopeParameters) (s : GIOPRope) : RopeAction → GIOPRope → Prop
  | acquireClient (v : GIOPVersion) (rand : ℕ) (href : s.refcount ≠ 0) :
      Steps par s (.acquireClient v rand) ((s.newCaller v).enter par s.callers.length rand)
  | filtered (t : ℕ) (hasAddress : Bool) (rand : ℕ) (hphase : (s.caller t).phase = .filtering) :
      Steps par s (.filtered t hasAddress rand) (s.filtered par t hasAddress rand)
  | resume (t rand : ℕ) {s' : GIOPRope} (hs : s.resume par t rand = some s') :
      Steps par s (.resume t rand) s'
  | timeout (t : ℕ) (hphase : (s.caller t).phase = .waiting false) :
      Steps par s (.timeout t) ({ s with nwaiting := s.nwaiting - 1 }.setPhase t .done)
  | releaseClient (t : ℕ) (idle : Bool) (w : Option ℕ) {s' : GIOPRope}
      (hs : s.releaseClient par t idle w = some s') : Steps par s (.releaseClient t idle w) s'
  | setDying (k : ℕ) (hk : k ∈ s.strands) :
      Steps par s (.setDying k) (s.setStrand k { s.strand k with state := .dying })
  | resetAddressOrder : Steps par s .resetAddressOrder (s.resetAddressOrder par)
  | incrRefCount : Steps par s .incrRefCount s.realIncrRefCount
  | decrRefCount (href : s.refcount ≠ 0) (hdone : s.refcount = 1 → ∀ c ∈ s.callers, c.phase = .done) :
      Steps par s .decrRefCount s.decrRefCount
  | selectUnused (hzero : s.refcount = 0) (hnil : s.strands = []) (hnwaiting : s.nwaiting = 0) :
      Steps par s .selectRope { s with deleted := true }
  | selectRope : Steps par s .selectRope s
  | scavenge : Steps par s .scavenge s.scavenge

lemma step_cases {a : RopeAction} (hs : s.step par a = some s') : s.deleted = false ∧ Steps par s a s' := by
  unfold GIOPRope.step at hs
  obtain ⟨hdeleted, hs⟩ := Option.ite_none_left_eq_some.mp hs
  refine ⟨by simpa using hdeleted, ?_⟩
  cases a with
  | acquireClient v rand =>
    simp only at hs
    obtain ⟨href, hs⟩ := Option.ite_none_left_eq_some.mp hs
    obtain rfl := Option.some.inj hs
    exact .acquireClient v rand href
  | filtered t hasAddress rand =>
    simp only at hs
    obtain ⟨hphase, hs⟩ := Option.ite_none_right_eq_some.mp hs
    obtain rfl := Option.some.inj hs
    exact .filtered t hasAddress rand hphase
  | resume t rand => exact .resume t rand hs
  | timeout t =>
    simp only at hs
    obtain ⟨hphase, hs⟩ := Option.ite_none_right_eq_some.mp hs
    obtain rfl := Option.some.inj hs
    exact .timeout t hphase
  | releaseClient t idle w => exact .releaseClient t idle w hs
  | setDying k =>
    simp only at hs
    obtain ⟨hk, hs⟩ := Option.ite_none_right_eq_some.mp hs
    obtain rfl := Option.some.inj hs
    exact .setDying k hk
  | resetAddressOrder =>
    obtain rfl := Option.some.inj hs
    exact .resetAddressOrder
  | incrRefCount =>
    obtain rfl := Option.some.inj hs
    exact .incrRefCount
  | decrRefCount =>
    simp only at hs
    obtain ⟨hguard, hs⟩ := Option.ite_none_left_eq_some.mp hs
    obtain rfl := Option.some.inj hs
    rw [not_or, not_and] at hguard
    refine .decrRefCount hguard.1 fun hone c hc => ?_
    by_contra hphase
    exact hguard.2 hone ⟨c, hc, hphase⟩
  | selectRope =>
    simp only at hs
    split_ifs at hs with hunused
    · obtain rfl := Option.some.inj hs
      exact .selectUnused hunused.1 hunused.2.1 hunused.2.2
    · obtain rfl := Option.some.inj hs
      exact .selectRope
  | scavenge =>
    obtain rfl := Option.some.inj hs
    exact .scavenge

lemma Ok.step (h : Ok par s) {a : RopeAction} (hs : s.step par a = some s') : Ok par s' := by
  obtain ⟨hdeleted, hs⟩ := step_cases hs
  cases hs with
  | acquireClient v rand href => exact h.acquireClient href v rand
  | filtered t hasAddress rand hphase => exact h.filtered hphase hasAddress rand
  | resume t rand hs => exact h.resume hs
  | timeout t hphase => exact h.doneWaiting hphase
  | releaseClient t idle w hs => exact h.releaseClient hs
  | setDying k hk => exact h.setDying hk
  | resetAddressOrder => exact h.resetAddressOrder
  | incrRefCount => exact h.realIncrRefCount hdeleted
  | decrRefCount href hdone => exact h.decrRefCount hdeleted href hdone
  | selectUnused hzero hnil => exact h.selectRope hzero hnil
  | selectRope => exact h
  | scavenge => exact h.scavenge

lemma Woken.step (h : s.Woken par) (hok : Ok par s) {a : RopeAction} (hmet : s.KeepsWaking par a)
    (hs : s.step par a = some s') : s'.Woken par := by
  cases (step_cases hs).2 with
  | acquireClient v rand => exact h.acquireClient hok v rand
  | filtered t hasAddress rand hphase => exact .filtered hok hphase hasAddress rand
  | resume t rand hs => exact h.resume hok hmet hs
  | timeout t hphase => exact h.setPhase (by simp [hphase]) (by simp)
  | releaseClient t idle w hs => exact h.releaseClient hok hs
  | setDying k hk => exact h.setDying hok hk
  | resetAddressOrder => exact h.resetAddressOrder
  | incrRefCount =>
    obtain ⟨s1, halike, hincr⟩ := hok.toStrandsOk.realIncrRefCount
    have h1 : s1.Woken par := h.alike halike
    rw [hincr]
    exact h1
  | decrRefCount =>
    rcases hok.toStrandsOk.decrRefCount with ⟨-, -, hdecr⟩ | ⟨s1, halike, hdecr⟩
    · rw [hdecr]
      exact h
    · rw [hdecr]
      exact Woken.alike (s := { s with refcount := s.refcount - 1 }) h halike
  | selectUnused => exact h
  | selectRope => exact h
  | scavenge => exact .scavenge hok hmet

lemma ok_new : Ok par new :=
  ⟨⟨List.nodup_nil, nofun, fun _ => rfl, nofun, fun _ => Nat.zero_le _⟩, rfl, fun _ _ => rfl, rfl, rfl, nofun,
    nofun, nofun⟩

/-- What the callers of a rope rely on. -/
structure AllocatesClients (par : RopeParameters) (s : GIOPRope) : Prop where
  asserted : s.failed = false
  oneCall : par.oneCallPerConnection = true → ∀ t t' k g g', (s.caller t).phase = .calling k g →
    (s.caller t').phase = .calling k g' → t = t'
  client : ∀ t t' k g, (s.caller t).phase = .calling k g → (s.caller t').phase = .calling k g → t = t'
  limit : ∀ v, s.countStrands (isLive v) ≤ par.maxStrands
  lists : ∀ k ∈ s.strands, s.links k = 1
  deleted : s.deleted = true → s.refcount = 0 ∧ s.strands = [] ∧ ∀ c ∈ s.callers, c.phase = .done
  woken : s.Woken par

lemma Ok.oneCall (h : Ok par s) (hone : par.oneCallPerConnection = true) {t t' k g g' : ℕ}
    (ht : (s.caller t).phase = .calling k g) (ht' : (s.caller t').phase = .calling k g') : g = g' := by
  obtain ⟨hk, hg⟩ := h.calling ht
  have hg' := (h.calling ht').2
  obtain ⟨c, hc⟩ := List.length_eq_one_iff.mp ((h.strand k hk).oneCall hone)
  rw [hc, List.mem_singleton] at hg hg'
  exact congrArg GIOPClient.id (hg.trans hg'.symm)

lemma Ok.client (h : Ok par s) {t t' k g : ℕ} (ht : (s.caller t).phase = .calling k g)
    (ht' : (s.caller t').phase = .calling k g) : t = t' := by
  obtain ⟨hk, -⟩ := h.calling ht
  have hone : s.callers.countP (uses k g) ≤ 1 := by
    rw [h.calls, users_of_mem hk]
    exact (h.strand k hk).count_le_one _
  exact index_eq_of_countP_le_one hone rfl (decide_eq_true ht) (decide_eq_true ht')

lemma Ok.allocatesClients (h : Ok par s) (hwoken : s.Woken par) : AllocatesClients par s := by
  refine ⟨h.failed, fun hone t t' k g g' ht ht' => ?_, fun t t' k g ht ht' => h.client ht ht', h.limit,
    fun k hk => ?_, fun hdeleted => ?_, hwoken⟩
  · obtain rfl := h.oneCall hone ht ht'
    exact h.client ht ht'
  · rw [h.links, if_pos hk]
  · obtain ⟨hzero, hnil⟩ := h.deleted hdeleted
    exact ⟨hzero, hnil, h.references hzero⟩

/-- In a run in which no step leaves a thread waiting for what it could have, clients are allocated as
the callers rely on. -/
theorem clients_allocated (h : ReachedBy (step par) (KeepsWaking par) new s) : AllocatesClients par s := by
  have hinv : Ok par s ∧ s.Woken par := by
    refine ReachedBy.invariant (P := fun s => Ok par s ∧ s.Woken par) ?_ ?_ h
    · exact ⟨ok_new, woken_of_not_waiting nofun⟩
    · rintro s a s' ⟨hok, hwoken⟩ hmet hs
      exact ⟨hok.step hs, hwoken.step hok hmet hs⟩
  exact hinv.1.allocatesClients hinv.2

/-- One connection, and one call on it. -/
def singleConnection : RopeParameters := ⟨1, true, false, 0, false⟩

/-- A thread waits until another one is done, and then uses its strand. -/
theorem clients_allocated_second :
    ∃ s, (s.caller 1).phase = .calling 0 0 ∧ AllocatesClients singleConnection s := by
  refine ⟨_, ?_, clients_allocated (ReachedBy.start
    |>.next (a := .incrRefCount) trivial rfl
    |>.next (a := .acquireClient .giop12 0) trivial rfl
    |>.next (a := .filtered 0 true 0) trivial rfl
    |>.next (a := .acquireClient .giop12 0) trivial rfl
    |>.next (a := .releaseClient 0 true (some 1)) trivial rfl
    |>.next (a := .resume 1 0) (fun _ => .inr (.inr (by decide))) rfl)⟩
  decide

/-- A thread that was woken cannot use the strand that is idle, and the one that could is not woken. -/
theorem waits_in_vain : ¬ ∀ s, ReachedBy (step singleConnection) (fun _ _ => True) new s →
    AllocatesClients singleConnection s := by
  intro h
  have hrun := h _ (ReachedBy.start.execute (AllOk.of_forall (fun _ _ => trivial) _
    [.incrRefCount, .acquireClient .giop12 0, .filtered 0 true 0, .acquireClient .giop10 0,
      .acquireClient .giop10 0, .acquireClient .giop12 0, .releaseClient 0 true (some 2), .resume 2 0]) rfl)
  have hpending := hrun.woken ⟨.giop12, .waiting false⟩ (by decide) rfl (.inl (by decide))
  revert hpending
  decide

/-- In a run of any kind, the strands and their users are accounted for. -/
theorem strands_accounted (h : ReachedBy (step par) (fun _ _ => True) new s) : Ok par s :=
  h.invariant ok_new fun _ _ _ hok _ hs => hok.step hs

end GIOPRope

end OmniORB
