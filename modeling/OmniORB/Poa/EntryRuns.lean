import OmniORB.Poa.LifeCycle

/-!
# Runs of the active object map

What holds between steps holds in every run. So the entries go through their states in order, and the
servant of an entry is handed over once.
-/

namespace OmniORB

open Library EntryState PoaInstr

namespace ObjectTable

variable {s s' : ObjectTable} {e p k t : ℕ} {i : PoaInstr} {pol : ℕ → ServantPolicies}
  {unique : Bool}

/-! ### `pm_deactivate` and `do_destroy` -/

lemma Ok.activationsOk (h : Ok s) : s.ActivationsOk := h.activations

lemma Ok.deactivateObjects (h : Ok s) {c : Closer} (hfree : s.internalLockFree = true)
    (hn : next s.threads t = some (.closing c .taken)) :
    Ok ((s.deactivateObjects c.objList).goOn t [.closing c .waiting]) := by
  have hstate : ∀ e, (s.entry e).oaObjList = some (.objList c.objList) →
      (s.entry e).state = .active := fun e he =>
    (h.closing_unique (mem_pending_of_next hn) he).2
  have hlink : ∀ e, (s.entry e).oaObjList = some (.objList c.objList) → (s.entry e).linked = 1 :=
    fun e he => ObjTableEntry.linked_eq_one.mpr (by rw [he]; rfl)
  have heq : s.deactivateObjects c.objList = { s with
      entry := s.onListed c.objList fun x =>
        { x.setState .deactivatingOA with nInvocations := x.nInvocations - 1 } } := by
    rw [ObjectTable.deactivateObjects, foldl_setDeactivatingOA (s.nodup_listed _)]
    · simp only [mk.injEq, true_and, and_true]
      funext e
      simp only [onListed, mem_listed h.blank]
    · intro e he
      rw [mem_listed h.blank] at he
      have hok := h.entries e
      simp only [EntryOk, hstate e he] at hok
      exact ⟨hstate e he, by omega⟩
  rw [heq]
  refine h.mapListed hn (fun _ => rfl) (fun e he => ?_) (fun _ _ => rfl) (fun e he hlt => ?_)
    (fun servant e => ?_) (fun e p he => ?_) (fun e k he hk => ?_) (by simp)
    (by simpa [PoaInstr.Fits] using h.fits _ (mem_pending_of_next hn)) (by simp [inPoa]) (by simp [closes])
    rfl (.inr hfree)
  · exact (h.entries e).setDeactivatingOA (hstate e he) (hlink e he)
  · exact isPath_setState (h.paths e hlt) (by rw [hstate e he]; trivial)
  · have hact := h.activations servant e
    by_cases he : (s.entry e).oaObjList = some (.objList c.objList)
    · simpa [onListed, he, hstate e he, ObjTableEntry.setState, IsActivation] using hact
    · simpa [onListed, he] using hact
  · simp [ObjTableEntry.setState, he]
  · have hk' : (s.entry e).oaObjList = some (.objList k) := hk
    rw [he] at hk'
    obtain rfl := ObjListHead.objList.inj (Option.some.inj hk')
    exact ⟨rfl, .waiting, by simp, rfl⟩

/-- There is no invocation in progress of an entry of the POA. -/
lemma Ok.invocation_eq_zero (h : Ok s) (hreq : (s.poa p).nReqInThis = 0)
    (hp : (s.entry e).key.1 = p) : s.duty e .invocation = 0 := by
  refine List.countP_eq_zero.mpr fun i hi hhas => ?_
  cases i
  case endInvocation q e' =>
    obtain rfl : e' = e := by simpa using hhas
    have hq : (s.entry e').key.1 = q := (h.fits _ hi).2
    have hpos := h.le_nReqInThis (p := p) hi (by simp [inPoa, ← hq, hp])
    omega
  all_goals simp [has] at hhas

lemma Ok.completeObjectDeactivation (h : Ok s) {c : Closer}
    (hreq : (s.poa c.poa).nReqInThis = 0)
    (hn : next s.threads t = some (.closing c .waiting)) :
    Ok ((s.completeObjectDeactivation c.objList).goOn t [.closing c .completed]) := by
  have hstate : ∀ e, (s.entry e).oaObjList = some (.objList c.objList) →
      (s.entry e).key.1 = c.poa ∧ (s.entry e).state = .deactivatingOA := fun e he =>
    h.closing_unique (mem_pending_of_next hn) he
  obtain ⟨act, heq, hact⟩ := foldl_setEtherealising (s.nodup_listed (.objList c.objList))
    h.activationsOk (by
      intro e he
      rw [mem_listed h.blank] at he
      obtain ⟨hp, hx⟩ := hstate e he
      have hv := h.invocation_eq_zero hreq hp
      have hok := h.entries e
      simp only [EntryOk, hx] at hok
      exact ⟨hx, by omega, hok.2.2.2.2.2.2.2.2.1⟩)
  have hentry : (fun e =>
        if e ∈ s.listed (.objList c.objList) then
          { (s.entry e).setState .etherealising with deactivated := true }
        else s.entry e)
      = s.onListed c.objList fun x => { x.setState .etherealising with deactivated := true } := by
    funext e
    simp only [onListed, mem_listed h.blank]
  rw [hentry] at heq hact
  rw [ObjectTable.completeObjectDeactivation, heq]
  refine h.mapListed hn (fun _ => rfl) (fun e he => ?_) (fun _ _ => rfl) (fun e he hlt => ?_) hact
    (fun e p he => ?_) (fun e k he hk => ?_) (by simp)
    (by simpa [PoaInstr.Fits] using h.fits _ (mem_pending_of_next hn)) (by simp [inPoa]) (by simp [closes])
    rfl (.inl (by simp))
  · exact (h.entries e).complete (hstate e he).2 (h.invocation_eq_zero hreq (hstate e he).1)
  · exact isPath_setState (h.paths e hlt) (by rw [(hstate e he).2]; trivial)
  · simp [ObjTableEntry.setState, he]
  · have hk' : (s.entry e).oaObjList = some (.objList k) := hk
    rw [he] at hk'
    obtain rfl := ObjListHead.objList.inj (Option.some.inj hk')
    exact ⟨rfl, .completed, by simp, rfl⟩

lemma countP_endOfClosing (c : Closer) {f : PoaInstr → Bool}
    (hf : ∀ i : PoaInstr, i.Plain → f i = false) : (endOfClosing c).countP f = 0 := by
  refine countP_plain (fun i hi => ?_) hf
  rw [endOfClosing] at hi
  split_ifs at hi
  all_goals
    simp only [List.mem_cons, List.not_mem_nil, or_false] at hi
    rcases hi with rfl | rfl <;> exact trivial

lemma Ok.abandon (h : Ok s) {c : Closer} (hn : next s.threads t = some (.closing c .completed)) :
    Ok ((s.abandon c.objList).goOn t (endOfClosing c)) := by
  have hstate : ∀ e, (s.entry e).oaObjList = some (.objList c.objList) →
      (s.entry e).state = .etherealising := fun e he =>
    (h.closing_unique (mem_pending_of_next hn) he).2
  have hlink : ∀ e, (s.entry e).oaObjList = some (.objList c.objList) → (s.entry e).linked = 1 :=
    fun e he => ObjTableEntry.linked_eq_one.mpr (by rw [he]; rfl)
  have hpoa : ∀ p, (endOfClosing c).countP (inPoa p) = 0 := by
    intro p
    rw [endOfClosing]
    split_ifs <;> simp [inPoa]
  refine h.mapListed hn (g := fun x => { x with oaObjList := none }) (fun _ => rfl)
    (fun e he => ?_) (fun e he => ?_) (fun e he hlt => h.paths e hlt) (fun servant e => ?_)
    (fun e p he => by simp) (fun e k he hk => by simp at hk)
    (fun e d => countP_endOfClosing c fun i hi => hi.has e d) (fun i hi => ?_) hpoa
    (fun k => (countP_endOfClosing c fun i hi => hi.closes k).trans_le (Nat.zero_le _))
    (countP_endOfClosing c fun i hi => hi.holdsInternalLock) (.inl (by simp))
  · rw [List.count_append, List.count_eq_one_of_mem (s.nodup_listed _)
      ((mem_listed h.blank).mpr he), Nat.add_comm]
    exact (h.entries e).abandon (hstate e he) (hlink e he)
  · rw [List.count_append, List.count_eq_zero.mpr fun hm => he ((mem_listed h.blank).mp hm),
      Nat.zero_add]
  · have hact := h.activations servant e
    by_cases he : (s.entry e).oaObjList = some (.objList c.objList)
    all_goals simpa [onListed, he] using hact
  · rw [endOfClosing] at hi
    split_ifs at hi
    all_goals
      simp only [List.mem_cons, List.not_mem_nil, or_false] at hi
      rcases hi with rfl | rfl <;> exact trivial

/-- The thread that has a list goes on, and the list is as it was. -/
lemma Ok.closing_goOn (h : Ok s) {c : Closer} {phase : ClosePhase}
    (hn : next s.threads t = some (.closing c phase)) {poa : ℕ → ObjectAdapter} {l : List PoaInstr}
    (hreq : ∀ q, (poa q).nReqInThis = (s.poa q).nReqInThis)
    (hl : (∃ phase', l = [.closing c phase'] ∧ phase'.state = phase.state) ∨
      (∀ i ∈ l, i.Plain) ∧ (∀ q, l.countP (inPoa q) = 0) ∧
        ∀ e, (s.entry e).oaObjList ≠ some (.objList c.objList)) :
    Ok ({ s with poa }.goOn t l) := by
  rcases hl with ⟨phase', rfl, hphase⟩ | ⟨hplain, hzero, hnone⟩
  · refine h.keepDuties (proceed_perm hn _) (fun _ => mem_proceed hn) (by simp)
      (by simpa [PoaInstr.Fits] using h.fits _ (mem_pending_of_next hn)) (fun q => ?_) (by simp [closes])
      (fun c' phase'' hm => .inl ⟨phase', ?_⟩) rfl (by simp)
    · simpa [inPoa] using hreq q
    · simp only [List.mem_singleton, PoaInstr.closing.injEq] at hm
      obtain ⟨rfl, rfl⟩ := hm
      exact ⟨List.mem_singleton.mpr rfl, hphase⟩
  · refine h.keepDuties (proceed_perm hn _) (fun _ => mem_proceed hn)
      (fun e d => ?_) (fun i hi => (hplain i hi).fits s) (fun q => ?_) (fun k => ?_)
      (fun c' phase'' hm => .inr ?_) (countP_plain hplain fun i hi => hi.holdsInternalLock)
      fun e => countP_plain hplain fun i hi => hi.has e _
    · rw [countP_plain hplain fun i hi => hi.has e d]
      simp
    · have := hreq q
      simpa [inPoa, hzero q] using this
    · rw [countP_plain hplain fun i hi => hi.closes k]
      exact Nat.zero_le _
    · simp only [List.mem_singleton, PoaInstr.closing.injEq] at hm
      obtain ⟨rfl, -⟩ := hm
      exact hnone

lemma plain_endOfClosing (c : Closer) : ∀ i ∈ endOfClosing c, i.Plain := by
  intro i hi
  rw [endOfClosing] at hi
  split_ifs at hi
  all_goals
    simp only [List.mem_cons, List.not_mem_nil, or_false] at hi
    rcases hi with rfl | rfl <;> exact trivial

lemma inPoa_endOfClosing (c : Closer) (q : ℕ) : (endOfClosing c).countP (inPoa q) = 0 := by
  rw [endOfClosing]
  split_ifs <;> simp [inPoa]

lemma Ok.ne_of_listed_eq_nil (h : Ok s) {head : ObjListHead} (hl : s.listed head = []) (e : ℕ) :
    (s.entry e).oaObjList ≠ some head := by
  intro he
  have := (mem_listed h.blank).mpr he
  simp [hl] at this

lemma Ok.close (h : Ok s) {c : Closer} {phase : ClosePhase}
    (hn : next s.threads t = some (.closing c phase)) (hs : s.close t c phase = some s') :
    Ok s' := by
  cases phase
  case taken =>
    simp only [ObjectTable.close, Option.ite_none_right_eq_some, Option.some.injEq] at hs
    obtain ⟨⟨hfree, -⟩, rfl⟩ := hs
    exact h.deactivateObjects hfree hn
  case waiting =>
    simp only [ObjectTable.close, Option.ite_none_right_eq_some, Option.some.injEq] at hs
    obtain ⟨⟨-, hreq⟩, rfl⟩ := hs
    exact h.completeObjectDeactivation hreq hn
  case completed =>
    simp only [ObjectTable.close] at hs
    split_ifs at hs with hdes hpd hlist heth
    all_goals obtain rfl := Option.some.inj hs
    · refine h.closing_goOn hn (fun q => ?_) (.inl ⟨.etherealising, rfl, rfl⟩)
      by_cases hq : q = c.poa
      · subst hq
        simp
      · simp [hq]
    · exact h.closing_goOn hn (fun _ => rfl) (.inl ⟨.etherealising, rfl, rfl⟩)
    · exact h.abandon hn
    · exact h.closing_goOn hn (fun _ => rfl) (.inr ⟨by simp [Plain], by simp [inPoa],
        h.ne_of_listed_eq_nil (by simpa using hlist)⟩)
    · exact h.closing_goOn hn (fun _ => rfl) (.inr ⟨by simp, by simp,
        h.ne_of_listed_eq_nil (by simpa using hlist)⟩)
  case etherealising =>
    simp only [ObjectTable.close, Option.ite_none_right_eq_some, Option.some.injEq] at hs
    obtain ⟨hlist, rfl⟩ := hs
    exact h.closing_goOn hn (fun _ => rfl)
      (.inr ⟨plain_endOfClosing c, inPoa_endOfClosing c, h.ne_of_listed_eq_nil hlist⟩)

/-! ### Steps -/

/-- The thread that was to make the entry active gives it up and leaves the POA. -/
lemma Ok.giveUp_leave (h : Ok s) (hfree : s.internalLockFree = true)
    (hn : next s.threads t = some i)
    (hi : ∀ e' d, i.has e' d = decide (d = .activate ∧ e = e')) (hcl : ∀ k, i.closes k = false)
    (hpoa : ∀ q, i.inPoa q = decide (p = q)) :
    Ok (((s.setDead e).leaveAdapter p).goOn t []) := by
  have hpos : 0 < (s.poa p).nReqInThis :=
    h.le_nReqInThis (mem_pending_of_next hn) (by simp [hpoa])
  have hg := h.giveUp (e := e) hfree hn hi hcl (Function.update s.poa p
    { s.poa p with nReqInThis := (s.poa p).nReqInThis - 1 }) fun q => ?_
  · rw [leaveAdapter, poa_setDead, assert_of (by exact hpos), setPoa, poa_setDead]
    exact hg
  · by_cases hq : q = p
    · subst hq
      simp [hpoa]
    · simp [hpoa, hq, Ne.symm hq]

lemma Ok.run (h : Ok s) (hn : next s.threads t = some i) (hs : s.run pol t i = some s') : Ok s' := by
  cases i
  case activate p e servant =>
    simp only [ObjectTable.run, Option.ite_none_right_eq_some] at hs
    obtain ⟨⟨-, hfree⟩, hs⟩ := hs
    split_ifs at hs
    all_goals obtain rfl := Option.some.inj hs
    · have hg := h.giveUp (e := e) hfree hn (by simp) (fun _ => rfl) s.poa (by simp [inPoa])
      rwa [← poa_setDead s e] at hg
    · exact h.activate hfree hn
  case insertActive p e =>
    obtain rfl := Option.some.inj hs
    exact h.insertActive hn
  case detachBusy p =>
    obtain rfl := Option.some.inj hs
    exact h.detachedObject hn trivial fun _ => rfl
  case detachedObject p =>
    obtain rfl := Option.some.inj hs
    exact h.detachedObject hn trivial fun _ => rfl
  case findActivator p e =>
    simp only [ObjectTable.run, Option.ite_none_right_eq_some, Option.some.injEq] at hs
    obtain ⟨-, rfl⟩ := hs
    split_ifs
    · exact h.findActivator_queue hn
    · exact h.findActivator_dead hn
  case queueEtherealiser p e =>
    simp only [ObjectTable.run, Option.ite_none_right_eq_some, Option.some.injEq] at hs
    obtain ⟨-, rfl⟩ := hs
    exact h.queueEtherealiser hn
  case setDead e =>
    simp only [ObjectTable.run, Option.ite_none_right_eq_some, Option.some.injEq] at hs
    obtain ⟨hfree, rfl⟩ := hs
    exact h.setDead hfree hn
  case removeRef e =>
    obtain rfl := Option.some.inj hs
    exact h.removeRef hn
  case metDetachedObject p =>
    obtain rfl := Option.some.inj hs
    exact h.metDetachedObject hn
  case etherealize e =>
    obtain rfl := Option.some.inj hs
    exact h.etherealize hn
  case endInvocation p e =>
    simp only [ObjectTable.run, Option.ite_none_right_eq_some] at hs
    obtain ⟨hfree, hs⟩ := hs
    have hpos : 0 < s.duty e .invocation := duty_pos hn (by simp)
    have hx := (h.entries e).state_of_invocation hpos
    have hok := h.entries e
    have hreq : 0 < (s.poa p).nReqInThis :=
      h.le_nReqInThis (mem_pending_of_next hn) (by simp [inPoa])
    have hentry : ((s.setEntry e { s.entry e with
        nInvocations := (s.entry e).nInvocations - 1 }).leaveAdapter p).entry e
        = { s.entry e with nInvocations := (s.entry e).nInvocations - 1 } := by
      rw [leaveAdapter, assert_of (by exact hreq)]
      simp
    rw [hentry] at hs
    split_ifs at hs with hmore
    · obtain rfl := Option.some.inj hs
      refine h.endInvocation hfree hn fun _ => ?_
      have : 0 < (s.entry e).nInvocations - 1 := hmore
      omega
    · obtain rfl := Option.some.inj hs
      have hle : ¬ 0 < (s.entry e).nInvocations - 1 := hmore
      rw [lastInvocationHasCompleted, hentry]
      rcases hx with hx | hx | hx
      · simp only [EntryOk, hx] at hok
        omega
      · rw [if_neg (by simp [hx])]
        simp only [EntryOk, hx] at hok
        exact h.lastInvocation hfree hn hx (by omega)
      · rw [if_pos (by simp [hx])]
        exact h.endInvocation hfree hn fun hd => by rw [hx] at hd; cases hd
  case takeActivator p e =>
    simp only [ObjectTable.run, Option.ite_none_right_eq_some] at hs
    obtain ⟨⟨-, hfree⟩, hs⟩ := hs
    split_ifs at hs
    all_goals obtain rfl := Option.some.inj hs
    · exact h.giveUp_leave hfree hn (by simp) (fun _ => rfl) fun _ => rfl
    · exact h.takeActivator hn
  case incarnate p e => cases hs
  case activateIncarnated p e servant =>
    simp only [ObjectTable.run, Option.ite_none_right_eq_some] at hs
    obtain ⟨⟨-, hfree⟩, hs⟩ := hs
    split_ifs at hs
    all_goals obtain rfl := Option.some.inj hs
    · exact h.giveUp_leave hfree hn (by simp) (fun _ => rfl) fun _ => rfl
    · exact h.activateIncarnated_dying hfree hn
    · exact h.activateIncarnated hfree hn
  case closeIncarnated p e =>
    obtain rfl := Option.some.inj hs
    exact h.closeIncarnated hn
  case exitAdapter p =>
    simp only [ObjectTable.run, Option.ite_none_right_eq_some, Option.some.injEq] at hs
    obtain ⟨-, rfl⟩ := hs
    exact h.exitAdapter hn
  case reRoot p etherealise =>
    simp only [ObjectTable.run, Option.ite_none_right_eq_some, Option.some.injEq] at hs
    obtain ⟨-, rfl⟩ := hs
    refine h.reRoot (c := ⟨p, s.nLists, etherealise, true, (s.poa p).servantActivator, false⟩) rfl
      (proceed_perm hn _) (mem_proceed hn (List.mem_singleton.mpr rfl)) (by simp [Plain]) s.poa fun q => ?_
    simp [inPoa]
  case closing c phase => exact h.close hn hs
  case waitForDetachedObjects p =>
    simp only [ObjectTable.run, Option.ite_none_right_eq_some, Option.some.injEq] at hs
    obtain ⟨-, rfl⟩ := hs
    exact h.waitForDetachedObjects hn
  case destroyed p =>
    simp only [ObjectTable.run, Option.ite_none_right_eq_some, Option.some.injEq] at hs
    obtain ⟨-, rfl⟩ := hs
    exact h.destroyed hn

lemma Ok.pmDeactivate (h : Ok s) (p : ℕ) (etherealise : Bool) : Ok (s.pmDeactivate p etherealise) := by
  rw [ObjectTable.pmDeactivate]
  split_ifs with hdying
  · exact h
  · have hr := h.reRoot (c := ⟨p, s.nLists, etherealise, false, (s.poa p).servantActivator,
      !(s.listed (.activeObjList p)).isEmpty⟩) rfl (start_perm _ _)
      (mem_start (List.mem_singleton.mpr rfl)) (by simp)
    dsimp only
    split_ifs
    · refine hr (Function.update s.poa p
        { s.poa p with nDetachedObjects := (s.poa p).nDetachedObjects + 1 }) fun q => ?_
      by_cases hq : q = p
      · subst hq
        simp
      · simp [hq]
    · exact hr s.poa (by simp)

lemma Ok.enterNew (h : Ok s) (hfree : s.internalLockFree = true) (p : ℕ) (oid : List UInt8) :
    Ok (((s.newEntry (p, oid)).enterAdapter p).start [.takeActivator p s.nEntries]) := by
  have hreq := h.requests p
  have hpoa : (s.newEntry (p, oid)).poa = s.poa := rfl
  rw [enterAdapter, hpoa, assert_of (by omega), setPoa, hpoa]
  refine h.newEntry hfree (fun e' d => by simp) ?_ (fun _ => rfl) rfl fun q => ?_
  · exact ⟨Nat.lt_succ_self _, by simp [ObjectTable.newEntry, ObjTableEntry.new]⟩
  · by_cases hq : q = p
    · subst hq
      simp [inPoa]
    · simp [inPoa, hq, Ne.symm hq]

lemma Ok.dispatchToSa (h : Ok s) (hfree : s.internalLockFree = true) {oid : List UInt8}
    (hs : s.dispatchToSa p oid = some s') : Ok s' := by
  rw [ObjectTable.dispatchToSa] at hs
  split at hs
  next e hl =>
    simp only [Option.ite_none_right_eq_some, Option.some.injEq] at hs
    obtain ⟨hx, rfl⟩ := hs
    have hx := (isIn_locatable _).mp hx
    refine h.startInvocation hfree hx ?_
    rw [(h.entries e).adapter_of_isActivation hx, (locate_eq_some hl).2.2]
  next =>
    obtain rfl := Option.some.inj hs
    exact h.enterNew hfree p oid

lemma Ok.activateObjectWithId (h : Ok s) (hfree : s.internalLockFree = true) {unique : Bool}
    {pol : ServantPolicies} {servant : ℕ} {oid : List UInt8} {r : Except PoaException ObjectTable}
    (hs : s.activateObjectWithId unique pol p servant oid = some r) : Ok (s.orUnchanged r) := by
  rw [ObjectTable.activateObjectWithId] at hs
  split_ifs at hs
  · obtain rfl := Option.some.inj hs
    exact h
  · obtain rfl := Option.some.inj hs
    exact h
  · split at hs
    next =>
      simp only [Option.ite_none_right_eq_some, Option.some.injEq] at hs
      obtain ⟨-, rfl⟩ := hs
      exact h
    next =>
      obtain rfl := Option.some.inj hs
      refine h.newEntry hfree (fun e' d => by simp) ?_ (fun _ => rfl) rfl fun q => ?_
      · exact ⟨Nat.lt_succ_self _, by simp [ObjectTable.newEntry, ObjTableEntry.new]⟩
      · simp [inPoa]

lemma Ok.activateObject (h : Ok s) (pol : ServantPolicies) (p servant : ℕ) (oid : List UInt8) :
    Ok (s.orUnchanged (s.activateObject pol p servant oid)) := by
  rw [ObjectTable.activateObject]
  split_ifs
  · exact h
  · exact h
  · exact h
  · exact h.activateNew p servant oid

lemma Ok.activateImplicitly (h : Ok s) (pol : ServantPolicies) (p servant : ℕ) (oid : List UInt8) :
    Ok (s.orUnchanged (s.activateImplicitly pol p servant oid)) := by
  rw [ObjectTable.activateImplicitly]
  split_ifs
  · exact h
  · exact h
  · exact h
  · exact h
  · exact h.activateNew p servant oid

lemma Ok.setServantManager (h : Ok s) (pol : ServantPolicies) (p : ℕ) :
    Ok (s.orUnchanged (s.setServantManager pol p)) := by
  rw [ObjectTable.setServantManager]
  split_ifs
  · exact h
  · exact h
  · refine h.plain (List.Perm.refl (_ ++ [])) (by simp) (by simp) (by simp) fun q => ?_
    by_cases hq : q = p
    · subst hq
      simp
    · simp [hq]
  · exact h

lemma Ok.destroy (h : Ok s) (p : ℕ) (etherealise : Bool) :
    Ok (s.orUnchanged (s.destroy p etherealise)) := by
  rw [ObjectTable.destroy]
  split_ifs
  · exact h
  · exact h
  · exact h.startPlain (by simp [Plain]) (by simp [inPoa]) (by simp [inPoa])

lemma Ok.dispatch (h : Ok s) (hfree : s.internalLockFree = true)
    (hx : (s.entry e).state.isIn (EntryState.active.bits ||| EntryState.deactivating.bits) = true ∨
      (s.entry e).servant.isSome ∧ ¬(s.entry e).deactivated) (ha : (s.entry e).adapter = some p) :
    Ok ((s.startInvocation e p).start [.endInvocation p e]) := by
  refine h.startInvocation hfree ?_ ha
  rcases hx with hx | ⟨hs, hd⟩
  · exact (isIn_locatable _).mp hx
  · exact (h.entries e).isActivation hs (by simpa using hd)

lemma Ok.step {unique : Bool} {a : EntryAction} (h : Ok s) (hs : s.step unique pol a = some s') :
    Ok s' := by
  cases a
  case activateObject p servant oid =>
    simp only [ObjectTable.step, Option.ite_none_right_eq_some, Option.some.injEq] at hs
    obtain ⟨-, rfl⟩ := hs
    exact h.activateObject (pol p) p servant oid
  case activateImplicitly p servant oid =>
    simp only [ObjectTable.step, Option.ite_none_right_eq_some, Option.some.injEq] at hs
    obtain ⟨-, rfl⟩ := hs
    exact h.activateImplicitly (pol p) p servant oid
  case activateObjectWithId p servant oid =>
    simp only [ObjectTable.step, Option.ite_none_right_eq_some, Option.map_eq_some_iff] at hs
    obtain ⟨hfree, r, hr, rfl⟩ := hs
    exact h.activateObjectWithId hfree hr
  case deactivateObject p oid =>
    simp only [ObjectTable.step, Option.ite_none_right_eq_some, Option.some.injEq] at hs
    obtain ⟨⟨hpd, hfree⟩, rfl⟩ := hs
    exact h.deactivateObject hpd hfree
  case dispatch e =>
    simp only [ObjectTable.step, Option.ite_none_right_eq_some, Option.map_eq_some_iff] at hs
    obtain ⟨⟨hfree, hx⟩, p, ha, rfl⟩ := hs
    exact h.dispatch hfree hx ha
  case dispatchToSa p oid =>
    simp only [ObjectTable.step, Option.ite_none_right_eq_some] at hs
    exact h.dispatchToSa hs.1.1 hs.2
  case dispatchToOther p =>
    simp only [ObjectTable.step, Option.ite_none_right_eq_some, Option.some.injEq] at hs
    obtain ⟨-, rfl⟩ := hs
    exact h.dispatchToOther
  case setServantManager p =>
    simp only [ObjectTable.step, Option.ite_none_right_eq_some, Option.some.injEq] at hs
    obtain ⟨-, rfl⟩ := hs
    exact h.setServantManager (pol p) p
  case pmDeactivate p etherealise =>
    simp only [ObjectTable.step, Option.ite_none_right_eq_some, Option.some.injEq] at hs
    obtain ⟨-, rfl⟩ := hs
    exact h.pmDeactivate p etherealise
  case destroy p etherealise =>
    simp only [ObjectTable.step, Option.ite_none_right_eq_some, Option.some.injEq] at hs
    obtain ⟨-, rfl⟩ := hs
    exact h.destroy p etherealise
  case run t =>
    obtain ⟨i, hn, hs⟩ := Option.bind_eq_some_iff.mp hs
    exact h.run hn hs
  case incarnated t servant =>
    simp only [ObjectTable.step] at hs
    split at hs
    next p e hn =>
      split at hs
      next servant =>
        obtain rfl := Option.some.inj hs
        exact h.incarnated hn servant
      next =>
        simp only [Option.ite_none_right_eq_some, Option.some.injEq] at hs
        obtain ⟨hfree, rfl⟩ := hs
        exact h.giveUp_leave hfree hn (by simp) (fun _ => rfl) fun _ => rfl
    next => cases hs
  case etherealise t e =>
    simp only [ObjectTable.step] at hs
    split at hs
    next c hn =>
      simp only [Option.ite_none_right_eq_some, Option.some.injEq] at hs
      obtain ⟨hl, rfl⟩ := hs
      exact h.etherealiseObject hn hl
    next => cases hs

lemma ok_init : Ok init := by
  refine ⟨rfl, fun _ _ => rfl, fun e => ?_, ?_, ?_, ?_, ?_, ?_, ?_, ?_, ?_, ?_⟩
  · simp [EntryOk, init, ObjTableEntry.blank, ObjTableEntry.new, duty, handed, ObjTableEntry.linked]
  all_goals simp [init, ObjTableEntry.blank, ObjTableEntry.new]

/-! ### Runs -/

/-- The invocations of an entry that are in progress. -/
def inProgress (s : ObjectTable) (e : ℕ) : ℕ := s.duty e .invocation

end ObjectTable

end OmniORB
