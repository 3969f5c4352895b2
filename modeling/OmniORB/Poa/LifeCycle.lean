import OmniORB.Poa.EntryLife

/-!
# The life cycle of entries

Each step keeps what the entries and the threads have to do with each other. So an entry goes its way
through the states, and its servant is handed over once.
-/

namespace OmniORB

open Library EntryState PoaInstr

/-- The state of the entries in the list of `pm_deactivate` or `do_destroy`. -/
def ClosePhase.state : ClosePhase → EntryState
  | .taken => .active
  | .waiting => .deactivatingOA
  | .completed | .etherealising => .etherealising

namespace ObjectTable

variable {s s' : ObjectTable} {e p k t : ℕ} {i : PoaInstr} {old new : List PoaInstr}

/-- What holds between steps. -/
structure Ok (s : ObjectTable) : Prop where
  failed : s.failed = false
  blank : ∀ e, s.nEntries ≤ e → s.entry e = .blank
  entries : ∀ e, EntryOk (s.entry e) (s.duty e) (s.handed e) (s.abandoned.count e)
  paths : ∀ e < s.nEntries, IsPath (s.entry e).states
  fits : ∀ i ∈ pending s.threads, i.Fits s
  requests : ∀ p, (s.poa p).nReqInThis = (pending s.threads).countP (inPoa p)
  activations : ∀ servant e, (s.activations servant).count e =
    if (s.entry e).servant = some servant ∧ (s.entry e).state.IsActivation then 1 else 0
  active : ∀ e p, (s.entry e).oaObjList = some (.activeObjList p) →
    (s.entry e).state = .active ∧ (s.entry e).key.1 = p
  taken : ∀ e k, (s.entry e).oaObjList = some (.objList k) → ∃ c phase,
    .closing c phase ∈ pending s.threads ∧ c.objList = k ∧ c.poa = (s.entry e).key.1 ∧
      (s.entry e).state = phase.state
  closers : ∀ k, (pending s.threads).countP (closes k) ≤ 1
  lock : (pending s.threads).countP holdsInternalLock ≤ 1
  locked : ∀ p e, .closeIncarnated p e ∈ pending s.threads →
    (s.entry e).state = .active ∧ (s.entry e).oaObjList.isSome ∧ s.duty e .invocation = 0

/-- A step that has to do with one entry only, and carries out `old` and leaves `new` to be done. -/
structure Change (s s' : ObjectTable) (e : ℕ) (old new : List PoaInstr) : Prop where
  threads : (pending s'.threads ++ old).Perm (pending s.threads ++ new)
  left : ∀ i ∈ new, i ∈ pending s'.threads
  nEntries : s'.nEntries = s.nEntries ∨ e = s.nEntries ∧ s'.nEntries = s.nEntries + 1
  nLists : s'.nLists = s.nLists
  key : e < s.nEntries → (s'.entry e).key = (s.entry e).key
  entry : ∀ e' ≠ e, s'.entry e' = s.entry e'
  duties : ∀ e' ≠ e, ∀ d, new.countP (has e' d) = old.countP (has e' d)
  handed : ∀ e' ≠ e, s'.handed e' = s.handed e'
  abandoned : s'.abandoned = s.abandoned
  closes : ∀ k, new.countP (closes k) ≤ old.countP (closes k)
  closing : ∀ c phase, .closing c phase ∈ old →
    (∃ phase', .closing c phase' ∈ new ∧ phase'.state = phase.state) ∨
      ∀ e', (s'.entry e').oaObjList ≠ some (.objList c.objList)

namespace Change

variable (h : Change s s' e old new)
include h

lemma countP (f : PoaInstr → Bool) :
    (pending s'.threads).countP f + old.countP f = (pending s.threads).countP f + new.countP f := by
  have hp := h.threads.countP_eq f
  rwa [List.countP_append, List.countP_append] at hp

lemma mem (hi : i ∈ pending s'.threads) : i ∈ pending s.threads ∨ i ∈ new :=
  List.mem_append.mp (h.threads.mem_iff.mp (List.mem_append_left old hi))

lemma duty (e' : ℕ) (d : Duty) :
    s'.duty e' d + old.countP (has e' d) = s.duty e' d + new.countP (has e' d) :=
  h.countP _

lemma duty_of_ne {e' : ℕ} (he : e' ≠ e) (d : Duty) : s'.duty e' d = s.duty e' d := by
  have h1 := h.duty e' d
  have h2 := h.duties e' he d
  omega

lemma le_nEntries : s.nEntries ≤ s'.nEntries := by
  rcases h.nEntries with hn | ⟨-, hn⟩
  · exact hn.ge
  · exact hn ▸ Nat.le_succ _

lemma fits (hf : i.Fits s) : i.Fits s' := by
  have hkey : ∀ e' < s.nEntries, e' < s'.nEntries ∧ (s'.entry e').key = (s.entry e').key := by
    intro e' he'
    refine ⟨he'.trans_le h.le_nEntries, ?_⟩
    by_cases hee : e' = e
    · exact hee ▸ h.key (hee ▸ he')
    · rw [h.entry e' hee]
  cases i
  case closing c phase => exact hf.trans_eq h.nLists.symm
  all_goals first
    | exact trivial
    | exact (hkey _ hf).1
    | exact ⟨(hkey _ hf.1).1, (congrArg Prod.fst (hkey _ hf.1).2).trans hf.2⟩

/-- The thread that has a list still has it. -/
lemma closing_mem {c : Closer} {phase : ClosePhase} (hm : .closing c phase ∈ pending s.threads)
    {e' : ℕ} (he' : (s'.entry e').oaObjList = some (.objList c.objList)) :
    ∃ phase', .closing c phase' ∈ pending s'.threads ∧ phase'.state = phase.state := by
  rcases List.mem_append.mp (h.threads.mem_iff.mpr (List.mem_append_left new hm)) with hm | hm
  · exact ⟨phase, hm, rfl⟩
  · rcases h.closing c phase hm with ⟨phase', hm', hs⟩ | hno
    · exact ⟨phase', h.left _ hm', hs⟩
    · exact absurd he' (hno e')

end Change

/-- A step that has to do with one entry only keeps what holds, if it keeps what holds of that
entry. -/
lemma Ok.change (h : Ok s) (hc : Change s s' e old new)
    (hfailed : s'.failed = false)
    (hblank : s'.nEntries ≤ e → s'.entry e = .blank)
    (hentry : EntryOk (s'.entry e) (s'.duty e) (s'.handed e) (s.abandoned.count e))
    (hpath : e < s'.nEntries → IsPath (s'.entry e).states)
    (hfits : ∀ i ∈ new, i.Fits s')
    (hreq : ∀ p, (s'.poa p).nReqInThis + old.countP (inPoa p)
      = (s.poa p).nReqInThis + new.countP (inPoa p))
    (hact : ∀ servant e', (s'.activations servant).count e' =
      if (s'.entry e').servant = some servant ∧ (s'.entry e').state.IsActivation then 1 else 0)
    (hactive : ∀ p, (s'.entry e).oaObjList = some (.activeObjList p) →
      (s'.entry e).state = .active ∧ (s'.entry e).key.1 = p)
    (htaken : ∀ k, (s'.entry e).oaObjList = some (.objList k) →
      (s.entry e).oaObjList = some (.objList k) ∧ (s'.entry e).state = (s.entry e).state ∧
        (s'.entry e).key = (s.entry e).key)
    (hlock : (pending s'.threads).countP holdsInternalLock ≤ 1)
    (hlocked : ∀ p, .closeIncarnated p e ∈ pending s'.threads →
      (s'.entry e).state = .active ∧ (s'.entry e).oaObjList.isSome ∧ s'.duty e .invocation = 0)
    (hnew : ∀ p, ∀ e' ≠ e, .closeIncarnated p e' ∉ new) : Ok s' := by
  refine ⟨hfailed, ?_, ?_, ?_, ?_, ?_, hact, ?_, ?_, ?_, hlock, ?_⟩
  · intro e' he'
    by_cases hee : e' = e
    · exact hee ▸ hblank (hee ▸ he')
    · rw [hc.entry e' hee]
      exact h.blank e' (hc.le_nEntries.trans he')
  · intro e'
    by_cases hee : e' = e
    · subst hee
      rwa [hc.abandoned]
    · rw [hc.entry e' hee, hc.handed e' hee, hc.abandoned,
        funext (hc.duty_of_ne hee)]
      exact h.entries e'
  · intro e' he'
    by_cases hee : e' = e
    · exact hee ▸ hpath (hee ▸ he')
    · rw [hc.entry e' hee]
      refine h.paths e' ?_
      have hn := hc.nEntries
      omega
  · intro i hi
    rcases hc.mem hi with hi | hi
    · exact hc.fits (h.fits i hi)
    · exact hfits i hi
  · intro p
    have h1 := hc.countP (inPoa p)
    have h2 := hreq p
    have h3 := h.requests p
    omega
  · intro e' p' he'
    by_cases hee : e' = e
    · subst hee
      exact hactive p' he'
    · rw [hc.entry e' hee] at he' ⊢
      exact h.active e' p' he'
  · intro e' k' he'
    have hs : ∃ c phase, .closing c phase ∈ pending s.threads ∧ c.objList = k' ∧
        c.poa = (s'.entry e').key.1 ∧ (s'.entry e').state = phase.state := by
      by_cases hee : e' = e
      · subst hee
        obtain ⟨h1, h2, h3⟩ := htaken k' he'
        rw [h2, h3]
        exact h.taken e' k' h1
      · rw [hc.entry e' hee] at he' ⊢
        exact h.taken e' k' he'
    obtain ⟨c, phase, hm, hk, hp, hstate⟩ := hs
    obtain ⟨phase', hm', hphase⟩ := hc.closing_mem hm (hk ▸ he')
    exact ⟨c, phase', hm', hk, hp, hstate.trans hphase.symm⟩
  · intro k'
    have h1 := hc.countP (PoaInstr.closes k')
    have h2 := hc.closes k'
    have h3 := h.closers k'
    omega
  · intro p' e' hm
    by_cases hee : e' = e
    · subst hee
      exact hlocked p' hm
    · rcases hc.mem hm with hm | hm
      · rw [hc.entry e' hee, hc.duty_of_ne hee]
        exact h.locked p' e' hm
      · exact absurd hm (hnew p' e' hee)

/-- A step that does not change the entries. -/
lemma Ok.keep (h : Ok s) {threads : List (List PoaInstr)} {poa : ℕ → ObjectAdapter}
    {calls : List ServantCall} (e : ℕ)
    (hperm : (pending threads ++ old).Perm (pending s.threads ++ new))
    (hleft : ∀ i ∈ new, i ∈ pending threads)
    (hduties : ∀ e' ≠ e, ∀ d, new.countP (has e' d) = old.countP (has e' d))
    (hhanded : ∀ e' ≠ e, calls.countP (ServantCall.hands e') = s.handed e')
    (hentry : EntryOk (s.entry e) (fun d => (pending threads).countP (has e d))
      (calls.countP (ServantCall.hands e)) (s.abandoned.count e))
    (hfits : ∀ i ∈ new, i.Fits s)
    (hreq : ∀ p, (poa p).nReqInThis + old.countP (inPoa p)
      = (s.poa p).nReqInThis + new.countP (inPoa p))
    (hcloses : ∀ k, new.countP (closes k) ≤ old.countP (closes k))
    (hclosing : ∀ c phase, .closing c phase ∈ old →
      (∃ phase', .closing c phase' ∈ new ∧ phase'.state = phase.state) ∨
        ∀ e', (s.entry e').oaObjList ≠ some (.objList c.objList))
    (hlock : new.countP holdsInternalLock = 0) (hinv : new.countP (has e .invocation) = 0) :
    Ok { s with threads, poa, calls } := by
  have hc : Change s { s with threads, poa, calls } e old new :=
    ⟨hperm, hleft, .inl rfl, rfl, fun _ => rfl, fun _ _ => rfl, hduties, hhanded, rfl, hcloses,
      hclosing⟩
  have hno : ∀ p e', .closeIncarnated p e' ∉ new := by
    intro p e' hm
    have := List.countP_eq_zero.mp hlock _ hm
    simp [holdsInternalLock] at this
  refine h.change hc h.failed (h.blank e) hentry (h.paths e) (fun i hi => ?_) hreq h.activations
    (h.active e) (fun _ hk => ⟨hk, rfl, rfl⟩) ?_ ?_ (fun p e' _ => hno p e')
  · have hf := hfits i hi
    cases i
    all_goals exact hf
  · have h1 := hc.countP holdsInternalLock
    have h2 := h.lock
    omega
  · intro p hm
    obtain ⟨h1, h2, h3⟩ := h.locked p e ((hc.mem hm).resolve_right (hno p e))
    have h4 := hc.duty e .invocation
    exact ⟨h1, h2, by omega⟩

/-- A step that changes neither the entries nor what is to be done to them. -/
lemma Ok.keepDuties (h : Ok s) {threads : List (List PoaInstr)} {poa : ℕ → ObjectAdapter}
    (hperm : (pending threads ++ old).Perm (pending s.threads ++ new))
    (hleft : ∀ i ∈ new, i ∈ pending threads)
    (hduties : ∀ e d, new.countP (has e d) = old.countP (has e d))
    (hfits : ∀ i ∈ new, i.Fits s)
    (hreq : ∀ p, (poa p).nReqInThis + old.countP (inPoa p)
      = (s.poa p).nReqInThis + new.countP (inPoa p))
    (hcloses : ∀ k, new.countP (closes k) ≤ old.countP (closes k))
    (hclosing : ∀ c phase, .closing c phase ∈ old →
      (∃ phase', .closing c phase' ∈ new ∧ phase'.state = phase.state) ∨
        ∀ e', (s.entry e').oaObjList ≠ some (.objList c.objList))
    (hlock : new.countP holdsInternalLock = 0) (hinv : ∀ e, new.countP (has e .invocation) = 0) :
    Ok { s with threads, poa } := by
  have hd : (fun d => (pending threads).countP (has s.nEntries d)) = s.duty s.nEntries := by
    funext d
    have hp := hperm.countP_eq (has s.nEntries d)
    rw [List.countP_append, List.countP_append, hduties] at hp
    exact Nat.add_right_cancel hp
  refine h.keep s.nEntries hperm hleft (fun e _ => hduties e) (fun _ _ => rfl) ?_ hfits hreq hcloses
    hclosing hlock (hinv _)
  rw [hd]
  exact h.entries _

/-! ### Steps of requests and of the POA -/

/-- How many requests are in the POA. -/
lemma Ok.le_nReqInThis (h : Ok s) (hi : i ∈ pending s.threads) (hp : i.inPoa p = true) :
    0 < (s.poa p).nReqInThis := by
  rw [h.requests p, Int.natCast_pos]
  exact List.countP_pos_iff.mpr ⟨i, hi, hp⟩

lemma assert_of {cond : Prop} [Decidable cond] (hc : cond) : s.assert cond = s := by
  rw [assert, decide_eq_true hc, Bool.not_true, Bool.or_false]

variable {pol : ℕ → ServantPolicies}

lemma Ok.leaveAdapter_eq (h : Ok s) (hi : i ∈ pending s.threads) (hp : i.inPoa p = true) :
    s.leaveAdapter p = s.setPoa p { s.poa p with nReqInThis := (s.poa p).nReqInThis - 1 } := by
  rw [leaveAdapter, assert_of (h.le_nReqInThis hi hp)]

lemma Ok.enterAdapter_eq (h : Ok s) :
    s.enterAdapter p = s.setPoa p { s.poa p with nReqInThis := (s.poa p).nReqInThis + 1 } := by
  have hreq := h.requests p
  rw [enterAdapter, assert_of (by omega)]

/-- A step that has to do with the POA only. -/
lemma Ok.plain (h : Ok s) {threads : List (List PoaInstr)} {poa : ℕ → ObjectAdapter}
    (hperm : (pending threads ++ old).Perm (pending s.threads ++ new))
    (hleft : ∀ i ∈ new, i ∈ pending threads) (hold : ∀ i ∈ old, i.Plain) (hnew : ∀ i ∈ new, i.Plain)
    (hreq : ∀ p, (poa p).nReqInThis + old.countP (inPoa p)
      = (s.poa p).nReqInThis + new.countP (inPoa p)) :
    Ok { s with threads, poa } := by
  refine h.keepDuties hperm hleft (fun e d => ?_) (fun i hi => (hnew i hi).fits s) hreq
    (fun k => ?_) (fun c phase hc => (hold _ hc).elim)
    (countP_plain hnew fun i hi => hi.holdsInternalLock)
    fun e => countP_plain hnew fun i hi => hi.has e _
  · rw [countP_plain hnew fun i hi => hi.has e d, countP_plain hold fun i hi => hi.has e d]
  · rw [countP_plain hnew fun i hi => hi.closes k]
    exact Nat.zero_le _

/-- A step of a thread that has to do with the POA only. -/
lemma Ok.runPlain (h : Ok s) (hn : next s.threads t = some i) (hi : i.Plain)
    (hnew : ∀ i ∈ new, i.Plain) {r : ObjectAdapter}
    (hreq : r.nReqInThis + [i].countP (inPoa p) = (s.poa p).nReqInThis + new.countP (inPoa p))
    (hother : ∀ q ≠ p, [i].countP (inPoa q) = new.countP (inPoa q)) :
    Ok ((s.setPoa p r).goOn t new) := by
  refine h.plain (proceed_perm hn _) (fun _ => mem_proceed hn)
    (fun j hj => List.mem_singleton.mp hj ▸ hi) hnew fun q => ?_
  by_cases hq : q = p
  · subst hq
    simpa using hreq
  · simp [hq, hother q hq]

lemma Ok.exitAdapter (h : Ok s) (hn : next s.threads t = some (.exitAdapter p)) :
    Ok ((s.leaveAdapter p).goOn t []) := by
  rw [h.leaveAdapter_eq (mem_pending_of_next hn) (by simp [inPoa])]
  refine h.runPlain hn trivial (by simp) (by simp [inPoa]) fun q hq => ?_
  simp [inPoa, hq.symm]

lemma Ok.detachedObject (h : Ok s) (hn : next s.threads t = some i) (hi : i.Plain)
    (hp : ∀ q, i.inPoa q = false) : Ok ((s.detachedObject p).goOn t []) :=
  h.runPlain hn hi (by simp) (by simp [hp]) fun q _ => by simp [hp]

lemma Ok.metDetachedObject (h : Ok s) (hn : next s.threads t = some (.metDetachedObject p)) :
    Ok ((s.metDetachedObject p).goOn t []) :=
  h.runPlain hn trivial (by simp) (by simp [inPoa]) fun q _ => by simp [inPoa]

lemma Ok.waitForDetachedObjects (h : Ok s)
    (hn : next s.threads t = some (.waitForDetachedObjects p)) : Ok (s.goOn t []) := by
  have hk : Ok ((s.setPoa p (s.poa p)).goOn t []) :=
    h.runPlain hn trivial (by simp) (by simp [inPoa]) fun q _ => by simp [inPoa]
  rwa [setPoa, Function.update_eq_self] at hk

lemma Ok.destroyed (h : Ok s) (hn : next s.threads t = some (.destroyed p)) :
    Ok ((s.setPoa p { s.poa p with destroyed := 2 }).goOn t []) :=
  h.runPlain hn trivial (by simp) (by simp [inPoa]) fun q _ => by simp [inPoa]

lemma start_perm (threads : List (List PoaInstr)) (l : List PoaInstr) :
    (pending (threads ++ [l]) ++ []).Perm (pending threads ++ l) := by
  simp

lemma mem_start {threads : List (List PoaInstr)} {l : List PoaInstr} (hi : i ∈ l) :
    i ∈ pending (threads ++ [l]) := by
  simp [hi]

/-- A new thread that has to do with the POA only. -/
lemma Ok.startPlain (h : Ok s) (hnew : ∀ i ∈ new, i.Plain) {r : ObjectAdapter}
    (hreq : r.nReqInThis = (s.poa p).nReqInThis + new.countP (inPoa p))
    (hother : ∀ q ≠ p, new.countP (inPoa q) = 0) :
    Ok ((s.setPoa p r).start new) := by
  refine h.plain (start_perm _ _) (fun _ => mem_start) (by simp) hnew fun q => ?_
  by_cases hq : q = p
  · subst hq
    simpa using hreq
  · simp [hq, hother q hq]

lemma Ok.dispatchToOther (h : Ok s) : Ok ((s.enterAdapter p).start [.exitAdapter p]) := by
  rw [h.enterAdapter_eq]
  refine h.startPlain (by simp [Plain]) (by simp [inPoa]) fun q hq => ?_
  simp [inPoa, hq.symm]

/-! ### Steps that pass an entry on -/

/-- The thread goes on with the same duties. -/
lemma Ok.passOn (h : Ok s) (hn : next s.threads t = some i)
    (hduties : ∀ e d, new.countP (has e d) = [i].countP (has e d)) (hfits : ∀ j ∈ new, j.Fits s)
    (hreq : ∀ p, new.countP (inPoa p) = [i].countP (inPoa p)) (hi : ∀ k, i.closes k = false)
    (hcloses : ∀ k, new.countP (closes k) = 0) (hlock : new.countP holdsInternalLock = 0)
    (hinv : ∀ e, new.countP (has e .invocation) = 0) : Ok (s.goOn t new) := by
  refine h.keepDuties (proceed_perm hn _) (fun _ => mem_proceed hn) hduties hfits
    (fun p => by rw [hreq]) (fun k => ?_) (fun c phase hc => ?_) hlock hinv
  · rw [hcloses]
    exact Nat.zero_le _
  · have := hi c.objList
    rw [← List.mem_singleton.mp hc] at this
    simp [closes] at this

lemma Ok.findActivator_queue (h : Ok s) (hn : next s.threads t = some (.findActivator p e)) :
    Ok (s.goOn t [.queueEtherealiser p e]) := by
  refine h.passOn hn (fun e' d => ?_) ?_ (fun _ => rfl) (fun _ => rfl) (fun _ => rfl) rfl fun _ => rfl
  · cases d <;> rfl
  · simpa [PoaInstr.Fits] using h.fits _ (mem_pending_of_next hn)

lemma Ok.findActivator_dead (h : Ok s) (hn : next s.threads t = some (.findActivator p e)) :
    Ok (s.goOn t [.setDead e, .removeRef e, .metDetachedObject p]) := by
  refine h.passOn hn (fun e' d => ?_) ?_ (fun _ => rfl) (fun _ => rfl) (fun _ => rfl) rfl fun _ => rfl
  · cases d <;> simp [has, List.countP_cons]
  · simpa [PoaInstr.Fits] using (h.fits _ (mem_pending_of_next hn)).1

lemma Ok.queueEtherealiser (h : Ok s) (hn : next s.threads t = some (.queueEtherealiser p e)) :
    Ok ((s.goOn t []).start [.etherealize e, .setDead e, .metDetachedObject p]) := by
  have hp := proceed_perm hn []
  have hperm : (pending ((s.goOn t []).start [.etherealize e, .setDead e, .metDetachedObject p]).threads
      ++ [PoaInstr.queueEtherealiser p e]).Perm (pending s.threads
        ++ [PoaInstr.etherealize e, PoaInstr.setDead e, PoaInstr.metDetachedObject p]) := by
    change (pending (proceed s.threads t [] ++ [_]) ++ [_]).Perm _
    rw [pending_append, pending_singleton, List.append_assoc]
    refine (List.perm_append_comm.append_left _).trans ?_
    rw [← List.append_assoc]
    simpa using hp.append_right [.etherealize e, .setDead e, .metDetachedObject p]
  refine h.keepDuties hperm (fun _ => mem_start) ?_ ?_ ?_ ?_ ?_ ?_ ?_
  · intro e' d
    cases d <;> simp [has, List.countP_cons]
  · simpa [PoaInstr.Fits] using (h.fits _ (mem_pending_of_next hn)).1
  · simp [inPoa, goOn]
  · simp [closes]
  · simp
  · simp [holdsInternalLock]
  · simp [has]

lemma Ok.takeActivator (h : Ok s) (hn : next s.threads t = some (.takeActivator p e)) :
    Ok (s.goOn t [.incarnate p e]) := by
  refine h.passOn hn (fun e' d => ?_) ?_ (fun _ => rfl) (fun _ => rfl) (fun _ => rfl) rfl fun _ => rfl
  · cases d <;> rfl
  · simpa [PoaInstr.Fits] using h.fits _ (mem_pending_of_next hn)

lemma Ok.incarnated (h : Ok s) (hn : next s.threads t = some (.incarnate p e)) (servant : ℕ) :
    Ok (s.goOn t [.activateIncarnated p e servant]) := by
  refine h.passOn hn (fun e' d => ?_) ?_ (fun _ => rfl) (fun _ => rfl) (fun _ => rfl) rfl fun _ => rfl
  · cases d <;> rfl
  · simpa [PoaInstr.Fits] using h.fits _ (mem_pending_of_next hn)

/-- A call that hands the servant over. -/
lemma Ok.handOver (h : Ok s) (hn : next s.threads t = some i) {c : ServantCall}
    (hi : ∀ e' d, i.has e' d = decide (d = .hand ∧ e = e'))
    (hc : ∀ e', c.hands e' = decide (e = e'))
    (hp : ∀ q, i.inPoa q = false) (hcl : ∀ k, i.closes k = false) : Ok ((s.call c).goOn t []) := by
  have hd : ∀ d, (pending (proceed s.threads t [])).countP (has e d) + (if d = .hand then 1 else 0)
      = s.duty e d := by
    intro d
    have hperm := (proceed_perm hn []).countP_eq (has e d)
    by_cases hd : d = .hand
    all_goals simpa [hi, hd, List.countP_cons, duty] using hperm
  refine h.keep e (proceed_perm hn _) (fun _ => mem_proceed hn) (fun e' he d => ?_) (fun e' he => ?_)
    ?_ (by simp) (fun q => ?_) (by simp) (fun c phase hm => ?_) rfl rfl
  · simp [hi, he.symm]
  · simp [call, handed, hc, he.symm]
  · have hhand : (s.call c).calls.countP (ServantCall.hands e) = s.handed e + 1 := by
      simp [call, handed, hc]
    change EntryOk _ _ (List.countP _ (s.call c).calls) _
    rw [hhand]
    refine (h.entries e).handOver (fun d hne => ?_) ?_
    · have := hd d
      rwa [if_neg hne] at this
    · have := hd .hand
      rwa [if_pos rfl] at this
  · simp [hp, call]
  · have := hcl c.objList
    rw [← List.mem_singleton.mp hm] at this
    simp [closes] at this

lemma Ok.removeRef (h : Ok s) (hn : next s.threads t = some (.removeRef e)) :
    Ok ((s.call (.removeRef e)).goOn t []) := by
  refine h.handOver (e := e) hn (fun e' d => ?_) (fun _ => rfl) (fun _ => rfl) fun _ => rfl
  cases d <;> simp [has]

lemma Ok.etherealize (h : Ok s) (hn : next s.threads t = some (.etherealize e)) :
    Ok ((s.call (.etherealize e)).goOn t []) := by
  refine h.handOver (e := e) hn (fun e' d => ?_) (fun _ => rfl) (fun _ => rfl) fun _ => rfl
  cases d <;> simp [has]

/-! ### Steps that change an entry -/

/-- A step that changes an entry. -/
lemma Ok.alter (h : Ok s) {x : ObjTableEntry} {threads : List (List PoaInstr)}
    {poa : ℕ → ObjectAdapter} {calls : List ServantCall} {activations : ℕ → List ℕ}
    (he : e < s.nEntries) (hperm : (pending threads ++ old).Perm (pending s.threads ++ new))
    (hleft : ∀ i ∈ new, i ∈ pending threads) (hkey : x.key = (s.entry e).key)
    (hduties : ∀ e' ≠ e, ∀ d, new.countP (has e' d) = old.countP (has e' d))
    (hhanded : ∀ e' ≠ e, calls.countP (ServantCall.hands e') = s.handed e')
    (hentry : EntryOk x (fun d => (pending threads).countP (has e d))
      (calls.countP (ServantCall.hands e)) (s.abandoned.count e))
    (hpath : IsPath x.states) (hfits : ∀ i ∈ new, i.Fits s)
    (hreq : ∀ p, (poa p).nReqInThis + old.countP (inPoa p)
      = (s.poa p).nReqInThis + new.countP (inPoa p))
    (hact : ∀ servant, (activations servant).count e =
      if x.servant = some servant ∧ x.state.IsActivation then 1 else 0)
    (hothers : ∀ servant, ∀ e' ≠ e,
      (activations servant).count e' = (s.activations servant).count e')
    (hactive : ∀ p, x.oaObjList = some (.activeObjList p) → x.state = .active ∧ x.key.1 = p)
    (htaken : ∀ k, x.oaObjList = some (.objList k) →
      (s.entry e).oaObjList = some (.objList k) ∧ x.state = (s.entry e).state)
    (hcloses : ∀ k, new.countP (closes k) ≤ old.countP (closes k))
    (hclosing : ∀ c phase, .closing c phase ∈ old →
      ∃ phase', .closing c phase' ∈ new ∧ phase'.state = phase.state)
    (hlock : (pending threads).countP holdsInternalLock ≤ 1)
    (hlocked : ∀ p, .closeIncarnated p e ∈ pending threads → x.state = .active ∧
      x.oaObjList.isSome ∧ (pending threads).countP (has e .invocation) = 0)
    (hnew : ∀ p, ∀ e' ≠ e, .closeIncarnated p e' ∉ new) :
    Ok { s with entry := Function.update s.entry e x, threads, poa, calls, activations } := by
  have hc : Change s
      { s with entry := Function.update s.entry e x, threads, poa, calls, activations } e old new := by
    refine ⟨hperm, hleft, .inl rfl, rfl, fun _ => ?_, fun e' he' => ?_, hduties, hhanded, rfl, hcloses,
      fun c phase hm => .inl (hclosing c phase hm)⟩
    · simpa using hkey
    · simp [he']
  refine h.change hc h.failed (fun hle => absurd he hle.not_gt) ?_ (fun _ => ?_) (fun i hi => ?_) hreq
    (fun servant e' => ?_) ?_ ?_ hlock ?_ hnew
  · change EntryOk (Function.update s.entry e x e) _ _ _
    rw [Function.update_self]
    exact hentry
  · simpa using hpath
  · have hkeys : ∀ e', (Function.update s.entry e x e').key = (s.entry e').key := by
      intro e'
      by_cases hee : e' = e
      · subst hee
        simpa using hkey
      · simp [hee]
    have hf := hfits i hi
    cases i
    case closing => exact hf
    all_goals first
      | exact trivial
      | exact hf
      | exact ⟨hf.1, (congrArg Prod.fst (hkeys _)).trans hf.2⟩
  · by_cases hee : e' = e
    · subst hee
      simpa using hact servant
    · simpa [hee, hothers servant e' hee] using h.activations servant e'
  · simpa using hactive
  · simpa [hkey] using htaken
  · change ∀ p, _ → (Function.update s.entry e x e).state = _ ∧
      (Function.update s.entry e x e).oaObjList.isSome ∧ _
    rw [Function.update_self]
    exact hlocked

lemma countP_of_internalLockFree (h : s.internalLockFree = true) :
    (pending s.threads).countP holdsInternalLock = 0 := by
  refine List.countP_eq_zero.mpr fun i hi => ?_
  have := List.all_eq_true.mp h i hi
  simpa using this

/-- A step under `internalLock` that changes an entry, of a thread that has no list. -/
lemma Ok.alterLocked (h : Ok s) {x : ObjTableEntry} {threads : List (List PoaInstr)}
    {poa : ℕ → ObjectAdapter} {calls : List ServantCall} {activations : ℕ → List ℕ}
    (hfree : s.internalLockFree = true)
    (he : e < s.nEntries) (hperm : (pending threads ++ old).Perm (pending s.threads ++ new))
    (hleft : ∀ i ∈ new, i ∈ pending threads) (hkey : x.key = (s.entry e).key)
    (hduties : ∀ e' ≠ e, ∀ d, new.countP (has e' d) = old.countP (has e' d))
    (hhanded : ∀ e' ≠ e, calls.countP (ServantCall.hands e') = s.handed e')
    (hentry : EntryOk x (fun d => (pending threads).countP (has e d))
      (calls.countP (ServantCall.hands e)) (s.abandoned.count e))
    (hpath : IsPath x.states) (hfits : ∀ i ∈ new, i.Fits s)
    (hreq : ∀ p, (poa p).nReqInThis + old.countP (inPoa p)
      = (s.poa p).nReqInThis + new.countP (inPoa p))
    (hact : ∀ servant, (activations servant).count e =
      if x.servant = some servant ∧ x.state.IsActivation then 1 else 0)
    (hothers : ∀ servant, ∀ e' ≠ e,
      (activations servant).count e' = (s.activations servant).count e')
    (hactive : ∀ p, x.oaObjList = some (.activeObjList p) → x.state = .active ∧ x.key.1 = p)
    (htaken : ∀ k, x.oaObjList = some (.objList k) →
      (s.entry e).oaObjList = some (.objList k) ∧ x.state = (s.entry e).state)
    (hold : ∀ c phase, .closing c phase ∉ old) (hcloses : ∀ k, new.countP (closes k) = 0)
    (hlock : new.countP holdsInternalLock = 0) :
    Ok { s with entry := Function.update s.entry e x, threads, poa, calls, activations } := by
  have hlock0 : (pending threads).countP holdsInternalLock = 0 := by
    have h1 := hperm.countP_eq holdsInternalLock
    rw [List.countP_append, List.countP_append, countP_of_internalLockFree hfree, hlock] at h1
    omega
  have hno : ∀ l : List PoaInstr, l.countP holdsInternalLock = 0 →
      ∀ p e, .closeIncarnated p e ∉ l := by
    intro l hl p e hm
    have := List.countP_eq_zero.mp hl _ hm
    simp [holdsInternalLock] at this
  exact h.alter he hperm hleft hkey hduties hhanded hentry hpath hfits hreq hact hothers hactive htaken
    (fun k => (hcloses k).trans_le (Nat.zero_le _)) (fun c phase hm => absurd hm (hold c phase))
    (hlock0.trans_le (Nat.zero_le _)) (fun p hm => absurd hm (hno _ hlock0 p e))
    fun p e' _ => hno _ hlock p e'

lemma Ok.lt_of_state (h : Ok s) (hx : (s.entry e).state ≠ .dead) : e < s.nEntries := by
  by_contra hlt
  rw [h.blank e (Nat.le_of_not_lt hlt)] at hx
  exact hx rfl

/-- What there is still to do to the entry. -/
lemma duty_goOn (hn : next s.threads t = some i) (l : List PoaInstr) (e : ℕ) (d : Duty) :
    (s.goOn t l).duty e d + [i].countP (has e d) = s.duty e d + l.countP (has e d) := by
  have hp := (proceed_perm hn l).countP_eq (has e d)
  rwa [List.countP_append, List.countP_append] at hp

lemma duty_pos (hn : next s.threads t = some i) {d : Duty} (hi : i.has e d = true) :
    0 < s.duty e d :=
  List.countP_pos_iff.mpr ⟨i, mem_pending_of_next hn, hi⟩

lemma notMem_of_closes (hcl : ∀ k, i.closes k = false) (c : Closer) (phase : ClosePhase) :
    .closing c phase ∉ [i] := by
  intro hm
  have := hcl c.objList
  rw [← List.mem_singleton.mp hm] at this
  simp [closes] at this

lemma setDead_of_activating (hx : (s.entry e).state = .activating)
    (hs : (s.entry e).servant = none) :
    s.setDead e = s.setEntry e ((s.entry e).setState .dead) := by
  simp only [setDead, hs]
  rw [assert_of (by simp [hx])]

@[simp] lemma poa_setDead (s : ObjectTable) (e : ℕ) : (s.setDead e).poa = s.poa := by
  rw [setDead]
  split
  · split_ifs <;> rfl
  · rfl

/-- An entry that was to be made active is given up. -/
lemma Ok.giveUp (h : Ok s) (hfree : s.internalLockFree = true) (hn : next s.threads t = some i)
    (hi : ∀ e' d, i.has e' d = decide (d = .activate ∧ e = e')) (hcl : ∀ k, i.closes k = false)
    (poa : ℕ → ObjectAdapter)
    (hreq : ∀ q, (poa q).nReqInThis + [i].countP (inPoa q) = (s.poa q).nReqInThis) :
    Ok ({ s.setDead e with poa }.goOn t []) := by
  have hx : (s.entry e).state = .activating :=
    (h.entries e).state_of_activate (duty_pos hn (by simp [hi]))
  have hok := h.entries e
  simp only [EntryOk, hx] at hok
  obtain ⟨-, -, -, -, -, -, -, hl, -, hs, -, -⟩ := hok
  have hnone := ObjTableEntry.linked_eq_zero.mp hl
  have he := h.lt_of_state (e := e) (by simp [hx])
  rw [setDead_of_activating hx hs]
  refine h.alterLocked hfree he (proceed_perm hn _) (fun _ => mem_proceed hn) rfl
    (fun e' he' d => ?_) (fun _ _ => rfl)
    ((h.entries e).giveUp (v := (s.goOn t []).duty e) hx fun d => ?_)
    (isPath_setState (h.paths e he) (by rw [hx]; trivial)) (by simp) (by simpa using hreq)
    (fun servant => ?_) (fun _ _ _ => rfl) ?_ ?_ (notMem_of_closes hcl) (by simp) (by simp)
  · simp [hi, he'.symm]
  · have hd := duty_goOn hn [] e d
    simpa [hi, Duty.one, List.countP_cons] using hd
  · have hc := h.activations servant e
    simpa [hs, ObjTableEntry.setState] using hc
  · simp [ObjTableEntry.setState, hnone]
  · simp [ObjTableEntry.setState, hnone]

lemma Ok.setDead (h : Ok s) (hfree : s.internalLockFree = true)
    (hn : next s.threads t = some (.setDead e)) : Ok ((s.setDead e).goOn t []) := by
  have hpos : 0 < s.duty e .finish := duty_pos hn (by simp)
  have hx := (h.entries e).state_of_finish hpos
  have hok := h.entries e
  simp only [EntryOk, hx] at hok
  obtain ⟨-, -, -, hl, -, -, hs, -, -⟩ := hok
  have hnone := ObjTableEntry.linked_eq_zero.mp (show (s.entry e).linked = 0 by omega)
  obtain ⟨servant, hs⟩ := Option.isSome_iff_exists.mp hs
  have he := h.lt_of_state (e := e) (by simp [hx])
  have heq : s.setDead e = s.setEntry e ((s.entry e).setState .dead) := by
    simp only [ObjectTable.setDead, hs]
    rw [assert_of (by simp [hx]), if_neg (by simp [hx])]
  rw [heq]
  refine h.alterLocked hfree he (proceed_perm hn _) (fun _ => mem_proceed hn) rfl
    (fun e' he' d => ?_) (fun _ _ => rfl)
    ((h.entries e).setDead (v := (s.goOn t []).duty e) hpos fun d => ?_)
    (isPath_setState (h.paths e he) (by rw [hx]; trivial)) (by simp) (by simp [inPoa])
    (fun servant' => ?_) (fun _ _ _ => rfl) ?_ ?_ (notMem_of_closes fun _ => rfl) (by simp) (by simp)
  · simp [he'.symm]
  · have hd := duty_goOn hn [] e d
    simpa [Duty.one, List.countP_cons] using hd
  · have hc := h.activations servant' e
    simpa [hx, ObjTableEntry.setState, IsActivation] using hc
  · simp [ObjTableEntry.setState, hnone]
  · simp [ObjTableEntry.setState, hnone]

/-- `setActive`, of an entry that was to be made active. -/
lemma setActive_of_activating (hx : (s.entry e).state = .activating)
    (hs : (s.entry e).servant = none) (ha : (s.entry e).adapter = none) (servant p : ℕ) :
    s.setActive e servant p = (s.setEntry e { (s.entry e).setState .active with
      servant := some servant, adapter := some p }).addActivation servant e := by
  rw [setActive, assert_of (by simp [hx, hs, ha])]

lemma count_addActivation (servant e servant' e' : ℕ) :
    ((s.addActivation servant e).activations servant').count e'
      = (s.activations servant').count e' + if servant' = servant ∧ e' = e then 1 else 0 := by
  by_cases hs : servant' = servant
  · subst hs
    by_cases he : e' = e
    · subst he
      simp [addActivation]
    · simp [addActivation, he, Ne.symm he]
  · simp [addActivation, hs]

/-- The activations of the servant of an entry that becomes active. -/
lemma Ok.count_addActivation (h : Ok s) (hs : (s.entry e).servant = none) (servant servant' : ℕ) :
    ((s.addActivation servant e).activations servant').count e
      = if servant' = servant then 1 else 0 := by
  have hc := h.activations servant' e
  simp only [hs, reduceCtorEq, false_and, if_false] at hc
  rw [ObjectTable.count_addActivation, hc]
  simp

/-- The entry becomes active, and is inserted next. -/
lemma Ok.activate (h : Ok s) (hfree : s.internalLockFree = true) {servant : ℕ}
    (hn : next s.threads t = some (.activate p e servant)) :
    Ok ((s.setActive e servant p).goOn t [.insertActive p e]) := by
  have hx := (h.entries e).state_of_activate (duty_pos hn (by simp))
  have hok := h.entries e
  simp only [EntryOk, hx] at hok
  obtain ⟨-, hins, -, -, hinv, -, -, hl, hnum, hs, ha, -⟩ := hok
  have hnone := ObjTableEntry.linked_eq_zero.mp hl
  have he := h.lt_of_state (e := e) (by simp [hx])
  have hfit := h.fits _ (mem_pending_of_next hn)
  have hp : (s.entry e).key.1 = p := hfit.2
  have hd : ∀ d, (s.goOn t [.insertActive p e]).duty e d + Duty.one .activate d
      = s.duty e d + Duty.one .insert d := fun d => by
    simpa [Duty.one, List.countP_cons] using duty_goOn hn [.insertActive p e] e d
  have hentry := (h.entries e).setActive hx ((s.goOn t [.insertActive p e]).duty e) servant
    (s.entry e).oaObjList (n := (s.entry e).nInvocations) (fun d hd1 hd2 => ?_) ?_ ?_
  · rw [setActive_of_activating hx hs ha]
    refine h.alterLocked hfree he (proceed_perm hn _) (fun _ => mem_proceed hn) rfl
      (fun e' he' d => ?_) (fun _ _ => rfl) (hp ▸ hentry)
      (isPath_setState (h.paths e he) (by rw [hx]; trivial)) (by simpa [PoaInstr.Fits] using hfit)
      (by simp [inPoa]) (fun servant' => ?_) (fun servant' e' he' => ?_) ?_ ?_
      (notMem_of_closes fun _ => rfl) (by simp [closes]) (by simp [holdsInternalLock])
    · simp [he'.symm]
    · refine (h.count_addActivation hs servant servant').trans ?_
      simp [ObjTableEntry.setState, IsActivation, eq_comm]
    · refine (ObjectTable.count_addActivation servant e servant' e').trans ?_
      simp [he']
    · simp [ObjTableEntry.setState, hnone]
    · simp [ObjTableEntry.setState, hnone]
  · have := hd d
    simpa [Duty.one, hd1] using this
  · have := hd .insert
    simpa [Duty.one, hins, hnone] using this
  · have := hd .invocation
    simp [Duty.one, hinv] at this
    simp [hnum, this]

lemma Ok.insertActive (h : Ok s) (hn : next s.threads t = some (.insertActive p e)) :
    Ok (((s.call (.addRef e)).insertIntoOAObjList e p).goOn t []) := by
  have hpos : 0 < s.duty e .insert := duty_pos hn (by simp)
  have hx := (h.entries e).state_of_insert hpos
  have hok := h.entries e
  simp only [EntryOk, hx] at hok
  have hnone := ObjTableEntry.linked_eq_zero.mp (show (s.entry e).linked = 0 by omega)
  have he := h.lt_of_state (e := e) (by simp [hx])
  have hp : (s.entry e).key.1 = p := (h.fits _ (mem_pending_of_next hn)).2
  have hperm := proceed_perm hn []
  have hlocked : ∀ p, .closeIncarnated p e ∉ pending (proceed s.threads t []) := by
    intro p' hm
    have hm' := hperm.mem_iff.mp (List.mem_append_left _ hm)
    have hsome := (h.locked p' e (by simpa using hm')).2.1
    simp [hnone] at hsome
  have heq : (s.call (.addRef e)).insertIntoOAObjList e p
      = (s.call (.addRef e)).setEntry e
        { s.entry e with oaObjList := some (.activeObjList p) } := by
    rw [insertIntoOAObjList, assert_of (by exact hnone)]
    rfl
  rw [heq]
  refine h.alter he hperm (fun _ => mem_proceed hn) rfl (fun e' he' d => ?_) (fun e' _ => ?_)
    (((h.entries e).insert hx hpos (v := (s.goOn t []).duty e) fun d => ?_))
    (h.paths e he) (by simp) (by simp [inPoa, call]) (h.activations · e) (fun _ _ _ => rfl) ?_ ?_
    (by simp) (fun c phase hm => absurd hm (notMem_of_closes (fun _ => rfl) c phase)) ?_
    (fun p' hm => absurd hm (hlocked p')) (by simp)
  · simp [he'.symm]
  · simp [call, handed, ServantCall.hands]
  · have hd := duty_goOn hn [] e d
    simpa [Duty.one, List.countP_cons] using hd
  · simp [hx, hp]
  · simp
  · have h1 := hperm.countP_eq holdsInternalLock
    have h2 := h.lock
    simp only [List.countP_append, List.countP_nil] at h1
    change (pending (proceed s.threads t [])).countP holdsInternalLock ≤ 1
    omega

lemma setDeactivating_of_active {state : EntryState} (hx : (s.entry e).state = .active)
    (hn : 0 < (s.entry e).nInvocations) :
    s.setDeactivatingTo state e = s.setEntry e
      { (s.entry e).setState state with nInvocations := (s.entry e).nInvocations - 1 } := by
  rw [setDeactivatingTo, assert_of ⟨hx, hn⟩]

lemma removeFromOAObjList_of (hx : (s.entry e).oaObjList.isSome) :
    s.removeFromOAObjList e = s.setEntry e { s.entry e with oaObjList := none } := by
  rw [removeFromOAObjList, assert_of (by exact Option.isSome_iff_ne_none.mp hx)]

lemma setEtherealising_of (servant : ℕ) (hx : (s.entry e).state.isIn EntryState.deactivating.bits)
    (hs : (s.entry e).servant = some servant) (hm : e ∈ s.activations servant) :
    s.setEtherealising e = { s with
      entry := Function.update s.entry e
        { (s.entry e).setState .etherealising with deactivated := true }
      activations := Function.update s.activations servant ((s.activations servant).erase e) } := by
  rw [ObjectTable.setEtherealising, assert_of (by simp [hx, hs]), hs]
  rw [Option.getD_some, removeActivation, assert_of (by exact hm)]
  rfl

lemma Ok.mem_activations (h : Ok s) {servant : ℕ} (hx : (s.entry e).state.IsActivation)
    (hs : (s.entry e).servant = some servant) : e ∈ s.activations servant := by
  have hc := h.activations servant e
  rw [if_pos ⟨hs, hx⟩] at hc
  exact List.count_pos_iff.mp (by omega)

/-- The activations of the servant of an entry that is etherealised next. -/
lemma Ok.count_erase (h : Ok s) {servant : ℕ} (hs : (s.entry e).servant = some servant)
    (servant' e' : ℕ) :
    (Function.update s.activations servant ((s.activations servant).erase e) servant').count e'
      = if e' = e then 0 else (s.activations servant').count e' := by
  have hc := h.activations servant' e'
  by_cases hsv : servant' = servant
  · subst hsv
    rw [Function.update_self]
    by_cases he : e' = e
    · subst he
      rw [List.count_erase_self, if_pos rfl, hc]
      split_ifs <;> rfl
    · rw [List.count_erase_of_ne he, if_neg he]
  · rw [Function.update_of_ne hsv]
    by_cases he : e' = e
    · subst he
      rw [if_pos rfl, hc, if_neg]
      rintro ⟨h1, -⟩
      rw [hs] at h1
      exact hsv (Option.some.inj h1).symm
    · rw [if_neg he]

/-- An incarnated servant is made active, and its entry put into the list of the POA. -/
lemma Ok.setActive_insert (h : Ok s) (hx : (s.entry e).state = .activating) (servant p : ℕ) :
    (s.setActive e servant p).insertIntoOAObjList e p = (s.addActivation servant e).setEntry e
      { (s.entry e).setState .active with
        servant := some servant, adapter := some p, oaObjList := some (.activeObjList p) } := by
  have hok := h.entries e
  simp only [EntryOk, hx] at hok
  obtain ⟨-, -, -, -, -, -, -, hl, -, hs, ha, -⟩ := hok
  have hnone := ObjTableEntry.linked_eq_zero.mp hl
  rw [setActive_of_activating hx hs ha, insertIntoOAObjList, assert_of]
  · simp [setEntry, addActivation]
  · simp [addActivation, ObjTableEntry.setState, hnone]

lemma Ok.activateIncarnated (h : Ok s) (hfree : s.internalLockFree = true) {servant : ℕ}
    (hn : next s.threads t = some (.activateIncarnated p e servant)) :
    Ok ((((s.setActive e servant p).insertIntoOAObjList e p).leaveAdapter p).startInvocation e p
      |>.goOn t [.endInvocation p e]) := by
  have hx := (h.entries e).state_of_activate (duty_pos hn (by simp))
  have hok := h.entries e
  simp only [EntryOk, hx] at hok
  obtain ⟨-, hins, -, -, hinv, -, -, -, hnum, hs, -, -⟩ := hok
  have he := h.lt_of_state (e := e) (by simp [hx])
  have hfit := h.fits _ (mem_pending_of_next hn)
  have hp : (s.entry e).key.1 = p := hfit.2
  have hpos : 0 < (s.poa p).nReqInThis := h.le_nReqInThis (mem_pending_of_next hn) (by simp [inPoa])
  have heq : ((((s.setActive e servant p).insertIntoOAObjList e p).leaveAdapter p).startInvocation e p)
      = { s with
        entry := Function.update s.entry e { (s.entry e).setState .active with
          servant := some servant, adapter := some p, oaObjList := some (.activeObjList p)
          nInvocations := 2 }
        activations := (s.addActivation servant e).activations } := by
    rw [h.setActive_insert hx, leaveAdapter, assert_of (by exact hpos), startInvocation,
      assert_of (by simp), enterAdapter, assert_of]
    · simp [setEntry, setPoa, addActivation, ObjTableEntry.setState, hnum]
    · simp
      omega
  have hd : ∀ d, (s.goOn t [.endInvocation p e]).duty e d + Duty.one .activate d
      = s.duty e d + Duty.one .invocation d := fun d => by
    simpa [Duty.one, List.countP_cons] using duty_goOn hn [.endInvocation p e] e d
  have hentry := (h.entries e).setActive hx ((s.goOn t [.endInvocation p e]).duty e) servant
    (some (.activeObjList p)) (n := 2) (fun d hd1 hd2 => ?_) ?_ ?_
  · rw [heq]
    refine h.alterLocked hfree he (proceed_perm hn _) (fun _ => mem_proceed hn) rfl
      (fun e' he' d => ?_) (fun _ _ => rfl) (hp ▸ hentry)
      (isPath_setState (h.paths e he) (by rw [hx]; trivial)) (by simpa [PoaInstr.Fits] using hfit)
      (by simp [inPoa]) (fun servant' => ?_) (fun servant' e' he' => ?_) ?_ ?_
      (notMem_of_closes fun _ => rfl) (by simp [closes]) (by simp [holdsInternalLock])
    · simp [he'.symm]
    · refine (h.count_addActivation hs servant servant').trans ?_
      simp [ObjTableEntry.setState, IsActivation, eq_comm]
    · refine (ObjectTable.count_addActivation servant e servant' e').trans ?_
      simp [he']
    · simp [ObjTableEntry.setState, hp]
    · simp
  · have := hd d
    simpa [Duty.one, hd2] using this
  · have := hd .insert
    simpa [Duty.one, hins] using this
  · have := hd .invocation
    simp [Duty.one, hinv] at this
    simp [this]

lemma Ok.activateIncarnated_dying (h : Ok s) (hfree : s.internalLockFree = true) {servant : ℕ}
    (hn : next s.threads t = some (.activateIncarnated p e servant)) :
    Ok (((s.setActive e servant p).insertIntoOAObjList e p).goOn t [.closeIncarnated p e]) := by
  have hx := (h.entries e).state_of_activate (duty_pos hn (by simp))
  have hok := h.entries e
  simp only [EntryOk, hx] at hok
  obtain ⟨-, hins, -, -, hinv, -, -, -, hnum, hs, -, -⟩ := hok
  have he := h.lt_of_state (e := e) (by simp [hx])
  have hfit := h.fits _ (mem_pending_of_next hn)
  have hp : (s.entry e).key.1 = p := hfit.2
  have hperm := proceed_perm hn [.closeIncarnated p e]
  have hd : ∀ d, (s.goOn t [.closeIncarnated p e]).duty e d + Duty.one .activate d
      = s.duty e d := fun d => by
    simpa [Duty.one, List.countP_cons] using duty_goOn hn [.closeIncarnated p e] e d
  have hv : (s.goOn t [.closeIncarnated p e]).duty e .invocation = 0 := by
    have := hd .invocation
    simpa [Duty.one, hinv] using this
  have hentry := (h.entries e).setActive hx ((s.goOn t [.closeIncarnated p e]).duty e) servant
    (some (.activeObjList p)) (n := (s.entry e).nInvocations) (fun d _ _ => hd d) ?_ ?_
  · rw [h.setActive_insert hx]
    refine h.alter he hperm (fun _ => mem_proceed hn) rfl
      (fun e' he' d => ?_) (fun _ _ => rfl) (hp ▸ hentry)
      (isPath_setState (h.paths e he) (by rw [hx]; trivial)) (by simpa [PoaInstr.Fits] using hfit)
      (by simp [inPoa]) (fun servant' => ?_) (fun servant' e' he' => ?_) ?_ ?_
      (by simp [closes]) (fun c phase hm => absurd hm (notMem_of_closes (fun _ => rfl) c phase)) ?_
      (fun _ _ => ⟨rfl, rfl, hv⟩) (fun p' e' he' => by simp [he'])
    · simp [he'.symm]
    · refine (h.count_addActivation hs servant servant').trans ?_
      simp [ObjTableEntry.setState, IsActivation, eq_comm]
    · refine (ObjectTable.count_addActivation servant e servant' e').trans ?_
      simp [he']
    · simp [ObjTableEntry.setState, hp]
    · simp
    · have h1 := hperm.countP_eq holdsInternalLock
      have h2 := countP_of_internalLockFree hfree
      rw [List.countP_append, List.countP_append, h2] at h1
      change (pending (proceed s.threads t _)).countP holdsInternalLock ≤ 1
      have h3 : [PoaInstr.closeIncarnated p e].countP holdsInternalLock = 1 := rfl
      omega
  · have := hd .insert
    simpa [Duty.one, hins] using this
  · rw [hnum, hv]
    rfl

/-- The POA is being destroyed, and its new object is etherealised. -/
lemma Ok.closeIncarnated (h : Ok s) (hn : next s.threads t = some (.closeIncarnated p e)) :
    Ok ((((s.setDeactivating e).removeFromOAObjList e).setEtherealising e).goOn t
      [.detachedObject p, .queueEtherealiser p e, .exitAdapter p]) := by
  obtain ⟨hx, hl, hv⟩ := h.locked p e (mem_pending_of_next hn)
  have hok := h.entries e
  simp only [EntryOk, hx] at hok
  obtain ⟨-, hins, -, -, -, -, hnum, hs, -, -⟩ := hok
  obtain ⟨servant, hs⟩ := Option.isSome_iff_exists.mp hs
  have hlink := ObjTableEntry.linked_eq_one.mpr hl
  have he := h.lt_of_state (e := e) (by simp [hx])
  have hfit := h.fits _ (mem_pending_of_next hn)
  have hm := h.mem_activations (.inl hx) hs
  have hperm := proceed_perm hn [.detachedObject p, .queueEtherealiser p e, .exitAdapter p]
  have hlock : (pending (proceed s.threads t
      [.detachedObject p, .queueEtherealiser p e, .exitAdapter p])).countP holdsInternalLock = 0 := by
    have h1 := hperm.countP_eq holdsInternalLock
    have h2 := h.lock
    have h3 : [PoaInstr.closeIncarnated p e].countP holdsInternalLock = 1 := rfl
    have h4 : [PoaInstr.detachedObject p, .queueEtherealiser p e, .exitAdapter p].countP
        holdsInternalLock = 0 := rfl
    rw [List.countP_append, List.countP_append, h3, h4] at h1
    omega
  have heq : ((s.setDeactivating e).removeFromOAObjList e).setEtherealising e = { s with
      entry := Function.update s.entry e
        { ((s.entry e).setState .deactivating).setState .etherealising with
          nInvocations := (s.entry e).nInvocations - 1, oaObjList := none, deactivated := true }
      activations := Function.update s.activations servant ((s.activations servant).erase e) } := by
    rw [setDeactivating, setDeactivating_of_active hx (by omega), removeFromOAObjList_of,
      setEtherealising_of servant]
    · simp [setEntry, ObjTableEntry.setState]
    · simp [ObjTableEntry.setState, isIn_deactivating]
    · simpa [ObjTableEntry.setState] using hs
    · simpa using hm
    · simpa [ObjTableEntry.setState] using hl
  rw [heq]
  refine h.alter he hperm (fun _ => mem_proceed hn) rfl (fun e' he' d => ?_) (fun _ _ => rfl)
    ((h.entries e).setEtherealising hx (by omega) hv (v := (s.goOn t _).duty e) fun d => ?_)
    (isPath_setState (x := (s.entry e).setState .deactivating)
      (isPath_setState (h.paths e he) (by rw [hx]; trivial)) trivial)
    (by simpa [PoaInstr.Fits] using hfit) (by simp [inPoa, List.countP_cons]) (fun servant' => ?_)
    (fun servant' e' he' => ?_) (by simp) (by simp) (by simp [closes])
    (fun c phase hm => absurd hm (notMem_of_closes (fun _ => rfl) c phase))
    (hlock.trans_le (Nat.zero_le _)) (fun p' hm => ?_) (by simp)
  · simp [he'.symm]
  · have hd := duty_goOn hn [.detachedObject p, .queueEtherealiser p e, .exitAdapter p] e d
    cases d <;> simpa [Duty.one, List.countP_cons] using hd
  · refine (h.count_erase hs servant' e).trans ?_
    simp [ObjTableEntry.setState, IsActivation]
  · refine (h.count_erase hs servant' e').trans ?_
    rw [if_neg he']
  · have := List.countP_eq_zero.mp hlock _ hm
    simp [holdsInternalLock] at this

/-! ### Invocations -/

lemma Ok.endInvocation (h : Ok s) (hfree : s.internalLockFree = true)
    (hn : next s.threads t = some (.endInvocation p e))
    (hlast : (s.entry e).state = .deactivating → 1 < (s.entry e).nInvocations) :
    Ok (((s.setEntry e { s.entry e with
      nInvocations := (s.entry e).nInvocations - 1 }).leaveAdapter p).goOn t []) := by
  have hpos : 0 < s.duty e .invocation := duty_pos hn (by simp)
  have hx := (h.entries e).state_of_invocation hpos
  have he := h.lt_of_state (e := e) (by rcases hx with hx | hx | hx <;> simp [hx])
  have hreq : 0 < (s.poa p).nReqInThis := h.le_nReqInThis (mem_pending_of_next hn) (by simp [inPoa])
  have hdue : (s.entry e).state = .deactivating → 1 < s.duty e .invocation := by
    intro hs
    have hok := h.entries e
    have := hlast hs
    simp only [EntryOk, hs] at hok
    omega
  rw [leaveAdapter, assert_of (by exact hreq)]
  refine h.alterLocked hfree he (proceed_perm hn _) (fun _ => mem_proceed hn) rfl
    (fun e' he' d => ?_) (fun _ _ => rfl)
    ((h.entries e).endInvocation (v := (s.goOn t []).duty e) hpos hdue fun d => ?_)
    (h.paths e he) (by simp) (fun q => ?_) (h.activations · e) (fun _ _ _ => rfl)
    (h.active e) (fun k hk => ⟨hk, rfl⟩) (notMem_of_closes fun _ => rfl) (by simp) (by simp)
  · simp [he'.symm]
  · have hd := duty_goOn hn [] e d
    simpa [Duty.one, List.countP_cons] using hd
  · by_cases hq : q = p
    · subst hq
      simp [inPoa]
    · simp [inPoa, hq, Ne.symm hq]

/-- The last invocation of an entry that is being deactivated ends. -/
lemma Ok.lastInvocation (h : Ok s) (hfree : s.internalLockFree = true)
    (hn : next s.threads t = some (.endInvocation p e)) (hx : (s.entry e).state = .deactivating)
    (hone : (s.entry e).nInvocations = 1) :
    Ok ((((s.setEntry e { s.entry e with
      nInvocations := (s.entry e).nInvocations - 1 }).leaveAdapter p).setEtherealising e).goOn t
        [.findActivator p e]) := by
  have hok := h.entries e
  simp only [EntryOk, hx] at hok
  obtain ⟨-, -, -, -, -, -, hl, -, hnum, hs, -, -⟩ := hok
  obtain ⟨servant, hs⟩ := Option.isSome_iff_exists.mp hs
  have hnone := ObjTableEntry.linked_eq_zero.mp hl
  have he := h.lt_of_state (e := e) (by simp [hx])
  have hfit := h.fits _ (mem_pending_of_next hn)
  have hm := h.mem_activations (.inr (.inl hx)) hs
  have hreq : 0 < (s.poa p).nReqInThis := h.le_nReqInThis (mem_pending_of_next hn) (by simp [inPoa])
  have heq : ((s.setEntry e { s.entry e with
      nInvocations := (s.entry e).nInvocations - 1 }).leaveAdapter p).setEtherealising e = { s with
      entry := Function.update s.entry e { (s.entry e).setState .etherealising with
        nInvocations := (s.entry e).nInvocations - 1, deactivated := true }
      poa := Function.update s.poa p { s.poa p with nReqInThis := (s.poa p).nReqInThis - 1 }
      activations := Function.update s.activations servant ((s.activations servant).erase e) } := by
    rw [leaveAdapter, assert_of (by exact hreq), setEtherealising_of servant]
    · simp [setEntry, setPoa, ObjTableEntry.setState]
    · simp [isIn_deactivating, hx]
    · simpa using hs
    · exact hm
  rw [heq]
  refine h.alterLocked hfree he (proceed_perm hn _) (fun _ => mem_proceed hn) rfl
    (fun e' he' d => ?_) (fun _ _ => rfl)
    ((h.entries e).lastInvocation hx (v := (s.goOn t [.findActivator p e]).duty e) (by omega)
      fun d => ?_)
    (isPath_setState (h.paths e he) (by rw [hx]; trivial)) (by simpa [PoaInstr.Fits] using hfit)
    (fun q => ?_) (fun servant' => ?_) (fun servant' e' he' => ?_) ?_ ?_
    (notMem_of_closes fun _ => rfl) (by simp [closes]) (by simp [holdsInternalLock])
  · simp [he'.symm]
  · have hd := duty_goOn hn [.findActivator p e] e d
    cases d <;> simpa [Duty.one, List.countP_cons] using hd
  · by_cases hq : q = p
    · subst hq
      simp [inPoa]
    · simp [inPoa, hq, Ne.symm hq]
  · refine (h.count_erase hs servant' e).trans ?_
    simp [ObjTableEntry.setState, IsActivation]
  · refine (h.count_erase hs servant' e').trans ?_
    rw [if_neg he']
  · simp [ObjTableEntry.setState, hnone]
  · simp [ObjTableEntry.setState, hnone]

lemma duty_start (s : ObjectTable) (l : List PoaInstr) (e : ℕ) (d : Duty) :
    (s.start l).duty e d = s.duty e d + l.countP (has e d) := by
  simp [duty, start, List.countP_append]

/-- An invocation of an entry starts. -/
lemma Ok.startInvocation (h : Ok s) (hfree : s.internalLockFree = true)
    (hx : (s.entry e).state.IsActivation) (ha : (s.entry e).adapter = some p) :
    Ok ((s.startInvocation e p).start [.endInvocation p e]) := by
  have he := h.lt_of_state (e := e) (by rcases hx with hx | hx | hx <;> simp [hx])
  obtain ⟨hs, hp⟩ : (s.entry e).servant.isSome ∧ (s.entry e).adapter = some (s.entry e).key.1 := by
    have hok := h.entries e
    rcases hx with hx | hx | hx
    all_goals
      simp only [EntryOk, hx] at hok
      tauto
  have hkey : (s.entry e).key.1 = p := Option.some.inj (hp.symm.trans ha)
  have hreq : 0 ≤ (s.poa p).nReqInThis := by
    rw [h.requests p]
    exact Int.natCast_nonneg _
  rw [ObjectTable.startInvocation, assert_of ⟨ha, hs⟩, enterAdapter, assert_of (by exact hreq)]
  refine h.alterLocked hfree he (start_perm _ _) (fun _ => mem_start) rfl
    (fun e' he' d => ?_) (fun _ _ => rfl)
    ((h.entries e).startInvocation (v := (s.start [.endInvocation p e]).duty e) hx fun d => ?_)
    (h.paths e he) (by simp [PoaInstr.Fits, he, hkey]) (fun q => ?_) (h.activations · e) (fun _ _ _ => rfl)
    (h.active e) (fun k hk => ⟨hk, rfl⟩) (by simp) (by simp [closes]) (by simp [holdsInternalLock])
  · simp [he'.symm]
  · rw [duty_start]
    simp [Duty.one, List.countP_cons]
  · by_cases hq : q = p
    · subst hq
      simp [inPoa]
    · simp [inPoa, hq, Ne.symm hq]

/-! ### New entries -/

/-- A place-holder is put into the table. -/
lemma Ok.newEntry (h : Ok s) (hfree : s.internalLockFree = true) {key : ℕ × List UInt8}
    {poa : ℕ → ObjectAdapter} (hi : ∀ e d, i.has e d = decide (d = .activate ∧ s.nEntries = e))
    (hfit : i.Fits { s.newEntry key with poa }) (hcl : ∀ k, i.closes k = false)
    (hlock : i.holdsInternalLock = false)
    (hreq : ∀ q, (poa q).nReqInThis = (s.poa q).nReqInThis + [i].countP (inPoa q)) :
    Ok ({ s.newEntry key with poa }.start [i]) := by
  have hblank := h.blank s.nEntries le_rfl
  have hok := h.entries s.nEntries
  rw [hblank] at hok
  simp only [EntryOk, ObjTableEntry.blank, ObjTableEntry.new] at hok
  obtain ⟨h1, h2, h3, h4, h5, -, h6, -, -⟩ := hok
  have hd : ∀ d, ({ s.newEntry key with poa }.start [i]).duty s.nEntries d
      = s.duty s.nEntries d + Duty.one .activate d := by
    intro d
    refine (duty_start s [i] s.nEntries d).trans ?_
    simp [hi, Duty.one, List.countP_cons]
  simp only [Option.isSome_none, Bool.false_eq_true, if_false, Nat.add_eq_zero_iff] at h6
  have hlock0 : (pending ({ s.newEntry key with poa }.start [i]).threads).countP
      holdsInternalLock = 0 := by
    have h0 := countP_of_internalLockFree hfree
    change (pending (s.threads ++ [[i]])).countP holdsInternalLock = 0
    rw [pending_append, List.countP_append, h0]
    simp [hlock]
  have hno : ∀ p e, .closeIncarnated p e ∉ pending ({ s.newEntry key with poa }.start [i]).threads := by
    intro p e hm
    have := List.countP_eq_zero.mp hlock0 _ hm
    simp [holdsInternalLock] at this
  have hc : Change s ({ s.newEntry key with poa }.start [i]) s.nEntries [] [i] := by
    refine ⟨start_perm _ _, fun _ => mem_start, .inr ⟨rfl, rfl⟩, rfl, fun hlt => absurd hlt (lt_irrefl _),
      fun e' he' => Function.update_of_ne he' _ _, fun e' he' d => ?_, fun _ _ => rfl, rfl,
      fun k => ?_, by simp⟩
    · simp [hi, he'.symm]
    · simp [hcl]
  have hself : ({ s.newEntry key with poa }.start [i]).entry s.nEntries = .new key :=
    Function.update_self _ _ _
  refine h.change hc h.failed (fun hle => absurd hle (Nat.not_succ_le_self _)) ?_ (fun _ => ?_)
    (fun j hj => ?_) (fun q => ?_) (fun servant e' => ?_) ?_ ?_
    (hlock0.trans_le (Nat.zero_le _)) (fun p hm => absurd hm (hno p _))
    fun p e' _ hm => absurd (mem_start hm) (hno p e')
  · rw [hself]
    simp only [Duty.one] at hd
    refine ⟨?_, ?_, ?_, ?_, ?_, h6.2, h5, rfl, rfl, rfl, rfl, rfl⟩
    all_goals
      rw [hd]
      simp [h1, h2, h3, h4, h6.1]
  · rw [hself]
    exact isPath_new key
  · rw [List.mem_singleton.mp hj]
    cases i
    all_goals exact hfit
  · have := hreq q
    change (poa q).nReqInThis + _ = _
    simpa using this
  · have hact := h.activations servant e'
    by_cases he : e' = s.nEntries
    · subst he
      rw [hself]
      rw [hblank] at hact
      exact hact
    · change (s.activations servant).count e' = _
      rw [hc.entry e' he]
      exact hact
  · rw [hself]
    simp [ObjTableEntry.new]
  · rw [hself]
    simp [ObjTableEntry.new]

/-- A new entry that is active at once. -/
lemma Ok.activateNew (h : Ok s) (p servant : ℕ) (oid : List UInt8) :
    Ok (s.activateNew p servant oid) := by
  have hblank := h.blank s.nEntries le_rfl
  have hok := h.entries s.nEntries
  rw [hblank] at hok
  simp only [EntryOk, ObjTableEntry.blank, ObjTableEntry.new] at hok
  obtain ⟨h1, h2, h3, h4, h5, -, h6, -, -⟩ := hok
  simp only [Option.isSome_none, Bool.false_eq_true, if_false, Nat.add_eq_zero_iff] at h6
  have heq : s.activateNew p servant oid = { s with
      nEntries := s.nEntries + 1
      entry := Function.update s.entry s.nEntries { (ObjTableEntry.new (p, oid)).setState .active with
        servant := some servant, adapter := some p, oaObjList := some (.activeObjList p) }
      activations := (s.addActivation servant s.nEntries).activations
      calls := .addRef s.nEntries :: s.calls } := by
    have hself : (s.newEntry (p, oid)).entry s.nEntries = .new (p, oid) := Function.update_self _ _ _
    rw [ObjectTable.activateNew, setActive_of_activating (by rw [hself]; rfl) (by rw [hself]; rfl)
      (by rw [hself]; rfl), insertIntoOAObjList, assert_of]
    · simp [ObjectTable.newEntry, setEntry, call, addActivation]
    · simp [hself, call, addActivation, ObjTableEntry.setState, ObjTableEntry.new]
  rw [heq]
  have hc : Change s { s with
      nEntries := s.nEntries + 1
      entry := Function.update s.entry s.nEntries { (ObjTableEntry.new (p, oid)).setState .active with
        servant := some servant, adapter := some p, oaObjList := some (.activeObjList p) }
      activations := (s.addActivation servant s.nEntries).activations
      calls := .addRef s.nEntries :: s.calls } s.nEntries [] [] := by
    refine ⟨by simp, by simp, .inr ⟨rfl, rfl⟩, rfl, fun hlt => absurd hlt (lt_irrefl _),
      fun e' he' => Function.update_of_ne he' _ _, by simp, fun e' _ => ?_, rfl, by simp, by simp⟩
    simp [handed, ServantCall.hands]
  refine h.change hc h.failed (fun hle => absurd hle (Nat.not_succ_le_self _)) ?_ (fun _ => ?_)
    (by simp) (by simp) (fun servant' e' => ?_) (fun q hq => ?_) (fun k hk => ?_) h.lock
    (fun p' hm => absurd (h.fits _ hm).1 (lt_irrefl _)) (by simp)
  · change EntryOk (Function.update s.entry s.nEntries _ s.nEntries) _
      ((ServantCall.addRef s.nEntries :: s.calls).countP _) _
    rw [Function.update_self, List.countP_cons]
    refine ⟨h1, ?_, h3, h6.1, h6.2, h5, ?_, rfl, rfl, rfl⟩
    · change s.duty s.nEntries .insert + _ = 1
      simp [h2, ObjTableEntry.linked]
    · change (1 : ℤ) = s.duty s.nEntries .invocation + 1
      rw [h4]
      rfl
  · change IsPath (Function.update s.entry s.nEntries _ s.nEntries).states
    rw [Function.update_self]
    exact isPath_setState (isPath_new (p, oid)) trivial
  · by_cases he : e' = s.nEntries
    · subst he
      refine (h.count_addActivation (by rw [hblank]; rfl) servant servant').trans ?_
      simp [ObjTableEntry.setState, IsActivation, eq_comm]
    · refine (ObjectTable.count_addActivation servant s.nEntries servant' e').trans ?_
      simpa [he] using h.activations servant' e'
  · have hq' : ObjListHead.activeObjList p = .activeObjList q := by simpa using hq
    obtain rfl := ObjListHead.activeObjList.inj hq'
    simp [ObjTableEntry.setState, ObjTableEntry.new]
  · simp at hk

/-! ### Deactivation -/

lemma locate_eq_some {key : ℕ × List UInt8} (hl : s.locate key = some e) :
    e < s.nEntries ∧ (s.entry e).state ≠ .dead ∧ (s.entry e).key = key := by
  have hs := List.find?_some hl
  simp only [decide_eq_true_eq] at hs
  exact ⟨List.mem_range.mp (List.mem_of_find?_eq_some hl), hs⟩

/-- Nobody is about to insert an entry of the POA. -/
lemma Ok.insert_eq_zero (h : Ok s) (hfree : s.pdLockFree p = true) (hp : (s.entry e).key.1 = p) :
    s.duty e .insert = 0 := by
  refine List.countP_eq_zero.mpr fun i hi hhas => ?_
  cases i
  case insertActive q e' =>
    obtain rfl : e' = e := by simpa using hhas
    have hq : (s.entry e').key.1 = q := (h.fits _ hi).2
    have hno := List.all_eq_true.mp hfree _ hi
    simp [holdsPdLock, ← hq, hp] at hno
  all_goals simp [has] at hhas

/-- An active entry starts to be deactivated, and has left its list. -/
lemma Ok.deactivating_eq (h : Ok s) (hx : (s.entry e).state = .active) (hl : (s.entry e).linked = 1) :
    (s.setDeactivating e).removeFromOAObjList e = s.setEntry e
      { (s.entry e).setState .deactivating with
        nInvocations := (s.entry e).nInvocations - 1, oaObjList := none } := by
  have hok := h.entries e
  simp only [EntryOk, hx] at hok
  rw [setDeactivating, setDeactivating_of_active hx (by omega), removeFromOAObjList_of]
  · simp [setEntry]
  · simpa [ObjTableEntry.setState] using ObjTableEntry.linked_eq_one.mp hl

lemma Ok.deactivateBusy (h : Ok s) (hfree : s.internalLockFree = true)
    (hx : (s.entry e).state = .active) (hins : s.duty e .insert = 0)
    (hbusy : 0 < s.duty e .invocation) :
    Ok (((s.setDeactivating e).removeFromOAObjList e).start [.detachBusy p]) := by
  have hok := h.entries e
  simp only [EntryOk, hx] at hok
  have he := h.lt_of_state (e := e) (by simp [hx])
  have hd : (((s.setDeactivating e).removeFromOAObjList e).start [.detachBusy p]).duty e
      = s.duty e := by
    funext d
    rw [h.deactivating_eq hx (by omega), duty_start]
    simp [duty]
  have hentry := (h.entries e).setDeactivating hx hins hbusy
  rw [← hd] at hentry
  rw [h.deactivating_eq hx (by omega)] at hentry ⊢
  refine h.alterLocked hfree he (start_perm _ _) (fun _ => mem_start) rfl
    (fun e' he' d => by simp) (fun _ _ => rfl) hentry
    (isPath_setState (h.paths e he) (by rw [hx]; trivial)) (by simp [PoaInstr.Fits]) (by simp [inPoa])
    (fun servant => ?_) (fun _ _ _ => rfl) (by simp) (by simp) (by simp) (by simp [closes])
    (by simp [holdsInternalLock])
  have hact := h.activations servant e
  simpa [hx, ObjTableEntry.setState, IsActivation] using hact

lemma Ok.deactivateIdle (h : Ok s) (hfree : s.internalLockFree = true)
    (hx : (s.entry e).state = .active) (hp : (s.entry e).key.1 = p) (hins : s.duty e .insert = 0)
    (hidle : s.duty e .invocation = 0) :
    Ok (((((s.setDeactivating e).removeFromOAObjList e).detachedObject p).setEtherealising e).start
      [.findActivator p e]) := by
  have hok := h.entries e
  simp only [EntryOk, hx] at hok
  obtain ⟨-, hl, -, -, -, -, hnum, hs, -, -⟩ := hok
  obtain ⟨servant, hs⟩ := Option.isSome_iff_exists.mp hs
  have he := h.lt_of_state (e := e) (by simp [hx])
  have hm := h.mem_activations (.inl hx) hs
  have heq : (((s.setDeactivating e).removeFromOAObjList e).detachedObject p).setEtherealising e
      = { s with
        entry := Function.update s.entry e
          { ((s.entry e).setState .deactivating).setState .etherealising with
            nInvocations := (s.entry e).nInvocations - 1, oaObjList := none, deactivated := true }
        poa := Function.update s.poa p
          { s.poa p with nDetachedObjects := (s.poa p).nDetachedObjects + 1 }
        activations := Function.update s.activations servant ((s.activations servant).erase e) } := by
    rw [h.deactivating_eq hx (by omega), setEtherealising_of servant]
    · simp [setEntry, setPoa, ObjectTable.detachedObject, ObjTableEntry.setState]
    · simp [ObjectTable.detachedObject, ObjTableEntry.setState, isIn_deactivating]
    · simpa [ObjectTable.detachedObject, ObjTableEntry.setState] using hs
    · exact hm
  rw [heq]
  refine h.alterLocked hfree he (start_perm _ _) (fun _ => mem_start) rfl
    (fun e' he' d => ?_) (fun _ _ => rfl)
    ((h.entries e).setEtherealising hx hins hidle (v := (s.start [.findActivator p e]).duty e)
      fun d => ?_)
    (isPath_setState (x := (s.entry e).setState .deactivating)
      (isPath_setState (h.paths e he) (by rw [hx]; trivial)) trivial)
    (by simp [PoaInstr.Fits, he, hp]) (fun q => ?_) (fun servant' => ?_) (fun servant' e' he' => ?_)
    (by simp) (by simp) (by simp) (by simp [closes]) (by simp [holdsInternalLock])
  · simp [he'.symm]
  · rw [duty_start]
    cases d <;> simp [Duty.one]
  · by_cases hq : q = p
    · subst hq
      simp [inPoa]
    · simp [inPoa, hq]
  · refine (h.count_erase hs servant' e).trans ?_
    simp [ObjTableEntry.setState, IsActivation]
  · refine (h.count_erase hs servant' e').trans ?_
    rw [if_neg he']

lemma Ok.deactivateObject (h : Ok s) {pol : ServantPolicies} {oid : List UInt8}
    (hpd : s.pdLockFree p = true) (hfree : s.internalLockFree = true) :
    Ok (s.orUnchanged (s.deactivateObject pol p oid)) := by
  rw [ObjectTable.deactivateObject]
  by_cases hret : (!pol.retainServants) = true
  · rw [if_pos hret]
    exact h
  rw [if_neg hret]
  by_cases hdes : (s.poa p).destroyed ≠ 0
  · rw [if_pos hdes]
    exact h
  rw [if_neg hdes]
  cases hl : s.locate (p, oid) with
  | none => exact h
  | some e =>
    obtain ⟨-, -, hkey⟩ := locate_eq_some hl
    have hp : (s.entry e).key.1 = p := congrArg Prod.fst hkey
    dsimp only
    by_cases hx : (s.entry e).state = .active
    · rw [if_neg (not_not_intro hx)]
      have hok := h.entries e
      have hins := h.insert_eq_zero hpd hp
      simp only [EntryOk, hx] at hok
      have hentry : ((s.setDeactivating e).removeFromOAObjList e).entry e
          = { (s.entry e).setState .deactivating with
            nInvocations := (s.entry e).nInvocations - 1, oaObjList := none } := by
        rw [h.deactivating_eq hx (by omega)]
        simp
      by_cases hidle : (((s.setDeactivating e).removeFromOAObjList e).entry e).isIdle = true
      · rw [if_pos hidle]
        rw [hentry] at hidle
        simp only [ObjTableEntry.isIdle, decide_eq_true_eq] at hidle
        rw [lastInvocationHasCompleted, if_neg]
        · exact h.deactivateIdle hfree hx hp hins (by omega)
        · change (((s.setDeactivating e).removeFromOAObjList e).entry e).state ≠ _
          rw [hentry]
          simp [ObjTableEntry.setState]
      · rw [if_neg hidle]
        rw [hentry] at hidle
        simp only [ObjTableEntry.isIdle, decide_eq_true_eq] at hidle
        exact h.deactivateBusy hfree hx hins (by omega)
    · rw [if_pos hx]
      exact h

/-! ### Closing a POA -/

/-- The thread that has the list of an entry. -/
lemma Ok.closing_unique (h : Ok s) {c : Closer} {phase : ClosePhase}
    (hm : .closing c phase ∈ pending s.threads)
    (he : (s.entry e).oaObjList = some (.objList c.objList)) :
    (s.entry e).key.1 = c.poa ∧ (s.entry e).state = phase.state := by
  obtain ⟨c', phase', hm', hk, hp, hstate⟩ := h.taken e _ he
  have := eq_of_countP_le_one (h.closers c.objList) hm hm' (by simp [closes]) (by simp [closes, hk])
  simp only [PoaInstr.closing.injEq] at this
  obtain ⟨rfl, rfl⟩ := this
  exact ⟨hp.symm, hstate⟩

/-- `etherealise_objects` takes an entry, and goes on with it. -/
lemma Ok.take (h : Ok s) {c : Closer} (hn : next s.threads t = some (.closing c .etherealising))
    (hl : (s.entry e).oaObjList = some (.objList c.objList)) {l : List PoaInstr}
    (hduties : ∀ e' d, l.countP (has e' d)
      = if e = e' then Duty.one .finish d + Duty.one .hand d else 0)
    (hfits : ∀ i ∈ l, i.Fits s) (hreq : ∀ p, l.countP (inPoa p) = 0)
    (hcloses : ∀ k, l.countP (closes k) = [PoaInstr.closing c .etherealising].countP (closes k))
    (hclosing : .closing c .etherealising ∈ l) (hlock : l.countP holdsInternalLock = 0) :
    Ok ((s.setEntry e { s.entry e with oaObjList := none }).goOn t l) := by
  have hx : (s.entry e).state = .etherealising := (h.closing_unique (mem_pending_of_next hn) hl).2
  have hlink : (s.entry e).linked = 1 := ObjTableEntry.linked_eq_one.mpr (by rw [hl]; rfl)
  have he := h.lt_of_state (e := e) (by simp [hx])
  have hperm := proceed_perm hn l
  have hno : ∀ p e', .closeIncarnated p e' ∉ l := by
    intro p e' hm
    have := List.countP_eq_zero.mp hlock _ hm
    simp [holdsInternalLock] at this
  refine h.alter he hperm (fun _ => mem_proceed hn) rfl (fun e' he' d => ?_) (fun _ _ => rfl)
    ((h.entries e).take hx hlink (v := (s.goOn t l).duty e) fun d => ?_) (h.paths e he) hfits
    (fun p => by simp [hreq, inPoa]) (h.activations · e) (fun _ _ _ => rfl) (by simp) (by simp)
    (fun k => (hcloses k).le) (fun c' phase hm => ?_) ?_ (fun p hm => ?_) fun p e' _ => hno p e'
  · simp [hduties, he'.symm]
  · have hd := duty_goOn hn l e d
    rw [hduties, if_pos rfl] at hd
    simp at hd
    omega
  · obtain ⟨rfl, rfl⟩ : c' = c ∧ phase = .etherealising := by simpa using hm
    exact ⟨.etherealising, hclosing, rfl⟩
  · have h1 := hperm.countP_eq holdsInternalLock
    have h2 := h.lock
    rw [List.countP_append, List.countP_append, hlock] at h1
    change (pending (proceed s.threads t l)).countP holdsInternalLock ≤ 1
    omega
  · rcases List.mem_append.mp (hperm.mem_iff.mp (List.mem_append_left _ hm)) with hm | hm
    · have hstate := (h.locked p e hm).1
      rw [hx] at hstate
      cases hstate
    · exact absurd hm (hno p e)

lemma Ok.etherealiseObject (h : Ok s) {c : Closer}
    (hn : next s.threads t = some (.closing c .etherealising))
    (hl : (s.entry e).oaObjList = some (.objList c.objList)) :
    Ok ((s.etherealiseObject c e).1.goOn t (s.etherealiseObject c e).2) := by
  obtain ⟨hp, hx⟩ := h.closing_unique (mem_pending_of_next hn) hl
  have hx' : (s.entry e).state = .etherealising := hx
  have he := h.lt_of_state (e := e) (by simp [hx'])
  have hk : c.objList < s.nLists := h.fits _ (mem_pending_of_next hn)
  have hidle : (s.entry e).isIdle = true := by
    have hok := h.entries e
    simp only [EntryOk, hx'] at hok
    simp [ObjTableEntry.isIdle, hok]
  rw [ObjectTable.etherealiseObject, assert_of hidle]
  dsimp only
  split_ifs
  · refine h.take hn hl (fun e' d => ?_) ?_ (by simp [inPoa]) (by simp [closes])
      (by simp) (by simp [holdsInternalLock])
    · by_cases hee : e = e'
      · cases d <;> simp [hee, Duty.one]
      · simp [hee]
    · simp [PoaInstr.Fits, he, hp, hk]
  · refine h.take hn hl (fun e' d => ?_) ?_ (by simp [inPoa]) (by simp [closes])
      (by simp) (by simp [holdsInternalLock])
    · by_cases hee : e = e'
      · cases d <;> simp [hee, Duty.one]
      · simp [hee]
    · simp [PoaInstr.Fits, he, hk]

/-- A thread takes the list of the POA. -/
lemma Ok.reRoot (h : Ok s) {c : Closer} (hk : c.objList = s.nLists)
    {threads : List (List PoaInstr)}
    (hperm : (pending threads ++ old).Perm (pending s.threads ++ [.closing c .taken]))
    (hleft : .closing c .taken ∈ pending threads) (hold : ∀ i ∈ old, i.Plain)
    (poa : ℕ → ObjectAdapter)
    (hreq : ∀ p, (poa p).nReqInThis + old.countP (inPoa p) = (s.poa p).nReqInThis) :
    Ok { s.reRootOAObjList c.poa with threads, poa } := by
  have hcount : ∀ f : PoaInstr → Bool, (∀ i : PoaInstr, i.Plain → f i = false) →
      (pending threads).countP f = (pending s.threads).countP f
        + [PoaInstr.closing c .taken].countP f := by
    intro f hf
    have h1 := hperm.countP_eq f
    rw [List.countP_append, List.countP_append, countP_plain hold hf] at h1
    omega
  have hkey : ∀ e, ((s.reRootOAObjList c.poa).entry e).key = (s.entry e).key := by
    intro e
    simp only [reRootOAObjList]
    split_ifs <;> rfl
  have hstate : ∀ e, ((s.reRootOAObjList c.poa).entry e).state = (s.entry e).state := by
    intro e
    simp only [reRootOAObjList]
    split_ifs <;> rfl
  have hmem : ∀ i, i ∈ pending threads → i ∈ pending s.threads ∨ i = .closing c .taken := by
    intro i hi
    simpa using hperm.mem_iff.mp (List.mem_append_left old hi)
  refine ⟨h.failed, fun e he => ?_, fun e => ?_, fun e he => ?_, fun i hi => ?_, fun p => ?_,
    fun servant e => ?_, fun e p hl => ?_, fun e k hl => ?_, fun k => ?_, ?_, fun p e hm => ?_⟩
  · simp only [reRootOAObjList]
    rw [h.blank e he, if_neg (by simp [ObjTableEntry.blank, ObjTableEntry.new])]
  · have hd : ∀ d, (pending threads).countP (has e d) = s.duty e d := by
      intro d
      rw [hcount _ fun i hi => hi.has e d]
      simp [duty]
    have hok := h.entries e
    rw [← funext hd] at hok
    simp only [reRootOAObjList]
    split_ifs with hl
    · exact hok.relink hl
    · exact hok
  · simp only [reRootOAObjList]
    split_ifs
    · exact h.paths e he
    · exact h.paths e he
  · rcases hmem i hi with hi | rfl
    · have hf := h.fits i hi
      cases i
      case closing c' phase => exact Nat.lt_succ_of_lt hf
      all_goals first
        | exact trivial
        | exact hf
        | exact ⟨hf.1, (congrArg Prod.fst (hkey _)).trans hf.2⟩
    · change c.objList < s.nLists + 1
      omega
  · have h1 := hperm.countP_eq (inPoa p)
    have h2 := hreq p
    have h3 := h.requests p
    simp only [List.countP_append] at h1
    simp [inPoa] at h1
    change (poa p).nReqInThis = (pending threads).countP (inPoa p)
    omega
  · have hact := h.activations servant e
    simp only [reRootOAObjList]
    split_ifs <;> simp_all
  · simp only [reRootOAObjList] at hl ⊢
    split_ifs at hl ⊢ with hc
    · simp at hl
    · exact h.active e p hl
  · simp only [reRootOAObjList] at hl ⊢
    split_ifs at hl ⊢ with hc
    · obtain ⟨hx, hp⟩ := h.active e _ hc
      have hk' : ObjListHead.objList s.nLists = .objList k := by simpa using hl
      obtain rfl := ObjListHead.objList.inj hk'
      exact ⟨c, .taken, hleft, hk, hp.symm, hx⟩
    · obtain ⟨c', phase, hm, hrest⟩ := h.taken e k hl
      refine ⟨c', phase, ?_, hrest⟩
      have hm' := hperm.mem_iff.mpr (List.mem_append_left _ hm)
      exact (List.mem_append.mp hm').resolve_right fun ho => (hold _ ho).elim
  · change (pending threads).countP (closes k) ≤ 1
    rw [hcount _ fun i hi => hi.closes k]
    have h1 := h.closers k
    by_cases hck : c.objList = k
    · have h0 : (pending s.threads).countP (closes k) = 0 := by
        refine List.countP_eq_zero.mpr fun i hi hcl => ?_
        cases i
        case closing c' phase =>
          have hlt : c'.objList < s.nLists := h.fits _ hi
          simp only [closes, decide_eq_true_eq] at hcl
          omega
        all_goals simp [closes] at hcl
      simp [h0, closes, hck]
    · simpa [closes, hck] using h1
  · change (pending threads).countP holdsInternalLock ≤ 1
    rw [hcount _ fun i hi => hi.holdsInternalLock]
    simpa [holdsInternalLock] using h.lock
  · obtain ⟨hx, hl, hv⟩ := h.locked p e ((hmem _ hm).resolve_right (by simp))
    refine ⟨(hstate e).trans hx, ?_, ?_⟩
    · simp only [reRootOAObjList]
      split_ifs
      · rfl
      · exact hl
    · change (pending threads).countP (has e .invocation) = 0
      have h0 : [PoaInstr.closing c .taken].countP (has e .invocation) = 0 := rfl
      rw [hcount _ fun i hi => hi.has e _, h0, Nat.add_zero]
      exact hv

lemma mem_listed (hn : ∀ e, s.nEntries ≤ e → s.entry e = .blank) {head : ObjListHead} :
    e ∈ s.listed head ↔ (s.entry e).oaObjList = some head := by
  simp only [listed, List.mem_filter, List.mem_range, decide_eq_true_eq, and_iff_right_iff_imp]
  intro hl
  by_contra hlt
  rw [hn e (Nat.le_of_not_lt hlt)] at hl
  simp [ObjTableEntry.blank, ObjTableEntry.new] at hl

lemma nodup_listed (s : ObjectTable) (head : ObjListHead) : (s.listed head).Nodup :=
  List.nodup_range.filter _

/-- The loop of `deactivate_objects`. -/
lemma foldl_setDeactivatingOA {l : List ℕ} (hl : l.Nodup)
    (hx : ∀ e ∈ l, (s.entry e).state = .active ∧ 0 < (s.entry e).nInvocations) :
    l.foldl (fun s e => if (s.entry e).state = .active then s.setDeactivatingOA e else s) s
      = { s with entry := fun e =>
          if e ∈ l then { (s.entry e).setState .deactivatingOA with
            nInvocations := (s.entry e).nInvocations - 1 }
          else s.entry e } := by
  induction l generalizing s with
  | nil => simp
  | cons e l ih =>
    obtain ⟨hstate, hnum⟩ := hx e List.mem_cons_self
    obtain ⟨hnot, hl⟩ := List.nodup_cons.mp hl
    rw [List.foldl_cons, if_pos hstate, setDeactivatingOA, setDeactivating_of_active hstate hnum, ih hl]
    · simp only [setEntry, mk.injEq, true_and, and_true]
      funext e'
      by_cases he : e' = e
      · subst he
        simp [hnot]
      · simp [he]
    · intro e' he'
      have hne : e' ≠ e := fun h => hnot (h ▸ he')
      simpa [hne] using hx e' (List.mem_cons_of_mem e he')

/-- The activations of the servants. -/
def ActivationsOk (s : ObjectTable) : Prop :=
  ∀ servant e, (s.activations servant).count e =
    if (s.entry e).servant = some servant ∧ (s.entry e).state.IsActivation then 1 else 0

lemma ActivationsOk.setEtherealising (h : s.ActivationsOk)
    (hx : (s.entry e).state = .deactivatingOA) (hs : (s.entry e).servant.isSome) :
    ∃ activations, s.setEtherealising e = { s with
      entry := Function.update s.entry e
        { (s.entry e).setState .etherealising with deactivated := true }
      activations } ∧ (s.setEtherealising e).ActivationsOk := by
  obtain ⟨servant, hs⟩ := Option.isSome_iff_exists.mp hs
  have hc := h servant e
  rw [if_pos ⟨hs, .inr (.inr hx)⟩] at hc
  have heq := setEtherealising_of (s := s) servant (by simp [isIn_deactivating, hx]) hs
    (List.count_pos_iff.mp (by omega))
  refine ⟨_, heq, ?_⟩
  rw [heq]
  intro servant' e'
  have hc' := h servant' e'
  by_cases he : e' = e
  · subst he
    by_cases hsv : servant' = servant
    · subst hsv
      simp [ObjTableEntry.setState, IsActivation, hc]
    · rw [hs] at hc'
      simpa [ObjTableEntry.setState, IsActivation, hsv, Ne.symm hsv] using hc'
  · by_cases hsv : servant' = servant
    · subst hsv
      simpa [he, List.count_erase_of_ne he] using hc'
    · simpa [he, hsv] using hc'

/-- The loop of `complete_object_deactivation`. -/
lemma foldl_setEtherealising {l : List ℕ} (hl : l.Nodup) (h : s.ActivationsOk)
    (hx : ∀ e ∈ l, (s.entry e).state = .deactivatingOA ∧ (s.entry e).nInvocations = 0 ∧
      (s.entry e).servant.isSome) :
    ∃ activations, l.foldl (fun s e =>
        (if (s.entry e).state.isIn EntryState.deactivating.bits then s.setEtherealising e else s).assert
          ((s.entry e).isIdle)) s = { s with
      entry := fun e =>
        if e ∈ l then { (s.entry e).setState .etherealising with deactivated := true }
        else s.entry e
      activations } ∧ ActivationsOk { s with
      entry := fun e =>
        if e ∈ l then { (s.entry e).setState .etherealising with deactivated := true }
        else s.entry e
      activations } := by
  induction l generalizing s with
  | nil => exact ⟨s.activations, by simp, by simpa using h⟩
  | cons e l ih =>
    obtain ⟨hstate, hnum, hs⟩ := hx e List.mem_cons_self
    obtain ⟨hnot, hl⟩ := List.nodup_cons.mp hl
    obtain ⟨act, heq, hact⟩ := h.setEtherealising hstate hs
    rw [List.foldl_cons, if_pos (by simp [isIn_deactivating, hstate]),
      assert_of (by simp [ObjTableEntry.isIdle, hnum])]
    obtain ⟨act', heq', hact'⟩ := ih (s := s.setEtherealising e) hl hact (by
      intro e' he'
      have hne : e' ≠ e := fun h => hnot (h ▸ he')
      simpa [heq, hne] using hx e' (List.mem_cons_of_mem e he'))
    have hentry : (fun e' =>
          if e' ∈ l then
            { ((s.setEtherealising e).entry e').setState .etherealising with deactivated := true }
          else (s.setEtherealising e).entry e')
        = fun e' =>
          if e' ∈ e :: l then { (s.entry e').setState .etherealising with deactivated := true }
          else s.entry e' := by
      funext e'
      rw [heq]
      by_cases he : e' = e
      · subst he
        simp [hnot]
      · simp [he]
    rw [hentry] at heq' hact'
    rw [heq] at heq' hact' ⊢
    exact ⟨act', heq', hact'⟩

/-- Something happens to all entries of a list. -/
def onListed (s : ObjectTable) (k : ℕ) (g : ObjTableEntry → ObjTableEntry) (e : ℕ) :
    ObjTableEntry :=
  if (s.entry e).oaObjList = some (.objList k) then g (s.entry e) else s.entry e

/-- The thread that has a list does something to all of its entries. -/
lemma Ok.mapListed (h : Ok s) {c : Closer} {phase : ClosePhase}
    (hn : next s.threads t = some (.closing c phase)) {g : ObjTableEntry → ObjTableEntry}
    {activations : ℕ → List ℕ} {abandoned : List ℕ} {l : List PoaInstr}
    (hkey : ∀ x, (g x).key = x.key)
    (hentry : ∀ e, (s.entry e).oaObjList = some (.objList c.objList) →
      EntryOk (g (s.entry e)) (s.duty e) (s.handed e) (abandoned.count e))
    (hothers : ∀ e, (s.entry e).oaObjList ≠ some (.objList c.objList) →
      abandoned.count e = s.abandoned.count e)
    (hpath : ∀ e, (s.entry e).oaObjList = some (.objList c.objList) → e < s.nEntries →
      IsPath (g (s.entry e)).states)
    (hact : ActivationsOk { s with entry := s.onListed c.objList g, activations })
    (hactive : ∀ e p, (s.entry e).oaObjList = some (.objList c.objList) →
      (g (s.entry e)).oaObjList ≠ some (.activeObjList p))
    (htaken : ∀ e k, (s.entry e).oaObjList = some (.objList c.objList) →
      (g (s.entry e)).oaObjList = some (.objList k) → k = c.objList ∧
        ∃ phase', .closing c phase' ∈ l ∧ (g (s.entry e)).state = phase'.state)
    (hduties : ∀ e d, l.countP (has e d) = 0) (hfits : ∀ i ∈ l, i.Fits s)
    (hreq : ∀ p, l.countP (inPoa p) = 0)
    (hcloses : ∀ k, l.countP (closes k) ≤ [PoaInstr.closing c phase].countP (closes k))
    (hlock : l.countP holdsInternalLock = 0)
    (hstate : phase ≠ .taken ∨ s.internalLockFree = true) :
    Ok ({ s with entry := s.onListed c.objList g, activations, abandoned }.goOn t l) := by
  have hperm := proceed_perm hn l
  have hclosing : ∀ e, (s.entry e).oaObjList = some (.objList c.objList) →
      (s.entry e).key.1 = c.poa ∧ (s.entry e).state = phase.state := fun e he =>
    h.closing_unique (mem_pending_of_next hn) he
  have hcount : ∀ f : PoaInstr → Bool, f (.closing c phase) = false → l.countP f = 0 →
      (pending (proceed s.threads t l)).countP f = (pending s.threads).countP f := by
    intro f hf hl
    have h1 := hperm.countP_eq f
    rw [List.countP_append, List.countP_append, hl] at h1
    simp [hf] at h1
    exact h1
  have hd : ∀ e, (fun d => (pending (proceed s.threads t l)).countP (has e d)) = s.duty e := by
    intro e
    funext d
    exact hcount _ (by simp) (hduties e d)
  have hk : ∀ e, (s.onListed c.objList g e).key = (s.entry e).key := by
    intro e
    rw [onListed]
    split_ifs
    · exact hkey _
    · rfl
  have hno : ∀ p e, .closeIncarnated p e ∉ l := by
    intro p e hm
    have := List.countP_eq_zero.mp hlock _ hm
    simp [holdsInternalLock] at this
  refine ⟨h.failed, fun e he => ?_, fun e => ?_, fun e he => ?_, fun i hi => ?_, fun p => ?_,
    hact, fun e p hl => ?_, fun e k hl => ?_, fun k => ?_, ?_, fun p e hm => ?_⟩
  · have hb := h.blank e he
    change (s.onListed c.objList g e) = _
    rw [onListed, hb, if_neg (by simp [ObjTableEntry.blank, ObjTableEntry.new])]
  · change EntryOk (s.onListed c.objList g e) (fun d => (pending (proceed s.threads t l)).countP (has e d)) (s.handed e)
      (abandoned.count e)
    rw [hd, onListed]
    split_ifs with hl
    · exact hentry e hl
    · rw [hothers e hl]
      exact h.entries e
  · change IsPath (s.onListed c.objList g e).states
    rw [onListed]
    split_ifs with hl
    · exact hpath e hl he
    · exact h.paths e he
  · have hf : i.Fits s := by
      rcases List.mem_append.mp (hperm.mem_iff.mp (List.mem_append_left _ hi)) with hi | hi
      · exact h.fits i hi
      · exact hfits i hi
    cases i
    case closing => exact hf
    all_goals first
      | exact trivial
      | exact hf
      | exact ⟨hf.1, (congrArg Prod.fst (hk _)).trans hf.2⟩
  · change (s.poa p).nReqInThis = (pending (proceed s.threads t l)).countP (inPoa p)
    rw [hcount _ rfl (hreq p)]
    exact h.requests p
  · change (s.onListed c.objList g e).oaObjList = _ at hl
    change (s.onListed c.objList g e).state = _ ∧ (s.onListed c.objList g e).key.1 = p
    rw [onListed] at hl ⊢
    split_ifs at hl ⊢ with hc
    · exact absurd hl (hactive e p hc)
    · exact h.active e p hl
  · change (s.onListed c.objList g e).oaObjList = _ at hl
    change ∃ (c' : Closer) (phase' : ClosePhase), _ ∧ _ ∧ c'.poa = (s.onListed c.objList g e).key.1 ∧
      (s.onListed c.objList g e).state = _
    rw [onListed] at hl ⊢
    split_ifs at hl ⊢ with hc
    · obtain ⟨rfl, phase', hm, hs⟩ := htaken e k hc hl
      exact ⟨c, phase', mem_proceed hn hm, rfl, by rw [hkey, (hclosing e hc).1], hs⟩
    · obtain ⟨c', phase', hm, hck, hrest⟩ := h.taken e k hl
      refine ⟨c', phase', ?_, hck, hrest⟩
      have hm' := hperm.mem_iff.mpr (List.mem_append_left _ hm)
      refine (List.mem_append.mp hm').resolve_right fun ho => hc ?_
      simp only [List.mem_singleton, PoaInstr.closing.injEq] at ho
      rw [hl, ← hck, ho.1]
  · have h1 := hperm.countP_eq (closes k)
    have h2 := hcloses k
    have h3 := h.closers k
    rw [List.countP_append, List.countP_append] at h1
    change (pending (proceed s.threads t l)).countP (closes k) ≤ 1
    omega
  · change (pending (proceed s.threads t l)).countP holdsInternalLock ≤ 1
    rw [hcount _ rfl hlock]
    exact h.lock
  · have hm' := (List.mem_append.mp (hperm.mem_iff.mp (List.mem_append_left _ hm))).resolve_right
      (hno p e)
    obtain ⟨hx, hl, hv⟩ := h.locked p e hm'
    have hne : (s.entry e).oaObjList ≠ some (.objList c.objList) := by
      intro hc
      have hs := (hclosing e hc).2
      rw [hx] at hs
      rcases hstate with hne | hfree
      · cases phase
        · exact hne rfl
        all_goals cases hs
      · have := List.countP_eq_zero.mp (countP_of_internalLockFree hfree) _ hm'
        simp [holdsInternalLock] at this
    have hdv := congrFun (hd e) .invocation
    change (s.onListed c.objList g e).state = _ ∧ (s.onListed c.objList g e).oaObjList.isSome ∧ _
    rw [onListed, if_neg hne]
    exact ⟨hx, hl, hdv.trans hv⟩

end ObjectTable

end OmniORB
