import OmniORB.Invoker.Steps

/-!
# Tasks in the asynchronous invoker

Which runs leave no task in the queue of a pool whose workers all go away.
-/

namespace OmniORB

open Library AsyncWorker

namespace AsyncInvoker

variable {maxThreads : TaskPurpose → ℕ} {safe : Prop} {s s' : AsyncInvoker} {p : TaskPurpose} {w : ℕ}

/-- The next step of the worker is that it begins an immediate task, or that it leaves the loop of
`real_run` because the pool has too many threads. -/
def TurnsAway (maxThreads : TaskPurpose → ℕ) (s : AsyncInvoker) (w : ℕ) (p : TaskPurpose) : Prop :=
  ((s.worker w).phase = .running ∨ (s.worker w).phase = .idle) ∧
      (s.worker w).task.any (fun task => task.category = .immediateDispatch) = true ∨
    (s.worker w).phase = .executing false ∧ maxThreads p < (s.pool p).poolThreads

/-- No task is put into a queue that no worker of the pool is to look at, and the last worker that is
to look at a queue with tasks does not turn away from it. -/
def KeepsLooking (maxThreads : TaskPurpose → ℕ) (s : AsyncInvoker) : InvokerAction → Prop
  | .insert p category => category = .anyTime → (s.pool p).idleThreads = [] →
    maxThreads p ≤ (s.pool p).poolThreads → ∃ v, (s.worker v).looks p = true
  | .run w | .timeout w => ∀ p, (s.worker w).pool = some p → (s.pool p).tasks ≠ [] →
    s.TurnsAway maxThreads w p → ∃ v ≠ w, (s.worker v).looks p = true

lemma Ok.run (h : Ok maxThreads safe s) (hmet : safe → s.KeepsLooking maxThreads (.run w))
    (hs : s.run maxThreads w = some s') : Ok maxThreads safe s' := by
  rw [AsyncInvoker.run] at hs
  split at hs
  next hx =>
    obtain rfl := Option.some.inj hs
    exact h.midRun hx
  next hx =>
    obtain ⟨p, hp, rfl⟩ := Option.map_eq_some_iff.mp hs
    exact h.workerStart (.inr hx) hp
  next hx =>
    obtain ⟨p, hp, rfl⟩ := Option.map_eq_some_iff.mp hs
    exact h.realRun hx hp fun hsafe hne hany => hmet hsafe p hp hne (.inl ⟨.inl hx, hany⟩)
  next hx =>
    obtain ⟨p, hp, hs⟩ := Option.bind_eq_some_iff.mp hs
    obtain ⟨task, htask, rfl⟩ := Option.map_eq_some_iff.mp hs
    exact h.execute (.inr hx) hp htask fun hsafe hne hcat =>
      hmet hsafe p hp hne (.inl ⟨.inr hx, by simp [htask, hcat]⟩)
  next immediate hx =>
    obtain ⟨p, hp, rfl⟩ := Option.map_eq_some_iff.mp hs
    exact h.finishTask hx hp fun hsafe hne himm hmax =>
      hmet hsafe p hp hne (.inr ⟨himm ▸ hx, hmax⟩)
  next hx =>
    obtain ⟨p, hp, rfl⟩ := Option.map_eq_some_iff.mp hs
    exact h.leave hx hp
  next hx =>
    obtain ⟨p, hp, rfl⟩ := Option.map_eq_some_iff.mp hs
    exact h.workerStop hx hp
  next => cases hs

lemma Ok.timeout (h : Ok maxThreads safe s) (hmet : safe → s.KeepsLooking maxThreads (.timeout w))
    (hs : s.timeout w = some s') : Ok maxThreads safe s' := by
  rw [AsyncInvoker.timeout] at hs
  split at hs
  next hx =>
    split at hs
    next hp =>
      obtain rfl := Option.some.inj hs
      exact h.exit ⟨hx, hp⟩
    next p hp =>
      obtain rfl := Option.some.inj hs
      exact h.workerStart (.inr hx) hp
  next hx =>
    obtain ⟨p, hp, rfl⟩ := Option.map_eq_some_iff.mp hs
    split
    next htask => exact h.giveUp ⟨hx, hp, htask⟩
    next task htask =>
      exact h.execute (.inr hx) hp htask fun hsafe hne hcat =>
        hmet hsafe p hp hne (.inl ⟨.inr hx, by simp [htask, hcat]⟩)
  next => cases hs

lemma Ok.insert (h : Ok maxThreads safe s) {category : TaskCategory}
    (hmet : safe → s.KeepsLooking maxThreads (.insert p category)) :
    Ok maxThreads safe (s.insert maxThreads p category) := by
  rcases hw : (s.pool p).idleThreads with _ | ⟨w, l⟩
  · by_cases hroom : category = .immediateDispatch ∨ (s.pool p).poolThreads < maxThreads p
    · exact h.insertNew category hw hroom
    · refine h.insertQueue category hw hroom fun hsafe => hmet hsafe ?_ hw ?_
      · cases category
        · rfl
        · exact absurd (.inl rfl) hroom
      · exact Nat.le_of_not_lt fun hlt => hroom (.inr hlt)
  · exact h.insertIdle category hw

lemma Ok.step (h : Ok maxThreads safe s) {a : InvokerAction}
    (hmet : safe → s.KeepsLooking maxThreads a) (hs : s.step maxThreads a = some s') :
    Ok maxThreads safe s' := by
  cases a
  case insert p category =>
    obtain rfl := Option.some.inj hs
    exact h.insert hmet
  case run w => exact h.run hmet hs
  case timeout w => exact h.timeout hmet hs

/-! ### Runs -/

/-- How often the worker is in an idle list. -/
def links (s : AsyncInvoker) (w : ℕ) : ℕ :=
  s.idleThreads.count w + (s.pool .general).idleThreads.count w
    + (s.pool .serverUpcall).idleThreads.count w + (s.pool .clientInvocation).idleThreads.count w

/-- The worker waits in vain, or has exited. -/
def AtRest (x : AsyncWorker) : Prop := x.Unassigned ∨ (∃ p, x.Idle p) ∨ x.phase = .exited

/-- No task is lost. -/
structure NoTaskLost (maxThreads : TaskPurpose → ℕ) (s : AsyncInvoker) : Prop where
  asserted : s.failed = false
  once : ∀ p t, (s.pool p).executed.count t + (s.pool p).tasks.countP (·.id = t)
    + s.workers.countP (holds p t) = if t < (s.pool p).accepted then 1 else 0
  links : ∀ w, s.links w ≤ 1 ∧ (0 < s.links w → (s.worker w).task = none)
  limit : ∀ p, s.workers.countP (executesAnyTime p) ≤ maxThreads p
  threads : ∀ p, (s.pool p).poolThreads = s.workers.countP (counted p)
  looked : ∀ p, (s.pool p).tasks ≠ [] → ∃ w, (s.worker w).looks p = true
  executed : (∀ w, AtRest (s.worker w)) → ∀ p t, t < (s.pool p).accepted →
    (s.pool p).executed.count t = 1

lemma exists_worker {x : AsyncWorker} (hx : x ∈ s.workers) : ∃ w, s.worker w = x := by
  obtain ⟨w, hw, rfl⟩ := List.getElem_of_mem hx
  exact ⟨w, List.getD_eq_getElem _ _ hw⟩

lemma AtRest.task_eq_none {x : AsyncWorker} (hx : AtRest x) (hok : x.Ok) : x.task = none := by
  rcases hx with ⟨hphase, hpool⟩ | ⟨p, hx⟩ | hx
  · simpa [AsyncWorker.Ok, hphase, hpool] using hok
  · exact hx.2.2
  · rw [AsyncWorker.Ok, hx] at hok
    exact hok.2

lemma Ok.links (h : Ok maxThreads safe s) (w : ℕ) :
    s.links w ≤ 1 ∧ (0 < s.links w → (s.worker w).task = none) := by
  rw [AsyncInvoker.links, h.unassigned, h.idle, h.idle, h.idle]
  have hok := h.workers w
  rcases hx : s.worker w with ⟨phase, pool, task⟩
  rw [hx] at hok
  constructor
  · simp only [Unassigned, Idle]
    rcases pool with _ | ⟨_ | _ | _⟩
    all_goals
      simp
      try split_ifs <;> omega
  · intro hpos
    by_contra htask
    have hun : ¬AsyncWorker.Unassigned ⟨phase, pool, task⟩ := fun hun =>
      htask (AtRest.task_eq_none (.inl hun) hok)
    simp [hun, Idle, htask] at hpos

/-- If every worker is at rest, the queues are empty. -/
lemma Ok.tasks_eq_nil (h : Ok maxThreads True s) (hrest : ∀ w, AtRest (s.worker w)) (p : TaskPurpose) :
    (s.pool p).tasks = [] := by
  by_contra hne
  obtain ⟨x, hx, hlooks⟩ := List.countP_pos_iff.mp (h.looked trivial p hne)
  obtain ⟨w, rfl⟩ := exists_worker hx
  simp only [AsyncWorker.looks, Bool.and_eq_true, decide_eq_true_eq] at hlooks
  rcases hrest w with ⟨-, hpool⟩ | ⟨q, hidle⟩ | hx
  · rw [hpool] at hlooks
    cases hlooks.1
  · obtain rfl : q = p := Option.some.inj (hidle.2.1.symm.trans hlooks.1)
    have hcount := h.idle q w
    rw [if_pos hidle] at hcount
    refine hne (h.empty q fun hnil => ?_)
    simp [hnil] at hcount
  · rw [hx] at hlooks
    exact absurd hlooks.2 Bool.false_ne_true

lemma Ok.noTaskLost (h : Ok maxThreads True s) : NoTaskLost maxThreads s := by
  refine ⟨h.failed, h.tasks, h.links, fun p => ?_, h.threads, fun p hne => ?_, fun hrest p t ht => ?_⟩
  · refine le_trans (List.countP_mono_left fun x hx he => ?_) (h.limit p)
    obtain ⟨w, rfl⟩ := exists_worker hx
    exact keeps_of_executesAnyTime (h.workers w) he
  · obtain ⟨x, hx, hlooks⟩ := List.countP_pos_iff.mp (h.looked trivial p hne)
    obtain ⟨w, rfl⟩ := exists_worker hx
    exact ⟨w, hlooks⟩
  · have hheld : s.workers.countP (holds p t) = 0 := by
      refine List.countP_eq_zero.mpr fun x hx => ?_
      obtain ⟨w, rfl⟩ := exists_worker hx
      simp [holds, (hrest w).task_eq_none (h.workers w)]
    have htask := h.tasks p t
    rw [h.tasks_eq_nil hrest p, hheld, if_pos ht] at htask
    simpa using htask

/-- In a run in which a worker that is to look at the queue is always left when it matters, no task is
lost. -/
theorem no_task_lost (h : ReachedBy (step maxThreads) (KeepsLooking maxThreads) init s) :
    NoTaskLost maxThreads s :=
  (h.invariant ok_init fun _ _ _ hok hmet hs => hok.step (fun _ => hmet) hs).noTaskLost

/-- The first task of a pool. -/
theorem no_task_lost_first : NoTaskLost (fun _ => 1) (init.insert (fun _ => 1) .serverUpcall .anyTime) :=
  no_task_lost (ReachedBy.start.next (a := .insert .serverUpcall .anyTime)
    (fun _ _ hfull => absurd hfull (by decide)) rfl)

/-- A task that comes when the only worker of the pool has stopped waiting, but is still counted, is put
into the queue and stays there. -/
theorem task_stays_queued : ¬ ∀ s, ReachedBy (step fun _ => 1) (fun _ _ => True) init s →
    NoTaskLost (fun _ => 1) s := by
  intro h
  have hlost := h _ (ReachedBy.start.execute (AllOk.of_forall (fun _ _ => trivial) _
    [.insert .serverUpcall .anyTime, .run 0, .run 0, .run 0, .run 0, .timeout 0,
      .insert .serverUpcall .anyTime, .run 0, .run 0, .run 0, .timeout 0]) rfl)
  obtain ⟨w, hw⟩ := hlost.looked .serverUpcall (by decide)
  rcases w with _ | w
  · exact absurd hw (by decide)
  · exact absurd hw Bool.false_ne_true

/-- In a run of any kind, the tasks and the threads are accounted for. -/
theorem tasks_accounted (h : ReachedBy (step maxThreads) (fun _ _ => True) init s) :
    Ok maxThreads False s :=
  h.invariant ok_init fun _ _ _ hok _ hs => hok.step (fun hsafe => hsafe.elim) hs

end AsyncInvoker

end OmniORB
