import OmniORB.Invoker.Pools
import OmniORB.Library.Slots

/-!
# What the asynchronous invoker keeps account of

Each task that was accepted is in the queue of its pool, or a worker has it, or it was executed. The
pool counts the workers that are not executing immediate tasks.
-/

namespace OmniORB

open Library

/-! ### Workers -/

namespace WorkerPhase

/-- `pd_pool_threads` counts a worker that has a pool. -/
@[simp] def isCounted : WorkerPhase → Bool
  | .starting | .waiting | .running | .idle | .leaving => true
  | .executing immediate => !immediate
  | .released | .exited => false

/-- A worker that has a pool is not executing an immediate task, and is to look at the queue. -/
@[simp] def looks : WorkerPhase → Bool
  | .starting | .waiting | .running | .idle => true
  | .executing immediate => !immediate
  | .leaving | .released | .exited => false

@[simp] def isExecuting : WorkerPhase → Bool
  | .executing _ => true
  | .starting | .waiting | .running | .idle | .leaving | .released | .exited => false

end WorkerPhase

namespace AsyncWorker

/-- A worker that was never created. -/
def blank : AsyncWorker := ⟨.exited, none, none⟩

def counted (p : TaskPurpose) (x : AsyncWorker) : Bool := x.pool = some p && x.phase.isCounted

def looks (p : TaskPurpose) (x : AsyncWorker) : Bool := x.pool = some p && x.phase.looks

/-- The worker is to look at the queue, and has no immediate task. -/
def keeps (p : TaskPurpose) (x : AsyncWorker) : Bool :=
  x.looks p && x.task.all fun task => task.category = .anyTime

/-- The worker was given the task, and has not begun to execute it. -/
def holds (p : TaskPurpose) (t : ℕ) (x : AsyncWorker) : Bool :=
  x.pool = some p && !x.phase.isExecuting && x.task.any fun task => task.id = t

/-- The worker is executing a task that is not immediate. -/
def executesAnyTime (p : TaskPurpose) (x : AsyncWorker) : Bool :=
  x.pool = some p && x.phase = .executing false

/-- The worker waits in the list of the invoker. -/
def Unassigned (x : AsyncWorker) : Prop := x.phase = .waiting ∧ x.pool = none

/-- The worker waits in the list of the pool. -/
def Idle (p : TaskPurpose) (x : AsyncWorker) : Prop := x.phase = .idle ∧ x.pool = some p ∧ x.task = none

instance (x : AsyncWorker) : Decidable x.Unassigned := inferInstanceAs (Decidable (_ ∧ _))

instance (p : TaskPurpose) (x : AsyncWorker) : Decidable (x.Idle p) :=
  inferInstanceAs (Decidable (_ ∧ _ ∧ _))

/-- What a worker has in each phase. -/
def Ok (x : AsyncWorker) : Prop :=
  match x.phase with
  | .starting | .waiting => x.pool.isSome = x.task.isSome
  | .running | .idle => x.pool.isSome
  | .executing immediate =>
    x.pool.isSome ∧ ∃ task, x.task = some task ∧ immediate = decide (task.category = .immediateDispatch)
  | .leaving | .released => x.pool.isSome ∧ x.task = none
  | .exited => x.pool = none ∧ x.task = none

variable {x : AsyncWorker} {p : TaskPurpose}

lemma counted_of_keeps (h : x.keeps p = true) : x.counted p = true := by
  obtain ⟨phase, pool, task⟩ := x
  simp only [keeps, looks, counted, Bool.and_eq_true] at h ⊢
  refine ⟨h.1.1, ?_⟩
  have hlooks := h.1.2
  cases phase
  all_goals first
    | exact hlooks
    | rfl

lemma keeps_of_executesAnyTime (hok : x.Ok) (h : x.executesAnyTime p = true) : x.keeps p = true := by
  obtain ⟨phase, pool, task⟩ := x
  simp only [executesAnyTime, Bool.and_eq_true, decide_eq_true_eq] at h
  obtain ⟨rfl, rfl⟩ := h
  obtain ⟨-, task, rfl, hcat⟩ := hok
  have hany : task.category = .anyTime := by
    rcases hc : task.category
    · rfl
    · simp [hc] at hcat
  simp [keeps, looks, hany]

end AsyncWorker

open AsyncWorker

namespace AsyncInvoker

variable {maxThreads : TaskPurpose → ℕ} {safe : Prop} {s s' : AsyncInvoker} {p : TaskPurpose} {w : ℕ}
  {x : AsyncWorker}

lemma movesTo_worker (hx : (s.worker w).phase ≠ .exited) (x : AsyncWorker) :
    MovesTo blank s.workers (s.workers.set w x) w x :=
  movesTo_set (fun heq => hx (congrArg AsyncWorker.phase heq)) x

/-- What holds between steps. If the steps were `safe`, a worker is to look at a queue that is not
empty. -/
structure Ok (maxThreads : TaskPurpose → ℕ) (safe : Prop) (s : AsyncInvoker) : Prop where
  failed : s.failed = false
  workers : ∀ w, (s.worker w).Ok
  unassigned : ∀ w, s.idleThreads.count w = if (s.worker w).Unassigned then 1 else 0
  idle : ∀ p w, (s.pool p).idleThreads.count w = if (s.worker w).Idle p then 1 else 0
  threads : ∀ p, (s.pool p).poolThreads = s.workers.countP (counted p)
  limit : ∀ p, s.workers.countP (keeps p) ≤ maxThreads p
  tasks : ∀ p t, (s.pool p).executed.count t + (s.pool p).tasks.countP (·.id = t)
    + s.workers.countP (holds p t) = if t < (s.pool p).accepted then 1 else 0
  anyTime : ∀ p, ∀ task ∈ (s.pool p).tasks, task.category = .anyTime
  empty : ∀ p, (s.pool p).idleThreads ≠ [] → (s.pool p).tasks = []
  looked : safe → ∀ p, (s.pool p).tasks ≠ [] → 0 < s.workers.countP (AsyncWorker.looks p)

/-- A step of one worker that has to do with one pool. -/
lemma Ok.change (h : Ok maxThreads safe s) (hm : MovesTo blank s.workers s'.workers w x)
    (hfailed : s'.failed = false) (hok : x.Ok)
    (hold : ∀ q ≠ p, (s.worker w).pool ≠ some q) (hnew : ∀ q ≠ p, x.pool ≠ some q)
    (hpool : ∀ q ≠ p, s'.pool q = s.pool q)
    (hunassigned : ∀ v, s'.idleThreads.count v =
      if v = w then if x.Unassigned then 1 else 0 else s.idleThreads.count v)
    (hidle : ∀ v, (s'.pool p).idleThreads.count v =
      if v = w then if x.Idle p then 1 else 0 else (s.pool p).idleThreads.count v)
    (hthreads : (s'.pool p).poolThreads + (if (s.worker w).counted p then 1 else 0)
      = (s.pool p).poolThreads + if x.counted p then 1 else 0)
    (hlimit : s.workers.countP (keeps p) + (if x.keeps p then 1 else 0)
      ≤ maxThreads p + if (s.worker w).keeps p then 1 else 0)
    (htasks : ∀ t, (s'.pool p).executed.count t + (s'.pool p).tasks.countP (·.id = t)
      + (if x.holds p t then 1 else 0) + (if t < (s.pool p).accepted then 1 else 0)
      = (s.pool p).executed.count t + (s.pool p).tasks.countP (·.id = t)
      + (if (s.worker w).holds p t then 1 else 0) + if t < (s'.pool p).accepted then 1 else 0)
    (hany : ∀ task ∈ (s'.pool p).tasks, task.category = .anyTime)
    (hempty : (s'.pool p).idleThreads ≠ [] → (s'.pool p).tasks = [])
    (hlooked : safe → (s'.pool p).tasks ≠ [] → (if (s.worker w).looks p then 1 else 0)
      < s.workers.countP (AsyncWorker.looks p) + if x.looks p then 1 else 0) :
    Ok maxThreads safe s' := by
  have hself : s'.worker w = x := hm.self
  have hothers : ∀ v ≠ w, s'.worker v = s.worker v := hm.others
  have hcount : ∀ f : AsyncWorker → Bool, f blank = false →
      s'.workers.countP f + (if f (s.worker w) then 1 else 0)
        = s.workers.countP f + if f x then 1 else 0 := hm.count
  refine ⟨hfailed, ?_, ?_, ?_, ?_, ?_, ?_, ?_, ?_, ?_⟩
  · intro v
    by_cases hv : v = w
    · rw [hv, hself]
      exact hok
    · rw [hothers v hv]
      exact h.workers v
  · intro v
    rw [hunassigned v]
    by_cases hv : v = w
    · rw [if_pos hv, hv, hself]
    · rw [if_neg hv, hothers v hv]
      exact h.unassigned v
  · intro q v
    by_cases hq : q = p
    · subst hq
      rw [hidle v]
      by_cases hv : v = w
      · rw [if_pos hv, hv, hself]
      · rw [if_neg hv, hothers v hv]
        exact h.idle q v
    · rw [hpool q hq, h.idle q v]
      by_cases hv : v = w
      · subst hv
        simp [Idle, hold q hq, hself, hnew q hq]
      · rw [hothers v hv]
  · intro q
    have hc := hcount (counted q) (by simp [counted, blank])
    have ht := h.threads q
    by_cases hq : q = p
    · subst hq
      omega
    · rw [hpool q hq]
      simp only [counted, hold q hq, hnew q hq, decide_false, Bool.false_and] at hc ⊢
      exact ht.trans hc.symm
  · intro q
    have hc := hcount (keeps q) (by simp [keeps, AsyncWorker.looks, blank])
    have hl := h.limit q
    by_cases hq : q = p
    · subst hq
      omega
    · simp only [keeps, AsyncWorker.looks, hold q hq, hnew q hq, decide_false, Bool.false_and] at hc hl ⊢
      exact hc.le.trans hl
  · intro q t
    have hc := hcount (holds q t) (by simp [holds, blank])
    have ht := h.tasks q t
    by_cases hq : q = p
    · subst hq
      have htask := htasks t
      omega
    · rw [hpool q hq]
      simp only [holds, hold q hq, hnew q hq, decide_false, Bool.false_and] at hc ht ⊢
      rw [← ht]
      exact congrArg _ hc
  · intro q
    by_cases hq : q = p
    · exact hq ▸ hany
    · rw [hpool q hq]
      exact h.anyTime q
  · intro q
    by_cases hq : q = p
    · exact hq ▸ hempty
    · rw [hpool q hq]
      exact h.empty q
  · intro hsafe q hne
    have hc := hcount (AsyncWorker.looks q) (by simp [AsyncWorker.looks, blank])
    by_cases hq : q = p
    · subst hq
      have := hlooked hsafe hne
      omega
    · rw [hpool q hq] at hne
      have hl := h.looked hsafe q hne
      simp only [AsyncWorker.looks, hold q hq, hnew q hq, decide_false, Bool.false_and] at hc hl ⊢
      exact hl.trans_eq hc.symm

end AsyncInvoker

end OmniORB
