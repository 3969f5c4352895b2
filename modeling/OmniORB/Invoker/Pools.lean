import OmniORB.Library.Transitions

/-!
# The asynchronous invoker

`omniAsyncInvoker` with its pools and workers (`invoker.cc`), while it keeps working and each thread
that it needs can be created. A step is what a thread does while it holds `pd_lock`.
-/

namespace OmniORB

/-- `omniTask::Category`, without the dedicated thread. -/
inductive TaskCategory where
  | anyTime
  | immediateDispatch
  deriving DecidableEq, Repr

/-- `omniTask::Purpose`, which says which pool a task is for. -/
inductive TaskPurpose where
  | general
  | serverUpcall
  | clientInvocation
  deriving DecidableEq, Repr

/-- `omniTask`. The tasks that a pool accepts are numbered. -/
structure OmniTask where
  id : ℕ
  category : TaskCategory
  deriving DecidableEq, Repr

/-- Where a worker is that does not hold `pd_lock`. -/
inductive WorkerPhase where
  -- mid_run, before the lock and in `timedwait`
  | starting
  | waiting
  -- real_run, before the lock and in `timedwait`
  | running
  | idle
  | executing (immediate : Bool)
  -- out of the loop of real_run, and out of real_run
  | leaving
  | released
  | exited
  deriving DecidableEq, Repr

/-- `omniAsyncWorker` -/
structure AsyncWorker where
  phase : WorkerPhase
  pool : Option TaskPurpose
  task : Option OmniTask
  deriving DecidableEq, Repr

/-- `omniAsyncPool`. `accepted` is the number of tasks that it accepted, and `executed` are those whose
`execute` was called. -/
structure AsyncPool where
  totalThreads : ℕ
  poolThreads : ℕ
  tasks : List OmniTask
  idleThreads : List ℕ
  accepted : ℕ
  executed : List ℕ
  deriving DecidableEq, Repr

/-- `omniAsyncInvoker`. The idle threads are those that have no pool. `failed` says that an
`OMNIORB_ASSERT` was false. -/
structure AsyncInvoker where
  workers : List AsyncWorker
  idleThreads : List ℕ
  pool : TaskPurpose → AsyncPool
  failed : Bool

/-- What may happen next: a call of `insert`, or that a worker goes on, perhaps because the time is up
that it waits. -/
inductive InvokerAction where
  | insert (p : TaskPurpose) (category : TaskCategory)
  | run (w : ℕ)
  | timeout (w : ℕ)
  deriving DecidableEq, Repr

namespace AsyncInvoker

def init : AsyncInvoker where
  workers := []
  idleThreads := []
  pool _ := ⟨0, 0, [], [], 0, []⟩
  failed := false

/-- `OMNIORB_ASSERT` -/
def assert (s : AsyncInvoker) (cond : Prop) [Decidable cond] : AsyncInvoker :=
  { s with failed := s.failed || !decide cond }

/-- A worker. Those that were never created are as if they had exited. -/
def worker (s : AsyncInvoker) (w : ℕ) : AsyncWorker := s.workers.getD w ⟨.exited, none, none⟩

def setWorker (s : AsyncInvoker) (w : ℕ) (x : AsyncWorker) : AsyncInvoker :=
  { s with workers := s.workers.set w x }

def setPool (s : AsyncInvoker) (p : TaskPurpose) (r : AsyncPool) : AsyncInvoker :=
  { s with pool := Function.update s.pool p r }

/-- `pd_prev_idle` of the worker is set: it is in the list of the invoker, or in that of its pool. -/
def isLinked (s : AsyncInvoker) (w : ℕ) (x : AsyncWorker) : Prop :=
  match x.pool with
  | none => w ∈ s.idleThreads
  | some p => w ∈ (s.pool p).idleThreads

instance (s : AsyncInvoker) (w : ℕ) (x : AsyncWorker) : Decidable (s.isLinked w x) := by
  unfold isLinked
  split
  · infer_instance
  · infer_instance

def addIdle (s : AsyncInvoker) (w : ℕ) (x : AsyncWorker) : AsyncInvoker :=
  let s := s.assert (¬s.isLinked w x)
  match x.pool with
  | none => { s with idleThreads := w :: s.idleThreads }
  | some p => s.setPool p { s.pool p with idleThreads := w :: (s.pool p).idleThreads }

def remIdle (s : AsyncInvoker) (w : ℕ) (x : AsyncWorker) : AsyncInvoker :=
  let s := s.assert (s.isLinked w x)
  match x.pool with
  | none => { s with idleThreads := s.idleThreads.erase w }
  | some p => s.setPool p { s.pool p with idleThreads := (s.pool p).idleThreads.erase w }

def assign (s : AsyncInvoker) (w : ℕ) (p : TaskPurpose) : AsyncInvoker :=
  let x := s.worker w
  (s.assert (x.pool = none)).setWorker w { x with pool := some p }

def handle (s : AsyncInvoker) (w : ℕ) (task : OmniTask) : AsyncInvoker :=
  let x := s.worker w
  (s.assert (x.pool ≠ none ∧ x.task = none)).setWorker w { x with task := some task }

/-- The first idle worker without a pool, or a new one. -/
def anyWorker (s : AsyncInvoker) : AsyncInvoker × ℕ :=
  match s.idleThreads with
  | w :: _ => (s.remIdle w (s.worker w), w)
  | [] => ({ s with workers := s.workers ++ [⟨.starting, none, none⟩] }, s.workers.length)

def getWorker (s : AsyncInvoker) (p : TaskPurpose) : AsyncInvoker × ℕ :=
  (s.anyWorker.1.assign s.anyWorker.2 p, s.anyWorker.2)

/-- The call accepts the task. -/
def insert (maxThreads : TaskPurpose → ℕ) (s : AsyncInvoker) (p : TaskPurpose)
    (category : TaskCategory) : AsyncInvoker :=
  let task : OmniTask := ⟨(s.pool p).accepted, category⟩
  let s := s.setPool p { s.pool p with accepted := (s.pool p).accepted + 1 }
  match (s.pool p).idleThreads with
  | w :: _ => (s.remIdle w (s.worker w)).handle w task
  | [] =>
    if category = .immediateDispatch ∨ (s.pool p).poolThreads < maxThreads p then
      let c := s.getWorker p
      let s := c.1.setPool p { c.1.pool p with poolThreads := (c.1.pool p).poolThreads + 1 }
      s.handle c.2 task
    else s.setPool p { s.pool p with tasks := (s.pool p).tasks ++ [task] }

/-- The worker lets go of the lock and executes the task. -/
def execute (s : AsyncInvoker) (w : ℕ) (p : TaskPurpose) (task : OmniTask) : AsyncInvoker :=
  let immediate := task.category = .immediateDispatch
  let r := s.pool p
  (s.setPool p { r with
      poolThreads := if immediate then r.poolThreads - 1 else r.poolThreads
      executed := task.id :: r.executed }).setWorker w
    ⟨.executing immediate, some p, some task⟩

/-- The worker is assigned to a pool. -/
def workerStart (s : AsyncInvoker) (w : ℕ) (p : TaskPurpose) : AsyncInvoker :=
  (s.setPool p { s.pool p with totalThreads := (s.pool p).totalThreads + 1 }).setWorker w
    { s.worker w with phase := .running }

/-- `mid_run`, with `pd_lock`, before it waits. -/
def midRun (s : AsyncInvoker) (w : ℕ) : AsyncInvoker :=
  match (s.worker w).pool with
  | none => (s.addIdle w (s.worker w)).setWorker w { s.worker w with phase := .waiting }
  | some p => s.workerStart w p

/-- `real_run`, with `pd_lock`, before it waits. -/
def realRun (s : AsyncInvoker) (w : ℕ) (p : TaskPurpose) : AsyncInvoker :=
  match (s.worker w).task with
  | some task => s.execute w p task
  | none =>
    match (s.pool p).tasks with
    | task :: tasks => (s.setPool p { s.pool p with tasks }).execute w p task
    | [] => (s.addIdle w (s.worker w)).setWorker w { s.worker w with phase := .idle }

/-- The task was executed. -/
def finishTask (maxThreads : TaskPurpose → ℕ) (s : AsyncInvoker) (w : ℕ) (p : TaskPurpose)
    (immediate : Bool) : AsyncInvoker :=
  let poolThreads := if immediate then (s.pool p).poolThreads + 1 else (s.pool p).poolThreads
  (s.setPool p { s.pool p with poolThreads }).setWorker w
    ⟨if maxThreads p < poolThreads then .leaving else .running, some p, none⟩

/-- The worker leaves `real_run`. -/
def leave (s : AsyncInvoker) (w : ℕ) (p : TaskPurpose) : AsyncInvoker :=
  (s.setPool p { s.pool p with poolThreads := (s.pool p).poolThreads - 1 }).setWorker w
    { s.worker w with phase := .released }

/-- The worker is released from its pool. -/
def workerStop (s : AsyncInvoker) (w : ℕ) (p : TaskPurpose) : AsyncInvoker :=
  (s.setPool p { s.pool p with totalThreads := (s.pool p).totalThreads - 1 }).setWorker w
    ⟨.starting, none, (s.worker w).task⟩

/-- The next step of a worker. One that waits has been signalled. -/
def run (maxThreads : TaskPurpose → ℕ) (s : AsyncInvoker) (w : ℕ) : Option AsyncInvoker :=
  match (s.worker w).phase with
  | .starting => some (s.midRun w)
  | .waiting => (s.worker w).pool.map fun p => s.workerStart w p
  | .running => (s.worker w).pool.map fun p => s.realRun w p
  | .idle =>
    (s.worker w).pool.bind fun p => (s.worker w).task.map fun task => s.execute w p task
  | .executing immediate => (s.worker w).pool.map fun p => s.finishTask maxThreads w p immediate
  | .leaving => (s.worker w).pool.map fun p => s.leave w p
  | .released => (s.worker w).pool.map fun p => s.workerStop w p
  | .exited => none

/-- The time is up that a worker waits. It looks once more whether it has been given something. -/
def timeout (s : AsyncInvoker) (w : ℕ) : Option AsyncInvoker :=
  match (s.worker w).phase with
  | .waiting =>
    match (s.worker w).pool with
    | none => some ((s.remIdle w (s.worker w)).setWorker w { s.worker w with phase := .exited })
    | some p => some (s.workerStart w p)
  | .idle =>
    (s.worker w).pool.map fun p =>
      match (s.worker w).task with
      | none => (s.remIdle w (s.worker w)).setWorker w { s.worker w with phase := .leaving }
      | some task => s.execute w p task
  | _ => none

def step (maxThreads : TaskPurpose → ℕ) (s : AsyncInvoker) : InvokerAction → Option AsyncInvoker
  | .insert p category => some (s.insert maxThreads p category)
  | .run w => s.run maxThreads w
  | .timeout w => s.timeout w

end AsyncInvoker

end OmniORB
