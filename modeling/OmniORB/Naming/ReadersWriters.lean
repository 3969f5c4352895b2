import OmniORB.Library.Conditions
import OmniORB.Library.Transitions

/-!
# The lock of the naming service

`ReadersWritersLock`, a lock for many readers or one writer, whose writer may enter it again. A step
is what a thread does between two waits, while it holds the mutex. Threads are named by numbers, and
the counter is a whole number.
-/

namespace OmniORB.Naming

open Library

/-- As what a thread enters the lock. -/
inductive LockMode where
  | reader
  | writer
  deriving DecidableEq

/-- The lock and the threads that use it: the calls by which each thread has entered the lock and
not left it, the last one first, and what it waits for. -/
structure ReadersWritersLock where
  n : ℤ
  writerId : ℕ
  held : List (List LockMode)
  threads : List (Option (Waiter LockMode))

namespace ReadersWritersLock

/-- The constructor, for so many threads. -/
def initial (threads : ℕ) : ReadersWritersLock :=
  ⟨0, 0, List.replicate threads [], List.replicate threads none⟩

variable (s : ReadersWritersLock)

def heldBy (t : ℕ) : List LockMode := s.held.getD t []

/-- The thread returns from the call by which it entered. -/
def enter (t : ℕ) (mode : LockMode) (n : ℤ) : ReadersWritersLock :=
  { s with
    n
    held := s.held.set t (mode :: s.heldBy t)
    threads := s.threads.set t none }

/-- The thread leaves what it entered last. -/
def leave (t : ℕ) (n : ℤ) : ReadersWritersLock :=
  { s with n, held := s.held.set t (s.heldBy t).tail }

/-- `c.wait()` -/
def wait (t : ℕ) (mode : LockMode) : ReadersWritersLock :=
  { s with threads := s.threads.set t (some ⟨mode, .blocked⟩) }

/-- The loop of `readerIn`, from its test on. -/
def readerInLoop (t : ℕ) : ReadersWritersLock :=
  if s.n < 0 then s.wait t .reader else s.enter t .reader (s.n + 1)

def readerIn (t : ℕ) : ReadersWritersLock :=
  if s.n < 0 ∧ s.writerId = t then s.enter t .reader (s.n - 1) else s.readerInLoop t

/-- `pick` is the thread that the signal wakes. -/
def readerOut (t pick : ℕ) : Option ReadersWritersLock :=
  if s.n < 0 then some (s.leave t (s.n + 1))
  else if s.n - 1 = 0 then
    (signal (fun _ => true) s.threads pick).map fun threads =>
      { s.leave t (s.n - 1) with threads }
  else some (s.leave t (s.n - 1))

/-- The loop of `writerIn`, from its test on. -/
def writerInLoop (t : ℕ) : ReadersWritersLock :=
  if s.n ≠ 0 then s.wait t .writer else { s.enter t .writer (s.n - 1) with writerId := t }

def writerIn (t : ℕ) : ReadersWritersLock :=
  if s.n < 0 ∧ s.writerId = t then s.enter t .writer (s.n - 1) else s.writerInLoop t

def writerOut (t : ℕ) : ReadersWritersLock :=
  if s.n + 1 = 0 then
    { s.leave t (s.n + 1) with threads := broadcast (fun _ => true) s.threads }
  else s.leave t (s.n + 1)

/-- A thread that was woken tests again. -/
def resume (t : ℕ) : LockMode → ReadersWritersLock
  | .reader => s.readerInLoop t
  | .writer => s.writerInLoop t

inductive Step where
  | readerIn (t : ℕ)
  | readerOut (t pick : ℕ)
  | writerIn (t : ℕ)
  | writerOut (t : ℕ)
  | resume (t : ℕ)
  /-- a thread is woken without a signal -/
  | wake (t : ℕ)

/-- A step of a thread. One that waits makes no calls, and goes on only when it was woken. -/
def step : Step → Option ReadersWritersLock
  | .readerIn t => if s.threads[t]? = some none then some (s.readerIn t) else none
  | .readerOut t pick => if s.threads[t]? = some none then s.readerOut t pick else none
  | .writerIn t => if s.threads[t]? = some none then some (s.writerIn t) else none
  | .writerOut t => if s.threads[t]? = some none then some (s.writerOut t) else none
  | .resume t =>
    match s.threads[t]? with
    | some (some ⟨mode, .signalled⟩) => some (s.resume t mode)
    | _ => none
  | .wake t =>
    match s.threads[t]? with
    | some (some ⟨mode, .blocked⟩) =>
      some { s with threads := s.threads.set t (some ⟨mode, .signalled⟩) }
    | _ => none

/-- The calls of a thread are properly nested, and one that is in the lock only as reader does not
enter it as writer. -/
def Nested : Step → Prop
  | .readerOut t _ => (s.heldBy t).head? = some .reader
  | .writerOut t => (s.heldBy t).head? = some .writer
  | .writerIn t => s.heldBy t = [] ∨ .writer ∈ s.heldBy t
  | _ => True

/-! ### Safety -/

/-- The reads that are in progress. -/
def reads : ℕ := (s.held.map List.length).sum

/-- One thread is in the lock as writer, with the depth of its calls in the counter. -/
def WriterHolds (w : ℕ) : Prop :=
  LockMode.writer ∈ s.heldBy w ∧ -s.n = (s.heldBy w).length ∧ ∀ t ≠ w, s.heldBy t = []

/-- Some threads are in the lock as readers. -/
def ReadersHold : Prop := 0 < s.n ∧ s.n = s.reads ∧ ∀ t, LockMode.writer ∉ s.heldBy t

def Free : Prop := s.n = 0 ∧ ∀ t, s.heldBy t = []

/-! ### Progress -/

/-- The loop of a thread that waits would end. -/
def CouldProceed : LockMode → Prop
  | .reader => ¬s.n < 0
  | .writer => s.n = 0

/-- No thread is left waiting where it could proceed, without a thread that was woken. -/
def Live : Prop :=
  ∀ t mode, s.threads.getD t none = some ⟨mode, .blocked⟩ → s.CouldProceed mode →
    ∃ u mode', s.threads.getD u none = some ⟨mode', .signalled⟩

end ReadersWritersLock

end OmniORB.Naming
