import OmniORB.Library.Conditions
import OmniORB.Library.Transitions

/-!
# The locks of a strand

The read and the write lock that the streams of a strand share: `giopStream::rdLock` to
`RdLockIsHeld` (`giopStream.cc`), and the functions that sleep on the read lock,
`giopStrand::acquireServer` (`giopStrand.cc`) and `inputReplyBegin` (`giopImpl12.cc`; the loops of
`inputMessageBegin` in `giopImpl10.cc` and `giopImpl11.cc` are its first branch). A step is what a
thread does between two waits, while it holds `omniTransportLock`. Streams are named by numbers and the
counters are whole numbers.
-/

namespace OmniORB

open Library

/-- `IOP_S::State` -/
inductive ServerState where
  | unUsed
  | idle
  | zombie
  | waitForRequestHeader
  | requestHeaderIsBeingProcessed
  | requestIsBeingProcessed
  | waitingForReply
  | replyIsBeingComposed
  | replyCompleted
  | inputFullyBuffered
  | inputPartiallyBuffered
  deriving DecidableEq, Repr

/-- The members of a stream that the locking functions and their callers read. -/
structure LockedStream where
  rdlocked : Bool := false
  wrlocked : Bool := false
  inputFullyBuffered : Bool := false
  state : ServerState := .unUsed
  deriving DecidableEq, Repr

/-- The function that a thread waits in, and the stream that it was called on. `acquireServer` has none. -/
inductive LockWait where
  | rdLock (g : ℕ)
  | sleepOnRdLock (g : ℕ)
  | sleepOnRdLockAlways (g : ℕ)
  | acquireServer
  | wrLock (g : ℕ)
  deriving DecidableEq, Repr

namespace LockWait

/-- It waits on `rdcond`. -/
def onRdcond : LockWait → Bool
  | .wrLock _ => false
  | _ => true

def onWrcond : LockWait → Bool
  | .wrLock _ => true
  | _ => false

/-- `rd_n_justwaiting` counts it. -/
def justWaits : LockWait → Bool
  | .sleepOnRdLockAlways _ => true
  | _ => false

end LockWait

/-- A strand, as far as its locks are concerned, and the threads that use it. -/
structure StrandLocks where
  rdNwaiting : ℤ := 0
  rdNJustwaiting : ℤ := 0
  wrNwaiting : ℤ := 0
  dying : Bool := false
  biDir : Bool := false
  deletePending : Bool := false
  servers : List ℕ := []
  streams : ℕ → LockedStream := fun _ => {}
  threads : List (Option (Waiter LockWait))
  /-- an assertion about the counters or a lock that was just taken has failed -/
  assertionFailed : Bool := false

namespace StrandLocks

variable (s : StrandLocks)

def setStream (g : ℕ) (x : LockedStream) : StrandLocks := { s with streams := Function.update s.streams g x }

/-- The thread waits on a condition variable, which lets the others run. -/
def wait (t : ℕ) (w : LockWait) : StrandLocks := { s with threads := s.threads.set t (some ⟨w, .blocked⟩) }

/-- The thread leaves the function that it waited in. -/
def finish (t : ℕ) : StrandLocks := { s with threads := s.threads.set t none }

/-- `giopStream::errorOnReceive`: the strand is given up, and the thread gets an exception. -/
def errorOnReceive (t : ℕ) : StrandLocks := { s with dying := true }.finish t

/-! ### The read lock -/

/-- `rd_nwaiting` after a wait -/
def afterRdWait : StrandLocks :=
  { s with rdNwaiting := if s.rdNwaiting ≥ 0 then s.rdNwaiting - 1 else s.rdNwaiting + 1 }

/-- The lock is taken for a stream. -/
def takeRd (g : ℕ) : StrandLocks :=
  { s with rdNwaiting := -s.rdNwaiting - 1 }.setStream g { s.streams g with rdlocked := true }

/-- The loop of `rdLock`, from its test on. -/
def rdLockLoop (t g : ℕ) : StrandLocks :=
  if s.rdNwaiting < 0 then { s with rdNwaiting := s.rdNwaiting - 1 }.wait t (.rdLock g)
  else (s.takeRd g).finish t

/-- A stream that has the lock already gets an exception. -/
def rdLock (t g : ℕ) : StrandLocks :=
  if (s.streams g).rdlocked then s else s.rdLockLoop t g

def wakeUpRdLock : StrandLocks := { s with threads := broadcast LockWait.onRdcond s.threads }

/-- `pick` is the thread that the signal wakes. -/
def rdUnLock (g pick : ℕ) : Option StrandLocks :=
  if !(s.streams g).rdlocked then some s
  else if ¬ s.rdNwaiting < 0 then some { s with assertionFailed := true }
  else
    let s := { s with rdNwaiting := -s.rdNwaiting - 1 }
    let threads :=
      if s.rdNwaiting > 0 then
        if s.rdNJustwaiting = 0 then signal LockWait.onRdcond s.threads pick
        else some (s.wakeUpRdLock).threads
      else some s.threads
    threads.map fun threads => { s with threads }.setStream g { s.streams g with rdlocked := false }

def rdLockNonBlocking (g : ℕ) : StrandLocks :=
  if (s.streams g).rdlocked then s
  else if s.rdNwaiting < 0 then s
  else s.takeRd g

/-- The loop of `inputReplyBegin` on a strand that is not bidirectional, from its test on.
`sleepOnRdLock` finds the lock held, as `rdLockNonBlocking` did. -/
def sleepOnRdLockLoop (t g : ℕ) : StrandLocks :=
  if (s.streams g).inputFullyBuffered || (s.streams g).rdlocked then s.finish t
  else if s.rdNwaiting < 0 then { s with rdNwaiting := s.rdNwaiting - 1 }.wait t (.sleepOnRdLock g)
  else (s.takeRd g).finish t

/-- `sleepOnRdLockAlways`, up to its wait -/
def sleepOnRdLockAlways (t g : ℕ) : StrandLocks :=
  { s with
    rdNwaiting := if s.rdNwaiting < 0 then s.rdNwaiting - 1 else s.rdNwaiting + 1
    rdNJustwaiting := s.rdNJustwaiting + 1 }.wait t (.sleepOnRdLockAlways g)

/-- The loop of `inputReplyBegin` on a bidirectional strand, from its test on. On a dying strand, and for a
stream that has the lock, an exception follows. -/
def sleepOnRdLockAlwaysLoop (t g : ℕ) : StrandLocks :=
  if s.dying || (s.streams g).inputFullyBuffered then s.finish t
  else if (s.streams g).rdlocked then s.finish t
  else s.sleepOnRdLockAlways t g

def inputReplyBegin (t g : ℕ) : StrandLocks :=
  if !s.biDir then s.sleepOnRdLockLoop t g else s.sleepOnRdLockAlwaysLoop t g

/-! ### Servers -/

def firstServer (state : ServerState) : Option ℕ := s.servers.find? fun g => (s.streams g).state = state

/-- `markRdLock` -/
def markRdLock (g : ℕ) : StrandLocks :=
  if (s.streams g).rdlocked then { s with assertionFailed := true }
  else s.setStream g { s.streams g with rdlocked := true }

/-- The server that takes the lock: one whose message has begun to arrive, an unused one, or a new one. -/
def chooseServer (fresh : ℕ) : ℕ × StrandLocks :=
  match s.firstServer .inputPartiallyBuffered with
  | some pp => (pp, s)
  | none =>
    match s.firstServer .unUsed with
    | some up => (up, s)
    | none => (fresh, { s with servers := s.servers ++ [fresh] })

/-- The server is given to the thread. -/
def claimServer (g : ℕ) : StrandLocks := s.setStream g { s.streams g with state := .idle }

/-- `giopStrand::acquireServer` from the label `again` on. -/
def acquireServerAgain (t fresh : ℕ) : StrandLocks :=
  match s.firstServer .inputFullyBuffered with
  | some fp => (s.claimServer fp).finish t
  | none =>
    if s.rdNwaiting < 0 then { s with rdNwaiting := s.rdNwaiting - 1 }.wait t .acquireServer
    else
      let chosen := { s with rdNwaiting := -s.rdNwaiting - 1 }.chooseServer fresh
      ((chosen.2.markRdLock chosen.1).claimServer chosen.1).finish t

def acquireServer (t fresh : ℕ) : StrandLocks :=
  if s.deletePending then s else s.acquireServerAgain t fresh

/-! ### What is asked about the locks -/

def noLockWaiting : Bool := s.rdNwaiting = 0 && s.wrNwaiting = 0

def rdLockIsHeld : Bool := s.rdNwaiting ≠ 0

/-! ### The write lock -/

def afterWrWait : StrandLocks :=
  { s with wrNwaiting := if s.wrNwaiting ≥ 0 then s.wrNwaiting - 1 else s.wrNwaiting + 1 }

def takeWr (g : ℕ) : StrandLocks :=
  { s with wrNwaiting := -s.wrNwaiting - 1 }.setStream g { s.streams g with wrlocked := true }

/-- The loop of `wrLock`, from its test on. -/
def wrLockLoop (t g : ℕ) : StrandLocks :=
  if s.wrNwaiting < 0 then { s with wrNwaiting := s.wrNwaiting - 1 }.wait t (.wrLock g)
  else (s.takeWr g).finish t

def wrLock (t g : ℕ) : StrandLocks :=
  if (s.streams g).wrlocked then s else s.wrLockLoop t g

def wrUnLock (g pick : ℕ) : Option StrandLocks :=
  if !(s.streams g).wrlocked then some s
  else if ¬ s.wrNwaiting < 0 then some { s with assertionFailed := true }
  else
    let s := { s with wrNwaiting := -s.wrNwaiting - 1 }
    let threads := if s.wrNwaiting > 0 then signal LockWait.onWrcond s.threads pick else some s.threads
    threads.map fun threads =>
      let s := { s with threads }.setStream g { s.streams g with wrlocked := false }
      if s.dying && s.rdNJustwaiting ≠ 0 then s.wakeUpRdLock else s

/-! ### What follows a wait -/

/-- The rest of the function that the thread waited in, up to its next wait. -/
def resume (t : ℕ) (w : LockWait) (hastimeout : Bool) (fresh : ℕ) : StrandLocks :=
  match w with
  | .rdLock g =>
    let s := s.afterRdWait
    if hastimeout then s.errorOnReceive t else s.rdLockLoop t g
  | .sleepOnRdLock g =>
    let s := s.afterRdWait
    if hastimeout then s.errorOnReceive t else s.sleepOnRdLockLoop t g
  | .sleepOnRdLockAlways g =>
    let s := { s with rdNJustwaiting := s.rdNJustwaiting - 1 }.afterRdWait
    if hastimeout then s.errorOnReceive t else s.sleepOnRdLockAlwaysLoop t g
  | .acquireServer => s.afterRdWait.acquireServerAgain t fresh
  | .wrLock g =>
    let s := s.afterWrWait
    if hastimeout then s.errorOnReceive t else s.wrLockLoop t g

/-! ### Messages that arrive -/

/-- `giopImpl12::inputQueueMessage`, where it has completed the message of another stream. -/
def completeMessage (g : ℕ) (server : Bool) : StrandLocks :=
  (s.setStream g { s.streams g with
    inputFullyBuffered := true
    state := if server then .inputFullyBuffered else (s.streams g).state }).wakeUpRdLock

/-- `giopImpl10::unmarshalReplyHeader`, where the reply is for another stream, which is given the
lock. -/
def handOver (source target : ℕ) : StrandLocks :=
  let s1 := s.setStream target { s.streams target with
    inputFullyBuffered := (s.streams source).inputFullyBuffered, rdlocked := true }
  (s1.setStream source { s1.streams source with inputFullyBuffered := false, rdlocked := false }).wakeUpRdLock

/-! ### Steps -/

/-- A thread that does not wait. -/
def Runs (t : ℕ) : Prop := t < s.threads.length ∧ s.threads.getD t none = none

instance (t : ℕ) : Decidable (s.Runs t) := inferInstanceAs (Decidable (_ ∧ _))

/-- A server that is made now: none of the strand's, with the members that the constructor gives it. -/
def IsFresh (g : ℕ) : Prop := g ∉ s.servers ∧ s.streams g = {}

instance (g : ℕ) : Decidable (s.IsFresh g) := inferInstanceAs (Decidable (_ ∧ _))

end StrandLocks

/-- What a thread does with the locks of a strand, and what else changes what they depend on. -/
inductive LockEvent where
  | rdLock (t g : ℕ)
  | rdUnLock (g pick : ℕ)
  | rdLockNonBlocking (g : ℕ)
  | wrLock (t g : ℕ)
  | wrUnLock (g pick : ℕ)
  | wakeUpRdLock
  | inputReplyBegin (t g : ℕ)
  | acquireServer (t fresh : ℕ)
  /-- a wait ends though nobody has signalled -/
  | spurious (t : ℕ)
  /-- the time of a wait is over -/
  | expire (t : ℕ)
  /-- a thread goes on after its wait -/
  | resume (t fresh : ℕ)
  | completeMessage (g : ℕ) (server : Bool)
  | handOver (source target : ℕ)
  /-- `giopStream::reset` -/
  | reset (g : ℕ)
  | setState (g : ℕ) (state : ServerState)
  | insertServer (g : ℕ)
  | removeServer (g : ℕ)
  | die
  | setBiDir (b : Bool)
  | safeDelete
  deriving DecidableEq, Repr

namespace StrandLocks

open LockEvent

/-- One step. Only the thread that has the read lock hands it over, only `completeMessage` makes a server
`InputFullyBuffered`, and `acquireServer` waits without a time limit. -/
def step (s : StrandLocks) : LockEvent → Option StrandLocks
  | .rdLock t g => if s.Runs t then some (s.rdLock t g) else none
  | .rdUnLock g pick => s.rdUnLock g pick
  | .rdLockNonBlocking g => some (s.rdLockNonBlocking g)
  | .wrLock t g => if s.Runs t then some (s.wrLock t g) else none
  | .wrUnLock g pick => s.wrUnLock g pick
  | .wakeUpRdLock => some s.wakeUpRdLock
  | .inputReplyBegin t g => if s.Runs t then some (s.inputReplyBegin t g) else none
  | .acquireServer t fresh => if s.Runs t ∧ s.IsFresh fresh then some (s.acquireServer t fresh) else none
  | .spurious t =>
    match s.threads.getD t none with
    | some ⟨w, .blocked⟩ => some { s with threads := s.threads.set t (some ⟨w, .signalled⟩) }
    | _ => none
  | .expire t =>
    match s.threads.getD t none with
    | some ⟨w, .blocked⟩ =>
      if w = .acquireServer then none else some { s with threads := s.threads.set t (some ⟨w, .expired⟩) }
    | _ => none
  | .resume t fresh =>
    match s.threads.getD t none with
    | some ⟨w, .signalled⟩ => if s.IsFresh fresh then some (s.resume t w false fresh) else none
    | some ⟨w, .expired⟩ => if s.IsFresh fresh then some (s.resume t w true fresh) else none
    | _ => none
  | .completeMessage g server => some (s.completeMessage g server)
  | .handOver source target =>
    if (s.streams source).rdlocked ∧ source ≠ target then some (s.handOver source target) else none
  | .reset g => some (s.setStream g { s.streams g with inputFullyBuffered := false })
  | .setState g state =>
    if state = .inputFullyBuffered then none else some (s.setStream g { s.streams g with state })
  | .insertServer g =>
    if (s.streams g).state = .inputFullyBuffered then none else some { s with servers := s.servers ++ [g] }
  | .removeServer g => some { s with servers := s.servers.erase g }
  | .die => some { s with dying := true }
  | .setBiDir b => some { s with biDir := b }
  | .safeDelete => some { s with deletePending := true }

/-- A new strand, and the threads that will use it. -/
def start (n : ℕ) : StrandLocks := { threads := List.replicate n none }

end StrandLocks

end OmniORB
