import OmniORB.Library.Passes

/-!
# Invocations on an object reference

`omniObjRef::_invoke` (`omniObjRef.cc`): the loop around `dispatch`, with its catch clauses, the
deadline, and the forwarding of the reference (`omniInternal.cc`). An attempt is what the rest of the
ORB and the application do in one pass of the loop. Times are numbers of nanoseconds, 0 for none, and
counters whole numbers.
-/

namespace OmniORB.OmniObjRef

open Library

/-! ### Exceptions -/

inductive CompletionStatus where
  | completedYes
  | completedNo
  | completedMaybe
  deriving DecidableEq, Repr

/-- The system exceptions, as the catch clauses tell them apart. -/
inductive ExceptionKind where
  | commFailure
  | transient
  | timeout
  | objectNotExist
  | invObjref
  | other (name : String)
  deriving DecidableEq, Repr

structure SystemException where
  kind : ExceptionKind
  minor : ℕ
  completed : CompletionStatus
  deriving DecidableEq, Repr

def commFailureMarshalArguments : ℕ := 0x41540003
def commFailureWaitingForReply : ℕ := 0x41540007
def transientCallTimedout : ℕ := 0x41540008
def transientFailedOnForwarded : ℕ := 0x41540001
def transientNoUsableProfile : ℕ := 0x4f4d0002
def invObjrefCorruptedObjRef : ℕ := 0x41540036

def isCommFailureMinor (w : ℕ) : Bool := commFailureMarshalArguments ≤ w && w ≤ commFailureWaitingForReply

/-- What leaves `_invoke` other than by its return. -/
inductive Thrown where
  | systemException (ex : SystemException)
  | userException
  | fatalException
  deriving DecidableEq, Repr

/-! ### The reference -/

/-- An object reference that others are forwarded to: its IOR, and what it is bound to. -/
structure Location (ι : Type) where
  ior : ι
  identity : ι
  deriving DecidableEq, Repr

/-- The reference of the call, with the flag that tells of a forward that is not permanent. -/
structure Reference (ι : Type) extends Location ι where
  forwardLocation : Bool
  deriving DecidableEq, Repr

variable {ι : Type}

/-- `omni::revertToOriginalProfile`; `createIdentity` may return none. -/
def Reference.revertToOriginalProfile (r : Reference ι) (creatable : Bool) :
    Except SystemException (Reference ι) :=
  if !r.forwardLocation then .ok r
  else if !creatable then .error ⟨.invObjref, invObjrefCorruptedObjRef, .completedNo⟩
  else .ok { r with identity := r.ior, forwardLocation := false }

/-- What a server answers to forward a call to: a reference to the same object reference, or another. -/
inductive Forward (ι : Type) where
  | itself
  | to (l : Location ι)
  deriving DecidableEq, Repr

/-- `omni::locationForward`, with a reference. -/
def Reference.locationForward (r : Reference ι) (permanent : Bool) : Forward ι → Reference ι
  | .itself => r
  | .to l =>
    if permanent then { ior := l.ior, identity := l.identity, forwardLocation := false }
    else { ior := r.ior, identity := l.identity, forwardLocation := true }

/-! ### An attempt -/

inductive Handler where
  | transient
  | timeout
  | commFailure
  | system
  deriving DecidableEq, Repr

/-- How `dispatch` ends. A nil forward is none. -/
inductive Outcome (ι : Type) where
  | success
  | commFailure (minor : ℕ) (completed : CompletionStatus) (retry : Bool)
  | systemException (ex : SystemException)
  | userException
  | locationForward (obj : Option (Forward ι)) (permanent : Bool)
  deriving DecidableEq, Repr

/-- The settings that make a deadline, and the clock. -/
structure Timeouts where
  now : ℕ
  timeout : ℕ
  supportPerThreadTimeOut : Bool
  /-- the time-out of the thread, and whether it is absolute -/
  current : Option (ℕ × Bool)
  clientCallTimeOutPeriod : ℕ
  deriving DecidableEq, Repr

def Timeouts.deadline (t : Timeouts) : ℕ :=
  if t.timeout ≠ 0 then t.now + t.timeout
  else
    let thread := if t.supportPerThreadTimeOut then t.current.getD (0, false) else (0, false)
    if thread.1 ≠ 0 then if thread.2 then thread.1 else t.now + thread.1
    else if t.clientCallTimeOutPeriod ≠ 0 then t.now + t.clientCallTimeOutPeriod
    else 0

/-- What happens in one pass of the loop. -/
structure Attempt (ι : Type) where
  /-- what `_assertExistsAndTypeVerified` throws -/
  verification : Option Thrown
  timeouts : Timeouts
  /-- what other calls have made of the reference, the one that verifies its type among them -/
  others : Reference ι → Reference ι
  outcome : Outcome ι
  creatable : Bool
  /-- what the handler answers that is called -/
  answer : Bool

structure OrbParameters where
  verifyObjectExistsAndType : Bool
  resetTimeOutOnRetries : Bool
  throwTransientOnTimeOut : Bool
  deriving DecidableEq, Repr

/-- What a pass does besides. -/
inductive Event (ι : Type) where
  | asked (handler : Handler) (nretries : ℕ) (ex : SystemException) (answer : Bool)
  | reverted
  | forwarded (obj : Forward ι)
  deriving DecidableEq, Repr

/-- The variables of `_invoke`, the reference and the deadline of the call descriptor. -/
structure Invocation (ι : Type) where
  reference : Reference ι
  retries : ℕ
  absTime : ℕ
  deadline : ℕ
  events : List (Event ι)
  deriving DecidableEq, Repr

/-- A catch clause. -/
abbrev Catch (ι α : Type) := ExceptT Thrown (StateM (Invocation ι)) α

/-! ### The catch clauses -/

section Clauses

variable (par : OrbParameters) (a : Attempt ι) (fwd : Bool)

def raise {α : Type} (ex : SystemException) : Catch ι α := throw (.systemException ex)

/-- `_omni_call...ExceptionHandler(this, retries++, ex, call_desc.op())` -/
def callHandler (handler : Handler) (ex : SystemException) : Catch ι Bool := do
  modify fun s => { s with events := s.events ++ [.asked handler s.retries ex a.answer], retries := s.retries + 1 }
  return a.answer

def revert : Catch ι Unit := do
  let s ← get
  match s.reference.revertToOriginalProfile a.creatable with
  | .error ex => raise ex
  | .ok r => set { s with reference := r, events := s.events ++ [Event.reverted] }

/-- The exception that `_invoke` throws if the handler that it asks about it answers no. -/
def unlessHandled (handler : Handler) (asked thrown : SystemException) : Catch ι Unit := do
  let answer ← callHandler a handler asked
  if !answer then raise thrown

/-- `RECOVER_FORWARD` -/
def recoverForward (ex : SystemException) : Catch ι Unit := do
  revert a
  unlessHandled a .transient ⟨.transient, transientFailedOnForwarded, ex.completed⟩ ex

/-- The system exception that stands for a `CommFailure`. -/
def ofCommFailure (minor : ℕ) (completed : CompletionStatus) : SystemException :=
  if isCommFailureMinor minor then ⟨.commFailure, minor, completed⟩
  else if !par.throwTransientOnTimeOut && minor = transientCallTimedout then ⟨.timeout, minor, completed⟩
  else ⟨.transient, minor, completed⟩

/-- `catch (const giopStream::CommFailure& ex)` without `retry()`; the result is `retry_after_timeout`. -/
def catchCommFailure (minor : ℕ) (completed : CompletionStatus) : Catch ι Bool := do
  if fwd then
    revert a
    unlessHandled a .transient ⟨.transient, transientFailedOnForwarded, completed⟩
      (ofCommFailure par minor completed)
    return false
  else if isCommFailureMinor minor then
    let ex2 := ⟨.commFailure, minor, completed⟩
    unlessHandled a .commFailure ex2 ex2
    return false
  else if !par.throwTransientOnTimeOut && minor = transientCallTimedout then
    let ex2 := ⟨.timeout, minor, completed⟩
    unlessHandled a .timeout ex2 ex2
    return true
  else
    let ex2 := ⟨.transient, minor, completed⟩
    unlessHandled a .transient ex2 ex2
    return false

/-- The clauses for system exceptions. -/
def catchSystemException (ex : SystemException) : Catch ι Bool :=
  match ex.kind with
  | .commFailure => do
    if fwd then recoverForward a ex else unlessHandled a .commFailure ex ex
    return false
  | .transient => do
    unlessHandled a .transient ex ex
    return false
  | .timeout => do
    unlessHandled a .timeout ex ex
    return true
  | .objectNotExist => do
    if fwd then recoverForward a ex else unlessHandled a .system ex ex
    return false
  | _ => do
    unlessHandled a .system ex ex
    return false

/-- `catch (omniORB::LOCATION_FORWARD& ex)`. The assertion of `locationForward` fails where there is no
reference. -/
def catchLocationForward (obj : Option (Forward ι)) (permanent : Bool) : Catch ι Unit := do
  if obj.isNone then
    let ex2 := ⟨.transient, transientNoUsableProfile, .completedNo⟩
    unlessHandled a .transient ex2 ex2
  match obj with
  | none => throw .fatalException
  | some obj => modify fun s =>
      { s with reference := s.reference.locationForward permanent obj, events := s.events ++ [.forwarded obj] }

/-- What follows the call of `dispatch`. The result is whether the call has returned, or else
`required_retry` and `retry_after_timeout`. -/
def afterDispatch : Catch ι (Option (Bool × Bool)) :=
  match a.outcome with
  | .success => return none
  | .commFailure minor completed retry => do
    if retry then return some (true, false)
    else
      let retryAfterTimeout ← catchCommFailure par a fwd minor completed
      return some (false, retryAfterTimeout)
  | .systemException ex => do
    let retryAfterTimeout ← catchSystemException a fwd ex
    return some (false, retryAfterTimeout)
  | .userException => throw .userException
  | .locationForward obj permanent => do
    catchLocationForward a obj permanent
    return some (false, false)

end Clauses

/-! ### The loop -/

/-- How `_invoke` ends. -/
inductive Ending where
  | returned
  | threw (t : Thrown)
  deriving DecidableEq, Repr

/-- What one pass did: whether `dispatch` was called, the deadline and the reference that it had, what was
done then and what became of the reference. -/
structure Report (ι : Type) where
  attempt : Attempt ι
  dispatched : Bool
  deadline : ℕ
  before : Reference ι
  events : List (Event ι)
  after : Reference ι

/-- The end of a pass. -/
def endPass (par : OrbParameters) (s : Invocation ι) :
    Except Thrown (Option (Bool × Bool)) → Invocation ι ⊕ Ending
  | .error t => .inr (.threw t)
  | .ok none => .inr .returned
  | .ok (some (requiredRetry, retryAfterTimeout)) =>
    .inl (if !requiredRetry && (retryAfterTimeout || par.resetTimeOutOnRetries) then { s with absTime := 0 } else s)

/-- What the catch clauses find: the deadline is computed if there is none. -/
def beginPass (s : Invocation ι) (a : Attempt ι) : Invocation ι :=
  let s := { s with reference := a.others s.reference, events := [] }
  if s.absTime = 0 then { s with absTime := a.timeouts.deadline, deadline := a.timeouts.deadline } else s

/-- One pass of the loop of `_invoke`. -/
def attempt (par : OrbParameters) (doAssert : Bool) (s : Invocation ι) (a : Attempt ι) :
    Report ι × (Invocation ι ⊕ Ending) :=
  match if par.verifyObjectExistsAndType && doAssert then a.verification else none with
  | some t => (⟨a, false, s.deadline, s.reference, [], s.reference⟩, .inr (.threw t))
  | none =>
    let s := beginPass s a
    let r := (afterDispatch par a s.reference.forwardLocation).run.run s
    (⟨a, true, s.deadline, s.reference, r.2.events, r.2.reference⟩, endPass par r.2 r.1)

/-- `_invoke`, on a reference that is not nil, with the deadline that the call descriptor has at first. -/
def invoke (par : OrbParameters) (doAssert : Bool) (reference : Reference ι) (deadline : ℕ)
    (attempts : List (Attempt ι)) : List (Report ι) × Option Ending :=
  passes (attempt par doAssert) ⟨reference, 0, 0, deadline, []⟩ attempts

end OmniORB.OmniObjRef
