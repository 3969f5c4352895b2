import OmniORB.Library.Transitions
import OmniORB.Poa.Entries
import OmniORB.Poa.Managers

/-!
# Requests in a POA

How requests go into and out of an `omniOrbPOA` (`poa.cc`, `localIdentity.cc`, `objectAdapter.h` and
`callHandle.cc`), and how threads wait until none is left. A step is what a thread does while it
holds `internalLock` or `pd_lock`, or a call of other code without them.
-/

namespace OmniORB

open Library

/-! ### Requests -/

/-- What the operations of a POA depend on. A time-out of 0 is none. -/
structure RequestParameters where
  policy : ServantPolicies
  poaUniquePersistentSystemIds : Bool
  poaHoldRequestTimeout : ℕ
  throwTransientOnTimeOut : Bool
  copyValuesInLocalCalls : Bool
  deriving DecidableEq, Repr

/-- A call in this process. A call without an operation is a LocateRequest; `idSize` is the size of
the object id in the key, if there is a key. -/
structure LocalCall where
  hasOp : Bool
  hasLocalCallFn : Bool
  containsValues : Bool
  idSize : Option ℕ
  deriving DecidableEq, Repr

/-- The exceptions that a request ends with. -/
inductive RequestException where
  | objectNotExistNoMatch
  | objectNotExistPOANotInitialised
  | transientPOANoResource
  | transientCallTimedout
  | transientObjDeactivatedWhileHolding
  | timeoutCallTimedOutOnServer
  | objAdapterPOAUnknownAdapter
  | objAdapterNoDefaultServant
  | objAdapterNoServantManager
  | objAdapterNoServant
  | objAdapterServantAlreadyActive
  | badOperationUnRecognisedOperationName
  | unknownUserException
  | locationForward
  -- those that other code raised
  | ofServantManager
  | ofServant
  deriving DecidableEq, Repr

/-- What a thread waits for in `waitForActiveRequestsToComplete`, `waitForAllRequestsToComplete` and
`pm_waitForReqCmpltnOrSttChnge`. -/
inductive RequestWait where
  | active
  | all
  | activeOrChange (state : PmState)
  deriving DecidableEq, Repr

/-- Where a thread is that holds no lock. -/
inductive RequestStage where
  -- omniLocalIdentity::dispatch and omniInProcessIdentity::dispatch
  | dispatchLocal (call : LocalCall)
  | dispatchInProcess (call : LocalCall)
  | dispatchHandle
  -- omniOrbPOA::dispatch for a key
  | dispatchKey (idSize : ℕ)
  | dispatchToDs
  | dispatchToSa
  | dispatchToSl
  -- dispatch_to_sa, in the adapter
  | takeActivator
  | refused
  | incarnate
  | setActive
  | exitDying
  -- dispatch_to_sl, in the adapter
  | preinvoke
  -- `wait` or `timedwait` of synchronise_request
  | holding (handle signalled : Bool)
  -- omniOrbPOA::dispatch for an identity
  | upcall (handle : Bool)
  -- the destructor of omniLocalIdentity_RefHolder
  | leave
  -- SLPostInvokeHook
  | postinvoke (destructor : Bool)
  | hookDestructor
  -- threads that wait until requests have completed
  | waitFor (w : RequestWait)
  | waiting (w : RequestWait) (signalled : Bool)
  -- pm_change_state, and destroy with do_destroy
  | changeState (state : PmState)
  | destroy
  | discard
  | doDestroy
  | finished
  deriving DecidableEq, Repr

/-- A thread. If it has an `SLPostInvokeHook`, `hook` says whether its `pd_poa` is set. A thread
that `signals` has let go of `internalLock`, and broadcasts on `pd_signal` next. -/
structure RequestThread where
  stage : RequestStage
  hook : Option Bool
  signals : Bool
  raised : Option RequestException
  deriving DecidableEq, Repr

/-- The calls that count requests, and those of a servant locator. `preinvoke` is recorded if it
returned a servant. -/
inductive CountedCall where
  | enterAdapter
  | startRequest
  | leaveAdapter
  | exitAdapter
  | preinvoke
  | postinvoke
  deriving DecidableEq, Repr

/-- The part of `omniOrbPOA` that has to do with requests. `calls` are those that the threads made,
the last one first. `failed` says that an `OMNIORB_ASSERT` was false. -/
structure PoaRequests where
  nReqInThis : ℤ
  nReqActive : ℤ
  signalOnZeroInvocations : ℤ
  rqState : PmState
  dying : Bool
  defaultServant : Bool
  servantActivator : Bool
  servantLocator : Bool
  threads : List RequestThread
  calls : List (ℕ × CountedCall)
  failed : Bool
  deriving DecidableEq, Repr

/-! ### What other code does -/

/-- What comes of `incarnate` and `preinvoke`. -/
inductive ServantOutcome where
  | servant
  | null
  | forwardRequest
  | systemException
  | otherException
  deriving DecidableEq, Repr

/-- What comes of an upcall, which is not made if the arguments cannot be read. -/
inductive UpcallOutcome where
  | returned
  | raised
  | notMade
  | unrecognised
  deriving DecidableEq, Repr

/-- What an object table and the list of adapters have for a key. The servant of an entry may be
`suitable` for a call without a handle. -/
inductive KeyLookup where
  | entry (suitable : Bool)
  | adapter
  | nothing
  deriving DecidableEq, Repr

/-- What other code does in a step. -/
structure OtherCode where
  deactivated : Bool := false
  lookup : KeyLookup := .nothing
  servant : ServantOutcome := .servant
  alreadyActive : Bool := false
  upcall : UpcallOutcome := .returned
  postinvokeRaises : Bool := false
  timedOut : Bool := false
  deriving DecidableEq, Repr

/-! ### The counters -/

namespace RequestThread

/-- `pd_signal` was broadcast. -/
def wake (x : RequestThread) : RequestThread :=
  match x.stage with
  | .holding handle _ => { x with stage := .holding handle true }
  | .waiting w _ => { x with stage := .waiting w true }
  | _ => x

/-- A thread that does nothing. -/
def blank : RequestThread := ⟨.finished, none, false, none⟩

end RequestThread

namespace PoaRequests

/-- `OMNIORB_ASSERT` -/
def assert (s : PoaRequests) (cond : Prop) [Decidable cond] : PoaRequests :=
  { s with failed := s.failed || !decide cond }

def record (s : PoaRequests) (t : ℕ) (c : CountedCall) : PoaRequests :=
  { s with calls := (t, c) :: s.calls }

def broadcast (s : PoaRequests) : PoaRequests :=
  { s with threads := s.threads.map RequestThread.wake }

def enterAdapter (s : PoaRequests) (t : ℕ) : PoaRequests :=
  let s := (s.assert (0 ≤ s.nReqInThis)).record t .enterAdapter
  { s with nReqInThis := s.nReqInThis + 1 }

def startRequest (s : PoaRequests) (t : ℕ) : PoaRequests :=
  let s := (s.assert (0 ≤ s.nReqActive)).record t .startRequest
  { s with nReqActive := s.nReqActive + 1 }

def leaveAdapter (s : PoaRequests) (t : ℕ) : PoaRequests :=
  let s := ((s.assert (0 < s.nReqInThis)).assert (0 < s.nReqActive)).record t .leaveAdapter
  let s := { s with nReqInThis := s.nReqInThis - 1, nReqActive := s.nReqActive - 1 }
  if s.nReqActive = 0 ∧ s.signalOnZeroInvocations ≠ 0 then s.broadcast else s

/-- `exitAdapter` before the broadcast. -/
def decrement (s : PoaRequests) (t : ℕ) : PoaRequests :=
  let s := (s.assert (0 < s.nReqInThis)).record t .exitAdapter
  { s with nReqInThis := s.nReqInThis - 1 }

/-- `do_signal` of `exitAdapter`. -/
def doSignal (s : PoaRequests) : Bool := s.nReqInThis = 0 && s.signalOnZeroInvocations ≠ 0

/-- `exitAdapter(1, 1)` -/
def exitAdapterLocked (s : PoaRequests) (t : ℕ) : PoaRequests :=
  let s := s.decrement t
  if s.doSignal then s.broadcast else s

/-! ### Threads -/

def setThread (s : PoaRequests) (t : ℕ) (x : RequestThread) : PoaRequests :=
  { s with threads := s.threads.set t x }

def thread (s : PoaRequests) (t : ℕ) : RequestThread := s.threads.getD t .blank

def setStage (s : PoaRequests) (t : ℕ) (stage : RequestStage) : PoaRequests :=
  s.setThread t { s.thread t with stage }

/-- The thread raises an exception, which takes it to the stage. -/
def raise (s : PoaRequests) (t : ℕ) (e : RequestException) (stage : RequestStage) : PoaRequests :=
  s.setThread t { s.thread t with stage, raised := some e }

/-- `exitAdapter()`, which takes the thread to the stage, perhaps with an exception. -/
def exitAdapter (s : PoaRequests) (t : ℕ) (x : RequestThread) : PoaRequests :=
  let s := s.decrement t
  s.setThread t { x with signals := s.doSignal }

/-! ### synchronise_request and dispatch -/

/-- `synchronise_request`, from the test of its loop on. What an exception leaves to do there is the
destructor of `omniLocalIdentity_RefHolder`. -/
def synchroniseRequest (s : PoaRequests) (t : ℕ) (handle deactivated : Bool) : PoaRequests :=
  match s.rqState with
  | .holding => s.setStage t (.holding handle false)
  | .discarding => (s.startRequest t).raise t .transientPOANoResource .leave
  | .inactive => (s.startRequest t).raise t .objAdapterPOAUnknownAdapter .leave
  | .active =>
    if deactivated then (s.startRequest t).raise t .transientObjDeactivatedWhileHolding .leave
    else (s.startRequest t).setStage t (.upcall handle)

/-- The wait in `synchronise_request` ends. -/
def stopHolding (par : RequestParameters) (s : PoaRequests) (t : ℕ) (handle : Bool)
    (o : OtherCode) : PoaRequests :=
  if o.timedOut ∧ par.poaHoldRequestTimeout ≠ 0 then
    let e :=
      if par.throwTransientOnTimeOut then .transientCallTimedout else .timeoutCallTimedOutOnServer
    (s.startRequest t).raise t e .leave
  else s.synchroniseRequest t handle o.deactivated

/-- `omniOrbPOA::dispatch` for an identity, from `omniLocalIdentity::dispatch`. -/
def dispatchIdentity (s : PoaRequests) (t : ℕ) (handle deactivated : Bool) : PoaRequests :=
  let s := s.enterAdapter t
  if s.rqState ≠ .active then s.synchroniseRequest t handle deactivated
  else (s.startRequest t).setStage t (.upcall handle)

/-- `omniLocalIdentity::dispatch` for a call descriptor. -/
def dispatchLocal (par : RequestParameters) (s : PoaRequests) (t : ℕ) (call : LocalCall)
    (deactivated : Bool) : PoaRequests :=
  if !call.hasOp && !deactivated then s.setStage t .finished
  else if deactivated || !call.hasLocalCallFn then s.setStage t (.dispatchInProcess call)
  else s.dispatchIdentity t (call.containsValues && par.copyValuesInLocalCalls) deactivated

/-- `objectExists` -/
def objectExists (par : RequestParameters) (s : PoaRequests) : Bool :=
  par.policy.reqProcessing ≠ .activeObjMap &&
    (s.defaultServant || s.servantActivator || s.servantLocator)

/-- `omniInProcessIdentity::dispatch` and its `locateRequest`. -/
def dispatchInProcess (par : RequestParameters) (s : PoaRequests) (t : ℕ) (call : LocalCall)
    (lookup : KeyLookup) : PoaRequests :=
  match call.idSize with
  | none => s.raise t .objectNotExistNoMatch .finished
  | some idSize =>
    match lookup with
    | .entry suitable =>
      if !call.hasOp then s.setStage t .finished
      else if call.hasLocalCallFn && suitable then s.setStage t (.dispatchLocal call)
      else s.setStage t .dispatchHandle
    | .adapter =>
      if call.hasOp then s.setStage t (.dispatchKey idSize)
      else if s.objectExists par then s.setStage t .finished
      else s.raise t .objectNotExistNoMatch .finished
    | .nothing => s.raise t .objectNotExistNoMatch .finished

/-- The size of the object ids that the POA makes. -/
def lengthCheck (par : RequestParameters) : ℕ :=
  if !par.policy.transient && par.poaUniquePersistentSystemIds then 4 + 8 else 4

/-- `omniOrbPOA::dispatch` for a key that is not in the active object map. -/
def dispatchKey (par : RequestParameters) (s : PoaRequests) (t : ℕ) (idSize : ℕ) : PoaRequests :=
  if !par.policy.userAssignedId && idSize ≠ lengthCheck par then
    s.raise t .objectNotExistNoMatch .finished
  else
    match par.policy.reqProcessing with
    | .activeObjMap =>
      match s.rqState with
      | .holding | .active => s.raise t .objectNotExistNoMatch .finished
      | .discarding => s.raise t .transientPOANoResource .finished
      | .inactive => s.raise t .objAdapterPOAUnknownAdapter .finished
    | .defaultServant => s.setStage t .dispatchToDs
    | .servantManager =>
      s.setStage t (if par.policy.retainServants then .dispatchToSa else .dispatchToSl)

/-! ### The servant managers -/

def dispatchToDs (s : PoaRequests) (t : ℕ) : PoaRequests :=
  if !s.defaultServant then s.raise t .objAdapterNoDefaultServant .finished
  else s.setStage t .dispatchHandle

/-- `dispatch_to_sa` until it lets go of `internalLock`. -/
def dispatchToSa (s : PoaRequests) (t : ℕ) (o : OtherCode) : PoaRequests :=
  match o.lookup with
  | .entry _ => s.dispatchIdentity t true o.deactivated
  | .adapter | .nothing => (s.enterAdapter t).setStage t .takeActivator

def takeActivator (s : PoaRequests) (t : ℕ) : PoaRequests :=
  if s.dying || !s.servantActivator then (s.exitAdapterLocked t).setStage t .refused
  else s.setStage t .incarnate

/-- `pd_dying` is read again, without a lock. -/
def refuse (s : PoaRequests) (t : ℕ) : PoaRequests :=
  let e := if s.dying then .objectNotExistPOANotInitialised else .objAdapterNoServantManager
  s.raise t e .finished

/-- What `dispatch_to_sa` and `dispatch_to_sl` raise if the servant manager gave no servant. -/
def noServant : ServantOutcome → Option RequestException
  | .servant => none
  | .null => some .objAdapterNoServant
  | .forwardRequest => some .locationForward
  | .systemException => some .ofServantManager
  | .otherException => some .unknownUserException

def incarnate (s : PoaRequests) (t : ℕ) (outcome : ServantOutcome) : PoaRequests :=
  match noServant outcome with
  | some e => (s.exitAdapterLocked t).raise t e .finished
  | none => s.setStage t .setActive

/-- `dispatch_to_sa` has a servant. If the POA is dying, it lets go of the locks. -/
def setActive (par : RequestParameters) (s : PoaRequests) (t : ℕ) (o : OtherCode) : PoaRequests :=
  if !par.policy.multipleId && o.alreadyActive then
    (s.exitAdapterLocked t).raise t .objAdapterServantAlreadyActive .finished
  else if s.dying then s.setStage t .exitDying
  else (s.exitAdapterLocked t).dispatchIdentity t true o.deactivated

def exitDying (s : PoaRequests) (t : ℕ) : PoaRequests :=
  s.exitAdapter t { s.thread t with
    stage := .finished
    raised := some .objectNotExistPOANotInitialised }

/-- `dispatch_to_sl` until it lets go of the locks. -/
def dispatchToSl (s : PoaRequests) (t : ℕ) : PoaRequests :=
  if s.dying then s.raise t .objectNotExistPOANotInitialised .finished
  else if !s.servantLocator then s.raise t .objAdapterNoServantManager .finished
  else (s.enterAdapter t).setStage t .preinvoke

/-- If there is a servant, the request has an `SLPostInvokeHook` from then on. -/
def preinvoke (s : PoaRequests) (t : ℕ) (outcome : ServantOutcome) : PoaRequests :=
  match noServant outcome with
  | some e => s.exitAdapter t { s.thread t with stage := .finished, raised := some e }
  | none =>
    (s.record t .preinvoke).setThread t { s.thread t with
      stage := .dispatchHandle
      hook := some true }

/-- `SLPostInvokeHook::postinvoke`, which `PostInvoker` or the destructor of the hook calls. -/
def postinvoke (s : PoaRequests) (t : ℕ) (destructor raises : Bool) : PoaRequests :=
  let s := (s.assert ((s.thread t).hook = some true)).record t .postinvoke
  s.exitAdapter t { s.thread t with
    stage := if destructor then .finished else .leave
    hook := some false
    raised := if raises then some .ofServantManager else (s.thread t).raised }

/-- The destructor of `SLPostInvokeHook`. -/
def destroyHook (s : PoaRequests) (t : ℕ) : PoaRequests :=
  s.setStage t (if (s.thread t).hook = some true then .postinvoke true else .finished)

/-! ### Upcalls -/

/-- An upcall through a handle ends with `postinvoke`, if that was set. -/
def upcall (s : PoaRequests) (t : ℕ) (handle : Bool) (outcome : UpcallOutcome) : PoaRequests :=
  let next := if handle && (s.thread t).hook.isSome then .postinvoke false else .leave
  match outcome with
  | .returned => s.setStage t next
  | .raised => s.raise t .ofServant next
  | .notMade => if handle then s.raise t .ofServant .leave else s.setStage t .leave
  | .unrecognised =>
    if handle then s.raise t .badOperationUnRecognisedOperationName .leave else s.setStage t .leave

/-- The destructor of `omniLocalIdentity_RefHolder`. -/
def leave (s : PoaRequests) (t : ℕ) : PoaRequests :=
  (s.leaveAdapter t).setStage t (if (s.thread t).hook.isSome then .hookDestructor else .finished)

/-! ### Waiting for requests -/

/-- The thread goes on waiting. -/
def goesOn (s : PoaRequests) : RequestWait → Bool
  | .active => s.nReqActive ≠ 0
  | .all => s.nReqInThis ≠ 0
  | .activeOrChange state => s.rqState = state && s.nReqActive ≠ 0

/-- The loop of the functions that wait. -/
def waitLoop (s : PoaRequests) (t : ℕ) (w : RequestWait) : PoaRequests :=
  if s.goesOn w then s.setStage t (.waiting w false)
  else { s with signalOnZeroInvocations := s.signalOnZeroInvocations - 1 }.setStage t .finished

def waitFor (s : PoaRequests) (t : ℕ) (w : RequestWait) : PoaRequests :=
  let s := match w with
    | .active => s.assert (0 ≤ s.nReqActive)
    | .all => s.assert (0 ≤ s.nReqInThis)
    | .activeOrChange _ => s
  { s with signalOnZeroInvocations := s.signalOnZeroInvocations + 1 }.waitLoop t w

/-- `pm_change_state` -/
def changeState (s : PoaRequests) (t : ℕ) (state : PmState) : PoaRequests :=
  { s with rqState := state }.setThread t { s.thread t with stage := .finished, signals := true }

/-- `destroy`, which marks the POA as dying. -/
def destroy (s : PoaRequests) (t : ℕ) : PoaRequests :=
  if s.dying then s.setStage t .finished else { s with dying := true }.setStage t .discard

/-- `destroy` discards the requests that are held. -/
def discard (s : PoaRequests) (t : ℕ) : PoaRequests :=
  if s.rqState = .holding then
    { s with rqState := .discarding }.setThread t { s.thread t with
      stage := .doDestroy
      signals := true }
  else s.setStage t .doDestroy

/-- `do_destroy`, which waits for the requests. -/
def doDestroy (s : PoaRequests) (t : ℕ) : PoaRequests :=
  { s with rqState := .inactive }.waitFor t .all

/-! ### Steps -/

/-- What a thread does that has nothing to broadcast. -/
def advance (par : RequestParameters) (s : PoaRequests) (t : ℕ) (o : OtherCode) :
    RequestStage → Option PoaRequests
  | .dispatchLocal call => some (s.dispatchLocal par t call o.deactivated)
  | .dispatchInProcess call => some (s.dispatchInProcess par t call o.lookup)
  | .dispatchHandle => some (s.dispatchIdentity t true o.deactivated)
  | .dispatchKey idSize => some (s.dispatchKey par t idSize)
  | .dispatchToDs => some (s.dispatchToDs t)
  | .dispatchToSa => some (s.dispatchToSa t o)
  | .dispatchToSl => some (s.dispatchToSl t)
  | .takeActivator => some (s.takeActivator t)
  | .refused => some (s.refuse t)
  | .incarnate => some (s.incarnate t o.servant)
  | .setActive => some (s.setActive par t o)
  | .exitDying => some (s.exitDying t)
  | .preinvoke => some (s.preinvoke t o.servant)
  -- a wait may end for no reason
  | .holding handle _ => some (s.stopHolding par t handle o)
  | .upcall handle => some (s.upcall t handle o.upcall)
  | .leave => some (s.leave t)
  | .postinvoke destructor => some (s.postinvoke t destructor o.postinvokeRaises)
  | .hookDestructor => some (s.destroyHook t)
  | .waitFor w => some (s.waitFor t w)
  | .waiting w _ => some (s.waitLoop t w)
  | .changeState state => some (s.changeState t state)
  | .destroy => some (s.destroy t)
  | .discard => some (s.discard t)
  | .doDestroy => some (s.doDestroy t)
  | .finished => none

def run (par : RequestParameters) (s : PoaRequests) (t : ℕ) (o : OtherCode) : Option PoaRequests :=
  if (s.thread t).signals then some (s.setThread t { s.thread t with signals := false }).broadcast
  else s.advance par t o (s.thread t).stage

end PoaRequests

/-- Where a thread begins: with a request, or with a function that waits or changes the state. -/
def RequestStage.isFirst : RequestStage → Bool
  | .dispatchLocal _ | .dispatchHandle | .dispatchKey _ | .waitFor _ | .changeState _ | .destroy =>
    true
  | _ => false

/-- What may happen next: a call, a change of the servants of the POA, or that a thread goes on. -/
inductive RequestAction where
  | call (stage : RequestStage)
  | setServants (defaultServant servantActivator servantLocator : Bool)
  | run (t : ℕ) (o : OtherCode)
  deriving DecidableEq, Repr

namespace PoaRequests

def init : PoaRequests := ⟨0, 0, 0, .holding, false, false, false, false, [], [], false⟩

def step (par : RequestParameters) (s : PoaRequests) : RequestAction → Option PoaRequests
  | .call stage =>
    if stage.isFirst then some { s with threads := s.threads ++ [⟨stage, none, false, none⟩] }
    else none
  | .setServants defaultServant servantActivator servantLocator =>
    some { s with defaultServant, servantActivator, servantLocator }
  | .run t o => s.run par t o

end PoaRequests

end OmniORB
