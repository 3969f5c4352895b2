import OmniORB.Library.Threads
import OmniORB.Library.Transitions
import OmniORB.Poa.Keys

/-!
# The active object map

The object table entries of POAs, and what moves them from state to state: the `set...` functions of
`omniInternal.cc`, the invocations of `localIdentity.cc`, and the operations of `poa.cc`. A step is
what a thread does without letting go of a lock.
-/

namespace OmniORB

open Library

/-- `omniObjTableEntry::State` -/
inductive EntryState where
  | activating
  | active
  | deactivating
  | deactivatingOA
  | etherealising
  | dead
  deriving DecidableEq, Repr

namespace EntryState

/-- The values of the enumeration. Those of a set of states are or-ed together. -/
def bits : EntryState → ℕ
  | .activating => 1
  | .active => 2
  | .deactivating => 4
  | .deactivatingOA => 20
  | .etherealising => 8
  | .dead => 0

/-- The state is one of the `set`. -/
def isIn (state : EntryState) (set : ℕ) : Bool := state.bits &&& set ≠ 0

end EntryState

/-- The head of a list that entries are linked into: `pd_activeObjList` of a POA, or the variable
`obj_list` of a thread in `pm_deactivate` or `do_destroy`. -/
inductive ObjListHead where
  | activeObjList (p : ℕ)
  | objList (k : ℕ)
  deriving DecidableEq, Repr

/-- `omniObjTableEntry`. The key is that of a POA with an object id. `past` are the states the entry
was in before, the latest first. The order of the entries in a list does not matter here, only which
list an entry is in. -/
structure ObjTableEntry where
  key : ℕ × List UInt8
  state : EntryState
  past : List EntryState
  nInvocations : ℤ
  servant : Option ℕ
  adapter : Option ℕ
  deactivated : Bool
  oaObjList : Option ObjListHead
  deriving DecidableEq, Repr

namespace ObjTableEntry

/-- The constructor. -/
def new (key : ℕ × List UInt8) : ObjTableEntry where
  key := key
  state := .activating
  past := []
  nInvocations := 1
  servant := none
  adapter := none
  deactivated := false
  oaObjList := none

/-- No entry. -/
def blank : ObjTableEntry := { new (0, []) with state := .dead, nInvocations := 0 }

/-- `is_idle` -/
def isIdle (x : ObjTableEntry) : Bool := x.nInvocations = 0

def setState (x : ObjTableEntry) (state : EntryState) : ObjTableEntry :=
  { x with state, past := x.state :: x.past }

end ObjTableEntry

inductive RequestProcessing where
  | activeObjMap
  | defaultServant
  | servantManager
  deriving DecidableEq, Repr

/-- `omniOrbPOA::Policies`, but for those of threads and of requests. -/
structure ServantPolicies extends PoaPolicies where
  multipleId : Bool
  retainServants : Bool
  reqProcessing : RequestProcessing
  implicitActivation : Bool
  deriving DecidableEq, Repr

/-- The rest of `omniOrbPOA`, as far as the active object map needs it. -/
structure ObjectAdapter where
  dying : Bool
  destroyed : ℕ
  servantActivator : Bool
  nReqInThis : ℤ
  nDetachedObjects : ℤ
  deriving DecidableEq, Repr

/-- How far `pm_deactivate` or `do_destroy` is with the objects it took from the POA. -/
inductive ClosePhase where
  | taken
  | waiting
  | completed
  | etherealising
  deriving DecidableEq, Repr

/-- A thread in `pm_deactivate` or, if it is `destroying`, in `do_destroy`: the POA, its `obj_list`
and its other variables. -/
structure Closer where
  poa : ℕ
  objList : ℕ
  etherealise : Bool
  destroying : Bool
  servantActivator : Bool
  didDetach : Bool
  deriving DecidableEq, Repr

/-- What a thread is going to do next, to an entry `e` of the POA `p`. -/
inductive PoaInstr where
  -- activate_object_with_id: the place-holder is in the table; then `pd_lock` is held
  | activate (p e servant : ℕ)
  | insertActive (p e : ℕ)
  -- deactivate_object of a busy object, with `pd_lock` held
  | detachBusy (p : ℕ)
  | detachedObject (p : ℕ)
  -- lastInvocationHasCompleted
  | findActivator (p e : ℕ)
  | queueEtherealiser (p e : ℕ)
  | setDead (e : ℕ)
  | removeRef (e : ℕ)
  | metDetachedObject (p : ℕ)
  -- omniEtherealiser::doit
  | etherealize (e : ℕ)
  | endInvocation (p e : ℕ)
  -- dispatch_to_sa; in the last of them `internalLock` is held
  | takeActivator (p e : ℕ)
  | incarnate (p e : ℕ)
  | activateIncarnated (p e servant : ℕ)
  | closeIncarnated (p e : ℕ)
  | exitAdapter (p : ℕ)
  -- pm_deactivate and do_destroy
  | reRoot (p : ℕ) (etherealise : Bool)
  | closing (c : Closer) (phase : ClosePhase)
  | waitForDetachedObjects (p : ℕ)
  | destroyed (p : ℕ)
  deriving DecidableEq, Repr

/-- What the ORB calls on the servant of an entry. -/
inductive ServantCall where
  | addRef (e : ℕ)
  | removeRef (e : ℕ)
  | etherealize (e : ℕ)
  deriving DecidableEq, Repr

/-- The exceptions of the operations. -/
inductive PoaException where
  | wrongPolicy
  | badParam
  | servantAlreadyActive
  | objectAlreadyActive
  | objectNotActive
  | objectNotExist
  | badInvOrder
  deriving DecidableEq, Repr

/-- The object table, the POAs and the servants. `abandoned` are the entries in the list of a
`pm_deactivate` that returned without doing anything with them. `failed` says that an
`OMNIORB_ASSERT` was false. -/
structure ObjectTable where
  nEntries : ℕ
  entry : ℕ → ObjTableEntry
  poa : ℕ → ObjectAdapter
  activations : ℕ → List ℕ
  nLists : ℕ
  threads : List (List PoaInstr)
  calls : List ServantCall
  abandoned : List ℕ
  failed : Bool

/-- Which locks a thread that is going to do this holds already. -/
def PoaInstr.holdsPdLock (p : ℕ) : PoaInstr → Bool
  | .insertActive q _ | .detachBusy q => p = q
  | _ => false

def PoaInstr.holdsInternalLock : PoaInstr → Bool
  | .closeIncarnated _ _ => true
  | _ => false

namespace ObjectTable

def init : ObjectTable where
  nEntries := 0
  entry _ := .blank
  poa _ := ⟨false, 0, false, 0, 0⟩
  activations _ := []
  nLists := 0
  threads := []
  calls := []
  abandoned := []
  failed := false

/-! ### Locks -/

def pdLockFree (s : ObjectTable) (p : ℕ) : Bool :=
  (pending s.threads).all fun i => !i.holdsPdLock p

/-- `omni::internalLock` -/
def internalLockFree (s : ObjectTable) : Bool :=
  (pending s.threads).all fun i => !i.holdsInternalLock

/-! ### The entries -/

/-- `OMNIORB_ASSERT` -/
def assert (s : ObjectTable) (cond : Prop) [Decidable cond] : ObjectTable :=
  { s with failed := s.failed || !decide cond }

def setEntry (s : ObjectTable) (e : ℕ) (x : ObjTableEntry) : ObjectTable :=
  { s with entry := Function.update s.entry e x }

def setPoa (s : ObjectTable) (p : ℕ) (r : ObjectAdapter) : ObjectTable :=
  { s with poa := Function.update s.poa p r }

@[simp] lemma entry_setEntry (s : ObjectTable) (e : ℕ) (x : ObjTableEntry) :
    (s.setEntry e x).entry = Function.update s.entry e x := rfl

@[simp] lemma activations_setEntry (s : ObjectTable) (e : ℕ) (x : ObjTableEntry) :
    (s.setEntry e x).activations = s.activations := rfl

@[simp] lemma threads_setEntry (s : ObjectTable) (e : ℕ) (x : ObjTableEntry) :
    (s.setEntry e x).threads = s.threads := rfl

@[simp] lemma calls_setEntry (s : ObjectTable) (e : ℕ) (x : ObjTableEntry) :
    (s.setEntry e x).calls = s.calls := rfl

@[simp] lemma poa_setEntry (s : ObjectTable) (e : ℕ) (x : ObjTableEntry) :
    (s.setEntry e x).poa = s.poa := rfl

@[simp] lemma poa_setPoa (s : ObjectTable) (p : ℕ) (r : ObjectAdapter) :
    (s.setPoa p r).poa = Function.update s.poa p r := rfl

@[simp] lemma entry_setPoa (s : ObjectTable) (p : ℕ) (r : ObjectAdapter) :
    (s.setPoa p r).entry = s.entry := rfl

@[simp] lemma threads_setPoa (s : ObjectTable) (p : ℕ) (r : ObjectAdapter) :
    (s.setPoa p r).threads = s.threads := rfl

def call (s : ObjectTable) (c : ServantCall) : ObjectTable := { s with calls := c :: s.calls }

/-- The entry of the table with the key, as `locate` and `newEntry` look for it. -/
def locate (s : ObjectTable) (key : ℕ × List UInt8) : Option ℕ :=
  (List.range s.nEntries).find? fun e => (s.entry e).state ≠ .dead ∧ (s.entry e).key = key

/-- `newEntry`, of a key that is not in the table. -/
def newEntry (s : ObjectTable) (key : ℕ × List UInt8) : ObjectTable :=
  { s.setEntry s.nEntries (.new key) with nEntries := s.nEntries + 1 }

/-- `_addActivation` -/
def addActivation (s : ObjectTable) (servant e : ℕ) : ObjectTable :=
  { s with
    activations := Function.update s.activations servant (s.activations servant ++ [e]) }

@[simp] lemma poa_addActivation (s : ObjectTable) (servant e : ℕ) :
    (s.addActivation servant e).poa = s.poa := rfl

/-- `_removeActivation` -/
def removeActivation (s : ObjectTable) (servant e : ℕ) : ObjectTable :=
  let s := s.assert (e ∈ s.activations servant)
  { s with
    activations := Function.update s.activations servant ((s.activations servant).erase e) }

def setActive (s : ObjectTable) (e servant p : ℕ) : ObjectTable :=
  let x := s.entry e
  let s := s.assert (x.state = .activating ∧ x.servant = none ∧ x.adapter = none)
  (s.setEntry e { x.setState .active with servant := some servant, adapter := some p }).addActivation
    servant e

/-- `setDeactivating` and `setDeactivatingOA` -/
def setDeactivatingTo (s : ObjectTable) (state : EntryState) (e : ℕ) : ObjectTable :=
  let x := s.entry e
  let s := s.assert (x.state = .active ∧ 0 < x.nInvocations)
  s.setEntry e { x.setState state with nInvocations := x.nInvocations - 1 }

def setDeactivating (s : ObjectTable) (e : ℕ) : ObjectTable := s.setDeactivatingTo .deactivating e

def setDeactivatingOA (s : ObjectTable) (e : ℕ) : ObjectTable :=
  s.setDeactivatingTo .deactivatingOA e

def setEtherealising (s : ObjectTable) (e : ℕ) : ObjectTable :=
  let x := s.entry e
  let s := s.assert (x.state.isIn EntryState.deactivating.bits ∧ x.servant.isSome)
  (s.setEntry e { x.setState .etherealising with deactivated := true }).removeActivation
    (x.servant.getD 0) e

def setDead (s : ObjectTable) (e : ℕ) : ObjectTable :=
  let x := s.entry e
  -- it is in the table
  let s := s.assert (x.state ≠ .dead)
  match x.servant with
  | some servant =>
    if x.state ≠ .etherealising then
      (s.setEntry e { x.setState .dead with deactivated := true }).removeActivation servant e
    else s.setEntry e (x.setState .dead)
  | none => s.setEntry e (x.setState .dead)

def insertIntoOAObjList (s : ObjectTable) (e p : ℕ) : ObjectTable :=
  let x := s.entry e
  (s.assert (x.oaObjList = none)).setEntry e { x with oaObjList := some (.activeObjList p) }

def removeFromOAObjList (s : ObjectTable) (e : ℕ) : ObjectTable :=
  let x := s.entry e
  (s.assert (x.oaObjList ≠ none)).setEntry e { x with oaObjList := none }

/-- The entries in a list. -/
def listed (s : ObjectTable) (head : ObjListHead) : List ℕ :=
  (List.range s.nEntries).filter fun e => (s.entry e).oaObjList = some head

/-- `reRootOAObjList`: the list of the POA gets a new head. -/
def reRootOAObjList (s : ObjectTable) (p : ℕ) : ObjectTable :=
  { s with
    nLists := s.nLists + 1
    entry := fun e =>
      let x := s.entry e
      if x.oaObjList = some (.activeObjList p) then
        { x with oaObjList := some (.objList s.nLists) }
      else x }

/-- The servant is already active in the POA. -/
def isActiveIn (s : ObjectTable) (servant p : ℕ) : Bool :=
  (s.activations servant).any fun e => (s.entry e).adapter = some p

/-! ### Requests -/

def enterAdapter (s : ObjectTable) (p : ℕ) : ObjectTable :=
  (s.assert (0 ≤ (s.poa p).nReqInThis)).setPoa p
    { s.poa p with nReqInThis := (s.poa p).nReqInThis + 1 }

/-- `leaveAdapter` and `exitAdapter` -/
def leaveAdapter (s : ObjectTable) (p : ℕ) : ObjectTable :=
  (s.assert (0 < (s.poa p).nReqInThis)).setPoa p
    { s.poa p with nReqInThis := (s.poa p).nReqInThis - 1 }

def detachedObject (s : ObjectTable) (p : ℕ) : ObjectTable :=
  s.setPoa p { s.poa p with nDetachedObjects := (s.poa p).nDetachedObjects + 1 }

def metDetachedObject (s : ObjectTable) (p : ℕ) : ObjectTable :=
  s.setPoa p { s.poa p with nDetachedObjects := (s.poa p).nDetachedObjects - 1 }

/-- A thread that does the instructions. -/
def start (s : ObjectTable) (l : List PoaInstr) : ObjectTable :=
  { s with threads := s.threads ++ [l] }

/-- The thread `t` goes on with the instructions. -/
def goOn (s : ObjectTable) (t : ℕ) (l : List PoaInstr) : ObjectTable :=
  { s with threads := proceed s.threads t l }

/-- `omniLocalIdentity_RefHolder`, and `dispatch` of the POA: an invocation is in progress, perhaps
held up by the POA manager. -/
def startInvocation (s : ObjectTable) (e p : ℕ) : ObjectTable :=
  let x := s.entry e
  let s := s.assert (x.adapter = some p ∧ x.servant.isSome)
  (s.setEntry e { x with nInvocations := x.nInvocations + 1 }).enterAdapter p

/-- `lastInvocationHasCompleted`, until it lets go of `internalLock`, and what it goes on with. -/
def lastInvocationHasCompleted (s : ObjectTable) (p e : ℕ) : ObjectTable × List PoaInstr :=
  if (s.entry e).state = .deactivatingOA then (s, [])
  else (s.setEtherealising e, [.findActivator p e])

/-! ### Operations -/

/-- The size of the ids that the POA makes. -/
def systemIdSize (unique : Bool) (pol : ServantPolicies) : ℕ :=
  if !pol.transient && unique then sysAssignedIdSize + transientSuffixSize else sysAssignedIdSize

/-- A new entry that is active, with an object id that `create_new_key` made. -/
def activateNew (s : ObjectTable) (p servant : ℕ) (oid : List UInt8) : ObjectTable :=
  let e := s.nEntries
  (((s.newEntry (p, oid)).setActive e servant p).call (.addRef e)).insertIntoOAObjList e p

def activateObject (pol : ServantPolicies) (s : ObjectTable) (p servant : ℕ) (oid : List UInt8) :
    Except PoaException ObjectTable :=
  if pol.userAssignedId || !pol.retainServants then .error .wrongPolicy
  else if (s.poa p).dying then .error .objectNotExist
  else if !pol.multipleId && s.isActiveIn servant p then .error .servantAlreadyActive
  else .ok (s.activateNew p servant oid)

/-- The implicit activation of `servant_to_id`, `servant_to_reference` and `servant__this`. -/
def activateImplicitly (pol : ServantPolicies) (s : ObjectTable) (p servant : ℕ) (oid : List UInt8) :
    Except PoaException ObjectTable :=
  if !pol.retainServants then .error .wrongPolicy
  else if !pol.multipleId && s.isActiveIn servant p then .ok s
  else if !pol.implicitActivation then .error .wrongPolicy
  else if (s.poa p).dying then .error .objectNotExist
  else .ok (s.activateNew p servant oid)

/-- `activate_object_with_id`, until the place-holder is in the table. It waits while the entry of
the key is neither activating nor active. -/
def activateObjectWithId (unique : Bool) (pol : ServantPolicies) (s : ObjectTable) (p servant : ℕ)
    (oid : List UInt8) : Option (Except PoaException ObjectTable) :=
  if !pol.retainServants then some (.error .wrongPolicy)
  else if !pol.userAssignedId && oid.length ≠ systemIdSize unique pol then some (.error .badParam)
  else
    match s.locate (p, oid) with
    | some e =>
      if (s.entry e).state.isIn (EntryState.activating.bits ||| EntryState.active.bits) then
        some (.error .objectAlreadyActive)
      else none
    | none => some (.ok ((s.newEntry (p, oid)).start [.activate p s.nEntries servant]))

def deactivateObject (pol : ServantPolicies) (s : ObjectTable) (p : ℕ) (oid : List UInt8) :
    Except PoaException ObjectTable :=
  if !pol.retainServants then .error .wrongPolicy
  else if (s.poa p).destroyed ≠ 0 then .error .objectNotExist
  else
    match s.locate (p, oid) with
    | none => .error .objectNotActive
    | some e =>
      if (s.entry e).state ≠ .active then .error .objectNotActive
      else
        let s := (s.setDeactivating e).removeFromOAObjList e
        if (s.entry e).isIdle then
          let c := (s.detachedObject p).lastInvocationHasCompleted p e
          .ok (c.1.start c.2)
        else .ok (s.start [.detachBusy p])

/-- `dispatch_to_sa`, until it lets go of `internalLock`. It waits while the entry of the key is
neither active nor deactivating. -/
def dispatchToSa (s : ObjectTable) (p : ℕ) (oid : List UInt8) : Option ObjectTable :=
  match s.locate (p, oid) with
  | some e =>
    if (s.entry e).state.isIn (EntryState.active.bits ||| EntryState.deactivating.bits) then
      some ((s.startInvocation e p).start [.endInvocation p e])
    else none
  | none => some (((s.newEntry (p, oid)).enterAdapter p).start [.takeActivator p s.nEntries])

def setServantManager (pol : ServantPolicies) (s : ObjectTable) (p : ℕ) :
    Except PoaException ObjectTable :=
  if pol.reqProcessing ≠ .servantManager then .error .wrongPolicy
  else if (s.poa p).servantActivator then .error .badInvOrder
  else if pol.retainServants then .ok (s.setPoa p { s.poa p with servantActivator := true })
  else .ok s

/-- `pm_deactivate`, until it lets go of `pd_lock`. If the POA is being destroyed, it waits for that
and returns. -/
def pmDeactivate (s : ObjectTable) (p : ℕ) (etherealise : Bool) : ObjectTable :=
  if (s.poa p).dying then s
  else
    let didDetach := !(s.listed (.activeObjList p)).isEmpty
    let c := ⟨p, s.nLists, etherealise, false, (s.poa p).servantActivator, didDetach⟩
    let s := s.reRootOAObjList p
    (if didDetach then s.detachedObject p else s).start [.closing c .taken]

/-- `destroy`, until the POA is marked. -/
def destroy (s : ObjectTable) (p : ℕ) (etherealise : Bool) : Except PoaException ObjectTable :=
  if (s.poa p).destroyed ≠ 0 then .error .objectNotExist
  else if (s.poa p).dying then .ok s
  else .ok ((s.setPoa p { s.poa p with dying := true }).start [.reRoot p etherealise])

def deactivateObjects (s : ObjectTable) (k : ℕ) : ObjectTable :=
  (s.listed (.objList k)).foldl
    (fun s e => if (s.entry e).state = .active then s.setDeactivatingOA e else s) s

def completeObjectDeactivation (s : ObjectTable) (k : ℕ) : ObjectTable :=
  (s.listed (.objList k)).foldl
    (fun s e =>
      (if (s.entry e).state.isIn EntryState.deactivating.bits then s.setEtherealising e else s).assert
        ((s.entry e).isIdle)) s

/-- The entry leaves the list of `etherealise_objects`, which goes on with it. -/
def etherealiseObject (s : ObjectTable) (c : Closer) (e : ℕ) : ObjectTable × List PoaInstr :=
  let x := s.entry e
  ((s.assert x.isIdle).setEntry e { x with oaObjList := none },
    if c.servantActivator && c.etherealise then
      [.detachedObject c.poa, .queueEtherealiser c.poa e, .closing c .etherealising]
    else [.setDead e, .removeRef e, .closing c .etherealising])

/-- `pm_deactivate` returns, and its `obj_list` is gone. -/
def abandon (s : ObjectTable) (k : ℕ) : ObjectTable :=
  { s with
    abandoned := s.listed (.objList k) ++ s.abandoned
    entry := fun e =>
      let x := s.entry e
      if x.oaObjList = some (.objList k) then { x with oaObjList := none } else x }

/-- The end of `pm_deactivate` or `do_destroy`. -/
def endOfClosing (c : Closer) : List PoaInstr :=
  if c.destroying then [.waitForDetachedObjects c.poa, .destroyed c.poa]
  else [.metDetachedObject c.poa, .waitForDetachedObjects c.poa]

/-- The next step of a thread in `pm_deactivate` or `do_destroy`. -/
def close (s : ObjectTable) (t : ℕ) (c : Closer) : ClosePhase → Option ObjectTable
  | .taken =>
    -- deactivate_objects would wait for objects that are being activated
    if s.internalLockFree ∧
        ∀ e ∈ s.listed (.objList c.objList), (s.entry e).state ≠ .activating then
      some ((s.deactivateObjects c.objList).goOn t [.closing c .waiting])
    else none
  | .waiting =>
    -- waitForAllRequestsToComplete
    if s.internalLockFree ∧ (s.poa c.poa).nReqInThis = 0 then
      some ((s.completeObjectDeactivation c.objList).goOn t [.closing c .completed])
    else none
  | .completed =>
    if c.destroying then
      if s.pdLockFree c.poa then
        some ((s.setPoa c.poa { s.poa c.poa with destroyed := 1 }).goOn t
          [.closing c .etherealising])
      else none
    else if s.listed (ObjListHead.objList c.objList) ≠ [] then
      if c.etherealise then some (s.goOn t [.closing c .etherealising])
      else
        some ((s.abandon c.objList).goOn t (endOfClosing c))
    else some (s.goOn t (if c.didDetach then [.metDetachedObject c.poa] else []))
  | .etherealising =>
    if s.listed (ObjListHead.objList c.objList) = [] then some (s.goOn t (endOfClosing c)) else none

/-- The next step of the thread `t`. -/
def run (pol : ℕ → ServantPolicies) (s : ObjectTable) (t : ℕ) : PoaInstr → Option ObjectTable
  | .activate p e servant =>
    if s.pdLockFree p ∧ s.internalLockFree then
      -- throws OBJECT_NOT_EXIST or ServantAlreadyActive
      if (s.poa p).dying ∨ (!(pol p).multipleId && s.isActiveIn servant p) then
        some ((s.setDead e).goOn t [])
      else some ((s.setActive e servant p).goOn t [.insertActive p e])
    else none
  | .insertActive p e =>
    some (((s.call (.addRef e)).insertIntoOAObjList e p).goOn t [])
  | .detachBusy p => some ((s.detachedObject p).goOn t [])
  | .detachedObject p => some ((s.detachedObject p).goOn t [])
  | .findActivator p e =>
    if s.pdLockFree p then
      some (s.goOn t
        (if (pol p).reqProcessing = .servantManager ∧ (pol p).retainServants ∧
            (s.poa p).servantActivator then [.queueEtherealiser p e]
        else [.setDead e, .removeRef e, .metDetachedObject p]))
    else none
  | .queueEtherealiser p e =>
    -- the tasks of the queue may be carried out at any time, in any order
    if s.internalLockFree then
      some ((s.goOn t []).start [.etherealize e, .setDead e, .metDetachedObject p])
    else none
  | .setDead e => if s.internalLockFree then some ((s.setDead e).goOn t []) else none
  | .removeRef e => some ((s.call (.removeRef e)).goOn t [])
  | .metDetachedObject p => some ((s.metDetachedObject p).goOn t [])
  | .etherealize e => some ((s.call (.etherealize e)).goOn t [])
  | .endInvocation p e =>
    if s.internalLockFree then
      let x := s.entry e
      let s := (s.setEntry e { x with nInvocations := x.nInvocations - 1 }).leaveAdapter p
      if 0 < (s.entry e).nInvocations then some (s.goOn t [])
      else
        let c := s.lastInvocationHasCompleted p e
        some (c.1.goOn t c.2)
    else none
  | .takeActivator p e =>
    if s.pdLockFree p ∧ s.internalLockFree then
      -- throws OBJECT_NOT_EXIST or OBJ_ADAPTER
      if (s.poa p).dying ∨ !(s.poa p).servantActivator then
        some (((s.setDead e).leaveAdapter p).goOn t [])
      else some (s.goOn t [.incarnate p e])
    else none
  | .activateIncarnated p e servant =>
    if s.pdLockFree p ∧ s.internalLockFree then
      -- throws OBJ_ADAPTER
      if !(pol p).multipleId && s.isActiveIn servant p then
        some (((s.setDead e).leaveAdapter p).goOn t [])
      else
        let s := (s.setActive e servant p).insertIntoOAObjList e p
        if (s.poa p).dying then some (s.goOn t [.closeIncarnated p e])
        else some (((s.leaveAdapter p).startInvocation e p).goOn t [.endInvocation p e])
    else none
  | .closeIncarnated p e =>
    -- throws OBJECT_NOT_EXIST in the end
    some ((((s.setDeactivating e).removeFromOAObjList e).setEtherealising e).goOn t
      [.detachedObject p, .queueEtherealiser p e, .exitAdapter p])
  | .exitAdapter p => if s.internalLockFree then some ((s.leaveAdapter p).goOn t []) else none
  | .reRoot p etherealise =>
    if s.pdLockFree p then
      some ((s.reRootOAObjList p).goOn t
        [.closing ⟨p, s.nLists, etherealise, true, (s.poa p).servantActivator, false⟩ .taken])
    else none
  | .closing c phase => s.close t c phase
  | .waitForDetachedObjects p =>
    if (s.poa p).nDetachedObjects = 0 then some (s.goOn t []) else none
  | .destroyed p =>
    if s.pdLockFree p then some ((s.setPoa p { s.poa p with destroyed := 2 }).goOn t []) else none
  -- what comes of it is part of the step
  | .incarnate _ _ => none

end ObjectTable

/-- What may happen next. `run` is the next step of a thread, `incarnated` that `incarnate` returns a
servant, or none, or throws, and `etherealise` that `etherealise_objects` takes an entry. -/
inductive EntryAction where
  | activateObject (p servant : ℕ) (oid : List UInt8)
  | activateImplicitly (p servant : ℕ) (oid : List UInt8)
  | activateObjectWithId (p servant : ℕ) (oid : List UInt8)
  | deactivateObject (p : ℕ) (oid : List UInt8)
  | dispatch (e : ℕ)
  | dispatchToSa (p : ℕ) (oid : List UInt8)
  | dispatchToOther (p : ℕ)
  | setServantManager (p : ℕ)
  | pmDeactivate (p : ℕ) (etherealise : Bool)
  | destroy (p : ℕ) (etherealise : Bool)
  | run (t : ℕ)
  | incarnated (t : ℕ) (servant : Option ℕ)
  | etherealise (t e : ℕ)
  deriving DecidableEq, Repr

namespace ObjectTable

/-- A call that throws an exception changes nothing. -/
def orUnchanged (s : ObjectTable) : Except PoaException ObjectTable → ObjectTable
  | .ok s' => s'
  | .error _ => s

/-- One step. A call that has to wait is none. -/
def step (unique : Bool) (pol : ℕ → ServantPolicies) (s : ObjectTable) :
    EntryAction → Option ObjectTable
  | .activateObject p servant oid =>
    if s.pdLockFree p ∧ s.internalLockFree ∧ s.locate (p, oid) = none then
      some (s.orUnchanged (s.activateObject (pol p) p servant oid))
    else none
  | .activateImplicitly p servant oid =>
    if s.pdLockFree p ∧ s.internalLockFree ∧ s.locate (p, oid) = none then
      some (s.orUnchanged (s.activateImplicitly (pol p) p servant oid))
    else none
  | .activateObjectWithId p servant oid =>
    if s.internalLockFree then
      (s.activateObjectWithId unique (pol p) p servant oid).map s.orUnchanged
    else none
  | .deactivateObject p oid =>
    if s.pdLockFree p ∧ s.internalLockFree then
      some (s.orUnchanged (s.deactivateObject (pol p) p oid))
    else none
  | .dispatch e =>
    -- found by locateActive, or through a reference to the entry
    if s.internalLockFree ∧
        ((s.entry e).state.isIn (EntryState.active.bits ||| EntryState.deactivating.bits) ∨
          (s.entry e).servant.isSome ∧ ¬(s.entry e).deactivated) then
      (s.entry e).adapter.map fun p => (s.startInvocation e p).start [.endInvocation p e]
    else none
  | .dispatchToSa p oid =>
    if s.internalLockFree ∧ (pol p).reqProcessing = .servantManager ∧ (pol p).retainServants then
      s.dispatchToSa p oid
    else none
  | .dispatchToOther p =>
    -- to a default servant, or by a servant locator
    if s.internalLockFree then some ((s.enterAdapter p).start [.exitAdapter p]) else none
  | .setServantManager p =>
    if s.pdLockFree p then some (s.orUnchanged (s.setServantManager (pol p) p)) else none
  | .pmDeactivate p etherealise =>
    if s.pdLockFree p then some (s.pmDeactivate p etherealise) else none
  | .destroy p etherealise =>
    if s.pdLockFree p then some (s.orUnchanged (s.destroy p etherealise)) else none
  | .run t => (next s.threads t).bind (s.run pol t)
  | .incarnated t servant =>
    match next s.threads t with
    | some (.incarnate p e) =>
      match servant with
      | some servant => some (s.goOn t [.activateIncarnated p e servant])
      | none =>
        if s.internalLockFree then some (((s.setDead e).leaveAdapter p).goOn t []) else none
    | _ => none
  | .etherealise t e =>
    match next s.threads t with
    | some (.closing c .etherealising) =>
      if (s.entry e).oaObjList = some (.objList c.objList) then
        let r := s.etherealiseObject c e
        some (r.1.goOn t r.2)
      else none
    | _ => none

end ObjectTable

end OmniORB
