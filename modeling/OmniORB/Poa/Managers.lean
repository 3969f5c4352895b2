import OmniORB.Library.Transitions
import OmniORB.Poa.Trees

/-!
# POAs and their managers

`create_POA`, `attempt_to_activate_adapter` and `destroy` of `poa.cc`, and `poamanager.cc`. A step is
what a thread does without letting go of a lock. While an adapter activator runs, `poa_lock` is not
held.
-/

namespace OmniORB

open Library

/-- `PortableServer::POAManager::State` -/
inductive PmState where
  | holding
  | active
  | discarding
  | inactive
  deriving DecidableEq, Repr

/-- How far the destruction of a POA is. `stuck` is a POA that `lose_poa` did not find in its
manager: an exception ended `destroy`. -/
inductive PoaPhase where
  | alive
  | marked
  | discarded
  | left
  | stuck
  | gone
  deriving DecidableEq, Repr

/-- The part of `omniOrbPOA` that its manager knows of. -/
structure ManagedPoa where
  parent : Option ℕ
  name : CString
  manager : ℕ
  rqState : PmState
  phase : PoaPhase
  deriving DecidableEq

/-- `omniOrbPOAManager` -/
structure PoaManager where
  state : PmState
  poas : List ℕ
  deriving DecidableEq

/-- The POAs and managers that were made. `activating` are the entries of `pd_adptrActvtnsInProgress`
with their POA, and `running` the calls of adapter activators. A POA that
`attempt_to_activate_adapter` is going to attach is `attaching`; `poa_lock` is held meanwhile. -/
structure PoaSystem where
  nPoas : ℕ
  poa : ℕ → ManagedPoa
  nManagers : ℕ
  manager : ℕ → PoaManager
  activating : List (ℕ × CString)
  running : List (ℕ × CString)
  attaching : Option ℕ

/-- What comes of `unknown_adapter`. -/
inductive ActivatorOutcome where
  | created
  | notCreated
  | exception
  deriving DecidableEq, Repr

inductive PoaAction where
  | initialise
  | insPOA
  | createPOA (parent : ℕ) (name : CString) (manager : Option ℕ) (waited : Bool)
  | startActivation (parent : ℕ) (name : CString)
  | endActivation (parent : ℕ) (name : CString) (outcome : ActivatorOutcome)
  | attach
  | activate (m : ℕ)
  | holdRequests (m : ℕ)
  | discardRequests (m : ℕ)
  | deactivate (m : ℕ)
  | markDying (p : ℕ)
  | discardHeld (p : ℕ)
  | losePoa (p : ℕ)
  | finishDestroy (p : ℕ)

namespace PoaSystem

/-- Before the root POA. -/
def init : PoaSystem where
  nPoas := 0
  poa _ := ⟨none, CString.empty, 0, .holding, .gone⟩
  nManagers := 0
  manager _ := ⟨.holding, []⟩
  activating := []
  running := []
  attaching := none

def setPoa (s : PoaSystem) (p : ℕ) (r : ManagedPoa) : PoaSystem :=
  { s with poa := Function.update s.poa p r }

def setPhase (s : PoaSystem) (p : ℕ) (phase : PoaPhase) : PoaSystem :=
  s.setPoa p { s.poa p with phase }

/-- `new omniOrbPOAManager()` -/
def newManager (s : PoaSystem) : PoaSystem :=
  { s with
    nManagers := s.nManagers + 1
    manager := Function.update s.manager s.nManagers ⟨.holding, []⟩ }

/-- The constructor of `omniOrbPOA` and `insert_child`. -/
def newPoa (s : PoaSystem) (parent : Option ℕ) (name : CString) (manager : ℕ) : PoaSystem :=
  { s with
    nPoas := s.nPoas + 1
    poa := Function.update s.poa s.nPoas ⟨parent, name, manager, .holding, .alive⟩ }

/-- `find_child` -/
def findChild (s : PoaSystem) (parent : ℕ) (name : CString) : Option ℕ :=
  (List.range s.nPoas).find? fun p =>
    (s.poa p).phase ≠ .gone ∧ (s.poa p).parent = some parent ∧ (s.poa p).name = name

/-- `theRootPOA` -/
def rootPOA (s : PoaSystem) : Option ℕ :=
  (List.range s.nPoas).find? fun p => (s.poa p).phase ≠ .gone ∧ (s.poa p).parent = none

/-- `gain_poa` -/
def gainPoa (s : PoaSystem) (p : ℕ) : PoaSystem :=
  let m := (s.poa p).manager
  let s := { s with
    manager := Function.update s.manager m
      { s.manager m with poas := (s.manager m).poas ++ [p] } }
  if (s.manager m).state = .holding then s
  else s.setPoa p { s.poa p with rqState := (s.manager m).state }

/-- `lose_poa`: a POA that the manager does not own is stuck. -/
def losePoa (s : PoaSystem) (p : ℕ) : PoaSystem :=
  let m := (s.poa p).manager
  if p ∈ (s.manager m).poas then
    { s.setPhase p .left with
      manager := Function.update s.manager m
        { s.manager m with poas := (s.manager m).poas.erase p } }
  else s.setPhase p .stuck

/-- The manager changes its state, and that of its POAs. -/
def changeState (s : PoaSystem) (m : ℕ) (st : PmState) : PoaSystem :=
  { s with
    manager := Function.update s.manager m { s.manager m with state := st }
    poa := fun p =>
      if p ∈ (s.manager m).poas then { s.poa p with rqState := st } else s.poa p }

/-- A change of the manager's state is refused if it is inactive, and does nothing if the state is
the same. -/
def changeStateTo (s : PoaSystem) (m : ℕ) (st : PmState) : Option PoaSystem :=
  if m < s.nManagers ∧ (s.manager m).state ≠ .inactive ∧ (s.manager m).state ≠ st then
    some (s.changeState m st)
  else none

/-- The manager of a new POA: one that there is, or a new one. -/
def chooseManager (s : PoaSystem) : Option ℕ → PoaSystem × ℕ
  | some m => (s, m)
  | none => (s.newManager, s.nManagers)

/-- One step. A call that is refused, or has to wait, is none.

Once `create_POA` has `waited` for an old child of the name, it does not look again whether the
parent is being destroyed. `find_POA` starts an activation only if there is no child of the name, or
one that is being destroyed; `getAdapter`, if its search does not find another. -/
def step (s : PoaSystem) : PoaAction → Option PoaSystem
  | .initialise =>
    if s.attaching = none ∧ s.rootPOA = none then
      some ((s.newManager.newPoa none rootPoaName s.nManagers).gainPoa s.nPoas)
    else none
  | .insPOA =>
    s.rootPOA.bind fun r =>
      if s.attaching = none ∧ (s.poa r).phase = .alive ∧ s.findChild r insPoaName = none then
        some ((s.newManager.newPoa (some r) insPoaName s.nManagers).gainPoa s.nPoas)
      else none
  | .createPOA parent name manager waited =>
    if s.attaching = none ∧ parent < s.nPoas ∧ (waited ∨ (s.poa parent).phase = .alive) ∧
        adapterNameIsValid name ∧ s.findChild parent name = none ∧
        (∀ m ∈ manager, m < s.nManagers) then
      let c := s.chooseManager manager
      let s' := c.1.newPoa (some parent) name c.2
      some (if (parent, name) ∈ s.activating then s' else s'.gainPoa s.nPoas)
    else none
  | .startActivation parent name =>
    if s.attaching = none ∧ parent < s.nPoas ∧ (s.poa parent).phase ≠ .gone ∧
        (parent, name) ∉ s.activating then
      some { s with
        activating := s.activating ++ [(parent, name)]
        running := (parent, name) :: s.running }
    else none
  | .endActivation parent name outcome =>
    if s.attaching = none ∧ (parent, name) ∈ s.running then
      match outcome with
      | .exception => some { s with running := s.running.erase (parent, name) }
      | .notCreated =>
        some { s with
          running := s.running.erase (parent, name)
          activating := s.activating.erase (parent, name) }
      | .created =>
        some { s with
          running := s.running.erase (parent, name)
          activating := s.activating.erase (parent, name)
          attaching := s.findChild parent name }
    else none
  | .attach => s.attaching.map fun p => { s with attaching := none }.gainPoa p
  | .activate m => s.changeStateTo m .active
  | .holdRequests m => s.changeStateTo m .holding
  | .discardRequests m => s.changeStateTo m .discarding
  | .deactivate m => s.changeStateTo m .inactive
  | .markDying p =>
    if p < s.nPoas ∧ (s.poa p).phase = .alive then some (s.setPhase p .marked) else none
  | .discardHeld p =>
    if p < s.nPoas ∧ (s.poa p).phase = .marked then
      some (s.setPoa p { s.poa p with
        rqState := if (s.poa p).rqState = .holding then .discarding else (s.poa p).rqState
        phase := .discarded })
    else none
  | .losePoa p =>
    if p < s.nPoas ∧ (s.poa p).phase = .discarded then some (s.losePoa p) else none
  | .finishDestroy p =>
    if s.attaching = none ∧ p < s.nPoas ∧ (s.poa p).phase = .left ∧
        (∀ c < s.nPoas, (s.poa c).parent = some p → (s.poa c).phase = .gone) then
      some (s.setPoa p { s.poa p with rqState := .inactive, phase := .gone })
    else none

end PoaSystem

end OmniORB
