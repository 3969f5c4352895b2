import OmniORB.CodeSets.Negotiation
import OmniORB.Library.Slots
import OmniORB.Library.Transitions

/-!
# The connections of a client

`giopRope` with its strands and the callers that use them (`giopRope.cc`), and what the scavenger does
to the strands (`giopStrand.cc`). The rope is not bidirectional. A step is what a thread does while it
holds `omniTransportLock`.
-/

namespace OmniORB

open Library

/-- `giopStrand::State` -/
inductive StrandState where
  | active
  | dying
  | timedout
  deriving DecidableEq, Repr

/-- `GIOP_C`, by its number on its strand. It is `used` if its state is not `UnUsed`. -/
structure GIOPClient where
  id : ℕ
  used : Bool
  deriving DecidableEq, Repr

/-- A `giopStrand` of a client. `nClients` is how many `GIOP_C` were attached to it. -/
structure ClientStrand where
  version : GIOPVersion
  state : StrandState
  idlebeats : ℤ
  clients : List GIOPClient
  nClients : ℕ
  deriving DecidableEq, Repr

/-- Where a thread is that has called `acquireClient` and does not hold `omniTransportLock`. -/
inductive CallerPhase where
  -- in filterAndSortAddressList
  | filtering
  -- it waits for the one that is, or for a strand
  | filterWait (woken : Bool)
  | waiting (woken : Bool)
  -- it uses the `GIOP_C` `g` of the strand `k`
  | calling (k g : ℕ)
  -- releaseClient returned or acquireClient threw an exception; or the thread holds the lock
  | done
  deriving DecidableEq, Repr

structure RopeCaller where
  version : GIOPVersion
  phase : CallerPhase
  deriving DecidableEq, Repr

/-- What a rope is configured with. `holdOpen` is `GIOPSTRAND_HOLD_OPEN` in `pd_flags`. -/
structure RopeParameters where
  maxStrands : ℕ
  oneCallPerConnection : Bool
  retainAddressOrder : Bool
  idleOutgoingBeats : ℕ
  holdOpen : Bool
  deriving DecidableEq, Repr

/-- `giopRope`. `hasAddress` says that `pd_addresses_order` is not empty. The lists `active`,
`activeTimedout` and `passive` are those of all strands, as far as the strands of the rope are in
them. `failed` says that an `OMNIORB_ASSERT` was false. -/
structure GIOPRope where
  refcount : ℕ
  deleted : Bool
  nwaiting : ℕ
  addrsFiltered : Bool
  filtering : Bool
  hasAddress : Bool
  strands : List ℕ
  nStrands : ℕ
  strand : ℕ → ClientStrand
  active : List ℕ
  activeTimedout : List ℕ
  passive : List ℕ
  callers : List RopeCaller
  failed : Bool

namespace ClientStrand

def isDying (x : ClientStrand) : Bool := x.state = .dying

/-- The strand may be used for calls of the version. -/
def isLive (v : GIOPVersion) (x : ClientStrand) : Bool := !x.isDying && x.version = v

/-- Each `GIOP_C` is used, and there is one. -/
def isBusy (v : GIOPVersion) (x : ClientStrand) : Bool :=
  x.isLive v && x.clients.all GIOPClient.used && !x.clients.isEmpty

def isIdle (v : GIOPVersion) (x : ClientStrand) : Bool := x.isLive v && !x.isBusy v

def startIdleCounter (par : RopeParameters) (x : ClientStrand) : ClientStrand :=
  if 0 ≤ x.idlebeats then x
  else if par.holdOpen then { x with idlebeats := -1 }
  else { x with idlebeats := if par.idleOutgoingBeats ≠ 0 then par.idleOutgoingBeats else -1 }

def stopIdleCounter (x : ClientStrand) : ClientStrand :=
  if x.idlebeats = 0 then x else { x with idlebeats := -1 }

/-- A new `GIOP_C`, which is initialised for a call. -/
def newClient (x : ClientStrand) : ClientStrand :=
  { x.stopIdleCounter with clients := x.clients ++ [⟨x.nClients, true⟩], nClients := x.nClients + 1 }

/-- A `GIOP_C` that was not used is initialised for a call. -/
def useClient (x : ClientStrand) (g : ℕ) : ClientStrand :=
  { x.stopIdleCounter with
    clients := x.clients.map fun c => if c.id = g then { c with used := true } else c }

end ClientStrand

/-- The thread waits on `pd_cond`. -/
def RopeCaller.sleeps (c : RopeCaller) : Bool := c.phase = .filterWait false ∨ c.phase = .waiting false

/-- `pd_cond` has been signalled for the thread. -/
def RopeCaller.wake (c : RopeCaller) : RopeCaller :=
  match c.phase with
  | .filterWait _ => { c with phase := .filterWait true }
  | .waiting _ => { c with phase := .waiting true }
  | _ => c

/-- No thread. -/
def RopeCaller.blank : RopeCaller := ⟨.giop10, .done⟩

namespace GIOPRope

/-- The constructor. -/
def new : GIOPRope where
  refcount := 0
  deleted := false
  nwaiting := 0
  addrsFiltered := false
  filtering := false
  hasAddress := false
  strands := []
  nStrands := 0
  strand _ := ⟨.giop10, .dying, -1, [], 0⟩
  active := []
  activeTimedout := []
  passive := []
  callers := []
  failed := false

/-- `OMNIORB_ASSERT` -/
def assert (s : GIOPRope) (cond : Prop) [Decidable cond] : GIOPRope :=
  { s with failed := s.failed || !decide cond }

def caller (s : GIOPRope) (t : ℕ) : RopeCaller := s.callers.getD t .blank

/-- A thread calls `acquireClient`. -/
def newCaller (s : GIOPRope) (v : GIOPVersion) : GIOPRope :=
  { s with callers := s.callers ++ [⟨v, .done⟩] }

def setPhase (s : GIOPRope) (t : ℕ) (phase : CallerPhase) : GIOPRope :=
  { s with callers := s.callers.set t { s.caller t with phase } }

def setStrand (s : GIOPRope) (k : ℕ) (x : ClientStrand) : GIOPRope :=
  { s with strand := Function.update s.strand k x }

def countStrands (s : GIOPRope) (f : ClientStrand → Bool) : ℕ := s.strands.countP fun k => f (s.strand k)

/-! ### The lists of strands -/

/-- `StrandList::remove` -/
def removeFromStrandList (s : GIOPRope) (k : ℕ) : GIOPRope :=
  { s with
    active := s.active.erase k
    activeTimedout := s.activeTimedout.erase k
    passive := s.passive.erase k }

/-- The strand is active once more. -/
def reactivate (s : GIOPRope) (k : ℕ) : GIOPRope :=
  let s := (s.removeFromStrandList k).setStrand k { s.strand k with state := .active }
  { s with active := s.active ++ [k] }

/-- The strand is put into the list `active_timedout`. -/
def retire (s : GIOPRope) (k : ℕ) : GIOPRope :=
  let s := (s.removeFromStrandList k).setStrand k { s.strand k with state := .timedout }
  { s with activeTimedout := s.activeTimedout ++ [k] }

/-- The strand leaves all lists, and the rope. -/
def removeStrand (s : GIOPRope) (k : ℕ) : GIOPRope :=
  { s.removeFromStrandList k with strands := s.strands.erase k }

/-! ### acquireClient -/

def resetAddressOrder (par : RopeParameters) (s : GIOPRope) : GIOPRope :=
  if par.retainAddressOrder || !s.addrsFiltered || s.filtering then s
  else { s with hasAddress := false, addrsFiltered := false }

/-- The first strand, of those in the list, that is idle. Those that timed out before it are
reactivated. -/
def findIdle (v : GIOPVersion) : List ℕ → GIOPRope → GIOPRope × Option ℕ
  | [], s => (s, none)
  | k :: l, s =>
    match (s.strand k).state with
    | .dying => findIdle v l s
    | state =>
      let s := if state = .timedout then s.reactivate k else s
      if (s.strand k).isIdle v then (s, some k) else findIdle v l s

/-- The thread gets a new `GIOP_C` of the strand. -/
def giveNew (s : GIOPRope) (t k : ℕ) : GIOPRope :=
  (s.setStrand k (s.strand k).newClient).setPhase t (.calling k (s.strand k).nClients)

/-- The thread gets the `GIOP_C` of the strand that is not used, or a new one if there is none. -/
def give (s : GIOPRope) (t k : ℕ) : GIOPRope :=
  match (s.strand k).clients.find? fun c => !c.used with
  | some c => (s.setStrand k ((s.strand k).useClient c.id)).setPhase t (.calling k c.id)
  | none => s.giveNew t k

/-- A new strand. -/
def newStrand (s : GIOPRope) (v : GIOPVersion) : GIOPRope :=
  { s.setStrand s.nStrands ⟨v, .active, -1, [], 0⟩ with
    strands := s.strands ++ [s.nStrands]
    active := s.active ++ [s.nStrands]
    nStrands := s.nStrands + 1 }

/-- The strands that may be shared. -/
def sharable (s : GIOPRope) (v : GIOPVersion) : List ℕ :=
  s.strands.filter fun k => (s.strand k).state = .active ∧ (s.strand k).version = v

/-- `acquireClient` from the label `again`, until it returns, throws an exception or waits. -/
def allocate (par : RopeParameters) (s : GIOPRope) (t rand : ℕ) : GIOPRope :=
  let v := (s.caller t).version
  let r := findIdle v s.strands s
  match r with
  | (s, some k) => s.give t k
  | (s, none) =>
    let nbusy := s.countStrands (·.isBusy v)
    let ndying := s.countStrands ClientStrand.isDying
    if nbusy + ndying < par.maxStrands then
      if !s.hasAddress then (s.resetAddressOrder par).setPhase t .done
      else (s.newStrand v).giveNew t s.nStrands
    else if par.oneCallPerConnection || par.maxStrands ≤ ndying then
      { s with nwaiting := s.nwaiting + 1 }.setPhase t (.waiting false)
    else
      let s := s.assert (0 < nbusy)
      match ((s.sharable v)[rand % nbusy]?).or (s.sharable v).head? with
      | some k => s.giveNew t k
      | none => s

/-- `acquireClient`, from where it looks whether the addresses are filtered. -/
def enter (par : RopeParameters) (s : GIOPRope) (t rand : ℕ) : GIOPRope :=
  if s.addrsFiltered then s.allocate par t rand
  else if s.filtering then s.setPhase t (.filterWait false)
  else { s with filtering := true }.setPhase t .filtering

/-- The addresses have been filtered, and perhaps some are left. -/
def filtered (par : RopeParameters) (s : GIOPRope) (t : ℕ) (hasAddress : Bool) (rand : ℕ) : GIOPRope :=
  { s with
    filtering := false
    addrsFiltered := true
    hasAddress
    callers := s.callers.map RopeCaller.wake }.setPhase t .done |>.allocate par t rand

/-- A thread that waited goes on. -/
def resume (par : RopeParameters) (s : GIOPRope) (t rand : ℕ) : Option GIOPRope :=
  match (s.caller t).phase with
  | .filterWait true =>
    some (if s.filtering then s.setPhase t (.filterWait false)
      else (s.setPhase t .done).enter par t rand)
  | .waiting true =>
    some (({ s with nwaiting := s.nwaiting - 1 }.setPhase t .done).allocate par t rand)
  | _ => none

/-! ### releaseClient -/

/-- `pd_cond.signal` may wake this thread, or none if none waits. -/
def MayWake (s : GIOPRope) : Option ℕ → Prop
  | some t => (s.caller t).sleeps = true
  | none => ∀ c ∈ s.callers, c.sleeps = false

instance (s : GIOPRope) (w : Option ℕ) : Decidable (s.MayWake w) := by
  cases w
  · exact inferInstanceAs (Decidable (∀ c ∈ s.callers, c.sleeps = false))
  · exact inferInstanceAs (Decidable (_ = true))

/-- `pd_cond.signal` -/
def signal (s : GIOPRope) : Option ℕ → GIOPRope
  | some t => { s with callers := s.callers.set t (s.caller t).wake }
  | none => s

/-- What `releaseClient` does with the `GIOP_C` and the strand, and whether it makes it available to
other threads. The state of the `GIOP_C` is `Idle`, or there was an error. -/
def detach (par : RopeParameters) (s : GIOPRope) (k g : ℕ) (idle : Bool) : GIOPRope × Bool :=
  let x := s.strand k
  let clients := x.clients.filter fun c => c.id ≠ g
  let state := if idle then x.state else .dying
  if state = .dying then
    let s := s.setStrand k { x with clients, state }
    -- safeDelete
    (if clients = [] then s.removeStrand k else s, true)
  else if clients ≠ [] then (s.setStrand k { x with clients }, false)
  else (s.setStrand k ({ x with clients := [⟨g, false⟩] }.startIdleCounter par), true)

def releaseClient (par : RopeParameters) (s : GIOPRope) (t : ℕ) (idle : Bool) (w : Option ℕ) :
    Option GIOPRope :=
  match (s.caller t).phase with
  | .calling k g =>
    let r := s.detach par k g idle
    let s := r.1.setPhase t .done
    if r.2 ∧ 0 < s.nwaiting then if s.MayWake w then some (s.signal w) else none
    else if w = none then some s else none
  | _ => none

/-! ### References -/

def realIncrRefCount (s : GIOPRope) : GIOPRope :=
  let s := if s.refcount = 0 then
    s.strands.foldl (fun s k => if (s.strand k).isDying then s else s.reactivate k) s else s
  { s with refcount := s.refcount + 1 }

def decrRefCount (s : GIOPRope) : GIOPRope :=
  let s := { s with refcount := s.refcount - 1 }
  if s.refcount ≠ 0 then s
  else if s.strands = [] ∧ s.nwaiting = 0 then { s with deleted := true }
  else s.strands.foldl (fun s k => if (s.strand k).isDying then s else s.retire k) s

/-! ### The scavenger -/

/-- `Scavenger::removeIdle` -/
def removeIdle (s : GIOPRope) (src : List ℕ) : GIOPRope :=
  src.foldl (fun s k =>
    let x := s.strand k
    if 0 ≤ x.idlebeats then
      let s := s.setStrand k { x with idlebeats := x.idlebeats - 1 }
      if x.idlebeats - 1 ≤ 0 then s.removeStrand k else s
    else s) s

def scavenge (s : GIOPRope) : GIOPRope :=
  let s := s.removeIdle s.activeTimedout
  s.removeIdle s.active

end GIOPRope

/-- What may happen next. `acquireClient` is called by a thread that has a reference to the rope, and
`filtered`, `resume`, `timeout` and `releaseClient` are about a thread that has called it.
`setDying` is the failure of a strand, or its forced disconnection. `selectRope` looks for a rope with
other addresses. -/
inductive RopeAction where
  | acquireClient (v : GIOPVersion) (rand : ℕ)
  | filtered (t : ℕ) (hasAddress : Bool) (rand : ℕ)
  | resume (t rand : ℕ)
  | timeout (t : ℕ)
  | releaseClient (t : ℕ) (idle : Bool) (w : Option ℕ)
  | setDying (k : ℕ)
  | resetAddressOrder
  | incrRefCount
  | decrRefCount
  | selectRope
  | scavenge
  deriving DecidableEq, Repr

namespace GIOPRope

/-- One step. A thread keeps a reference to the rope while it is in a call. -/
def step (par : RopeParameters) (s : GIOPRope) (a : RopeAction) : Option GIOPRope :=
  if s.deleted then none
  else
    match a with
    | .acquireClient v rand =>
      if s.refcount = 0 then none
      else some ((s.newCaller v).enter par s.callers.length rand)
    | .filtered t hasAddress rand =>
      if (s.caller t).phase = .filtering then some (s.filtered par t hasAddress rand) else none
    | .resume t rand => s.resume par t rand
    | .timeout t =>
      if (s.caller t).phase = .waiting false then
        some ({ s with nwaiting := s.nwaiting - 1 }.setPhase t .done)
      else none
    | .releaseClient t idle w => s.releaseClient par t idle w
    | .setDying k =>
      if k ∈ s.strands then some (s.setStrand k { s.strand k with state := .dying }) else none
    | .resetAddressOrder => some (s.resetAddressOrder par)
    | .incrRefCount => some s.realIncrRefCount
    | .decrRefCount =>
      if s.refcount = 0 ∨ s.refcount = 1 ∧ ∃ c ∈ s.callers, c.phase ≠ .done then none
      else some s.decrRefCount
    | .selectRope =>
      if s.refcount = 0 ∧ s.strands = [] ∧ s.nwaiting = 0 then some { s with deleted := true }
      else some s
    | .scavenge => some s.scavenge

end GIOPRope

end OmniORB
