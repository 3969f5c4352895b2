import OmniORB.Library.Transitions
import OmniORB.Rope.Addresses

/-!
# Calls that fail over

Calls on a rope whose strands break: a call takes a strand, reports the failure of the strand to the
rope, and goes on with the next address. Where the lock is released, other calls go on.
-/

namespace OmniORB.FailOver

open Library

instance : Inhabited GiopAddress := ⟨⟨0, [colon], [], none, by decide⟩⟩

/-- What a strand of the rope has to do with failures. -/
structure GiopStrand where
  address : GiopAddress
  firstUse : Bool
  orderlyClosed : Bool
  dying : Bool
  isBiDir : Bool
  hasCallbacks : Bool
deriving Inhabited

/-- Where a call is between two of the places where it has the lock. `failed` is the end of
`GIOP_C::notifyCommFailure`, before the strand is made to die. -/
inductive Phase
  | done
  | out
  | filtering
  | choosing
  | running (k : ℕ)
  | reporting (k : ℕ)
  | resetting (k : ℕ) (retry : Bool)
  | failed (k : ℕ) (retry : Bool)
deriving DecidableEq

/-- The strand that the call has. -/
def Phase.strand : Phase → Option ℕ
  | running k => some k
  | reporting k => some k
  | resetting k _ => some k
  | failed k _ => some k
  | _ => none

/-- A call, with the addresses in its descriptor; and those it has tried. -/
structure Call where
  phase : Phase
  firstAddressUsed : Option GiopAddress
  currentAddress : Option GiopAddress
  tried : List GiopAddress

def Call.ended : Call := ⟨.done, none, none, []⟩

/-- The descriptor has the address. -/
def Call.Holds (x : Call) (a : GiopAddress) : Prop :=
  x.firstAddressUsed = some a ∨ x.currentAddress = some a

/-- A rope with its strands and calls. `todo` and `resolved` are variables of the call that filters;
`solo` is the call that has run alone from its start; and what has happened so far is whether an
index was used that was not valid, which addresses have been deleted, and what a call that ran alone
had tried, with the acceptable addresses, when it had run out of them. -/
structure World where
  rope : Rope
  nextObject : ℕ
  todo : List GiopAddress
  resolved : List GiopAddress
  strands : List ℕ
  strand : ℕ → GiopStrand
  nextStrand : ℕ
  call : ℕ → Call
  invoked : List ℕ
  solo : Option ℕ
  stray : Bool
  freed : List GiopAddress
  exhausted : List (List GiopAddress × List GiopAddress)

/-- What `acquireClient` gives: a client of a strand that there is, or of a new one. If there is no
address for that, a handler of the exception may have the call tried again. -/
inductive Choice
  | take (k : ℕ)
  | create (handled : Bool)

/-- A step of a call, of the scavenger or of a connection. A failure is final if it is a timeout or
the call may have been completed; a handler may have it tried again for all that. -/
inductive Event
  | invoke (c : ℕ)
  | acquire (c : ℕ)
  | resolve (c : ℕ) (answers : List Text)
  | choose (c : ℕ) (choice : Choice)
  | complete (c : ℕ)
  | fail (c : ℕ)
  | report (c : ℕ)
  | reset (c : ℕ)
  | raise (c : ℕ) (final handled : Bool)
  | abandon (c : ℕ)
  | close (k : ℕ)
  | die (k : ℕ)
  | biDir (k : ℕ) (callbacks : Bool)
  | scavenge (k : ℕ)
  | idle

/-- The addresses of a rope are duplicates of those of the reference. -/
def duplicates (l : List GiopAddress) : List GiopAddress := l.mapIdx fun i a => { a with object := i }

namespace World

/-- A rope for a reference, before the first call. -/
def start (addresses : List GiopAddress) (iorCompression : Bool) : World where
  rope := .new (duplicates addresses) iorCompression
  nextObject := addresses.length
  todo := []
  resolved := []
  strands := []
  strand := default
  nextStrand := 0
  call := fun _ => .ended
  invoked := []
  solo := none
  stray := false
  freed := []
  exhausted := []

def setCall (w : World) (c : ℕ) (x : Call) : World := { w with call := Function.update w.call c x }

def setPhase (w : World) (c : ℕ) (p : Phase) : World := w.setCall c { w.call c with phase := p }

def setStrand (w : World) (k : ℕ) (s : GiopStrand) : World :=
  { w with strand := Function.update w.strand k s }

/-- The addresses of the strands but for one. -/
def held (w : World) (k : Option ℕ) : List GiopAddress :=
  (w.strands.filter (some · ≠ k)).map fun j => (w.strand j).address

/-- What `resetAddressOrder` deletes. -/
def deletes (par : OrbParameters) (w : World) (k : Option ℕ) : List GiopAddress :=
  (w.rope.resetAddressOrder par (w.held k)).2

def resetAddressOrder (par : OrbParameters) (w : World) (k : Option ℕ) : World :=
  { w with
    rope := (w.rope.resetAddressOrder par (w.held k)).1
    freed := w.freed ++ w.deletes par k }

/-- No call is in progress, and no strand can be taken. -/
def isQuiet (w : World) : Bool :=
  w.strands.all (fun k => (w.strand k).dying) && w.invoked.all fun c => (w.call c).phase = .done

/-- A call has run out of addresses. -/
def exhaust (par : OrbParameters) (w : World) (c : ℕ) : World :=
  if w.solo = some c then
    { w with exhausted := w.exhausted ++
      [((w.call c).tried, w.rope.addresses.filter fun a => a.accepted par)] }
  else w

/-- Once all names have been resolved the addresses are sorted. -/
def sortIfResolved (par : OrbParameters) (w : World) (c : ℕ) : World :=
  match w.todo with
  | [] =>
    { w with
      rope := w.rope.filterAndSortAddressList par w.resolved
      resolved := [] }.setPhase c .choosing
  | _ :: _ => w

/-- The name of the next address has been resolved. -/
def addAnswers (par : OrbParameters) (w : World) (a : GiopAddress) (rest : List GiopAddress)
    (answers : List Text) : World :=
  { w with
    todo := rest
    resolved := w.resolved ++ answers.mapIdx fun i => a.duplicate par (w.nextObject + i)
    nextObject := w.nextObject + answers.length }

/-- A new strand to the address in use, with a client for the call. -/
def newStrand (w : World) (c : ℕ) (a : GiopAddress) : World :=
  { w with
    strands := w.nextStrand :: w.strands
    strand := Function.update w.strand w.nextStrand ⟨a, true, false, false, false, false⟩
    nextStrand := w.nextStrand + 1 }.setCall c
      { w.call c with phase := .running w.nextStrand, tried := (w.call c).tried ++ [a] }

/-- Another call than `c` has a client of the strand. -/
def isShared (w : World) (c k : ℕ) : Bool :=
  w.invoked.any fun c' => c' ≠ c && (w.call c').phase.strand = some k

/-- The call gives its client back. A strand that dies is deleted with its last client. -/
def releaseClient (w : World) (c k : ℕ) (x : Call) : World :=
  { w with
    strands :=
      if (w.strand k).dying && !(w.strand k).isBiDir && !w.isShared c k then w.strands.erase k
      else w.strands }.setCall c x

/-- The first part of `GIOP_C::notifyCommFailure`, up to what it asks of the rope. -/
def fail (par : OrbParameters) (w : World) (c k : ℕ) : World :=
  let s := w.strand k
  if s.firstUse || par.immediateRopeSwitch then
    let x := if (w.call c).firstAddressUsed.any w.rope.hasAddress then w.call c
      else { w.call c with firstAddressUsed := some s.address, currentAddress := some s.address }
    w.setCall c { x with
      phase := if s.orderlyClosed && !par.immediateRopeSwitch then .failed k true else .reporting k }
  else if s.hasCallbacks then w.setPhase c (.failed k false)
  else w.setPhase c (.resetting k true)

/-- The rope is asked for the next address. -/
def report (par : OrbParameters) (w : World) (c k : ℕ) : World :=
  match w.rope.notifyCommFailure (w.call c).currentAddress with
  | none => { w with stray := true }
  | some (r, a) =>
    if (w.call c).firstAddressUsed = some a then
      { (w.exhaust par c) with rope := r }.setCall c
        { w.call c with phase := .resetting k false, currentAddress := some a }
    else
      { w with rope := r }.setCall c
        { w.call c with phase := .failed k true, currentAddress := some a }

/-- The last part, where the order is reset. -/
def reset (par : OrbParameters) (w : World) (c k : ℕ) (retry : Bool) : World :=
  (w.resetAddressOrder par (some k)).setCall c
    (if retry then { w.call c with phase := .failed k true }
    else { w.call c with
      phase := .failed k false, firstAddressUsed := none, currentAddress := none })

def step (par : OrbParameters) (w : World) : Event → Option World
  | .invoke c =>
    if (w.call c).phase = .done then
      some ({ w with
        invoked := c :: w.invoked
        solo := if w.isQuiet then some c else none }.setCall c ⟨.out, none, none, []⟩)
    else none
  | .acquire c =>
    if (w.call c).phase = .out then
      if w.rope.filtered then some (w.setPhase c .choosing)
      else if w.rope.filtering then none
      else some (sortIfResolved par
        ({ w with
          rope := { w.rope with filtering := true }
          todo := w.rope.names par
          resolved := [] }.setPhase c .filtering) c)
    else none
  | .resolve c answers =>
    if (w.call c).phase = .filtering then
      match w.todo with
      | [] => none
      | a :: rest => some ((w.addAnswers par a rest answers).sortIfResolved par c)
    else none
  | .choose c (.take k) =>
    if (w.call c).phase = .choosing ∧ k ∈ w.strands ∧ (w.strand k).dying = false then
      some (w.setPhase c (.running k))
    else none
  | .choose c (.create handled) =>
    if (w.call c).phase = .choosing then
      if w.rope.order = [] then
        some (((w.exhaust par c).resetAddressOrder par none).setCall c
          (if handled then { w.call c with phase := .out } else .ended))
      else match w.rope.current with
        | none => some { w with stray := true }
        | some a => some (w.newStrand c a)
    else none
  | .complete c =>
    match (w.call c).phase with
    | .running k => some ((w.setStrand k { w.strand k with firstUse := false }).releaseClient c k
        .ended)
    | _ => none
  | .fail c =>
    match (w.call c).phase with
    | .running k => some (w.fail par c k)
    | _ => none
  | .report c =>
    match (w.call c).phase with
    | .reporting k => some (w.report par c k)
    | _ => none
  | .reset c =>
    match (w.call c).phase with
    | .resetting k retry => some (w.reset par c k retry)
    | _ => none
  | .raise c final handled =>
    match (w.call c).phase with
    | .failed k retry =>
      let w' := (w.setStrand k { w.strand k with dying := true }).releaseClient c k
        (if (retry && !final) || handled then { w.call c with phase := .out } else .ended)
      some (if retry && !final then w' else { w' with solo := none })
    | _ => none
  | .abandon c =>
    if (w.call c).phase = .out ∨ (w.call c).phase = .choosing then some (w.setCall c .ended) else none
  | .close k =>
    some ({ w with solo := none }.setStrand k
      { w.strand k with dying := true, orderlyClosed := true })
  | .die k => some (w.setStrand k { w.strand k with dying := true })
  | .biDir k callbacks =>
    some (w.setStrand k { w.strand k with isBiDir := true, hasCallbacks := callbacks })
  | .scavenge k =>
    if w.invoked.all fun c => (w.call c).phase.strand ≠ some k then
      some { w with strands := w.strands.erase k }
    else none
  | .idle =>
    if par.retainAddressOrder then some w
    else if w.rope.filtered ∧ w.strands = [] then
      some { w.resetAddressOrder par none with solo := none }
    else some w

/-! ### What is claimed -/

/-- A call on the strand is past the report of its failure. -/
def HasFailed (w : World) (c k : ℕ) : Prop := ∃ retry, (w.call c).phase = .failed k retry

/-- The strand is broken, and whoever has it knows. -/
def IsSpent (w : World) (k : ℕ) : Prop :=
  ((w.strand k).dying = true ∨ ∃ c, w.HasFailed c k) ∧
    ∀ c, (w.call c).phase.strand = some k → w.HasFailed c k

/-- The order is what it should be, no index was used that was not valid, no address has been deleted
that a call or a strand still uses, and a call that ran alone tried each acceptable address once. -/
structure Kept (par : OrbParameters) (w : World) : Prop where
  sorted : w.rope.filtered = true → Sorted par w.rope.addresses w.rope.order
  index : w.stray = false
  calls : ∀ c a, (w.call c).Holds a → a ∉ w.freed
  strands : ∀ k ∈ w.strands, (w.strand k).address ∈ w.freed → w.IsSpent k
  alone : ∀ e ∈ w.exhausted, e.1.Perm e.2

/-- A reset may be made if no call has one of the addresses that it deletes in its descriptor. -/
def NotHeld (w : World) (deleted : List GiopAddress) (except : Option ℕ) : Prop :=
  ∀ a ∈ deleted, ∀ c, some c ≠ except → ¬ (w.call c).Holds a

/-- When a failure is reported there is an order. What a reset deletes is not in the descriptor of
another call, nor of the call itself if it goes on; and if it is the address of the strand then no
other call on that has yet to fail. No call takes a strand on which another has failed and whose
address the rope no longer has. -/
def Ok (par : OrbParameters) (w : World) : Event → Prop
  | .choose _ (.take k) =>
    (∃ c, w.HasFailed c k) → (w.strand k).address ∈ w.rope.addresses ++ w.rope.dead
  | .choose _ (.create _) => w.rope.order = [] → w.NotHeld (w.deletes par none) none
  | .report _ => w.rope.order ≠ []
  | .reset c => ∀ k retry, (w.call c).phase = .resetting k retry →
    w.NotHeld (w.deletes par (some k)) (if retry then none else some c) ∧
      ((w.strand k).address ∈ w.deletes par (some k) →
        ∀ c' ≠ c, (w.call c').phase.strand = some k → w.HasFailed c' k)
  | .idle => w.NotHeld (w.deletes par none) none
  | _ => True

end World

end OmniORB.FailOver
