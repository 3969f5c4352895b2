import OmniORB.Giop.Framing
import OmniORB.Giop.Input12

/-!
# Runs of the calls of a strand

What the threads that use a strand do to it, one action after the other: the methods of `GIOP_C`
and `GIOP_S` around the reading of messages, and acquiring and releasing them. An action that has to
wait, or that the state of the call does not allow, is not enabled. Only what changes the data that
reading uses is kept of these methods.
-/

namespace OmniORB

open Library

inductive Action where
  | acquireClient
  | sendRequest (g : Ref)
  | receiveReply (g : Ref) (locate : Bool) (header : List ReadOp)
  | requestCompleted (g : Ref) (skip : Bool)
  | releaseClient (g : Ref)
  | acquireServer
  | dispatch (g : Ref) (header : List ReadOp)
  | receiveRequest (g : Ref) (skip : Bool)
  | skipRequestBody (g : Ref)
  | releaseServer (g : Ref)
  | read (g : Ref) (op : ReadOp)
  deriving DecidableEq, Repr

/-- `MARSHAL` exceptions, which leave the strand as it is. -/
def Exn.isMarshal : Exn → Bool
  | .marshalPassEndOfMessage => true
  | .marshalMessageSizeExceedLimit => true
  | .marshalMessageSizeExceedLimitOnClient => true
  | .marshalMessageSizeExceedLimitOnServer => true
  | _ => false

namespace Sys

/-- A strand on a connection that has just been opened, without calls. -/
def opened (c : Pieces UInt8) (isClient isBiDir : Bool) : Sys where
  strand := Strand.opened c isClient isBiDir
  clients := []
  servers := []
  created := 0
  seqNumber := if isClient then 0 else 1
  call := fun _ => Call.new
  rdLocked := none

def unlock (s : Sys) (g : Ref) : Sys := if s.rdLocked = some g then { s with rdLocked := none } else s

def setState (s : Sys) (g : Ref) (st : CallState) : Sys :=
  s.setCall g { s.call g with state := st }

/-- Whether a call need not wait for the read lock. -/
def mayRead (s : Sys) (g : Ref) : Bool :=
  (s.call g).inputFullyBuffered || s.rdLocked = none || s.rdLocked = some g

/-- Whether a call need not wait for a reply; on a bidirectional strand the servers read. -/
def mayReceive (s : Sys) (g : Ref) : Bool :=
  if s.strand.isBiDir then (s.call g).inputFullyBuffered || s.strand.dying else s.mayRead g

/-! ### Acquiring and releasing -/

/-- `GIOP_C::initialise` -/
def initialise (s : Sys) (g : Ref) : Sys :=
  let seq := (s.seqNumber + 2) % 2 ^ 32
  { s.setCall g { (s.call g).reset with state := .idle, requestId := seq } with seqNumber := seq }

def acquireClient (s : Sys) : Sys :=
  match s.clients.find? fun r => (s.call r).state = .unUsed with
  | some g => s.initialise g
  | none => (s.addClient Call.new).initialise (.client s.created)

/-- `giopRope::releaseClient` -/
def releaseClient (s : Sys) (g : Ref) : Sys :=
  let s := s.unlock g
  let s := if (s.call g).state ≠ .idle then s.dying else s
  let others := s.clients.filter (· ≠ g)
  if s.strand.dying ∨ (s.strand.isBiDir ∧ !s.strand.isClient) ∨ others ≠ [] then
    { s.setCall g Call.new with clients := others }
  else { s.setCall g { (s.call g).reset with state := .unUsed } with clients := others ++ [g] }

/-- What `acquireServer` makes of the `GIOP_S` it returns, and the beginning of its `dispatcher`. -/
def startServer (s : Sys) (g : Ref) : Sys :=
  s.setCall g { s.call g with state := .waitForRequestHeader, requestId := 0xffffffff }

/-- `giopStrand::acquireServer` and the beginning of `GIOP_S::dispatcher`. -/
def acquireServer (s : Sys) : Option Sys :=
  let first (st : CallState) := s.servers.find? fun r => (s.call r).state = st
  match first .inputFullyBuffered with
  | some g => some (s.startServer g)
  | none =>
    if s.rdLocked ≠ none then none
    else
      match first .inputPartiallyBuffered <|> first .unUsed with
      | some g => some { s.startServer g with rdLocked := some g }
      | none =>
        some { (s.addServer Call.new).startServer (.server s.created) with
          rdLocked := some (.server s.created) }

/-- `giopStrand::releaseServer` -/
def releaseServer (s : Sys) (g : Ref) : Sys :=
  let s := s.unlock g
  let others := s.servers.filter (· ≠ g)
  if s.strand.dying ∨ others ≠ [] then { s.setCall g Call.new with servers := others }
  else { s.setState g .unUsed with servers := [g] }

end Sys

/-! ### Actions -/

namespace M

/-- Run a program of the call `g`, then go on with the state, or with the state and the exception. -/
def run {α : Type} (m : M α) (s : Sys) (ok : α → Sys → Sys) (error : Exn → Sys → Sys) :
    Except Exn α × Sys :=
  match m s with
  | .ok a t => (.ok a, ok a t)
  | .error e t => (.error e, error e t)

end M

namespace Sys

/-- An exception leaves the thread of a client. -/
def failClient (g : Ref) (_ : Exn) (s : Sys) : Sys := s.releaseClient g

/-- An exception leaves `dispatcher`, after which the server closes the connection. -/
def failServer (g : Ref) (_ : Exn) (s : Sys) : Sys := s.dying.releaseServer g

/-- An exception is handled in `handleRequest`, which a cancelled request ends quietly. -/
def endServer (g : Ref) (e : Exn) (s : Sys) : Sys :=
  if e = .terminateProcessing then s.releaseServer g else s.failServer g e

end Sys

/-- What an action gave: nothing if it was not enabled, else what was read or an exception. -/
abbrev Outcome := Option (Except Exn (List UInt8))

namespace Action

variable (env : Env)

/-- `SkipRequestBody` after an exception -/
def skipAfter (g : Ref) (s : Sys) : Sys :=
  (M.run (M.inputMessageEnd env g true) s (fun _ t => t.setState g .waitingForReply)
    (Sys.failServer g)).2

/-- One action. -/
def step (s : Sys) : Action → Outcome × Sys
  | .acquireClient =>
    if s.strand.dying then (none, s) else (some (.ok []), s.acquireClient)
  | .sendRequest g =>
    if g ∈ s.clients ∧ (s.call g).state = .idle then
      (some (.ok []), s.setState g .waitingForReply)
    else (none, s)
  | .receiveReply g locate header =>
    if g ∈ s.clients ∧ (s.call g).state = .waitingForReply ∧ s.mayReceive g then
      (M.run (M.inputReplyBegin env g (if locate then .locateReply else .reply) header) s
        (fun _ t => t.setState g .replyIsBeingProcessed) (Sys.failClient g)).map some id
    else (none, s)
  | .requestCompleted g skip =>
    if g ∈ s.clients ∧ (s.call g).state = .replyIsBeingProcessed then
      (M.run (M.inputMessageEnd env g skip) s (fun _ t => t.setState g .idle)
        (Sys.failClient g)).map (fun r => some (r.map fun _ => [])) id
    else (none, s)
  | .releaseClient g =>
    if g ∈ s.clients ∧ (s.call g).state ≠ .unUsed then (some (.ok []), s.releaseClient g)
    else (none, s)
  | .acquireServer =>
    match s.acquireServer with
    | some t => (some (.ok []), t)
    | none => (none, s)
  | .dispatch g header =>
    if g ∈ s.servers ∧ (s.call g).state = .waitForRequestHeader ∧ s.mayRead g then
      match M.inputMessageBegin env g s with
      | .error e t => (some (.error e), t.failServer g e)
      | .ok _ t =>
        if (t.call g).requestType = .cancelRequest then
          (some (.ok []), (t.setState g .waitingForReply).releaseServer g)
        else
          (M.run (M.reads env g header) t (fun _ u => u.setState g .requestIsBeingProcessed)
            (Sys.endServer g)).map some id
    else (none, s)
  | .receiveRequest g skip =>
    if g ∈ s.servers ∧ (s.call g).state = .requestIsBeingProcessed then
      (M.run (M.inputMessageEnd env g skip) s (fun _ t => t.setState g .waitingForReply)
        (Sys.endServer g)).map (fun r => some (r.map fun _ => [])) id
    else (none, s)
  | .skipRequestBody g =>
    if g ∈ s.servers ∧ (s.call g).state = .requestIsBeingProcessed then
      (M.run (M.inputMessageEnd env g true) s (fun _ t => t.setState g .waitingForReply)
        (Sys.failServer g)).map (fun r => some (r.map fun _ => [])) id
    else (none, s)
  | .releaseServer g =>
    if g ∈ s.servers ∧ (s.call g).state = .waitingForReply then
      (some (.ok []), s.releaseServer g)
    else (none, s)
  | .read g op =>
    if g ∈ s.clients ∧ (s.call g).state = .replyIsBeingProcessed then
      (M.run (M.read env g op) s (fun _ t => t) (Sys.failClient g)).map some id
    else if g ∈ s.servers ∧ (s.call g).state = .requestIsBeingProcessed then
      (M.run (M.read env g op) s (fun _ t => t) fun e t =>
        if e.isMarshal then skipAfter env g t else t.endServer g e).map some id
    else (none, s)

/-- What the actions of a run gave, and the state that it reaches. -/
def run (s : Sys) : List Action → List Outcome × Sys
  | [] => ([], s)
  | a :: as =>
    let r := a.step env s
    let rs := run r.2 as
    (r.1 :: rs.1, rs.2)

end Action

end OmniORB
