import OmniORB.Library.BackPointers
import OmniORB.Library.Transitions

/-!
# Collections of sockets

`SocketCollection` and `SocketHolder` where `poll` is used (`SocketCollection.cc`), on Unix. A step is
what a thread does while it holds `pd_collection_lock`; `poll` runs between two steps. There is one
thread in `Select`, and any number in `Peek`. The two arrays of the poll list are one, of entries.
-/

namespace OmniORB

open Library

/-- The events that `poll` reports of a file descriptor. -/
structure Revents where
  pollin : Bool
  pollhup : Bool
  /-- POLLERR, POLLNVAL and others -/
  other : Bool
  deriving DecidableEq, Repr

namespace Revents

def none : Revents := ⟨false, false, false⟩

def any (r : Revents) : Bool := r.pollin || r.pollhup || r.other

end Revents

/-- `pd_pollfds[i]`, of which the events are POLLIN, and `pd_pollsockets[i]`. -/
structure PollEntry where
  fd : ℕ
  revents : Revents
  socket : Option ℕ
  deriving DecidableEq, Repr

/-- `SocketHolder`, and how often its readiness was delivered since it was last made selectable. -/
structure SocketHolder where
  socket : ℕ
  selectable : Bool
  dataInBuffer : Bool
  peeking : Bool
  peekGo : Bool
  fdIndex : Option ℕ
  deliveries : ℕ
  deriving DecidableEq, Repr

namespace SocketHolder

def new (socket : ℕ) : SocketHolder := ⟨socket, false, false, false, false, none, 0⟩

/-- The socket is put in the notification list, or `Peek` returns true. -/
def deliver (h : SocketHolder) : SocketHolder :=
  { h with selectable := false, dataInBuffer := false, deliveries := h.deliveries + 1 }

/-- The socket was found readable by `Select`. A thread that peeks at it is told, so that it is not notified
from two threads. -/
def readable (h : SocketHolder) : SocketHolder :=
  if h.peeking then { h with peekGo := true } else if h.selectable then h.deliver else h

end SocketHolder

/-- `SocketCollection`. The time of the next scan is zero or not; `polling` tells how many entries the
`Select` thread polls; `overrun` that an entry was written beyond the end of the lists. -/
structure SocketCollection where
  holders : ℕ → SocketHolder
  collection : List ℕ
  entries : ℕ → PollEntry
  pollfdN : ℕ
  pollfdLen : ℕ
  changed : Bool
  absTimeZero : Bool
  idleCount : ℕ
  /-- the end of the pipe that is read -/
  pipe : Option ℕ
  pipeFull : Bool
  polling : Option ℕ
  overrun : Bool

namespace SocketCollection

/-- `idle_scans` -/
def idleScans : ℕ := 20

/-- A new collection. -/
def init (pipe : Option ℕ) : SocketCollection where
  holders := SocketHolder.new
  collection := []
  entries := fun _ => ⟨0, .none, none⟩
  pollfdN := 0
  pollfdLen := 64
  changed := true
  absTimeZero := true
  idleCount := idleScans
  pipe := pipe
  pipeFull := false
  polling := none
  overrun := false

variable (c : SocketCollection)

def setHolder (s : ℕ) (h : SocketHolder) : SocketCollection :=
  { c with holders := Function.update c.holders s h }

def modifyHolder (s : ℕ) (f : SocketHolder → SocketHolder) : SocketCollection := c.setHolder s (f (c.holders s))

def setEntry (i : ℕ) (e : PollEntry) : SocketCollection :=
  { c with entries := Function.update c.entries i e, overrun := c.overrun || c.pollfdLen ≤ i }

/-- An entry of the holder at the place that it will have. -/
def watch (i s : ℕ) : SocketCollection :=
  (c.setEntry i ⟨(c.holders s).socket, .none, some s⟩).modifyHolder s ({ · with fdIndex := some i })

/-- Make the `Select` thread scan the collection next. -/
def forceScan : SocketCollection := { c with absTimeZero := true }

def wakeUp : SocketCollection := if c.pipe.isSome then { c with pipeFull := true } else c

/-- `growPollLists` -/
def growPollLists : SocketCollection := { c with pollfdLen := c.pollfdLen * 2 }

/-! ### Select -/

/-- What the scan does with a socket, where the poll list is filled up to the index. -/
def scanSocket (r : SocketCollection × ℕ) (s : ℕ) : SocketCollection × ℕ :=
  let (c, index) := r
  let h := c.holders s
  if h.selectable then
    if h.dataInBuffer then (c.setHolder s { h.deliver with fdIndex := none }, index)
    else
      let c := if index = c.pollfdLen then c.growPollLists else c
      (c.watch index s, index + 1)
  else (c.setHolder s { h with fdIndex := none }, index)

/-- The list with the entry of the pipe. -/
def watchPipe : SocketCollection × ℕ :=
  match c.pipe with
  | some fd => (c.setEntry 0 ⟨fd, .none, none⟩, 1)
  | none => (c, 0)

/-- The list is made anew if it may not be up to date. -/
def scan : SocketCollection :=
  if c.changed then
    let r := c.collection.foldl scanSocket c.watchPipe
    { r.1 with pollfdN := r.2, changed := false }
  else c

/-- `Select`, up to `poll`. It is time to scan the list after the scan interval, or if that is forced. -/
def selectBegin (timeToScan : Bool) : Option SocketCollection :=
  if c.polling.isSome then none
  else
    let c := if timeToScan || c.absTimeZero then { c.scan with absTimeZero := false } else c
    some { c with polling := some c.pollfdN }

/-- The last entry takes the place of the one at the index. The number of entries is one less already. -/
def moveLast (index : ℕ) : SocketCollection :=
  let e := c.entries c.pollfdN
  let c := c.setEntry index e
  match e.socket with
  | some s => c.modifyHolder s ({ · with fdIndex := some index })
  | none => c

/-- Remove from pollfds by swapping in the last item in the array. -/
def takeOut (index s : ℕ) : SocketCollection :=
  let c := ({ c with pollfdN := c.pollfdN - 1 } : SocketCollection).modifyHolder s ({ · with fdIndex := none })
  if index < c.pollfdN then c.moveLast index else c

/-- An entry with POLLIN or POLLHUP: what it leaves, and whether the index goes on. -/
def entryReadable (index : ℕ) : SocketCollection × Bool :=
  let e := c.entries index
  match e.socket with
  | some s => ((c.takeOut index s).modifyHolder s SocketHolder.readable, false)
  | none =>
    if c.pipe = some e.fd then ({ c with pipeFull := false }, true)
    else
      -- the socket is no longer selectable
      (({ c with pollfdN := c.pollfdN - 1 } : SocketCollection).moveLast index, false)

/-- The loop over the entries, of which `count` are still to be found; `n` times at most. -/
def findReadable : ℕ → SocketCollection → ℕ → ℕ → SocketCollection
  | 0, c, _, _ => c
  | n + 1, c, index, count =>
    if count = 0 ∨ index = c.pollfdN then c
    else
      let revents := (c.entries index).revents
      if revents.any then
        if revents.pollin || revents.pollhup then
          let r := c.entryReadable index
          findReadable n r.1 (if r.2 then index + 1 else index) (count - 1)
        else findReadable n { c with changed := true, absTimeZero := true } (index + 1) (count - 1)
      else findReadable n c (index + 1) count

/-- What `poll` returns: how many entries have events, and which; or an error. -/
inductive SelectResult where
  | polled (count : ℕ) (report : ℕ → Revents)
  | badf
  | failed

/-- `Select`, from `poll` on. -/
def selectEnd (result : SelectResult) : Option SocketCollection :=
  c.polling.map fun n =>
    let c := { c with polling := none }
    match result with
    | .polled 0 _ => { c with idleCount := c.idleCount - 1 }
    | .polled (count + 1) report =>
      let c := { c with
        entries := fun i => if i < n then { c.entries i with revents := report i } else c.entries i
        idleCount := idleScans }
      findReadable c.pollfdN c 0 (count + 1)
    | .badf => { c with changed := true, absTimeZero := true }
    | .failed => c

/-! ### The sockets -/

/-- `setSelectable`; `now` is 0, 1 or 2. -/
def setSelectable (s now : ℕ) (dataInBuffer : Bool) : SocketCollection :=
  let h := c.holders s
  if now = 2 ∧ !h.selectable then c
  else
    let c := if now ≠ 0 ∧ h.fdIndex = none then
        if c.pollfdN < c.pollfdLen then { c.watch c.pollfdN s with pollfdN := c.pollfdN + 1 }
        else c.forceScan
      else c
    let h := c.holders s
    let c : SocketCollection := { c.setHolder s { h with
      selectable := true, dataInBuffer := h.dataInBuffer || dataInBuffer, deliveries := 0 } with changed := true }
    let c := if (c.holders s).dataInBuffer then c.forceScan else c
    if now ≠ 0 ∨ c.idleCount = 0 then c.wakeUp else c

/-- `pd_pollsockets[pd_fd_index] = 0` -/
def unwatch (s : ℕ) : SocketCollection :=
  match (c.holders s).fdIndex with
  | some i => (c.setEntry i { c.entries i with socket := none }).modifyHolder s ({ · with fdIndex := none })
  | none => c

def clearSelectable (s : ℕ) : SocketCollection :=
  let c := (c.modifyHolder s ({ · with selectable := false })).unwatch s
  if c.idleCount = 0 then c.wakeUp else c

/-- `Peek` of a socket that is selectable and has no other thread that peeks. -/
def peekBegin (s : ℕ) : Option SocketCollection :=
  let h := c.holders s
  if h.selectable && !h.peeking then
    if h.dataInBuffer then some (c.setHolder s h.deliver)
    else some (c.setHolder s { h with peeking := true, peekGo := false })
  else none

/-- What the `poll` of `Peek` returns. -/
inductive PeekResult where
  | readable (revents : Revents)
  | timedOut
  | interrupted
  | failed
  deriving DecidableEq, Repr

/-- `retval`, or none for -1. -/
def peekRetval (h : SocketHolder) : PeekResult → Option Bool
  | .readable revents => if h.dataInBuffer then some true else some (revents.pollin && h.selectable)
  | .timedOut => if h.dataInBuffer then some true else some h.peekGo
  | .interrupted => if h.dataInBuffer then some true else none
  | .failed => if h.dataInBuffer then some true else some false

/-- What `Peek` does after `poll`. -/
def peekEnd (s : ℕ) (result : PeekResult) : Option SocketCollection :=
  if !(c.holders s).peeking then none
  else match peekRetval (c.holders s) result with
    | none => some c
    | some retval =>
      let c := if retval then (c.modifyHolder s SocketHolder.deliver).unwatch s else c
      some (c.modifyHolder s ({ · with peeking := false }))

def addSocket (s socket : ℕ) : SocketCollection :=
  { c.setHolder s (.new socket) with collection := s :: c.collection }

/-- `removeSocket`, which follows `clearSelectable`. -/
def removeSocket (s : ℕ) : SocketCollection :=
  let c := c.clearSelectable s
  { c with collection := c.collection.erase s, changed := true, absTimeZero := true }

end SocketCollection

/-- What a thread does under the lock. -/
inductive SocketOp where
  | selectBegin (timeToScan : Bool)
  | selectEnd (result : SocketCollection.SelectResult)
  | setSelectable (s now : ℕ) (dataInBuffer : Bool)
  | clearSelectable (s : ℕ)
  | peekBegin (s : ℕ)
  | peekEnd (s : ℕ) (result : SocketCollection.PeekResult)
  | addSocket (s socket : ℕ)
  | removeSocket (s : ℕ)

namespace SocketCollection

/-- The sockets that are used are in the collection; one that is removed has no thread in `Peek`. -/
def step (c : SocketCollection) : SocketOp → Option SocketCollection
  | .selectBegin timeToScan => c.selectBegin timeToScan
  | .selectEnd result => c.selectEnd result
  | .setSelectable s now dataInBuffer =>
    if s ∈ c.collection then some (c.setSelectable s now dataInBuffer) else none
  | .clearSelectable s => if s ∈ c.collection then some (c.clearSelectable s) else none
  | .peekBegin s => if s ∈ c.collection then c.peekBegin s else none
  | .peekEnd s result => if s ∈ c.collection then c.peekEnd s result else none
  | .addSocket s socket => if s ∈ c.collection then none else some (c.addSocket s socket)
  | .removeSocket s =>
    if s ∈ c.collection ∧ (c.holders s).peeking = false then some (c.removeSocket s) else none

end SocketCollection

end OmniORB
