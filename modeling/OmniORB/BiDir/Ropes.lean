import OmniORB.Library.Transitions
import OmniORB.Uri.Addresses

/-!
# Bidirectional connections

A server that calls its clients back over the connections that they have opened: which connections
have a rope, which rope a reference gets, and which connection a call on it uses.
-/

namespace OmniORB.BiDir

open Library

abbrev Text := List UInt8

inductive StrandState
  | active
  | dying
  | deleted
deriving DecidableEq, Inhabited

/-- The server side of a connection, with the addresses that the client has announced over it. -/
structure GiopStrand where
  peeraddress : Text
  myaddress : Text
  isBiDir : Bool
  state : StrandState
  announced : List Text
deriving Inhabited

/-- A rope to a client. Nothing ever waits for it, and it has the strand it was made for as long as
that is there. -/
structure BiDirServerRope where
  id : ℕ
  sendfrom : Text
  redirectAddresses : List Text
  strands : List ℕ
  refcount : ℕ

/-- What is configured, and the addresses for a listen point. `serverRules` gives the actions of the
rule that matches a peer. -/
structure OrbParameters where
  acceptBiDirectionalGIOP : Bool
  fromTcpAddress : Text → ℕ → Option Text
  fromSslAddress : Text → ℕ → Option Text
  serverRules : Text → Option (List Text)

/-- What has been decoded of a reference; `sendfrom` are its `TAG_OMNIORB_BIDIR` components. -/
structure IORInfo where
  version : ℕ × ℕ
  addresses : List Text
  sendfrom : List Text

/-- A reference that was received over a connection, with its rope. It is a callback reference if it
is for an address that the client has announced, and may be called over the connection. -/
structure Reference where
  strand : ℕ
  rope : Option ℕ
  callback : Bool
deriving DecidableEq

/-- What `acquireClient` comes to: a client of a strand, `TRANSIENT_BiDirConnIsGone`, or whatever a
rope gives that is not bidirectional. -/
inductive Outcome
  | strand (s : ℕ)
  | biDirConnIsGone
  | ordinary
deriving DecidableEq

namespace BiDirServerRope

def isGarbage (br : BiDirServerRope) : Bool := br.refcount = 0 && br.strands.isEmpty

/-- `match` of the source. -/
def isFor (br : BiDirServerRope) (sendfrom : Text) (addresses : List Text) : Bool :=
  br.sendfrom = sendfrom && addresses.any fun a => a ∈ br.redirectAddresses

def redirect (br : BiDirServerRope) (addresses : List Text) : BiDirServerRope :=
  { br with
    redirectAddresses :=
      addresses.foldl (fun l a => if a ∈ l then l else l ++ [a]) br.redirectAddresses }

end BiDirServerRope

/-- The first rope of which `p` holds, and the ropes without the garbage before it. -/
def findRope (p : BiDirServerRope → Bool) :
    List BiDirServerRope → Option BiDirServerRope × List BiDirServerRope
  | [] => (none, [])
  | br :: ropes =>
    if p br then (some br, br :: ropes)
    else if br.isGarbage then findRope p ropes
    else ((findRope p ropes).1, br :: (findRope p ropes).2)

/-- Change one rope. -/
def modifyRope (id : ℕ) (f : BiDirServerRope → BiDirServerRope) (ropes : List BiDirServerRope) :
    List BiDirServerRope := ropes.map fun br => if br.id = id then f br else br

/-- The connections, the ropes and the references of the server. `added` is what `addRope` was
called with, and the strands of what it returned. -/
structure World where
  strand : ℕ → GiopStrand
  opened : ℕ
  ropes : List BiDirServerRope
  nextRope : ℕ
  references : List Reference
  added : List (ℕ × List ℕ)

/-- What a client does, or the server with a reference. A context is one list of listen points, in
a request of some minor version; a reference comes in a request for a servant whose POA may allow
bidirectional calls. -/
inductive Event
  | openConnection (peeraddress myaddress : Text)
  | context (c minor : ℕ) (listenPoints : List (Text × ℕ))
  | unMarshal (c : ℕ) (info : IORInfo) (acceptBiDirectional : Bool)
  | release (r : Reference)
  | die (c : ℕ)
  | delete (c : ℕ)

namespace World

def start : World where
  strand := default
  opened := 0
  ropes := []
  nextRope := 0
  references := []
  added := []

def setStrand (w : World) (c : ℕ) (s : GiopStrand) : World :=
  { w with strand := Function.update w.strand c s }

def addRope (w : World) (c : ℕ) (addresses : List Text) : World :=
  match findRope (·.sendfrom = (w.strand c).peeraddress) w.ropes with
  | (some br, ropes) =>
    { w with
      ropes := modifyRope br.id (·.redirect addresses) ropes
      added := w.added ++ [(c, br.strands)] }
  | (none, ropes) =>
    { w with
      ropes := ropes ++
        [BiDirServerRope.redirect ⟨w.nextRope, (w.strand c).peeraddress, [], [c], 0⟩ addresses]
      nextRope := w.nextRope + 1
      added := w.added ++ [(c, [c])] }

/-- The addresses for the listen points. An SSL connection announces SSL addresses as well. -/
def addrList (par : OrbParameters) (w : World) (c : ℕ) (listenPoints : List (Text × ℕ)) :
    List Text :=
  listenPoints.flatMap fun (host, port) =>
    (par.fromTcpAddress host port).toList ++
      if (ascii "giop:ssl").isPrefixOf (w.strand c).myaddress
      then (par.fromSslAddress host port).toList else []

/-- The context switches the connection to bidirectional. -/
def acceptsContext (par : OrbParameters) (w : World) (c minor : ℕ)
    (listenPoints : List (Text × ℕ)) : Bool :=
  par.acceptBiDirectionalGIOP && minor = 2 && !(w.addrList par c listenPoints).isEmpty &&
    (par.serverRules (w.strand c).peeraddress).any fun actions => ascii "bidir" ∈ actions

def getBiDirServiceContext (par : OrbParameters) (w : World) (c minor : ℕ)
    (listenPoints : List (Text × ℕ)) : World :=
  if w.acceptsContext par c minor listenPoints then
    (w.setStrand c { w.strand c with
      isBiDir := true
      announced := (w.strand c).announced ++ w.addrList par c listenPoints }).addRope c
        (w.addrList par c listenPoints)
  else w

/-- The rope for a reference, with one more reference to it. -/
def selectRope (par : OrbParameters) (w : World) (info : IORInfo) :
    Option BiDirServerRope × List BiDirServerRope :=
  if par.acceptBiDirectionalGIOP && info.version.1 = 1 && 2 ≤ info.version.2 then
    match info.sendfrom with
    | [] => (none, w.ropes)
    | sendfrom :: _ =>
      match findRope (·.isFor sendfrom info.addresses) w.ropes with
      | (some br, ropes) =>
        (some br, modifyRope br.id (fun br => { br with refcount := br.refcount + 1 }) ropes)
      | (none, ropes) => (none, ropes)
  else (none, w.ropes)

/-- The reference may be called over the connection. -/
def isCallback (par : OrbParameters) (w : World) (c : ℕ) (info : IORInfo)
    (acceptBiDirectional : Bool) : Bool :=
  par.acceptBiDirectionalGIOP && acceptBiDirectional && (w.strand c).isBiDir &&
    info.version.1 = 1 && 2 ≤ info.version.2 &&
    info.addresses.any fun a => a ∈ (w.strand c).announced

def unMarshal (par : OrbParameters) (w : World) (c : ℕ) (info : IORInfo)
    (acceptBiDirectional : Bool) : World :=
  let info' :=
    if (w.strand c).isBiDir && acceptBiDirectional then
      { info with sendfrom := info.sendfrom ++ [(w.strand c).peeraddress] }
    else info
  let r := w.selectRope par info'
  { w with
    ropes := r.2
    references :=
      ⟨c, r.1.map (·.id), w.isCallback par c info acceptBiDirectional⟩ :: w.references }

/-- The rope has one reference less, and is deleted with its last one if it has no strand. -/
def decrRefCount (w : World) (id : ℕ) : World :=
  { w with
    ropes := (modifyRope id (fun br => { br with refcount := br.refcount - 1 }) w.ropes).filter
      fun br => !(br.id = id && br.isGarbage) }

def acquireClient (w : World) (br : BiDirServerRope) : Outcome :=
  match br.strands with
  | [] => .biDirConnIsGone
  | s :: _ => if (w.strand s).state = .dying then .biDirConnIsGone else .strand s

/-- What a call on the reference uses. -/
def call (w : World) (r : Reference) : Outcome :=
  match r.rope.bind fun id => w.ropes.find? (·.id = id) with
  | none => .ordinary
  | some br => w.acquireClient br

def step (par : OrbParameters) (w : World) : Event → Option World
  | .openConnection peeraddress myaddress =>
    some { w with
      strand := Function.update w.strand w.opened ⟨peeraddress, myaddress, false, .active, []⟩
      opened := w.opened + 1 }
  | .context c minor listenPoints =>
    if c < w.opened ∧ (w.strand c).state ≠ .deleted then
      some (w.getBiDirServiceContext par c minor listenPoints)
    else none
  | .unMarshal c info acceptBiDirectional =>
    if c < w.opened ∧ (w.strand c).state ≠ .deleted then
      some (w.unMarshal par c info acceptBiDirectional)
    else none
  | .release r =>
    if r ∈ w.references then
      let w' := { w with references := w.references.erase r }
      some (match r.rope with
        | none => w'
        | some id => w'.decrRefCount id)
    else none
  | .die c =>
    if c < w.opened ∧ (w.strand c).state = .active then
      some (w.setStrand c { w.strand c with state := .dying })
    else none
  | .delete c =>
    if c < w.opened ∧ (w.strand c).state = .dying then
      some { w.setStrand c { w.strand c with state := .deleted } with
        ropes := w.ropes.map fun br => { br with strands := br.strands.erase c } }
    else none

/-! ### What is claimed -/

/-- A connection that a call to the client of `c` may use. -/
structure Serves (w : World) (c s : ℕ) : Prop where
  lt : s < w.opened
  later : c ≤ s
  peer : (w.strand s).peeraddress = (w.strand c).peeraddress
  bidir : (w.strand s).isBiDir = true
  active : (w.strand s).state = .active

/-- A call uses such a connection, or there is none and it fails. -/
def Right (w : World) (r : Reference) : Prop :=
  (∃ s, w.call r = .strand s ∧ w.Serves r.strand s) ∨
    (w.call r = .biDirConnIsGone ∧ ∀ s, ¬ w.Serves r.strand s)

/-- Callbacks go to the client that asked for them, and `addRope` returns a rope with the strand. -/
structure Kept (w : World) : Prop where
  added : ∀ e ∈ w.added, e.1 ∈ e.2
  calls : ∀ r ∈ w.references, r.callback = true → w.Right r

/-- When a connection becomes bidirectional, no rope is left of another one from the same peer; and
a callback reference says that it comes from that peer, if it says anything. -/
def Ok (par : OrbParameters) (w : World) : Event → Prop
  | .context c minor listenPoints => w.acceptsContext par c minor listenPoints = true →
    ∀ br ∈ w.ropes, br.sendfrom = (w.strand c).peeraddress → c ∈ br.strands
  | .unMarshal c info acceptBiDirectional => w.isCallback par c info acceptBiDirectional = true →
    ∀ sendfrom ∈ info.sendfrom.head?, sendfrom = (w.strand c).peeraddress
  | _ => True

end World

end OmniORB.BiDir
