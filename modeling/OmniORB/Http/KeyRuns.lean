import OmniORB.Http.SessionKeys

/-!
# Runs of a key manager

A manager that is a client and a server at once, the connections that use it, and peers that send
what they like: which key is used for whom.
-/

namespace OmniORB.Http

open Library

/-- A key that a client has sent in a header, which was accepted. -/
structure Installed (R : Type) where
  clientIdent : Text
  sender : R
  keyIdent : Text
  key : Text

/-- A key that was made here for the URL of a server. -/
structure Generated where
  url : Text
  keyIdent : Text
  key : Text

/-- What a key is used for, with the time and the deadline of the key. `own` is the key that the
sender of a header means by the identifier in it. -/
inductive Use (R : Type)
  | outgoing (url keyIdent key : Text) (deadline time : ℕ)
  | incoming (sender : R) (own peerIdent keyIdent key : Text) (deadline time : ℕ)
  | install (sender : R) (clientIdent key : Text) (replaced : Option SessionKey)
    (deadline time : ℕ)

/-- The manager with the connections, and the keys between `writeAuthHeader` and the lock of
`assignedKey`; and what has happened so far. -/
structure World (R : Type) where
  manager : Manager R
  now : ℕ
  connections : List (Crypto R)
  pending : List (Text × SessionKey)
  urls : List Text
  generated : List Generated
  installed : List (Installed R)
  uses : List (Use R)

/-- A step of the process, or a header from a peer. The peer that sends a header has the RSA key
`sender`, and encrypts with the session key `own`. -/
inductive Event (R : Type)
  | addClient (ident : Text) (rsa : R)
  | removeClient (ident : Text)
  | addServer (url : Text) (rsa : R)
  | removeServer (url : Text)
  | cryptoForServer (url : Text) (newKey : Bool)
  | writeAuthHeader (i : ℕ) (random : Option Text) (room : ℕ)
  | assignedKey (i : ℕ)
  | readAuthHeader (sender : R) (own auth : Text)
  | matchAuthHeader (i : ℕ) (sender : R) (own auth : Text)
  | scavenge
  | tick (elapsed : ℕ)

variable {R : Type}

/-- A manager after `init`, at some time. -/
def World.start (keyLifetime : UInt32) (selfIdent : Text) (selfRsa : R) (now : ℕ) : World R where
  manager := ⟨keyLifetime, selfIdent, selfRsa, fun _ => none, fun _ => none, fun _ => none⟩
  now := now
  connections := []
  pending := []
  urls := []
  generated := []
  installed := []
  uses := []

namespace World

/-- The header of a connection to a server: the key in it is one that there is already, or is new
and will be assigned. -/
def written (w : World R) (i : ℕ) (c : Crypto R) (r : Crypto.Written R) : World R :=
  { w with
    connections := w.connections.set i r.crypto
    pending := w.pending ++ (r.assigned.map fun sk => (c.peerIdent, sk)).toList
    generated :=
      if r.made then w.generated ++ [⟨c.peerIdent, r.crypto.keyIdent, r.crypto.key⟩]
      else w.generated
    uses := match r.header with
      | .error _ => w.uses
      | .ok _ => w.uses ++
        [.outgoing c.peerIdent r.crypto.keyIdent r.crypto.key r.crypto.deadline w.now] }

/-- A header that has been accepted. -/
def accepted (w : World R) (sender : R) (own : Text) (header : AuthHeader) (m : Manager R)
    (c : Crypto R) : World R :=
  match header with
  | .newKey h =>
    { w with
      manager := m
      connections := w.connections ++ [c]
      installed := w.installed ++ [⟨h.clientIdent, sender, h.keyIdent, c.key⟩]
      uses := w.uses ++
        [.install sender h.clientIdent c.key (w.manager.sessionKeys h.keyIdent) c.deadline w.now] }
  | _ =>
    { w with
      manager := m
      connections := w.connections ++ [c]
      uses := w.uses ++ [.incoming sender own c.peerIdent c.keyIdent c.key c.deadline w.now] }

def step (E : OpenSSL R) (w : World R) : Event R → Option (World R)
  | .addClient ident rsa => some { w with manager := w.manager.addClient ident rsa }
  | .removeClient ident => some { w with manager := w.manager.removeClient ident }
  | .addServer url rsa =>
    some { w with manager := w.manager.addServer url rsa, urls := w.urls ++ [url] }
  | .removeServer url => some { w with manager := w.manager.removeServer url }
  | .cryptoForServer url newKey =>
    let (m, c) := w.manager.cryptoForServer url newKey w.now
    some { w with manager := m, connections := w.connections ++ c.toList }
  | .writeAuthHeader i random room => do
    let c ← w.connections[i]?
    let (selfRsa, peerRsa) ← c.rsa
    some (w.written i c (c.writeAuthHeader E selfRsa peerRsa w.manager.keyLifetime.toNat w.now
      random room))
  | .assignedKey i => do
    let (url, sk) ← w.pending[i]?
    some { w with manager := w.manager.assignedKey url sk, pending := w.pending.eraseIdx i }
  | .readAuthHeader sender own auth =>
    match w.manager.readAuthHeader E w.now auth with
    | .error _ => some w
    | .ok (m, c) => some (w.accepted sender own (parseAuth auth) m c)
  | .matchAuthHeader i sender own auth => do
    let c ← w.connections[i]?
    if c.rsa.isSome then none
    else if c.matchAuthHeader w.now auth then
      some { w with
        uses := w.uses ++ [.incoming sender own c.peerIdent c.keyIdent c.key c.deadline w.now] }
    else some w
  | .scavenge => some { w with manager := w.manager.scavenge w.now }
  | .tick elapsed => some { w with now := w.now + elapsed }

end World

/-! ### What is claimed -/

/-- A key is used before its deadline: one sent to a server was made here for its URL, one sent by a
client was installed by the client that is reported, with that key, and the key it replaces was a key
of the same client. -/
def Use.Kept (w : World R) : Use R → Prop
  | outgoing url keyIdent key deadline time =>
    ⟨url, keyIdent, key⟩ ∈ w.generated ∧ time < deadline
  | incoming sender own peerIdent keyIdent key deadline time =>
    ⟨peerIdent, sender, keyIdent, key⟩ ∈ w.installed ∧ key = own ∧ time < deadline
  | install sender clientIdent _ replaced deadline time =>
    (∀ sk ∈ replaced, ⟨clientIdent, sender, sk.keyIdent, sk.key⟩ ∈ w.installed) ∧ time < deadline

/-- Keys stay with the peers they were agreed with. -/
structure World.Kept (E : OpenSSL R) (w : World R) : Prop where
  stored : ∀ url r sk, w.manager.servers url = some r → w.manager.sessionKeys url = some sk →
    ⟨url, sk.keyIdent, sk.key⟩ ∈ w.generated
  uses : ∀ u ∈ w.uses, u.Kept w
  renegotiated : ∀ auth keyIdent, parseAuth auth = .existingKey keyIdent →
    (∀ sk ∈ w.manager.sessionKeys keyIdent, sk.deadline ≤ w.now) →
      w.manager.readAuthHeader E w.now auth = .error .renegotiate

/-- A peer means its own key by an identifier, and no one else has used that for a key, nor is it
the URL of a server. -/
def World.OwnIdent (w : World R) (sender : R) (own keyIdent : Text) : Prop :=
  keyIdent ∉ w.urls ∧ ∀ k ∈ w.installed, k.keyIdent = keyIdent → k.sender = sender ∧ k.key = own

/-- The sender could make the header: a part that opens with a public key was made by the client
that has the private key. -/
def MadeBy (E : OpenSSL R) (sender : R) (h : NewKey) : Prop :=
  ∀ enc rsa part, E.b64decode h.clientB64 = some enc → E.publicDecrypt enc rsa = some part →
    rsa = sender

/-- A client may send a new key under an identifier that is no URL of a server, and that no other
client has sent a key under. An identifier that a client has used is not made the URL of a server. -/
def World.Ok (E : OpenSSL R) (w : World R) : Event R → Prop
  | .addServer url _ => ∀ k ∈ w.installed, k.keyIdent ≠ url
  | .readAuthHeader sender own auth =>
    match parseAuth auth with
    | .existingKey keyIdent => w.OwnIdent sender own keyIdent
    | .newKey h => MadeBy E sender h ∧ h.keyIdent ∉ w.urls ∧
      ∀ k ∈ w.installed, k.keyIdent = h.keyIdent → k.clientIdent = h.clientIdent ∧ k.sender = sender
    | .invalid => True
  | .matchAuthHeader _ sender own auth =>
    match parseAuth auth with
    | .existingKey keyIdent => w.OwnIdent sender own keyIdent
    | _ => True
  | _ => True

end OmniORB.Http
