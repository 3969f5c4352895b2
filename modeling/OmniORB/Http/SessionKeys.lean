import OmniORB.Library.Transitions
import OmniORB.Uri.Addresses

/-!
# Session keys

The key manager for encrypted HTTP, as in `httpCrypto.cc`. A process that is a client makes a key
for the URL of a server and sends it in a header, and then sends the identifier of the key; a
process that is a server keeps the keys it is sent under their identifiers.
-/

namespace OmniORB.Http

abbrev Text := List UInt8

/-- What is taken from OpenSSL, for RSA keys `R`: each function gives nothing where it fails. -/
structure OpenSSL (R : Type) where
  b64encode : Text → Text
  b64decode : Text → Option Text
  privateEncrypt : Text → R → Option Text
  publicEncrypt : Text → R → Option Text
  publicDecrypt : Text → R → Option Text
  privateDecrypt : Text → R → Option Text

/-- The exceptions, under the names of their minor codes. -/
inductive HttpExn
  | httpHeaderInvalid
  | httpBufferFull
  | invalidEncryptedData
  | invalidBase64Data
  | transportError
  | renegotiate
  | unknownClient
  deriving DecidableEq

def keySize : ℕ := 32

/-- The key for a session is the exclusive or of the parts. -/
def combine (a b : Text) : Text := List.zipWith (· ^^^ ·) a b

structure SessionKey where
  peerIdent : Text
  keyIdent : Text
  key : Text
  deadline : ℕ
  deriving DecidableEq

variable {R : Type}

/-- `httpCrypto_AES_RSA`: what one connection encrypts with. `rsa` has the own key and the peer's, and
there is none at a server. -/
structure Crypto (R : Type) where
  key : Text
  keyIdent : Text
  peerIdent : Text
  selfIdent : Text
  rsa : Option (R × R)
  deadline : ℕ
  keySet : Bool

/-- `httpCryptoManager_AES_RSA_impl`, after `init`. The session keys are found by the URL of a server
or by the identifier of a key. -/
structure Manager (R : Type) where
  keyLifetime : UInt32
  selfIdent : Text
  selfRsa : R
  clients : Text → Option R
  servers : Text → Option R
  sessionKeys : Text → Option SessionKey

/-! ### Headers -/

def existingKeyPrefix : Text := ascii "omni 1;0;"

def newKeyPrefix : Text := ascii "omni 1;1;"

/-- `snprintf` into so much space. A text that just fits loses its last character to the
terminator, and the caller is not told. -/
def printed (room : ℕ) (text : Text) : Except HttpExn Text :=
  if room < text.length then .error .httpBufferFull
  else if room = text.length then .ok (text.dropLast ++ [0])
  else .ok text

/-- `std::getline` up to a semicolon, which must be there for another field to follow. -/
def getline (s : Text) : Option (Text × Text) :=
  if 0x3b ∈ s then some (s.takeWhile (· ≠ 0x3b), (s.dropWhile (· ≠ 0x3b)).tail) else none

/-- The fields of a header with a new key. -/
structure NewKey where
  clientIdent : Text
  keyIdent : Text
  clientB64 : Text
  selfB64 : Text

/-- The last field ends with the stream, and is not empty. -/
def parseNewKey (data : Text) : Option NewKey := do
  let (clientIdent, rest) ← getline data
  let (keyIdent, rest) ← getline rest
  let (clientB64, selfB64) ← getline rest
  if selfB64 = [] ∨ 0x0a ∈ selfB64 then none
  else some ⟨clientIdent, keyIdent, clientB64, selfB64⟩

/-- What an authorization header is taken for. -/
inductive AuthHeader
  | existingKey (keyIdent : Text)
  | newKey (h : NewKey)
  | invalid

def parseAuth (auth : Text) : AuthHeader :=
  if existingKeyPrefix.isPrefixOf auth then .existingKey (auth.drop 9)
  else if newKeyPrefix.isPrefixOf auth then
    match parseNewKey (auth.drop 9) with
    | some h => .newKey h
    | none => .invalid
  else .invalid

/-! ### One connection -/

namespace Crypto

/-- What `writeAuthHeader` leaves: the object, what is written or thrown, the key to be assigned, and
whether the object has a key that was made for this header. -/
structure Written (R : Type) where
  crypto : Crypto R
  header : Except HttpExn Text
  assigned : Option SessionKey
  made : Bool

/-- The parts of a new key, as they are sent. -/
def encryptParts (E : OpenSSL R) (selfRsa peerRsa : R) (part1 part2 : Text) : Option (Text × Text) := do
  let selfEnc ← E.privateEncrypt part1 selfRsa
  let peerEnc ← E.publicEncrypt part2 peerRsa
  some (E.b64encode selfEnc, E.b64encode peerEnc)

/-- `writeAuthHeader`, with the random octets if there are any. A header that has no room leaves the
new key in the object, but not its deadline, and does not assign it. -/
def writeAuthHeader (E : OpenSSL R) (c : Crypto R) (selfRsa peerRsa : R) (lifetime now : ℕ)
    (random : Option Text) (room : ℕ) : Written R :=
  if c.keySet ∧ now < c.deadline then
    ⟨c, printed room (existingKeyPrefix ++ c.keyIdent), none, false⟩
  else
    match random with
    | none => ⟨c, .error .transportError, none, false⟩
    | some keyData =>
      let part1 := keyData.take keySize
      let part2 := (keyData.drop keySize).take keySize
      match encryptParts E selfRsa peerRsa part1 part2 with
      | none => ⟨c, .error .invalidEncryptedData, none, false⟩
      | some (selfB64, peerB64) =>
        let keyIdent := E.b64encode (keyData.drop (2 * keySize))
        let c := { c with key := combine part1 part2, keySet := true, keyIdent := keyIdent }
        match printed room (newKeyPrefix ++ c.selfIdent ++ [0x3b] ++ keyIdent ++ [0x3b] ++ selfB64 ++
            [0x3b] ++ peerB64) with
        | .error e => ⟨c, .error e, none, true⟩
        | .ok header =>
          let c := { c with deadline := now + lifetime }
          ⟨c, .ok header, some ⟨c.peerIdent, c.keyIdent, c.key, c.deadline⟩, true⟩

def matchAuthHeader (c : Crypto R) (now : ℕ) (val : Text) : Bool :=
  existingKeyPrefix.isPrefixOf val && val.drop 9 == c.keyIdent && decide (now < c.deadline)

end Crypto

/-! ### The manager -/

namespace Manager

def addClient (m : Manager R) (ident : Text) (rsa : R) : Manager R :=
  { m with clients := Function.update m.clients ident (some rsa) }

def removeClient (m : Manager R) (ident : Text) : Manager R :=
  { m with clients := Function.update m.clients ident none }

def addServer (m : Manager R) (url : Text) (rsa : R) : Manager R :=
  { m with servers := Function.update m.servers url (some rsa) }

def removeServer (m : Manager R) (url : Text) : Manager R :=
  { m with servers := Function.update m.servers url none }

def scavenge (m : Manager R) (now : ℕ) : Manager R :=
  { m with sessionKeys := fun n => (m.sessionKeys n).filter fun sk => ¬ sk.deadline < now }

/-- The connection's encryption: with the key that is stored for the URL, or without a key. -/
def cryptoForServer (m : Manager R) (url : Text) (newKey : Bool) (now : ℕ) :
    Manager R × Option (Crypto R) :=
  match m.servers url with
  | none => (m, none)
  | some serverRsa =>
    let fresh : Crypto R := ⟨[], [], url, m.selfIdent, some (m.selfRsa, serverRsa), 0, false⟩
    if newKey then ({ m with sessionKeys := Function.update m.sessionKeys url none }, some fresh)
    else
      match m.sessionKeys url with
      | none => (m, some fresh)
      | some sk =>
        if now < sk.deadline then
          (m, some ⟨sk.key, sk.keyIdent, url, m.selfIdent, some (m.selfRsa, serverRsa), sk.deadline,
            true⟩)
        else (m, some fresh)

def assignedKey (m : Manager R) (peerAddress : Text) (sk : SessionKey) : Manager R :=
  { m with sessionKeys := Function.update m.sessionKeys peerAddress (some sk) }

def decoded (E : OpenSSL R) (b64 : Text) : Except HttpExn Text :=
  match E.b64decode b64 with
  | none => .error .invalidBase64Data
  | some enc => .ok enc

/-- What has been decrypted must have the size of a key. -/
def decrypted : Option Text → Except HttpExn Text
  | none => .error .invalidEncryptedData
  | some part => if part.length = keySize then .ok part else .error .invalidEncryptedData

/-- The key in a header, of which the client's public key must open the first part. -/
def sentKey (E : OpenSSL R) (clientRsa selfRsa : R) (h : NewKey) : Except HttpExn Text := do
  let clientEnc ← decoded E h.clientB64
  let selfEnc ← decoded E h.selfB64
  let part1 ← decrypted (E.publicDecrypt clientEnc clientRsa)
  let part2 ← decrypted (E.privateDecrypt selfEnc selfRsa)
  .ok (combine part1 part2)

/-- The lifetime at the server, in the arithmetic of `CORBA::ULong`. -/
def serverLifetime (m : Manager R) : ℕ := (m.keyLifetime * 3 / 2).toNat

def readAuthHeader (E : OpenSSL R) (m : Manager R) (now : ℕ) (auth : Text) :
    Except HttpExn (Manager R × Crypto R) :=
  match parseAuth auth with
  | .existingKey keyIdent =>
    match m.sessionKeys keyIdent with
    | none => .error .renegotiate
    | some sk =>
      if now < sk.deadline then
        .ok (m, ⟨sk.key, sk.keyIdent, sk.peerIdent, [], none, sk.deadline, true⟩)
      else .error .renegotiate
  | .newKey h =>
    match m.clients h.clientIdent with
    | none => .error .unknownClient
    | some clientRsa => do
      let key ← sentKey E clientRsa m.selfRsa h
      let deadline := now + m.serverLifetime
      .ok ({ m with sessionKeys :=
            Function.update m.sessionKeys h.keyIdent (some ⟨h.clientIdent, h.keyIdent, key, deadline⟩) },
        ⟨key, h.keyIdent, h.clientIdent, [], none, deadline, true⟩)
  | .invalid => .error .httpHeaderInvalid

end Manager

end OmniORB.Http
