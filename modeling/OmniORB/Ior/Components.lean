import OmniORB.Cdr.Encapsulation
import OmniORB.Ior.Addresses
import OmniORB.Library.BinarySearch

/-!
# The components of an IOR

What a server publishes of itself and `insertSupportedComponents`, which puts it in a profile, and
`extractSupportedComponents`, which gets addresses from it, of `ior.cc`. The handlers are entered
with components of their own tags only, as they assert.
-/

namespace OmniORB

open Library

namespace IOP

def tagOrbType : ℕ := 0
def tagCodeSets : ℕ := 1
def tagAlternateIIOPAddress : ℕ := 3
def tagSSLSecTrans : ℕ := 20
def tagCSISecMechList : ℕ := 33
def tagTLSSecTrans : ℕ := 36
def tagOmniorbBidir : ℕ := 0x41545401
def tagOmniorbUnixTrans : ℕ := 0x41545402
def tagOmniorbPersistentId : ℕ := 0x41545403
def tagOmniorbHttpTrans : ℕ := 0x41545405

structure TaggedComponent where
  tag : ℕ
  componentData : List UInt8
  deriving DecidableEq

end IOP

open IOP

/-! ### What is published -/

structure IORPublish where
  address : Address := ⟨.empty, 0⟩
  alternativeAddrs : List (List UInt8) := []
  sslAddrs : List (List UInt8) := []
  unixAddrs : List (List UInt8) := []
  httpAddrs : List (List UInt8) := []
  csiComponent : List UInt8 := []
  tlsAddrs : List Address := []
  tlsSupports : UInt16 := 0
  tlsRequires : UInt16 := 0
  csiEnabled : Bool := false

/-- `OMNIORB_HOSTNAME_MAX` -/
def hostnameMax : ℕ := 512

/-- The host that an ORB runs on, as `gethostname` names it, and what it publishes of itself. -/
structure OrbParameters where
  self : CString
  self_lt : self.octets.length < hostnameMax
  nativeCharCodeSet : UInt32
  nativeWCharCodeSet : UInt32
  persistentId : List UInt8

/-- `IIOP::Address::operator>>=` -/
def CdrOut.marshalAddress (s : CdrOut) (a : Address) : CdrOut :=
  (s.marshalRawString a.host.octets).1.marshalUShort a.port

namespace IORPublish

def addTagAlternateIIOPAddress (eps : IORPublish) (address : Address) : IORPublish :=
  { eps with alternativeAddrs :=
      eps.alternativeAddrs ++ [encapsulate fun s => s.marshalAddress address] }

def addIIOPAddress (eps : IORPublish) (address : Address) : IORPublish :=
  if eps.address.port = 0 then { eps with address := address }
  else eps.addTagAlternateIIOPAddress address

/-- The encapsulation in a `TAG_SSL_SEC_TRANS`. -/
def sslComponent (supports requires port : UInt16) : List UInt8 :=
  encapsulate fun s => ((s.marshalUShort supports).marshalUShort requires).marshalUShort port

def addTagSSLSecTrans (eps : IORPublish) (address : Address) (supports requires : UInt16) :
    IORPublish :=
  let eps := { eps with
    tlsAddrs := eps.tlsAddrs ++ [address], tlsSupports := supports, tlsRequires := requires }
  if eps.address.host.octets ≠ [] ∧ eps.address.host ≠ address.host then
    { eps with csiEnabled := true }
  else { eps with
    address := { eps.address with host := address.host }
    sslAddrs := eps.sslAddrs ++ [sslComponent supports requires address.port] }

/-- `none` where the assertion on the file name fails. -/
def addTagOmniorbUnixTrans (self : CString) (eps : IORPublish) (filename : CString) :
    Option IORPublish :=
  if filename.octets = [] then none
  else some { eps with
    address := if eps.address.host.octets = [] then { eps.address with host := self }
      else eps.address
    unixAddrs := eps.unixAddrs ++ [encapsulate fun s =>
      ((s.marshalRawString self.octets).1.marshalRawString filename.octets).1] }

/-- `none` where one of the assertions on the URL fails. -/
def addTagOmniorbHttpTrans (eps : IORPublish) (url : CString) : Option IORPublish :=
  if url.octets = [] then none
  else
    (if eps.address.host.octets = [] then
        (extractURL url.octets).map fun u => { eps.address with host := u.address.host }
      else some eps.address).map fun address => { eps with
        address := address
        httpAddrs := eps.httpAddrs ++ [encapsulate fun s => (s.marshalRawString url.octets).1] }

end IORPublish

/-! ### Filling a profile -/

/-- The encapsulation in the transport mechanism of a `TAG_CSI_SEC_MECH_LIST`. -/
def tlsComponent (addrs : List Address) (supports requires : UInt16) : List UInt8 :=
  encapsulate fun s =>
    ((s.marshalUShort supports).marshalUShort requires).marshalSequence CdrOut.marshalAddress addrs

/-- `IOP::TaggedComponent::operator>>=` -/
def CdrOut.marshalTaggedComponent (s : CdrOut) (c : TaggedComponent) : CdrOut :=
  (s.marshalULong c.tag).marshalOctetSeq c.componentData

/-- A `CompoundSecMech` with nothing that it asks for above its transport. -/
def CdrOut.marshalCompoundSecMech (s : CdrOut) (requires : UInt16) (transportMech : TaggedComponent) :
    CdrOut :=
  let s := (s.marshalUShort requires).marshalTaggedComponent transportMech
  let s := (((s.marshalUShort 0).marshalUShort 0).marshalULong 0).marshalULong 0
  ((((s.marshalUShort 0).marshalUShort 0).marshalULong 0).marshalULong 0).marshalULong 0

/-- `add_TAG_CSI_SEC_MECH_LIST` -/
def csiComponent (addrs : List Address) (supports requires : UInt16) : List UInt8 :=
  encapsulate fun s => ((s.marshalBoolean false).marshalULong 1).marshalCompoundSecMech requires
    ⟨tagTLSSecTrans, tlsComponent addrs supports requires⟩

structure Version where
  major : ℕ
  minor : ℕ
  deriving DecidableEq

/-- `v.major > 1 || v.minor >= minor` -/
def Version.atLeast (v : Version) (minor : ℕ) : Bool := 1 < v.major || minor ≤ v.minor

/-- `IIOP::ProfileBody`, without the object key. -/
structure ProfileBody where
  version : Version
  address : Address
  components : List TaggedComponent
  deriving DecidableEq

namespace OrbParameters

/-- `my_orb_type` -/
def myOrbType : List UInt8 := encapsulate fun s => s.marshalULong 0x41545400

/-- `CodeSetComponent::operator>>=` with one conversion code set. -/
def marshalCodeSetComponent (s : CdrOut) (native conversion : UInt32) : CdrOut :=
  (s.marshalULong native.toNat).marshalSequence
    (fun s (id : UInt32) => s.marshalULong id.toNat) [conversion]

/-- `my_code_set`, with UTF-8 and UTF-16 to convert to. -/
def myCodeSet (orb : OrbParameters) : List UInt8 :=
  encapsulate fun s => marshalCodeSetComponent
    (marshalCodeSetComponent s orb.nativeCharCodeSet 0x05010001) orb.nativeWCharCodeSet 0x00010109

end OrbParameters

/-- The component for a `TAG_CSI_SEC_MECH_LIST`, which is made once only. -/
def IORPublish.withCSIComponent (eps : IORPublish) : IORPublish :=
  if eps.csiEnabled ∧ eps.csiComponent = [] then
    { eps with csiComponent := OmniORB.csiComponent eps.tlsAddrs eps.tlsSupports eps.tlsRequires }
  else eps

/-- The components of a tag for each of a list of encapsulations. -/
def componentsFor (tag : ℕ) (l : List (List UInt8)) : List TaggedComponent :=
  l.map fun data => ⟨tag, data⟩

/-- The components that a profile gets, of what is published with the CSI component. -/
def supportedComponents (orb : OrbParameters) (eps : IORPublish) (v : Version) :
    List TaggedComponent :=
  (if v.atLeast 1 then [⟨tagOrbType, OrbParameters.myOrbType⟩] else []) ++
  ((if v.atLeast 2 then [⟨tagCodeSets, orb.myCodeSet⟩] else []) ++
  ((if v.atLeast 2 then componentsFor tagAlternateIIOPAddress eps.alternativeAddrs else []) ++
  ((if v.atLeast 1 then componentsFor tagSSLSecTrans eps.sslAddrs else []) ++
  ((if v.atLeast 1 ∧ eps.csiEnabled then [⟨tagCSISecMechList, eps.csiComponent⟩] else []) ++
  ((if v.atLeast 2 then componentsFor tagOmniorbUnixTrans eps.unixAddrs else []) ++
  ((if v.atLeast 2 then componentsFor tagOmniorbHttpTrans eps.httpAddrs else []) ++
  (if v.atLeast 1 ∧ orb.persistentId ≠ [] then
    [⟨tagOmniorbPersistentId, orb.persistentId⟩] else [])))))))

/-- `insertSupportedComponents`: what is published afterwards, with a component that has been made,
and the profile. -/
def insertSupportedComponents (orb : OrbParameters) (eps : IORPublish) (iiop : ProfileBody) :
    Except IorExn (IORPublish × ProfileBody) :=
  if iiop.address.host.octets = [] ∧ eps.address.host.octets = [] then .error .marshalInvalidIOR
  else
    let filled := if iiop.version.atLeast 1 then eps.withCSIComponent else eps
    .ok (filled, { iiop with
      address := if iiop.address.host.octets = [] then eps.address else iiop.address
      components := iiop.components ++ supportedComponents orb filled iiop.version })

/-! ### Reading a profile -/

namespace Unmarshal

/-- `IIOP::Address::operator<<=` -/
def address : Unmarshal Address := do
  let host ← rawString
  let port ← Unmarshal.ushort
  return ⟨host, port⟩

/-- `IOP::TaggedComponent::operator<<=` -/
def taggedComponent : Unmarshal TaggedComponent := do
  let tag ← ulong
  let data ← octetSeq
  return ⟨tag, data⟩

/-- `CodeSetComponent::operator<<=` -/
def codeSetComponent : Unmarshal (ℕ × List UInt32) := do
  let native ← ulong
  let conversion ← sequence (ulong >>= fun n => pure (UInt32.ofNat n))
  return (native, conversion)

end Unmarshal

open Unmarshal

namespace OmniIOR

/-- `ior.getIORInfo()->addresses()` after a handler. -/
abbrev Handler := List UInt8 → List GiopAddress → Except IorExn (List GiopAddress)

def unmarshalTagOrbType : Handler := fun data addresses => do
  let _ ← fromEncapsulation data Unmarshal.ulong
  .ok addresses

def unmarshalTagCodeSets : Handler := fun data addresses => do
  let _ ← fromEncapsulation data (do
    let forChar ← codeSetComponent
    let forWChar ← codeSetComponent
    return (forChar, forWChar))
  .ok addresses

def unmarshalTagAlternateIIOPAddress : Handler := fun data addresses => do
  let v ← fromEncapsulation data Unmarshal.address
  .ok (addresses ++ (GiopAddress.fromTcpAddress v).toList)

/-- The port in a `TAG_SSL_SEC_TRANS` of so many octets, with shorts as the standard has it or with
longs. -/
def sslPort (length : ℕ) : Unmarshal UInt16 :=
  if length = 8 then do
    let _ ← Unmarshal.ushort
    let _ ← Unmarshal.ushort
    Unmarshal.ushort
  else do
    let _ ← Unmarshal.ulong
    let _ ← Unmarshal.ulong
    Unmarshal.ushort

/-- The host is that of the first tcp address. An address string that cannot be read would leave a
null pointer as the host. -/
def unmarshalTagSSLSecTrans : Handler := fun data addresses => do
  let e ← CdrIn.ofEncapsulation data
  match (sslPort data.length).run e with
  | .error _ => .ok addresses
  | .ok (port, _) =>
    match addresses.findSome? GiopAddress.tcpAddress? with
    | none => .ok addresses
    | some tcpaddr =>
      match extractHostPort (tcpaddr.drop 9) with
      | none => .error (.cdr .assertionFailure)
      | some tcp => .ok (addresses ++ (GiopAddress.fromSslAddress ⟨tcp.host, port⟩).toList)

/-- The addresses of a transport mechanism, and whether all of them were read. -/
def tlsAddresses : ℕ → List GiopAddress → Unmarshal (List GiopAddress × Bool)
  | 0, addresses => pure (addresses, true)
  | n + 1, addresses => do
    let ssladdr ← Unmarshal.address
    match GiopAddress.fromSslAddress ssladdr with
    | none => pure (addresses, false)
    | some address => tlsAddresses n (addresses ++ [address])

/-- A transport mechanism of the tag for TLS. -/
def tlsMechanism (data : List UInt8) (addresses : List GiopAddress) :
    Except IorExn (List GiopAddress × Bool) :=
  fromEncapsulation data (do
    let _ ← Unmarshal.ushort
    let _ ← Unmarshal.ushort
    let addressesLen ← Unmarshal.ulong
    if data.length < addressesLen then throw (.cdr .marshalPassEndOfMessage)
    else tlsAddresses addressesLen addresses)

/-- A `CompoundSecMech`, of which the result has what decides whether it is supported. -/
def compoundSecMech : Unmarshal (UInt16 × UInt16 × TaggedComponent) := do
  let _targetRequires ← Unmarshal.ushort
  let transportMech ← taggedComponent
  let _asTargetSupports ← Unmarshal.ushort
  let asTargetRequires ← Unmarshal.ushort
  let _asClientAuthenticationMech ← octetSeq
  let _asTargetName ← octetSeq
  let _sasTargetSupports ← Unmarshal.ushort
  let sasTargetRequires ← Unmarshal.ushort
  let authoritiesLen ← Unmarshal.ulong
  if transportMech.componentData.length < authoritiesLen then
    throw (.cdr .marshalPassEndOfMessage)
  else
    let _ ← items (Unmarshal.ulong >>= fun syntax' => octetSeq >>= fun name => pure (syntax', name))
      authoritiesLen
    let _ ← sequence octetSeq
    let _ ← Unmarshal.ulong
    return (asTargetRequires, sasTargetRequires, transportMech)

def compoundSecMechs : ℕ → List GiopAddress → Unmarshal (List GiopAddress)
  | 0, addresses => pure addresses
  | n + 1, addresses => do
    let mech ← compoundSecMech
    if mech.1 = 0 ∧ mech.2.1 = 0 ∧ mech.2.2.tag = tagTLSSecTrans then
      let r ← StateT.lift (tlsMechanism mech.2.2.componentData addresses)
      if r.2 then compoundSecMechs n r.1 else pure r.1
    else compoundSecMechs n addresses

def unmarshalTagCSISecMechList : Handler := fun data addresses =>
  fromEncapsulation data (do
    let _stateful ← boolean
    let mechCount ← Unmarshal.ulong
    if data.length < mechCount then throw (.cdr .marshalPassEndOfMessage)
    else compoundSecMechs mechCount addresses)

def unmarshalTagOmniorbBidir : Handler := fun data addresses => do
  let _ ← fromEncapsulation data rawString
  .ok addresses

def unmarshalTagOmniorbUnixTrans (self : CString) : Handler := fun data addresses => do
  let v ← fromEncapsulation data (do
    let host ← rawString
    let filename ← rawString
    return (host, filename))
  if self ≠ v.1 ∨ v.2.octets = [] then .ok addresses
  else .ok (addresses ++ (GiopAddress.str2Address (ascii "giop:unix:" ++ v.2.octets)).toList)

def unmarshalTagOmniorbHttpTrans : Handler := fun data addresses => do
  let url ← fromEncapsulation data rawString
  if url.octets = [] then .ok addresses
  else .ok (addresses ++ (GiopAddress.str2Address (ascii "giop:http:" ++ url.octets)).toList)

def unmarshalTagOmniorbPersistentId : Handler := fun _ addresses => .ok addresses

/-- `componentUnmarshalHandlers` -/
def componentUnmarshalHandlers (self : CString) : List (ℕ × Option Handler) :=
  [(tagOrbType, some unmarshalTagOrbType),
    (tagCodeSets, some unmarshalTagCodeSets),
    (2, none),
    (tagAlternateIIOPAddress, some unmarshalTagAlternateIIOPAddress),
    (5, none), (6, none), (12, none), (13, none), (14, none), (15, none), (16, none), (17, none),
    (18, none), (19, none),
    (tagSSLSecTrans, some unmarshalTagSSLSecTrans),
    (21, none), (22, none), (23, none), (24, none), (25, none),
    (tagCSISecMechList, some unmarshalTagCSISecMechList),
    (100, none), (101, none), (102, none), (103, none), (123, none), (90002, none), (90003, none),
    (tagOmniorbBidir, some unmarshalTagOmniorbBidir),
    (tagOmniorbUnixTrans, some (unmarshalTagOmniorbUnixTrans self)),
    (tagOmniorbPersistentId, some unmarshalTagOmniorbPersistentId),
    (tagOmniorbHttpTrans, some unmarshalTagOmniorbHttpTrans)]

/-- The handler for a tag, that is searched for in the table. -/
def handlerFor (self : CString) (tag : ℕ) : Option Handler :=
  let table := componentUnmarshalHandlers self
  (search (fun entry => (tag : ℤ) - entry.1) table table.length 0 table.length).bind Prod.snd

end OmniIOR

/-- What one component adds to the addresses. -/
def extractComponent (self : CString) (addresses : List GiopAddress) (c : TaggedComponent) :
    Except IorExn (List GiopAddress) :=
  match OmniIOR.handlerFor self c.tag with
  | some handler => handler c.componentData addresses
  | none => .ok addresses

/-- `extractSupportedComponents` on a profile with an IIOP body: the addresses. -/
def extractSupportedComponents (self : CString) (iiop : ProfileBody) :
    Except IorExn (List GiopAddress) :=
  iiop.components.foldlM (extractComponent self) (GiopAddress.fromTcpAddress iiop.address).toList

end OmniORB
