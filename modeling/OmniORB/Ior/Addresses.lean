import OmniORB.Uri.HostPort

/-!
# The addresses of an IOR

`giopAddress` with the transports tcp, ssl, unix and http, and `matchType` of `giopEndpoint.cc`.
-/

namespace OmniORB

/-- The transports that are linked. -/
inductive Transport where
  | tcp | ssl | unix | http
  deriving DecidableEq, Repr

/-- `giopTransportImpl::type` -/
def Transport.type : Transport → List UInt8
  | .tcp => ascii "giop:tcp"
  | .ssl => ascii "giop:ssl"
  | .unix => ascii "giop:unix"
  | .http => ascii "giop:http"

def Transport.all : List Transport := [.tcp, .ssl, .unix, .http]

/-- `tcpAddress`, `sslAddress`, `unixAddress` and `httpAddress` with what they are made from. -/
inductive GiopAddress where
  | tcp (address : Address)
  | ssl (address : Address)
  | unix (filename : CString)
  | http (url : CString)
  deriving DecidableEq

/-- `httpTransportImpl::isValid` -/
def httpIsValid (param : List UInt8) : Bool :=
  (extractURL param).any fun url =>
    url.scheme.octets = ascii "https" || url.scheme.octets = ascii "http" ||
      url.scheme.octets = ascii "wss" || url.scheme.octets = ascii "ws"

/-- `giopTransportImpl::toAddress` -/
def Transport.toAddress (param : List UInt8) : Transport → Option GiopAddress
  | .tcp => (extractHostPort param).map .tcp
  | .ssl => (extractHostPort param).map .ssl
  | .unix => some (.unix (.ofBuffer param))
  | .http => if httpIsValid param then some (.http (.ofBuffer param)) else none

/-- `matchType` with shorthands: the transport and the text behind its type. A text that starts with
a colon or has two of them at its first one is a shorthand, if there is another colon. -/
def matchType (uri : List UInt8) : Option (Transport × List UInt8) :=
  let p1 := uri.dropWhile (· ≠ 0x3a)
  let p2 := (p1.drop 1).dropWhile (· ≠ 0x3a)
  if p1 ≠ [] ∧ (peek uri = 0x3a ∨ peek (p1.drop 1) = 0x3a) ∧ p2 ≠ [] then
    let expanded :=
      (if peek uri = 0x3a then ascii "giop" else uri.takeWhile (· ≠ 0x3a)) ++
      (if peek (p1.drop 1) = 0x3a then ascii ":tcp"
        else 0x3a :: (p1.drop 1).takeWhile (· ≠ 0x3a))
    (Transport.all.find? fun impl => startsWith impl.type expanded).map fun impl => (impl, p2.drop 1)
  else
    (Transport.all.find? fun impl => startsWith impl.type uri).bind fun impl =>
      if peek (uri.drop impl.type.length) = 0x3a then
        some (impl, uri.drop (impl.type.length + 1))
      else none

namespace GiopAddress

/-- `giopAddress::str2Address` -/
def str2Address (address : List UInt8) : Option GiopAddress :=
  (matchType address).bind fun impl => impl.1.toAddress impl.2

def fromTcpAddress (addr : Address) : Option GiopAddress :=
  str2Address (buildURI (ascii "giop:tcp") addr)

def fromSslAddress (addr : Address) : Option GiopAddress :=
  str2Address (buildURI (ascii "giop:ssl") addr)

/-- `address()` where `type()` is `giop:tcp`. -/
def tcpAddress? : GiopAddress → Option (List UInt8)
  | .tcp a => some (buildURI (ascii "giop:tcp") a)
  | _ => none

/-! ### The text of an address -/

lemma matchType_type (t : Transport) (param : List UInt8) :
    matchType (t.type ++ 0x3a :: param) = some (t, param) := by
  cases t <;> rfl

lemma str2Address_type (t : Transport) (param : List UInt8) :
    str2Address (t.type ++ 0x3a :: param) = t.toAddress param := by
  rw [str2Address, matchType_type]
  rfl

lemma fromTcpAddress_eq (a : Address) : fromTcpAddress a =
    (extractHostPort (uriHost a.host.octets ++ 0x3a :: decimal a.port.toNat)).map .tcp :=
  str2Address_type .tcp _

lemma fromSslAddress_eq (a : Address) : fromSslAddress a =
    (extractHostPort (uriHost a.host.octets ++ 0x3a :: decimal a.port.toNat)).map .ssl :=
  str2Address_type .ssl _

lemma fromTcpAddress_of_readable {a : Address} (h : a.host.Readable) :
    fromTcpAddress a = some (.tcp a) := by
  rw [fromTcpAddress_eq, extractHostPort_of_readable h]
  rfl

lemma fromSslAddress_of_readable {a : Address} (h : a.host.Readable) :
    fromSslAddress a = some (.ssl a) := by
  rw [fromSslAddress_eq, extractHostPort_of_readable h]
  rfl

/-- An address without a port that is read at all has none then. -/
lemma port_of_fromTcpAddress {a : Address} {x : GiopAddress} (h : fromTcpAddress a = some x) :
    ∃ b : Address, x = .tcp b ∧ b.port = a.port := by
  rw [fromTcpAddress_eq] at h
  obtain ⟨b, hb, rfl⟩ := Option.map_eq_some_iff.mp h
  exact ⟨b, rfl, port_of_extractHostPort hb⟩

lemma str2Address_unix (filename : CString) :
    str2Address (ascii "giop:unix:" ++ filename.octets) = some (.unix filename) := by
  have h := str2Address_type .unix filename.octets
  rw [Transport.toAddress, CString.ofBuffer_octets] at h
  exact h

lemma str2Address_http {url : CString} (hurl : httpIsValid url.octets = true) :
    str2Address (ascii "giop:http:" ++ url.octets) = some (.http url) := by
  have h := str2Address_type .http url.octets
  rw [Transport.toAddress, if_pos hurl, CString.ofBuffer_octets] at h
  exact h

end GiopAddress

end OmniORB
