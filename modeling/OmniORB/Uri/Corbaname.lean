import OmniORB.Uri.Addresses

/-!
# corbaname URIs

`corbalocURIHandler::Parsed`, the parsing part of `corbanameURIHandler`, and `addrAndNameToURI`.
-/

namespace OmniORB

open Library

/-- `corbalocURIHandler::Parsed`; `addr_count_` is the number of addresses. -/
structure Parsed where
  addrList : List ObjAddr
  isRir : Bool
  key : List UInt8
  keySize : ℕ
  deriving DecidableEq

/-- The addresses after a `,`. -/
def moreAddrs (c : List UInt8) : Except UriExn (List ObjAddr × List UInt8) :=
  if hc : peek c = 0x2c then
    match h : ObjAddr.parse (c.drop 1) with
    | .error e => .error e
    | .ok (a, c') =>
      have hlen : c'.length ≤ (c.drop 1).length :=
        (ObjAddr.parse_delimited (w := [])).length_le _ _ _ h
      have hpos : 1 ≤ c.length := of_peek_ne_zero (by rw [hc]; decide)
      do
        let r ← moreAddrs c'
        .ok (a :: r.1, r.2)
  else .ok ([], c)
termination_by c.length
decreasing_by
  rw [List.length_drop] at hlen
  omega

/-- The key of `Parsed`. -/
def parsedKey (defKey : Option (List UInt8)) (c : List UInt8) :
    Except UriExn (List UInt8 × List UInt8) :=
  if peek c = 0x2f then unescape (c.drop 1)
  else
    match defKey with
    | some key => .ok (key, c)
    | none => .error (.badParam .badURIOther)

/-- The constructor of `Parsed`. -/
def Parsed.parse (defKey : Option (List UInt8)) (c : List UInt8) :
    Except UriExn (Parsed × List UInt8) := do
  let addr ← ObjAddr.parse c
  let addrs ← moreAddrs addr.2
  let addrList := addr.1 :: addrs.1
  let isRir := addrList.contains .rir
  if isRir ∧ ulong addrList.length ≠ 1 then .error (.badParam .badURIOther)
  else do
    let key ← parsedKey defKey addrs.2
    .ok (⟨addrList, isRir, key.1, ulong key.1.length⟩, key.2)

/-- The default key of a corbaname. -/
def nameService : List UInt8 := ascii "NameService"

/-- What `corbanameURIHandler::toObject` reads from a URI: the service, and unless the URI ends
there, the stringified name and the name. -/
def corbanameToObject (uri : CString) : Except UriExn (Parsed × Option (CString × Name)) := do
  let parsed ← Parsed.parse (some nameService) (uri.octets.drop 10)
  if peek parsed.2 = 0 then .ok (parsed.1, none)
  else if peek parsed.2 ≠ 0x23 then .error (.badParam .badSchemeSpecificPart)
  else do
    let key ← unescape (parsed.2.drop 1)
    let sname := CString.ofBuffer (key.1 ++ [0])
    match stringToName (some sname) with
    | .ok name => .ok (parsed.1, some (sname, name))
    | .error .invalidName => .error (.badParam .badSchemeSpecificPart)
    | .error e => .error e

/-- `corbanameURIHandler::syntaxIsValid`: whatever is thrown makes it false. -/
def corbanameSyntaxIsValid (uri : CString) : Bool :=
  match Parsed.parse (some nameService) (uri.octets.drop 10) with
  | .error _ => false
  | .ok (_, c) =>
    if peek c = 0 then true
    else if peek c ≠ 0x23 then false
    else
      match unescape (c.drop 1) with
      | .error _ => false
      | .ok (key, _) =>
        match stringToName (some (.ofBuffer (key ++ [0]))) with
        | .error _ => false
        | .ok _ => true

/-- A digit of a hexadecimal escape. -/
def hexChar (v : UInt8) : UInt8 := if v < 10 then 0x30 + v else 0x61 + v - 10

/-- What stands for one octet of the name in a URI. -/
def escapedKeyChar (c : UInt8) : List UInt8 :=
  if validKeyChar c then [c] else [0x25, hexChar ((c &&& 0xf0) >>> 4), hexChar (c &&& 0xf)]

/-- The first loop over `sn`. -/
def escapedKeySize (sn : CString) : ℕ :=
  (sn.octets.map fun c => if validKeyChar c then 1 else 3).sum

/-- `len` after all additions. -/
def uriSpace (addr sn : CString) : ℕ :=
  ulong (escapedKeySize sn + 10 + ulong addr.octets.length + 1 + 1)

/-- What is written for the URI, without the terminator. -/
def uriWritten (addr sn : CString) : List UInt8 :=
  ascii "corbaname:" ++ addr.octets ++
    if sn.octets = [] then [] else 0x23 :: sn.octets.flatMap escapedKeyChar

/-- The check that the address is valid: a `BAD_PARAM` becomes `InvalidAddress`. -/
def checkAddr (addr : CString) : Except UriExn Unit :=
  match Parsed.parse (some nameService) addr.octets with
  | .ok (_, []) => .ok ()
  | .ok (_, _ :: _) => .error .invalidAddress
  | .error (.badParam _) => .error .invalidAddress
  | .error e => .error e

/-- `omniURI::addrAndNameToURI`; `none` is a null pointer. -/
def addrAndNameToURI (addr sn : Option CString) : Except UriExn CString :=
  match addr, sn with
  | none, _ => .error .invalidAddress
  | some addr, sn =>
    if addr.octets = [] then .error .invalidAddress
    else
      match sn with
      | none => .error .invalidName
      | some sn => do
        checkAddr addr
        if sn.octets ≠ [] then
          let _ ← stringToName (some sn)
        let cap ← stringAlloc (uriSpace addr sn)
        if (uriWritten addr sn).length < cap then .ok (.ofBuffer (uriWritten addr sn ++ [0]))
        else .error .overrun

end OmniORB
