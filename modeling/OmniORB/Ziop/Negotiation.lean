import OmniORB.Ior.Components
import OmniORB.Ziop.Decompression

/-!
# Negotiating compression

The policies of `omniZIOP.cc`, what they put into an IOR and into the service contexts of a request,
and what the other side takes from them.
-/

namespace OmniORB.Ziop

open Library

/-- What ends these functions other than their return. -/
inductive ZiopExn where
  | ior (e : IorExn)
  | badParamIndexOutOfRange
  | badParamInvalidCompressionLevel
  | invObjrefInterfaceMismatch
  | assertionFailure
  deriving DecidableEq

/-! ### Compressor ids -/

/-- `Compression::CompressorIdLevel` -/
structure CompressorIdLevel where
  compressorId : UInt16
  compressionLevel : UInt16
  deriving DecidableEq, Repr

/-- `min`, which returns a `CORBA::Boolean` -/
def min (a b : UInt16) : Bool := (if a < b then a else b) ≠ 0

/-- The body of the inner loop of `filterCompressors`. -/
def filterStep (room : ℕ) (t : CompressorIdLevel) (combined : List CompressorIdLevel)
    (m : CompressorIdLevel) : Except ZiopExn (List CompressorIdLevel) :=
  if m.compressorId = t.compressorId then
    if combined.length < room then
      .ok (combined ++ [⟨t.compressorId,
        if min t.compressionLevel m.compressionLevel then 1 else 0⟩])
    else .error .badParamIndexOutOfRange
  else .ok combined

/-- The result has room for as many ids as there are in the first list. -/
def filterCompressors (theirs mine : List CompressorIdLevel) :
    Except ZiopExn (List CompressorIdLevel) :=
  theirs.foldlM (fun combined t => mine.foldlM (filterStep theirs.length t) combined) []

/-! ### Policies -/

/-- The values of the ZIOP policies, global or of a POA. -/
structure ZiopPolicies (ρ : Type) where
  compressionEnabled : Bool
  compressorIds : List CompressorIdLevel
  lowValue : ℕ
  minRatio : ρ

/-- A policy object. One with the type of a ZIOP policy may still be another object. -/
inductive PolicyObject (ρ : Type) where
  | compressionEnabling (enabled : Bool)
  | compressionIdLevelList (ids : List CompressorIdLevel)
  | compressionLowValue (lowValue : ℕ)
  | compressionMinRatio (ratio : ρ)
  | mistyped
  | other

section

variable {ρ : Type}

/-- What was assigned before an exception stays. -/
def decodePolicies : List (PolicyObject ρ) → ZiopPolicies ρ → ZiopPolicies ρ × Option ZiopExn
  | [], p => (p, none)
  | .compressionEnabling enabled :: l, p =>
    decodePolicies l { p with compressionEnabled := enabled }
  | .compressionIdLevelList ids :: l, p => decodePolicies l { p with compressorIds := ids }
  | .compressionLowValue lowValue :: l, p => decodePolicies l { p with lowValue }
  | .compressionMinRatio ratio :: l, p => decodePolicies l { p with minRatio := ratio }
  | .mistyped :: _, p => (p, some .invObjrefInterfaceMismatch)
  | .other :: l, p => decodePolicies l p

def setGlobalPolicies (policies : List (PolicyObject ρ)) (g : ZiopPolicies ρ) :
    ZiopPolicies ρ × Option ZiopExn :=
  decodePolicies policies { g with compressionEnabled := true, compressorIds := [⟨4, 6⟩] }

/-! ### Policy values -/

/-- `Messaging::PolicyValue` -/
structure PolicyValue where
  ptype : ℕ
  pvalue : List UInt8

def marshalIdLevel (s : CdrOut) (c : CompressorIdLevel) : CdrOut :=
  (s.marshalUShort c.compressorId).marshalUShort c.compressionLevel

def marshalPolicyValue (s : CdrOut) (v : PolicyValue) : CdrOut :=
  (s.marshalULong v.ptype).marshalOctetSeq v.pvalue

def idLevel : Unmarshal CompressorIdLevel := do
  let compressorId ← Unmarshal.ushort
  let compressionLevel ← Unmarshal.ushort
  return ⟨compressorId, compressionLevel⟩

def policyValue : Unmarshal PolicyValue := do
  let ptype ← Unmarshal.ulong
  let pvalue ← Unmarshal.octetSeq
  return ⟨ptype, pvalue⟩

/-- The enabling policy, and the list of compressor ids. -/
def policyValues (ids : List CompressorIdLevel) : List PolicyValue :=
  [⟨64, encapsulate fun s => s.marshalBoolean true⟩,
    ⟨65, encapsulate fun s => s.marshalSequence marshalIdLevel ids⟩]

/-- What goes into an IOR, and into a service context. -/
def encodePolicyValues (ids : List CompressorIdLevel) : List UInt8 :=
  encapsulate fun s => s.marshalSequence marshalPolicyValue (policyValues ids)

/-- A reader of an encapsulation, among the exceptions of this module. -/
def fromEncapsulation {α : Type} (data : List UInt8) (r : Unmarshal α) : Except ZiopExn α :=
  (Unmarshal.fromEncapsulation data r).mapError .ior

/-! ### IORs -/

def tagPolicies : ℕ := 2

def setPoliciesInProfile (g : ZiopPolicies ρ) (policies : Option (List (PolicyObject ρ)))
    (components : List IOP.TaggedComponent) : Except ZiopExn (List IOP.TaggedComponent) :=
  match decodePolicies (policies.getD []) g with
  | (_, some e) => .error e
  | (p, none) =>
    if p.compressionEnabled then
      .ok (components ++ [⟨tagPolicies, encodePolicyValues p.compressorIds⟩])
    else .ok components

/-- The value of the first enabling policy. -/
def enableZiop (pvseq : List PolicyValue) : Except ZiopExn Bool :=
  match pvseq.find? fun v => v.ptype = 64 with
  | some v => fromEncapsulation v.pvalue .boolean
  | none => .ok false

/-- The constructor of `ZIOPInfo`. -/
def ziopInfo (mine : List CompressorIdLevel) (pvseq : List PolicyValue) :
    Except ZiopExn (List CompressorIdLevel) :=
  pvseq.foldlM (fun ids v =>
    if v.ptype = 65 then do
      let theirs ← fromEncapsulation v.pvalue (.sequence idLevel)
      filterCompressors theirs mine
    else .ok ids) []

/-- The `ZIOPInfo` that `decodeIORInterceptor` puts into an IOR, together with the flag
`GIOPSTRAND_COMPRESSION`. System exceptions are caught. -/
def decodeIOR (mine : List CompressorIdLevel) (components : List IOP.TaggedComponent) :
    Option (List CompressorIdLevel) :=
  match components.find? fun c => c.tag = tagPolicies with
  | none => none
  | some c =>
    let ids : Except ZiopExn (List CompressorIdLevel) := do
      let pvseq ← fromEncapsulation c.componentData (.sequence policyValue)
      if ← enableZiop pvseq then ziopInfo mine pvseq else .ok []
    match ids with
    | .ok (id :: l) => some (id :: l)
    | .ok [] | .error _ => none

/-! ### Strands -/

/-- `giopCompressorImpl`, with its ids and its compressors as one list. -/
structure CompressorImpl (κ ρ : Type) where
  compressors : List (CompressorIdLevel × κ)
  minSize : ℕ
  ratio : ρ

def CompressorImpl.compressorIds {κ ρ : Type} (c : CompressorImpl κ ρ) : List CompressorIdLevel :=
  c.compressors.map Prod.fst

/-- What the interceptors use of a `giopStrand`. -/
structure ZiopStrand (κ ρ : Type) where
  firstCall : Bool
  compression : Bool
  compressor : Option (CompressorImpl κ ρ)

/-- `get_compressor` of the compression manager, for an id and a level. -/
abbrev Manager (κ : Type) := UInt16 → UInt16 → Option κ

variable {κ : Type} (manager : Manager κ)

/-- The compressor for an id and a level. -/
def getCompressor (c : CompressorIdLevel) : Except ZiopExn (CompressorIdLevel × κ) :=
  match manager c.compressorId c.compressionLevel with
  | some k => .ok (c, k)
  | none => .error .badParamInvalidCompressionLevel

/-- `giopCompressorImpl::setPolicies` -/
def setPolicies (ids : List CompressorIdLevel) (minSize : ℕ) (ratio : ρ) :
    Except ZiopExn (CompressorImpl κ ρ) := do
  let compressors ← ids.mapM (getCompressor manager)
  return ⟨compressors, minSize, ratio⟩

/-- `IOP::ServiceContext` -/
structure Context where
  contextId : ℕ
  contextData : List UInt8

def invocationPolicies : ℕ := 7

/-- `clientSendRequestInterceptor`, for a request to an IOR with this `ZIOPInfo`. -/
def clientSendRequest (g : ZiopPolicies ρ) (info : Option (List CompressorIdLevel))
    (strand : ZiopStrand κ ρ) (contexts : List Context) :
    Except ZiopExn (ZiopStrand κ ρ × List Context) :=
  if strand.firstCall && strand.compression then
    if strand.compressor.isSome then .error .assertionFailure
    else
      match info with
      | none => .error .assertionFailure
      | some ids => do
        let compressor ← setPolicies manager ids
          (if g.compressionEnabled then g.lowValue else 0xffffffff) g.minRatio
        return ({ strand with compressor := some compressor },
          contexts ++ [⟨invocationPolicies, encodePolicyValues ids⟩])
  else .ok (strand, contexts)

/-- What a service context says: whether to enable ZIOP, and with which compressors. -/
def invocationPolicyValues (pvseq : List PolicyValue) :
    Except ZiopExn (Bool × List CompressorIdLevel) :=
  pvseq.foldlM (fun r v =>
    if v.ptype = 64 then do
      let enable ← fromEncapsulation v.pvalue .boolean
      return (enable, r.2)
    else if v.ptype = 65 then do
      let ids ← fromEncapsulation v.pvalue (.sequence idLevel)
      return (r.1, ids)
    else .ok r) (false, [])

/-- What `serverReceiveRequestInterceptor` does with the policies of a service context: the
compressors that both sides have. The transport rules accept ZIOP or not; the POA has policies if it
is found. -/
def selectCompressors (g : ZiopPolicies ρ) (poa : Option (List (PolicyObject ρ))) (accept : Bool)
    (c : Context) : Except ZiopExn (Option (ZiopPolicies ρ)) :=
  if c.contextId = invocationPolicies then do
    let pvseq ← fromEncapsulation c.contextData (.sequence policyValue)
    let (enable, ids) ← invocationPolicyValues pvseq
    if !enable || !accept then return none
    else
      match decodePolicies (poa.getD []) g with
      | (_, some e) => .error e
      | (p, none) =>
        let selected ← filterCompressors ids p.compressorIds
        if selected = [] then return none else return some { p with compressorIds := selected }
  else .ok none

/-- `serverReceiveRequestInterceptor` -/
def serverReceiveRequest (g : ZiopPolicies ρ) (poa : Option (List (PolicyObject ρ)))
    (accept : Bool) (strand : ZiopStrand κ ρ) : List Context → Except ZiopExn (ZiopStrand κ ρ)
  | [] => .ok strand
  | c :: contexts =>
    if strand.compression then .ok strand
    else do
      match ← selectCompressors g poa accept c with
      | none => serverReceiveRequest g poa accept strand contexts
      | some p =>
        let compressor ← setPolicies manager p.compressorIds p.lowValue p.minRatio
        return { strand with compressor := some compressor, compression := true }

end

end OmniORB.Ziop
