import Mathlib

/-!
# Code set negotiation

The registry of transmission code sets, the options for the default code sets, the
`TAG_CODE_SETS` component of object references and the two interceptors of `codeSets.cc`. Client and
server each keep their selection in the strand of the connection.
-/

namespace OmniORB

/-- `GIOP::Version` -/
structure GIOPVersion where
  major : ℕ
  minor : ℕ
  deriving DecidableEq, Repr

namespace GIOPVersion

def giop10 : GIOPVersion := ⟨1, 0⟩
def giop11 : GIOPVersion := ⟨1, 1⟩
def giop12 : GIOPVersion := ⟨1, 2⟩

/-- The versions that are implemented. -/
def implemented : List GIOPVersion := [giop10, giop11, giop12]

/-- The version that `giopRope::acquireClient` uses for an object reference. -/
def acquired (maxVersion v : GIOPVersion) : GIOPVersion :=
  if v ∈ implemented then v else maxVersion

end GIOPVersion

open GIOPVersion

/-! ### The registry -/

/-- A `TCS_C` or `TCS_W`, as far as it is looked up. -/
structure Tcs where
  id : ℕ
  name : String
  giopVersion : GIOPVersion
  deriving DecidableEq, Repr

namespace Tcs

def id8859_1 : ℕ := 0x00010001
def idUtf8 : ℕ := 0x05010001
def idUtf16 : ℕ := 0x00010109

end Tcs

/-- `getTCS_C` and `getTCS_W` by id -/
def getTCS (l : List Tcs) (id : ℕ) (v : GIOPVersion) : Option Tcs :=
  l.find? fun t => t.id = id && t.giopVersion = v

/-- `getTCS_C` and `getTCS_W` by name -/
def getTCSByName (l : List Tcs) (name : String) (v : GIOPVersion) : Option Tcs :=
  l.find? fun t => t.name = name && t.giopVersion = v

/-- The code sets that are registered, newest first. ISO-8859-1 and UTF-8 are part of the ORB. -/
structure CodeSets where
  tcsC : List Tcs
  tcsW : List Tcs
  id_ne_zero : ∀ t ∈ tcsC ++ tcsW, t.id ≠ 0
  implemented : ∀ t ∈ tcsC ++ tcsW, t.giopVersion ∈ GIOPVersion.implemented
  iso8859_1 : ∀ v ∈ GIOPVersion.implemented, (getTCS tcsC Tcs.id8859_1 v).isSome
  utf8 : ∀ v ∈ [giop11, giop12], (getTCS tcsC Tcs.idUtf8 v).isSome

/-- The code sets of the ORB itself. -/
def CodeSets.initial : CodeSets where
  tcsC := [⟨Tcs.idUtf8, "UTF-8", giop12⟩, ⟨Tcs.idUtf8, "UTF-8", giop11⟩,
    ⟨Tcs.id8859_1, "ISO-8859-1", giop12⟩, ⟨Tcs.id8859_1, "ISO-8859-1", giop11⟩,
    ⟨Tcs.id8859_1, "ISO-8859-1", giop10⟩]
  tcsW := [⟨Tcs.idUtf16, "UTF-16", giop12⟩]
  id_ne_zero := by decide
  implemented := by decide
  iso8859_1 := by decide
  utf8 := by decide

/-! ### Default code sets -/

/-- `orbParameters::defaultCharCodeSet` and `orbParameters::defaultWCharCodeSet` -/
structure Defaults where
  charSet : Option Tcs
  wcharSet : Option Tcs
  deriving DecidableEq, Repr

/-- The options that set them, with their values. -/
inductive DefaultOption where
  | defaultCharCodeSet (value : String)
  | defaultWCharCodeSet (value : String)
  deriving DecidableEq, Repr

/-- `visit` of the two option handlers; `none` is `BadParam` for an unknown name. -/
def Defaults.visit (cs : CodeSets) (p : Defaults) : DefaultOption → Option Defaults
  | .defaultCharCodeSet value => do
    let v ← getTCSByName cs.tcsC value giop12
    some { p with charSet := some v }
  | .defaultWCharCodeSet value => do
    let v ← getTCSByName cs.tcsW value giop12
    some
      { charSet := if p.charSet.isSome then p.charSet else getTCS cs.tcsC Tcs.idUtf8 giop12
        wcharSet := some v }

/-- The default code sets after all options. -/
def Defaults.configure (cs : CodeSets) (options : List DefaultOption) : Option Defaults :=
  options.foldlM (Defaults.visit cs) ⟨none, none⟩

/-! ### Object references -/

/-- `CONV_FRAME::CodeSetComponent` -/
structure CodeSetComponent where
  nativeCodeSet : ℕ
  conversionCodeSets : List ℕ
  deriving DecidableEq, Repr

/-- `CONV_FRAME::CodeSetComponentInfo` -/
structure CodeSetComponentInfo where
  forCharData : CodeSetComponent
  forWcharData : CodeSetComponent
  deriving DecidableEq, Repr

/-- One half of `unmarshal_TAG_CODE_SETS`. -/
def pickTCS (l : List Tcs) (fallback : ℕ) (v : GIOPVersion) (c : CodeSetComponent) : Option Tcs :=
  let native := if c.nativeCodeSet ≠ 0 then getTCS l c.nativeCodeSet v else none
  let conversion := native.or (c.conversionCodeSets.findSome? fun id => getTCS l id v)
  conversion.or (getTCS l fallback v)

/-- The code sets that `IORInfo` holds: `TCS_C` and `TCS_W`. -/
abbrev Selection := Option Tcs × Option Tcs

/-- `omniIOR::unmarshal_TAG_CODE_SETS` -/
def unmarshalTagCodeSets (cs : CodeSets) (v : GIOPVersion) (info : CodeSetComponentInfo) :
    Selection :=
  (pickTCS cs.tcsC Tcs.idUtf8 v info.forCharData,
    pickTCS cs.tcsW Tcs.idUtf16 v info.forWcharData)

/-- A service context other than `IOP::CodeSets`. -/
structure OtherContext where
  contextId : ℕ
  contextData : List UInt8

/-- A request: the GIOP version and the `TAG_CODE_SETS` components of the object reference, and the
service contexts that other interceptors have put in already. -/
structure CodeSetRequest where
  version : GIOPVersion
  components : List CodeSetComponentInfo
  others : List OtherContext

/-- `TCS_C` and `TCS_W` of the object reference; each component replaces what the one before has
set. -/
def CodeSetRequest.iorInfo (cs : CodeSets) (r : CodeSetRequest) : Selection :=
  r.components.foldl (fun _ info => unmarshalTagCodeSets cs r.version info) (none, none)

/-! ### The interceptors -/

/-- An element of the service context list. -/
inductive ServiceContext where
  | codeSets (tcsC tcsW : ℕ)
  | other (c : OtherContext)

/-- What a strand keeps of the negotiation. -/
structure StrandSets where
  selected : Bool
  tcsC : Option Tcs
  tcsW : Option Tcs
  version : GIOPVersion
  deriving DecidableEq, Repr

def StrandSets.initial : StrandSets := ⟨false, none, none, ⟨0, 0⟩⟩

/-- `setCodeSetServiceContext`: the strand, what the `GIOP_C` marshals with, and the contexts that are
appended. -/
def setCodeSetServiceContext (cs : CodeSets) (p : Defaults) (ver : GIOPVersion) (ior : Selection)
    (d : StrandSets) : StrandSets × Selection × List ServiceContext :=
  if d.selected then (d, (d.tcsC, d.tcsW), [])
  else if ver.minor < 1 then
    let c := getTCS cs.tcsC Tcs.id8859_1 ver
    ({ d with tcsC := c, tcsW := none, selected := true }, (c, none), [])
  else
    let (tcsC, tcsW) := if ior.1.isSome ∨ ior.2.isSome then ior else (p.charSet, p.wcharSet)
    match tcsC with
    | some c =>
      ({ tcsC := some c, tcsW := tcsW, version := ver, selected := true }, (some c, tcsW),
        [.codeSets c.id ((tcsW.map Tcs.id).getD 0)])
    | none => (d, (getTCS cs.tcsC Tcs.id8859_1 ver, none), [])

/-- The ids in the first code set context of a list. -/
def findCodeSets : List ServiceContext → Option (ℕ × ℕ)
  | [] => none
  | .codeSets c w :: _ => some (c, w)
  | .other _ :: svclist => findCodeSets svclist

/-- What `getCodeSetServiceContext` does with a code set context. -/
def acceptCodeSets (cs : CodeSets) (ver : GIOPVersion) (ids : ℕ × ℕ) : StrandSets where
  selected := true
  tcsC := if ids.1 ≠ 0 then getTCS cs.tcsC ids.1 ver else getTCS cs.tcsC Tcs.id8859_1 ver
  tcsW := if ids.2 ≠ 0 then getTCS cs.tcsW ids.2 ver else none
  version := ver

/-- What `getCodeSetServiceContext` does where nothing was negotiated. -/
def assumeCodeSets (cs : CodeSets) (p : Defaults) (ver : GIOPVersion) : StrandSets where
  selected := true
  tcsC := if p.charSet.isSome then p.charSet else getTCS cs.tcsC Tcs.id8859_1 ver
  tcsW := p.wcharSet
  version := ver

/-- `getCodeSetServiceContext`: the strand, and what the `GIOP_S` unmarshals with. -/
def getCodeSetServiceContext (cs : CodeSets) (p : Defaults) (ver : GIOPVersion)
    (svclist : List ServiceContext) (d : StrandSets) : StrandSets × Selection :=
  if ver.minor < 1 then
    let d := if d.selected then d
      else { d with tcsC := getTCS cs.tcsC Tcs.id8859_1 ver, tcsW := none }
    (d, (d.tcsC, d.tcsW))
  else
    let d := match findCodeSets svclist with
      | some ids => acceptCodeSets cs ver ids
      | none => d
    let d := if d.selected then d else assumeCodeSets cs p ver
    -- a negotiation for another GIOP version does not count
    if d.version ≠ ver then (d, (getTCS cs.tcsC Tcs.id8859_1 ver, none))
    else (d, (d.tcsC, d.tcsW))

/-! ### Runs -/

/-- One request: what the client marshals with and what the server unmarshals with. -/
def negotiate (cs : CodeSets) (p : Defaults) (ver : GIOPVersion) (r : CodeSetRequest)
    (d : StrandSets × StrandSets) : (StrandSets × StrandSets) × Selection × Selection :=
  let (client, sent, contexts) := setCodeSetServiceContext cs p ver (r.iorInfo cs) d.1
  let (server, received) :=
    getCodeSetServiceContext cs p ver (r.others.map .other ++ contexts) d.2
  ((client, server), sent, received)

/-- The requests on one connection, in order. -/
def negotiations (cs : CodeSets) (p : Defaults) (ver : GIOPVersion) :
    List CodeSetRequest → StrandSets × StrandSets → List (Selection × Selection)
  | [], _ => []
  | r :: rs, d =>
    let (d, used) := negotiate cs p ver r d
    used :: negotiations cs p ver rs d

/-- Both ends use the same code sets, or both use none. -/
def SameCodeSets (used : Selection × Selection) : Prop :=
  used.1.1.map Tcs.id = used.2.1.map Tcs.id ∧ used.1.2.map Tcs.id = used.2.2.map Tcs.id

instance (used : Selection × Selection) : Decidable (SameCodeSets used) :=
  inferInstanceAs (Decidable (_ ∧ _))

end OmniORB
