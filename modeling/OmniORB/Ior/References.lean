import OmniORB.Context.Properties
import OmniORB.Ior.Decoding
import OmniORB.Uri.CorbanameRoundTrip

/-!
# Object references in strings

IIOP profiles and multi-component profiles, an IOR in a stream, and the hexadecimal digits of
`_toString` and `_fromString`.
-/

namespace OmniORB

open Library IOP

/-! ### Profiles -/

/-- `IOP::TaggedProfile` -/
structure IOP.TaggedProfile where
  tag : ℕ
  profileData : List UInt8
  deriving DecidableEq

def IOP.tagInternetIop : ℕ := 0
def IOP.tagMultipleComponents : ℕ := 1

/-- `IIOP::ProfileBody` with its object key. -/
structure IIOP.Profile extends ProfileBody where
  objectKey : List UInt8
  deriving DecidableEq

namespace CdrOut

/-- `IOP::TaggedProfile::operator>>=` -/
def marshalTaggedProfile (s : CdrOut) (profile : TaggedProfile) : CdrOut :=
  (s.marshalULong profile.tag).marshalOctetSeq profile.profileData

def marshalVersion (s : CdrOut) (version : Version) : CdrOut :=
  (s.marshalOctet (UInt8.ofNat version.major)).marshalOctet (UInt8.ofNat version.minor)

def marshalProfile (s : CdrOut) (body : IIOP.Profile) : CdrOut :=
  let s := ((s.marshalVersion body.version).marshalAddress body.address).marshalOctetSeq
    body.objectKey
  if 0 < body.version.minor then s.marshalSequence marshalTaggedComponent body.components else s

end CdrOut

namespace IIOP

def encodeProfile (body : Profile) : TaggedProfile :=
  ⟨tagInternetIop, encapsulate fun s => s.marshalProfile body⟩

/-- Without components, nothing is written. -/
def encodeMultiComponentProfile (body : List TaggedComponent) : TaggedProfile :=
  ⟨tagMultipleComponents, encapsulate fun s =>
    if body = [] then s else s.marshalSequence CdrOut.marshalTaggedComponent body⟩

end IIOP

namespace Unmarshal

def octet : Unmarshal UInt8 := ofCdr CdrIn.unmarshalOctet

def skipInput (size : ℕ) : Unmarshal Unit := fun s =>
  if s.unread.length < size then .error (.cdr .marshalPassEndOfMessage)
  else .ok ((), s.advance size)

/-- `IOP::TaggedProfile::operator<<=` -/
def taggedProfile : Unmarshal TaggedProfile := do
  let tag ← ulong
  let data ← octetSeq
  return ⟨tag, data⟩

/-- The components of a profile, behind their number. -/
def components : Unmarshal (List TaggedComponent) := do
  let total ← ulong
  checkOverrun total .marshalInvalidIOR
  items taggedComponent total

def version : Unmarshal Version := do
  let major ← octet
  let minor ← octet
  return ⟨major.toNat, minor.toNat⟩

def profile : Unmarshal IIOP.Profile := do
  let version ← Unmarshal.version
  if version.major ≠ 1 then throw .marshalInvalidIOR
  else
    let address ← Unmarshal.address
    let objectKey ← octetSeq
    let components ← if 0 < version.minor then components else pure []
    return ⟨⟨version, address, components⟩, objectKey⟩

/-- The check that the profile body ends here. -/
def profileEnd (strictIIOP : Bool) : Unmarshal Unit := fun s =>
  if s.checkInputOverrun 1 && strictIIOP then .error .marshalInvalidIOR else .ok ((), s)

/-- The length of the object key, which comes next. -/
def objectKeyLength : Unmarshal ℕ := do
  skipInput 2
  let len ← ulong
  skipInput len
  let _port ← Unmarshal.ushort
  ulong

end Unmarshal

namespace IIOP

open Unmarshal

def unmarshalProfile (strictIIOP : Bool) (profile : TaggedProfile) : Except IorExn Profile :=
  if profile.tag = tagInternetIop then
    fromEncapsulation profile.profileData (do
      let body ← Unmarshal.profile
      profileEnd strictIIOP
      return body)
  else .error (.cdr .assertionFailure)

/-- The components come behind those that `body` had. -/
def unmarshalMultiComponentProfile (strictIIOP : Bool) (profile : TaggedProfile)
    (body : List TaggedComponent) : Except IorExn (List TaggedComponent) :=
  if profile.tag = tagMultipleComponents then
    fromEncapsulation profile.profileData (do
      let newitems ← components
      profileEnd strictIIOP
      return body ++ newitems)
  else .error (.cdr .assertionFailure)

/-- The octets of the object key. A stream that reads the profile's data in place gives the memory
that follows, where the data ends too early also what is not part of it; any other stream copies
the octets. -/
def unmarshalObjectKey (inPlace : Bool) (profile : TaggedProfile) :
    Except IorExn (List (Option UInt8)) :=
  if profile.tag = tagInternetIop then do
    let e ← CdrIn.ofEncapsulation profile.profileData
    let (len, s) ← objectKeyLength e
    if profile.profileData.length < len then .error (.cdr .marshalPassEndOfMessage)
    else if inPlace then .ok ((List.range len).map fun i => s.unread[i]?)
    else do
      let (key, _) ← octetArray len s
      .ok (key.map some)
  else .error (.cdr .assertionFailure)

end IIOP

/-! ### References -/

/-- `IOP::IOR` of an object, which is not nil. -/
structure IOP.IOR where
  typeId : CString
  profiles : List TaggedProfile
  not_nil : profiles ≠ [] ∨ typeId.octets ≠ []
  deriving DecidableEq

/-- `omniObjRef::_marshal` -/
def CdrOut.marshalObjRef (s : CdrOut) : Option IOR → CdrOut
  | none => ((s.marshalULong 1).marshalOctet 0).marshalULong 0
  | some ior =>
    (s.marshalRawString ior.typeId.octets).1.marshalSequence marshalTaggedProfile ior.profiles

namespace Unmarshal

/-- `unmarshaltype_id` -/
def typeId : Unmarshal CString := do
  let idlen ← ulong
  checkOverrun idlen .marshalSequenceIsTooLong
  if idlen = 0 then return .empty
  else if idlen = 1 then
    let c ← octet
    if c ≠ 0 then throw (.cdr .marshalStringNotEndWithNull) else return .empty
  else
    let id ← octetArray idlen
    if id.getLast? = some 0 then return .ofBuffer id
    else throw (.cdr .marshalStringNotEndWithNull)

/-- `omniObjRef::_unMarshal`, up to the new reference's IOR. -/
def objRef : Unmarshal (Option IOR) := do
  let id ← typeId
  let profiles ← sequence taggedProfile
  return if h : profiles ≠ [] ∨ id.octets ≠ [] then some ⟨id, profiles, h⟩ else none

end Unmarshal

/-! ### Strings -/

namespace OmniObjRef

def digits (data : List UInt8) : List UInt8 :=
  data.flatMap fun (c : UInt8) => [hexChar ((c &&& 0xf0) >>> 4), hexChar (c &&& 0xf)]

/-- `_toString` -/
def toString (objref : Option IOR) : List UInt8 :=
  ascii "IOR:" ++ digits (encapsulate fun buf => buf.marshalObjRef objref)

/-- The octets of pairs of digits. What follows the last pair is ignored. -/
def octets : List UInt8 → Except IorExn (List UInt8)
  | a :: b :: p =>
    match hexDigit a, hexDigit b with
    | some v, some w => do
      let data ← octets p
      .ok (((v <<< 4) + w) :: data)
    | _, _ => .error .marshalInvalidIOR
  | _ => .ok []

end OmniObjRef

/-- `iorURIHandler::supports` -/
def IorURIHandler.supports : List UInt8 → Bool
  | a :: b :: c :: d :: _ =>
    (a = 0x49 || a = 0x69) && (b = 0x4f || b = 0x6f) && (c = 0x52 || c = 0x72) && d = 0x3a
  | _ => false

/-- `iorURIHandler::syntaxIsValid` -/
def IorURIHandler.syntaxIsValid (sior : List UInt8) : Bool :=
  let p := sior.drop 4
  p.all (fun c => (hexDigit c).isSome) && p ≠ [] && p.length % 2 = 0

/-- `_fromString`, whose test of the first letters is that of `iorURIHandler`. -/
def OmniObjRef.fromString (str : List UInt8) : Except IorExn (Option IOR) :=
  if IorURIHandler.supports str then do
    let data ← octets (str.drop 4)
    let (b, buf) ← Unmarshal.boolean ⟨0, data, false⟩
    let (objref, _) ← Unmarshal.objRef { buf with byteSwap := !b }
    .ok objref
  else .error .marshalInvalidIOR

/-! ### What is read back -/

namespace ReadsBack

variable {α : Type} {w : CdrOut → CdrOut} {r : Unmarshal α} {a : α}

/-- What is put in an encapsulation is read from it, whatever stands behind it. -/
lemma exists_run_append (h : ReadsBack w r a) (garbage : List UInt8) :
    ∃ e, CdrIn.ofEncapsulation (encapsulate w ++ garbage) = .ok e ∧
      r.run e = .ok (a, (w .encapsulation).readAll garbage) := by
  obtain ⟨b, hb⟩ := h.appends .encapsulation
  have hdata : encapsulate w ++ garbage = 1 :: (b ++ garbage) := congrArg (· ++ garbage) hb
  refine ⟨CdrOut.encapsulation.readBack (w .encapsulation) garbage, ?_, h.run _ garbage⟩
  rw [CdrOut.readBack_append hb, hdata]
  simp [CdrIn.ofEncapsulation, CdrIn.unmarshalOctet, CdrIn.advance, CdrOut.mkr_encapsulation,
    Except.mapError]
  rfl

lemma taggedProfile {p : TaggedProfile} (htag : p.tag < 2 ^ 32)
    (hlen : p.profileData.length < 2 ^ 32) :
    ReadsBack (fun s => s.marshalTaggedProfile p) Unmarshal.taggedProfile p :=
  (length htag).bind (v := fun s => s.marshalOctetSeq p.profileData)
    ((octetSeq hlen).map (f := fun data => TaggedProfile.mk p.tag data))

end ReadsBack

lemma CdrOut.lt_mkr_marshalCounted (s : CdrOut) (n : ℕ) (data : List UInt8) :
    s.mkr + data.length < ((s.marshalULong n).marshalOctetSeq data).mkr := by
  have hn := le_alignTo s.mkr (Alignment.size_pos .align4)
  have hlen := le_alignTo (alignTo s.mkr 4 + 4) (Alignment.size_pos .align4)
  simp only [marshalOctetSeq, mkr_putOctetArray, mkr_marshalULong, Alignment.size] at hn hlen ⊢
  omega

namespace IIOP

/-- Components that can be marshalled. -/
def ComponentsFit (components : List TaggedComponent) : Prop :=
  components.length < 2 ^ 32 ∧ ∀ c ∈ components, c.tag < 2 ^ 32 ∧ c.componentData.length < 2 ^ 32

instance (components : List TaggedComponent) : Decidable (ComponentsFit components) :=
  inferInstanceAs (Decidable (_ ∧ _))

/-- A body that can be marshalled. -/
structure Profile.Fits (body : Profile) : Prop where
  version : body.version.major < 256 ∧ body.version.minor < 256
  host : body.address.host.Short
  objectKey : body.objectKey.length < 2 ^ 32
  components : 0 < body.version.minor → ComponentsFit body.components

/-- The body as a profile of its minor version has it. -/
def Profile.sent (body : Profile) : Profile :=
  { body with components := if 0 < body.version.minor then body.components else [] }

end IIOP

namespace ReadsBack

open IIOP

lemma components {l : List TaggedComponent} (hl : ComponentsFit l) :
    ReadsBack (fun s => s.marshalSequence CdrOut.marshalTaggedComponent l) Unmarshal.components
      l := by
  have hpos : ∀ (s : CdrOut) (c : TaggedComponent), s.mkr < (s.marshalTaggedComponent c).mkr :=
    fun s c => (Nat.le_add_right _ _).trans_lt (s.lt_mkr_marshalCounted c.tag c.componentData)
  refine (length hl.1).bind (v := fun s => l.foldl CdrOut.marshalTaggedComponent s) ?_
  exact (items fun c hc => taggedComponent (hl.2 c hc).1 (hl.2 c hc).2).checkOverrun
    (le_mkr_foldl hpos l)

lemma version {v : Version} (hv : v.major < 256 ∧ v.minor < 256) :
    ReadsBack (fun s => s.marshalVersion v) Unmarshal.version v := by
  have hoctet (n : ℕ) (hn : n < 256) : (UInt8.ofNat n).toNat = n := by
    rw [UInt8.toNat_ofNat', Nat.mod_eq_of_lt hn]
  have hminor := (octet (UInt8.ofNat v.minor)).map
    (f := fun minor => Version.mk (UInt8.ofNat v.major).toNat minor.toNat)
  rw [hoctet v.major hv.1, hoctet v.minor hv.2] at hminor
  refine (octet (UInt8.ofNat v.major)).bind
    (v := fun s => s.marshalOctet (UInt8.ofNat v.minor)) ?_
  rw [hoctet v.major hv.1]
  exact hminor

/-- What comes behind the version of a profile of GIOP 1. -/
lemma profileRest {body : Profile} (hbody : body.Fits) :
    ReadsBack
      (fun s =>
        let s := (s.marshalAddress body.address).marshalOctetSeq body.objectKey
        if 0 < body.version.minor then
          s.marshalSequence CdrOut.marshalTaggedComponent body.components
        else s)
      (do
        let address ← Unmarshal.address
        let objectKey ← Unmarshal.octetSeq
        let components ← if 0 < body.version.minor then Unmarshal.components else pure []
        return ⟨⟨body.version, address, components⟩, objectKey⟩)
      body.sent := by
  refine (address hbody.host).bind (v := fun s =>
    if 0 < body.version.minor then (s.marshalOctetSeq body.objectKey).marshalSequence
      CdrOut.marshalTaggedComponent body.components
    else s.marshalOctetSeq body.objectKey) ?_
  refine (octetSeq hbody.objectKey).bind (v := fun s =>
    if 0 < body.version.minor then
      s.marshalSequence CdrOut.marshalTaggedComponent body.components else s) ?_
  rw [Profile.sent]
  by_cases hminor : 0 < body.version.minor
  · simp only [if_pos hminor]
    exact (components (hbody.components hminor)).map
  · simp only [if_neg hminor]
    exact .pure _

lemma profile {body : Profile} (hbody : body.Fits) (hmajor : body.version.major = 1) :
    ReadsBack (fun s => s.marshalProfile body) Unmarshal.profile body.sent := by
  refine (version hbody.version).bind (v := fun s =>
    let s := (s.marshalAddress body.address).marshalOctetSeq body.objectKey
    if 0 < body.version.minor then s.marshalSequence CdrOut.marshalTaggedComponent body.components
    else s) ?_
  rw [if_neg (not_not.mpr hmajor)]
  exact profileRest hbody

end ReadsBack

section Garbage

variable {α : Type} {w : CdrOut → CdrOut} {r : Unmarshal α} {a : α}

/-- What is put in a profile is read from it, with a check that nothing stands behind it. -/
lemma ReadsBack.fromEncapsulation_append (h : ReadsBack w r a) (strictIIOP : Bool)
    (garbage : List UInt8) :
    Unmarshal.fromEncapsulation (encapsulate w ++ garbage) (do
      let body ← r
      Unmarshal.profileEnd strictIIOP
      return body) =
    if strictIIOP ∧ garbage ≠ [] then .error .marshalInvalidIOR else .ok a := by
  obtain ⟨e, hopen, hrun⟩ := h.exists_run_append garbage
  rw [Unmarshal.fromEncapsulation, hopen]
  change (r.run e >>= fun p =>
    Unmarshal.profileEnd strictIIOP p.2 >>= fun q => Except.ok (p.1, q.2)) >>=
      (fun p => Except.ok p.1) = _
  rw [hrun]
  change (Unmarshal.profileEnd strictIIOP ((w .encapsulation).readAll garbage) >>= fun q =>
    Except.ok (a, q.2)) >>= (fun p => Except.ok p.1) = _
  have hend : ((w .encapsulation).readAll garbage).checkInputOverrun 1 = decide (garbage ≠ []) := by
    cases garbage with
    | nil => rfl
    | cons c garbage => simp [CdrIn.checkInputOverrun, CdrOut.readAll]
  rw [Unmarshal.profileEnd, hend]
  by_cases hbad : strictIIOP ∧ garbage ≠ []
  · rw [if_pos hbad, if_pos (by simpa using hbad.symm)]
    rfl
  · rw [if_neg hbad, if_neg (by simpa [and_comm] using hbad)]
    rfl

end Garbage

namespace IIOP

variable {body : Profile}

lemma unmarshalProfile_append (hbody : body.Fits) (hmajor : body.version.major = 1)
    (strictIIOP : Bool) (garbage : List UInt8) :
    unmarshalProfile strictIIOP ⟨tagInternetIop, (encodeProfile body).profileData ++ garbage⟩ =
      if strictIIOP ∧ garbage ≠ [] then .error .marshalInvalidIOR else .ok body.sent :=
  (ReadsBack.profile hbody hmajor).fromEncapsulation_append strictIIOP garbage

/-- A profile is read back as it was encoded, if it is of GIOP 1, with what its minor version has
room for. What stands behind it matters only if the ORB is strict. -/
theorem profile_readsBack (hbody : body.Fits) (strictIIOP : Bool) (garbage : List UInt8) :
    unmarshalProfile strictIIOP ⟨tagInternetIop, (encodeProfile body).profileData ++ garbage⟩ =
      if body.version.major ≠ 1 ∨ strictIIOP ∧ garbage ≠ [] then .error .marshalInvalidIOR
      else .ok body.sent := by
  by_cases hmajor : body.version.major = 1
  · rw [unmarshalProfile_append hbody hmajor]
    simp only [hmajor, ne_eq, not_true_eq_false, false_or]
  · -- the version comes first, whatever follows
    obtain ⟨d, hd⟩ := (ReadsBack.profileRest hbody).appends
      (CdrOut.encapsulation.marshalVersion body.version)
    have hdata : (encodeProfile body).profileData ++ garbage =
        encapsulate (fun s => s.marshalVersion body.version) ++ (d ++ garbage) := by
      rw [← List.append_assoc]
      exact congrArg (· ++ garbage) hd
    obtain ⟨e, hopen, hrun⟩ :=
      (ReadsBack.version hbody.version).exists_run_append (d ++ garbage)
    rw [unmarshalProfile, if_pos rfl, if_pos (.inl hmajor), hdata, Unmarshal.fromEncapsulation,
      hopen]
    change ((Unmarshal.version.run e >>= _) >>= _) >>= _ = _
    rw [hrun]
    simp only [bind, Except.bind, if_pos hmajor, ne_eq]
    rfl

/-- A profile of IIOP 1.1. -/
def aProfile : Profile :=
  ⟨⟨⟨1, 1⟩, ⟨⟨ascii "h", by decide⟩, 2809⟩, [⟨tagOrbType, [1, 0]⟩]⟩, ascii "key"⟩

theorem profile_readsBack_strict :
    unmarshalProfile true ⟨tagInternetIop, (encodeProfile aProfile).profileData ++ [7]⟩ =
      if aProfile.version.major ≠ 1 ∨ true ∧ [7] ≠ ([] : List UInt8) then .error .marshalInvalidIOR
      else .ok aProfile.sent :=
  profile_readsBack ⟨by decide, by decide, by decide, fun _ => by decide⟩ true [7]

lemma unmarshalMultiComponentProfile_append {components : List TaggedComponent}
    (hfit : ComponentsFit components) (hne : components ≠ []) (strictIIOP : Bool)
    (garbage : List UInt8) (old : List TaggedComponent) :
    unmarshalMultiComponentProfile strictIIOP ⟨tagMultipleComponents,
        (encodeMultiComponentProfile components).profileData ++ garbage⟩ old =
      if strictIIOP ∧ garbage ≠ [] then .error .marshalInvalidIOR else .ok (old ++ components) := by
  have h := (ReadsBack.components hfit).map (f := fun newitems => old ++ newitems)
    |>.fromEncapsulation_append strictIIOP garbage
  simp only [bind_assoc, pure_bind] at h
  rw [unmarshalMultiComponentProfile, if_pos rfl, encodeMultiComponentProfile]
  simp only [if_neg hne]
  exact h

/-- Components come back behind those that there were, except that a profile of none has no number
of them either. -/
theorem components_readBack {body : List TaggedComponent} (hbody : ComponentsFit body)
    (strictIIOP : Bool) (garbage : List UInt8) (old : List TaggedComponent) :
    (body ≠ [] → unmarshalMultiComponentProfile strictIIOP
        ⟨tagMultipleComponents, (encodeMultiComponentProfile body).profileData ++ garbage⟩ old =
      if strictIIOP ∧ garbage ≠ [] then .error .marshalInvalidIOR else .ok (old ++ body)) ∧
    (body = [] → unmarshalMultiComponentProfile strictIIOP (encodeMultiComponentProfile body) old =
      .error (.cdr .marshalPassEndOfMessage)) := by
  refine ⟨fun hne => unmarshalMultiComponentProfile_append hbody hne strictIIOP garbage old, ?_⟩
  rintro rfl
  rfl

theorem components_readBack_one :
    ([⟨tagOrbType, [1, 0]⟩] ≠ ([] : List TaggedComponent) →
      unmarshalMultiComponentProfile false
        ⟨tagMultipleComponents,
          (encodeMultiComponentProfile [⟨tagOrbType, [1, 0]⟩]).profileData ++ []⟩
        [⟨tagCodeSets, []⟩] =
      if false ∧ [] ≠ ([] : List UInt8) then .error .marshalInvalidIOR
      else .ok ([⟨tagCodeSets, []⟩] ++ [⟨tagOrbType, [1, 0]⟩])) ∧
    ([⟨tagOrbType, [1, 0]⟩] = ([] : List TaggedComponent) →
      unmarshalMultiComponentProfile false (encodeMultiComponentProfile [⟨tagOrbType, [1, 0]⟩])
        [⟨tagCodeSets, []⟩] = .error (.cdr .marshalPassEndOfMessage)) :=
  components_readBack (by decide) false [] [⟨tagCodeSets, []⟩]

end IIOP

/-! ### The object key by itself -/

namespace Unmarshal

variable {α β : Type} {r : Unmarshal α} {k : α → Unmarshal β} {s u : CdrIn} {b : β}

lemma bind_eq_ok : (r >>= k) s = .ok (b, u) ↔ ∃ a t, r s = .ok (a, t) ∧ k a t = .ok (b, u) :=
  Library.bind_eq_ok.trans Prod.exists

lemma ofCdr_eq_ok {f : CdrIn → Except Exn (α × CdrIn)} {a : α} :
    ofCdr f s = .ok (a, u) ↔ f s = .ok (a, u) := by
  rw [ofCdr]
  cases f s with
  | error e => simp [Except.mapError]
  | ok p => simp [Except.mapError]

lemma octet_eq_ok {c : UInt8} (h : octet s = .ok (c, u)) :
    u = s.advance 1 ∧ 1 ≤ s.unread.length := by
  rw [octet, ofCdr_eq_ok, CdrIn.unmarshalOctet] at h
  cases hs : s.unread with
  | nil => simp [hs] at h
  | cons c rest =>
    rw [hs, Except.ok.injEq, Prod.mk.injEq] at h
    exact ⟨h.2.symm, by simp⟩

lemma octetArray_eq_ok {n : ℕ} {b : List UInt8} (h : octetArray n s = .ok (b, u)) :
    b = s.unread.take n ∧ u = s.advance n ∧ n ≤ s.unread.length := by
  rw [octetArray, ofCdr_eq_ok, CdrIn.getOctetArray] at h
  split at h
  · cases h
  · rw [Except.ok.injEq, Prod.mk.injEq] at h
    exact ⟨h.1.symm, h.2.symm, not_lt.mp ‹_›⟩

lemma checkOverrun_eq_ok {n : ℕ} {e : IorExn} {x : Unit} (h : checkOverrun n e s = .ok (x, u)) :
    u = s := by
  rw [checkOverrun] at h
  split at h
  · cases h
    rfl
  · cases h

lemma skipInput_of_le {n : ℕ} (h : n ≤ s.unread.length) :
    skipInput n s = .ok ((), s.advance n) := by
  rw [skipInput, if_neg (not_lt.mpr h)]

/-- The octets of a string or sequence are skipped by their number. -/
lemma octetSeq_eq_ok {b : List UInt8} (h : octetSeq s = .ok (b, u)) :
    ∃ len t, ulong s = .ok (len, t) ∧ b = t.unread.take len ∧ len ≤ t.unread.length ∧
      u = t.advance len := by
  obtain ⟨len, t, hlen, hread⟩ := bind_eq_ok.mp h
  obtain ⟨_, t', hcheck, harray⟩ := bind_eq_ok.mp hread
  obtain rfl := checkOverrun_eq_ok hcheck
  obtain ⟨hb, hu, hle⟩ := octetArray_eq_ok harray
  exact ⟨len, t', hlen, hb, hle, hu⟩

lemma rawString_eq_ok {str : CString} (h : rawString s = .ok (str, u)) :
    ∃ len t, ulong s = .ok (len, t) ∧ len ≤ t.unread.length ∧ u = t.advance len := by
  obtain ⟨len, t, hlen, hread⟩ := bind_eq_ok.mp h
  split at hread
  · cases hread
  · obtain ⟨_, t', hcheck, hchecked⟩ := bind_eq_ok.mp hread
    obtain rfl := checkOverrun_eq_ok hcheck
    obtain ⟨b, v, harray, hend⟩ := bind_eq_ok.mp hchecked
    obtain ⟨-, hv, hle⟩ := octetArray_eq_ok harray
    split at hend
    · cases hend
      exact ⟨len, t', hlen, hle, hv⟩
    · cases hend

lemma ulong_eq_ok {n : ℕ} (h : ulong s = .ok (n, u)) : u.unread.length ≤ s.unread.length :=
  (Nat.le_add_right _ 4).trans (CdrIn.unmarshalULong_consumes (ofCdr_eq_ok.mp h))

lemma ushort_eq_ok {n : UInt16} (h : ushort s = .ok (n, u)) :
    u.unread.length ≤ s.unread.length := by
  rw [ushort, ofCdr_eq_ok, CdrIn.unmarshalUShort] at h
  split at h
  · cases h
    simp only [CdrIn.unread_advance, List.length_drop]
    omega
  · cases h

/-- Where a profile can be read, so can the length of its key, and the key is what follows. -/
lemma objectKeyLength_of_profile {body : IIOP.Profile} (h : profile s = .ok (body, u)) :
    ∃ len t, objectKeyLength s = .ok (len, t) ∧ body.objectKey = t.unread.take len ∧
      len ≤ t.unread.length ∧ t.unread.length ≤ s.unread.length := by
  obtain ⟨v, t, hversion, h⟩ := bind_eq_ok.mp h
  split at h
  · cases h
  · obtain ⟨a, t₂, haddress, h⟩ := bind_eq_ok.mp h
    obtain ⟨key, t₃, hkey, h⟩ := bind_eq_ok.mp h
    have hbody : body.objectKey = key := by
      split at h
      · obtain ⟨_, _, -, h⟩ := bind_eq_ok.mp h
        cases h
        rfl
      · cases h
        rfl
    obtain ⟨major, v₁, hmajor, hversion⟩ := bind_eq_ok.mp hversion
    obtain ⟨minor, v₂, hminor, hversion⟩ := bind_eq_ok.mp hversion
    cases hversion
    obtain ⟨rfl, hle₁⟩ := octet_eq_ok hmajor
    obtain ⟨rfl, hle₂⟩ := octet_eq_ok hminor
    obtain ⟨host, a₁, hhost, haddress⟩ := bind_eq_ok.mp haddress
    obtain ⟨port, a₂, hport, haddress⟩ := bind_eq_ok.mp haddress
    cases haddress
    obtain ⟨len, b₁, hlen, hle, rfl⟩ := rawString_eq_ok hhost
    obtain ⟨keyLen, b₂, hkeyLen, hoctets, hkeyLe, rfl⟩ := octetSeq_eq_ok hkey
    have hshort : b₂.unread.length ≤ s.unread.length := by
      have hlenLe := ulong_eq_ok hlen
      have hportLe := ushort_eq_ok hport
      have hkeyLenLe := ulong_eq_ok hkeyLen
      simp only [CdrIn.unread_advance, List.length_drop] at hlenLe hportLe
      omega
    refine ⟨keyLen, b₂, ?_, hbody.trans hoctets, hkeyLe, hshort⟩
    rw [objectKeyLength]
    have hskip : skipInput 2 s = .ok ((), (s.advance 1).advance 1) := by
      rw [CdrIn.advance_advance]
      refine skipInput_of_le ?_
      simp only [CdrIn.unread_advance, List.length_drop] at hle₂
      omega
    exact bind_eq_ok.mpr ⟨_, _, hskip, bind_eq_ok.mpr ⟨_, _, hlen, bind_eq_ok.mpr
      ⟨_, _, skipInput_of_le hle, bind_eq_ok.mpr ⟨_, _, hport, hkeyLen⟩⟩⟩⟩

end Unmarshal

lemma CdrIn.ofEncapsulation_eq_ok {data : List UInt8} {e : CdrIn}
    (h : CdrIn.ofEncapsulation data = .ok e) : e.unread.length ≤ data.length := by
  rw [ofEncapsulation] at h
  split at h
  · cases h
  · obtain ⟨⟨c, s⟩, hoctet, hend⟩ := bind_eq_ok.mp h
    cases hend
    obtain ⟨rfl, -⟩ := Unmarshal.octet_eq_ok hoctet
    simp

/-- The object key of a body that is read from an encapsulation, in place or in a copy. -/
lemma IIOP.unmarshalObjectKey_of_run {data : List UInt8} {e u : CdrIn} {body : IIOP.Profile}
    (hopen : CdrIn.ofEncapsulation data = .ok e) (hread : Unmarshal.profile e = .ok (body, u))
    (inPlace : Bool) :
    unmarshalObjectKey inPlace ⟨tagInternetIop, data⟩ = .ok (body.objectKey.map some) := by
  obtain ⟨len, v, hlen, hkey, hle, hshort⟩ := Unmarshal.objectKeyLength_of_profile hread
  have hfits : ¬data.length < len :=
    not_lt.mpr (hle.trans (hshort.trans (CdrIn.ofEncapsulation_eq_ok hopen)))
  have hcopy : Unmarshal.octetArray len v = .ok (body.objectKey, v.advance len) := by
    rw [hkey, Unmarshal.octetArray, Unmarshal.ofCdr_eq_ok, CdrIn.getOctetArray,
      if_neg (not_lt.mpr hle)]
  have hmemory : (List.range len).map (fun i => v.unread[i]?) = body.objectKey.map some := by
    rw [hkey]
    refine List.ext_getElem (by simpa using hle) fun i hi _ => ?_
    have hlt : i < v.unread.length := by
      rw [List.length_map, List.length_range] at hi
      exact hi.trans_le hle
    simp [hlt]
  rw [unmarshalObjectKey, if_pos rfl, hopen]
  change (Unmarshal.objectKeyLength e >>= _) = _
  rw [hlen]
  change (if data.length < len then _ else _) = _
  rw [if_neg hfits]
  cases inPlace with
  | true => exact congrArg Except.ok hmemory
  | false =>
    change (Unmarshal.octetArray len v >>= fun key => Except.ok (key.1.map some)) = _
    rw [hcopy]
    rfl

/-- Where a profile can be read, `unmarshalObjectKey` gets the object key of its body, whatever
octets it is made of. -/
theorem IIOP.objectKey_of_profile {strictIIOP : Bool} {p : TaggedProfile} {body : IIOP.Profile}
    (h : unmarshalProfile strictIIOP p = .ok body) (inPlace : Bool) :
    unmarshalObjectKey inPlace p = .ok (body.objectKey.map some) := by
  obtain ⟨tag, data⟩ := p
  rw [unmarshalProfile] at h
  split at h
  case isFalse => cases h
  case isTrue htag =>
    obtain ⟨e, hopen, hread⟩ := bind_eq_ok.mp h
    obtain ⟨⟨body', u⟩, hrun, hbody⟩ := bind_eq_ok.mp hread
    obtain rfl : body' = body := Except.ok.inj hbody
    obtain ⟨b, t, hprofile, hchecked⟩ := Unmarshal.bind_eq_ok.mp hrun
    obtain ⟨_, _, -, hend⟩ := Unmarshal.bind_eq_ok.mp hchecked
    obtain rfl : b = body' := congrArg Prod.fst (Except.ok.inj hend)
    obtain rfl : tag = tagInternetIop := htag
    exact unmarshalObjectKey_of_run hopen hprofile inPlace

/-- A profile of IIOP 1.0 in the other byte order. -/
theorem IIOP.objectKey_of_profile_swapped :
    unmarshalObjectKey true ⟨tagInternetIop,
      [0, 1, 0, 0, 0, 0, 0, 2, 0x68, 0, 0x12, 0x34, 0, 0, 0, 1, 0x6b]⟩ = .ok [some 0x6b] :=
  @objectKey_of_profile false _ ⟨⟨⟨1, 0⟩, ⟨⟨[0x68], by decide⟩, 0x1234⟩, []⟩, [0x6b]⟩ rfl true

/-! ### References in streams -/

namespace ReadsBack

lemma typeId {id : CString} (hid : id.octets.length + 1 < 2 ^ 32) :
    ReadsBack (fun s => (s.marshalRawString id.octets).1) Unmarshal.typeId id := by
  refine (length hid).bind (v := fun s => s.putOctetArray (id.octets ++ [0])) ?_
  refine ReadsBack.checkOverrun ?_ fun s => by simp
  rw [if_neg (Nat.succ_ne_zero _)]
  by_cases hempty : id.octets = []
  · -- an empty type id is read as one octet
    obtain rfl : id = CString.empty := CString.ext hempty
    exact (octet 0).bind (v := fun s => s) (.pure CString.empty)
  · have hlen : id.octets.length + 1 ≠ 1 := by simpa using hempty
    rw [if_neg hlen]
    have harray := octetArray (id.octets ++ [0])
    rw [List.length_append, List.length_singleton] at harray
    refine harray.bind (v := fun s => s) ?_
    rw [if_pos List.getLast?_concat]
    have hbuffer : CString.ofBuffer (id.octets ++ [0]) = id :=
      CString.ext (CString.ofBuffer_append_nul id.noNul [])
    rw [hbuffer]
    exact .pure id

end ReadsBack

/-- A reference that can be marshalled. -/
def IOP.IOR.Fits (ior : IOR) : Prop :=
  ior.typeId.octets.length + 1 < 2 ^ 32 ∧ ior.profiles.length < 2 ^ 32 ∧
    ∀ p ∈ ior.profiles, p.tag < 2 ^ 32 ∧ p.profileData.length < 2 ^ 32

lemma ReadsBack.objRef {objref : Option IOR} (h : ∀ ior ∈ objref, ior.Fits) :
    ReadsBack (fun s => s.marshalObjRef objref) Unmarshal.objRef objref := by
  have hpos : ∀ (s : CdrOut) (p : TaggedProfile), s.mkr < (s.marshalTaggedProfile p).mkr :=
    fun s p => (Nat.le_add_right _ _).trans_lt (s.lt_mkr_marshalCounted p.tag p.profileData)
  have hread (id : CString) (profiles : List TaggedProfile) (hid : id.octets.length + 1 < 2 ^ 32)
      (hlen : profiles.length < 2 ^ 32)
      (hp : ∀ p ∈ profiles, p.tag < 2 ^ 32 ∧ p.profileData.length < 2 ^ 32) :
      ReadsBack (fun s => (s.marshalRawString id.octets).1.marshalSequence
        CdrOut.marshalTaggedProfile profiles) Unmarshal.objRef
        (if h : profiles ≠ [] ∨ id.octets ≠ [] then some ⟨id, profiles, h⟩ else none) :=
    (typeId hid).bind (v := fun s => s.marshalSequence CdrOut.marshalTaggedProfile profiles)
      (sequence hlen (fun p hmem => taggedProfile (hp p hmem).1 (hp p hmem).2) hpos).map
  cases objref with
  | none => exact hread .empty [] (by decide) (by decide) (by simp)
  | some ior =>
    obtain ⟨hid, hlen, hp⟩ := h ior rfl
    have hior := hread ior.typeId ior.profiles hid hlen hp
    rw [dif_pos ior.not_nil] at hior
    exact hior

/-- Each of the items leaves its octets. -/
lemma CdrOut.le_mkr_foldl_of_mem {α : Type} {item : CdrOut → α → CdrOut} {size : α → ℕ}
    (h : ∀ s x, s.mkr + size x < (item s x).mkr) {l : List α} {x : α} (hx : x ∈ l) (s : CdrOut) :
    s.mkr + size x < (l.foldl item s).mkr := by
  induction l generalizing s with
  | nil => exact absurd hx List.not_mem_nil
  | cons y l ih =>
    have hrest := ReadsBack.le_mkr_foldl (fun s x => (Nat.le_add_right _ _).trans_lt (h s x)) l
      (item s y)
    rw [List.foldl_cons]
    obtain rfl | hx := List.mem_cons.mp hx
    · exact (h s x).trans_le ((Nat.le_add_right _ _).trans hrest)
    · have hy := h s y
      have hmem := ih hx (item s y)
      omega

section Sizes

variable {ior : IOR}

lemma IOP.IOR.lengths_lt :
    ior.typeId.octets.length + 1 + ior.profiles.length <
      (encapsulate fun s => s.marshalObjRef (some ior)).length ∧
    ∀ p ∈ ior.profiles, p.profileData.length <
      (encapsulate fun s => s.marshalObjRef (some ior)).length := by
  have hcounted (s : CdrOut) (p : TaggedProfile) :
      s.mkr + p.profileData.length < (s.marshalTaggedProfile p).mkr :=
    s.lt_mkr_marshalCounted p.tag p.profileData
  have hid : ior.typeId.octets.length + 1 <
      ((CdrOut.encapsulation.marshalRawString ior.typeId.octets).1.marshalULong
        ior.profiles.length).mkr := by
    have hle := le_alignTo (CdrOut.encapsulation.marshalRawString ior.typeId.octets).1.mkr
      (Alignment.size_pos .align4)
    simp only [CdrOut.mkr_marshalRawString, CdrOut.mkr_marshalULong, Alignment.size] at hle ⊢
    omega
  rw [length_encapsulate, CdrOut.marshalObjRef, CdrOut.marshalSequence]
  refine ⟨(Nat.add_lt_add_right hid _).trans_le (ReadsBack.le_mkr_foldl
    (fun s p => (Nat.le_add_right _ _).trans_lt (hcounted s p)) ior.profiles _), fun p hp => ?_⟩
  exact (Nat.le_add_left _ _).trans_lt (CdrOut.le_mkr_foldl_of_mem hcounted hp _)

/-- What can be marshalled follows from the octets that it takes. -/
lemma IOP.IOR.fits_of_length (htags : ∀ p ∈ ior.profiles, p.tag < 2 ^ 32)
    (hsize : (encapsulate fun s => s.marshalObjRef (some ior)).length < 2 ^ 32) : ior.Fits := by
  obtain ⟨hparts, hdata⟩ := ior.lengths_lt
  exact ⟨by omega, by omega, fun p hp => ⟨htags p hp, (hdata p hp).trans hsize⟩⟩

end Sizes

/-! ### Digits and letters -/

set_option maxRecDepth 20000 in
/-- The digits in small letters, the letters that `IOR:` can be written with, and the digits of an
octet. -/
lemma octet_letters : ∀ n : Fin 256, let c := UInt8.ofFin n
    hexDigit (toLower c) = hexDigit c ∧
    ((toLower c = 0x69 ↔ c = 0x49 ∨ c = 0x69) ∧ (toLower c = 0x6f ↔ c = 0x4f ∨ c = 0x6f) ∧
      (toLower c = 0x72 ↔ c = 0x52 ∨ c = 0x72) ∧ (toLower c = 0x3a ↔ c = 0x3a)) ∧
    ((c &&& 0xf0) >>> 4 <<< 4) + (c &&& 0xf) = c := by
  decide

lemma hexDigit_toLower (c : UInt8) : hexDigit (toLower c) = hexDigit c := (octet_letters c.toFin).1

lemma marker_toLower (c : UInt8) :
    (toLower c = 0x69 ↔ c = 0x49 ∨ c = 0x69) ∧ (toLower c = 0x6f ↔ c = 0x4f ∨ c = 0x6f) ∧
    (toLower c = 0x72 ↔ c = 0x52 ∨ c = 0x72) ∧ (toLower c = 0x3a ↔ c = 0x3a) :=
  (octet_letters c.toFin).2.1

lemma high_add_low (c : UInt8) :
    ((c &&& 0xf0) >>> 4 <<< 4) + (c &&& 0xf) = c := (octet_letters c.toFin).2.2

lemma IorURIHandler.supports_iff {a b c d : UInt8} {rest : List UInt8} :
    supports (a :: b :: c :: d :: rest) = true ↔
      foldCase [a, b, c, d] = [0x69, 0x6f, 0x72, 0x3a] := by
  obtain ⟨ha, -⟩ := marker_toLower a
  obtain ⟨-, hb, -⟩ := marker_toLower b
  obtain ⟨-, -, hc, -⟩ := marker_toLower c
  obtain ⟨-, -, -, hd⟩ := marker_toLower d
  simp [supports, foldCase, ha, hb, hc, hd, and_assoc]

namespace OmniObjRef

/-- The octets depend on the values of the digits only. -/
lemma octets_congr : ∀ {p q : List UInt8}, p.map hexDigit = q.map hexDigit → octets p = octets q
  | [], [], _ => rfl
  | [_], [_], _ => rfl
  | a :: b :: p, a' :: b' :: q, h => by
    simp only [List.map_cons, List.cons.injEq] at h
    obtain ⟨ha, hb, hrest⟩ := h
    rw [octets, octets, ha, hb, octets_congr hrest]
  | [], _ :: _, h => nomatch h
  | _ :: _, [], h => nomatch h
  | [_], _ :: _ :: _, h => by simp at h
  | _ :: _ :: _, [_], h => by simp at h

lemma exists_octets : ∀ {tail : List UInt8}, (∀ c ∈ tail, (hexDigit c).isSome) →
    ∃ data, octets tail = .ok data
  | [], _ => ⟨[], rfl⟩
  | [_], _ => ⟨[], rfl⟩
  | a :: b :: tail, h => by
    simp only [List.forall_mem_cons] at h
    obtain ⟨v, hv⟩ := Option.isSome_iff_exists.mp h.1
    obtain ⟨w, hw⟩ := Option.isSome_iff_exists.mp h.2.1
    obtain ⟨data, hdata⟩ := exists_octets h.2.2
    rw [octets, hv, hw, hdata]
    exact ⟨_, rfl⟩

/-- Behind the digits of octets, more digits make more octets. -/
lemma octets_digits_append (data : List UInt8) {tail : List UInt8}
    (htail : ∀ c ∈ tail, (hexDigit c).isSome) :
    ∃ garbage, octets (digits data ++ tail) = .ok (data ++ garbage) := by
  induction data with
  | nil => exact exists_octets htail
  | cons c data ih =>
    obtain ⟨garbage, hgarbage⟩ := ih
    refine ⟨garbage, ?_⟩
    have hcons : digits (c :: data) ++ tail =
        hexChar ((c &&& 0xf0) >>> 4) :: hexChar (c &&& 0xf) :: (digits data ++ tail) := rfl
    rw [hcons, octets, hexDigit_hexChar_high, hexDigit_hexChar_low, hgarbage]
    exact congrArg (fun v => Except.ok (v :: (data ++ garbage))) (high_add_low c)

lemma length_digits (data : List UInt8) : (digits data).length = 2 * data.length := by
  simp [digits, List.length_flatMap, mul_comm]

lemma isSome_hexDigit_digits {data : List UInt8} {c : UInt8} (h : c ∈ digits data) :
    (hexDigit c).isSome := by
  obtain ⟨v, -, hv⟩ := List.mem_flatMap.mp h
  obtain rfl | rfl : c = _ ∨ c = _ := by simpa using hv
  · rw [hexDigit_hexChar_high]
    rfl
  · rw [hexDigit_hexChar_low]
    rfl

lemma map_hexDigit_foldCase (p : List UInt8) : (foldCase p).map hexDigit = p.map hexDigit := by
  simp [foldCase, hexDigit_toLower]

/-- A string in other letters begins with `IOR:` too and has digits of the same values. -/
lemma exists_of_foldCase {str data : List UInt8}
    (h : foldCase str = foldCase (ascii "IOR:" ++ digits data)) :
    ∃ a b c d p, str = a :: b :: c :: d :: p ∧ foldCase [a, b, c, d] = foldCase (ascii "IOR:") ∧
      p.map hexDigit = (digits data).map hexDigit := by
  have hlen := congrArg List.length h
  have hior : ascii "IOR:" = [0x49, 0x4f, 0x52, 0x3a] := by decide
  rw [hior] at h hlen ⊢
  obtain _ | ⟨a, _ | ⟨b, _ | ⟨c, _ | ⟨d, p⟩⟩⟩⟩ := str
  case cons.cons.cons.cons =>
    refine ⟨a, b, c, d, p, rfl, congrArg (List.take 4) h, ?_⟩
    have hp : foldCase p = foldCase (digits data) := congrArg (List.drop 4) h
    rw [← map_hexDigit_foldCase p, hp, map_hexDigit_foldCase]
  all_goals
    simp only [foldCase, List.length_map, List.length_append, List.length_cons, List.length_nil]
      at hlen
    omega

end OmniObjRef

section Strings

variable {objref : Option IOR} {str tail : List UInt8}

/-- A reference is read from digits of its octets, whatever stands behind them. -/
lemma OmniObjRef.fromString_of_octets {garbage : List UInt8} (h : ∀ ior ∈ objref, ior.Fits)
    (hsupports : IorURIHandler.supports str)
    (hoctets : octets (str.drop 4) =
      .ok ((encapsulate fun buf => buf.marshalObjRef objref) ++ garbage)) :
    fromString str = .ok objref := by
  obtain ⟨rest, happend⟩ := (ReadsBack.objRef h).appends .encapsulation
  have hrun := (ReadsBack.objRef h).run .encapsulation garbage
  rw [CdrOut.readBack_append happend, CdrOut.mkr_encapsulation] at hrun
  have hboolean : Unmarshal.boolean
      ⟨0, (encapsulate fun buf => buf.marshalObjRef objref) ++ garbage, false⟩ =
      .ok (true, ⟨1, rest ++ garbage, false⟩) := by
    rw [encapsulate, happend]
    rfl
  rw [fromString, if_pos hsupports, hoctets]
  change (Unmarshal.boolean _ >>= fun q => Unmarshal.objRef { q.2 with byteSwap := !q.1 } >>=
    fun r => Except.ok r.1) = _
  rw [hboolean]
  change (Unmarshal.objRef ⟨1, rest ++ garbage, false⟩ >>= fun r => Except.ok r.1) = _
  rw [hrun]
  rfl

/-- What `_toString` writes is read back by `_fromString`, in upper or lower case letters and with
any digits behind it, and is valid for `iorURIHandler` if the digits behind it come in pairs. -/
theorem stringified_references_survive
    (hstr : foldCase str = foldCase (OmniObjRef.toString objref))
    (htail : ∀ c ∈ tail, (hexDigit c).isSome)
    (htags : ∀ ior ∈ objref, ∀ p ∈ ior.profiles, p.tag < 2 ^ 32)
    (hsize : (str ++ tail).length < 2 ^ 31) :
    OmniObjRef.fromString (str ++ tail) = .ok objref ∧
      (IorURIHandler.syntaxIsValid (str ++ tail) = true ↔ tail.length % 2 = 0) := by
  obtain ⟨a, b, c, d, p, rfl, hfront, hp⟩ := OmniObjRef.exists_of_foldCase hstr
  have hlen : p.length = 2 * (encapsulate fun buf => buf.marshalObjRef objref).length := by
    have h := congrArg List.length hp
    rwa [List.length_map, List.length_map, OmniObjRef.length_digits] at h
  have hfits : ∀ ior ∈ objref, ior.Fits := by
    intro ior hior
    refine IOR.fits_of_length (htags ior hior) ?_
    obtain rfl : objref = some ior := hior
    simp only [List.length_append, List.length_cons] at hsize
    omega
  have hpos := (ReadsBack.objRef hfits).length_encapsulate_pos
  rw [List.cons_append, List.cons_append, List.cons_append, List.cons_append]
  constructor
  · obtain ⟨garbage, hgarbage⟩ := OmniObjRef.octets_digits_append
      (encapsulate fun buf => buf.marshalObjRef objref) htail
    have hoctets : OmniObjRef.octets (p ++ tail) =
        .ok ((encapsulate fun buf => buf.marshalObjRef objref) ++ garbage) := by
      rw [← hgarbage]
      exact OmniObjRef.octets_congr (by rw [List.map_append, hp, ← List.map_append])
    exact OmniObjRef.fromString_of_octets hfits
      (IorURIHandler.supports_iff.mpr (hfront.trans (by decide))) hoctets
  · have hdigits : ∀ c ∈ p ++ tail, (hexDigit c).isSome := by
      intro c hc
      obtain hc | hc := List.mem_append.mp hc
      · have hmem : hexDigit c ∈ (OmniObjRef.digits _).map hexDigit :=
          hp ▸ List.mem_map_of_mem hc
        obtain ⟨v, hv, heq⟩ := List.mem_map.mp hmem
        exact heq ▸ OmniObjRef.isSome_hexDigit_digits hv
      · exact htail c hc
    have hne : p ≠ [] := by
      intro hnil
      rw [hnil, List.length_nil] at hlen
      omega
    simp only [IorURIHandler.syntaxIsValid, List.drop_succ_cons, List.drop_zero,
      Bool.and_eq_true, List.all_eq_true, decide_eq_true_eq, List.length_append]
    constructor
    · rintro ⟨-, h⟩
      omega
    · intro h
      exact ⟨⟨hdigits, by simp [hne]⟩, by omega⟩

/-- A reference with one profile. -/
def aReference : IOR :=
  ⟨⟨ascii "IDL:A:1.0", by decide⟩, [IIOP.encodeProfile IIOP.aProfile], by decide⟩

set_option maxRecDepth 20000 in
/-- Small letters in front, and a digit behind. -/
theorem stringified_references_survive_small :
    OmniObjRef.fromString (foldCase (OmniObjRef.toString aReference) ++ [0x30]) =
        .ok (some aReference) ∧
      (IorURIHandler.syntaxIsValid (foldCase (OmniObjRef.toString aReference) ++ [0x30]) = true ↔
        [(0x30 : UInt8)].length % 2 = 0) :=
  stringified_references_survive (by decide) (by decide)
    (by rintro _ ⟨⟩; decide) (by decide)

end Strings

end OmniORB
