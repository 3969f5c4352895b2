import OmniORB.Ior.Published
import OmniORB.Ior.References

/-!
# The endpoints of references

What the constructors of `omniIOR` put in a reference, for a server's own object, for addresses that
are given and for a corbaloc URI, and the addresses and the object key that are got from it.
-/

namespace OmniORB

open Library IOP

/-! ### Making references -/

namespace OmniIOR

/-- An object's own reference, with what the server publishes of itself, and what is published
afterwards. -/
def ofKey (orb : OrbParameters) (eps : IORPublish) (repoId : CString) (key : List UInt8) :
    Except IorExn (IORPublish × IOR) := do
  let (eps, iiop) ← insertSupportedComponents orb eps Publication.newProfile
  if iiop.address.host.octets = [] then .error (.cdr .assertionFailure)
  else .ok (eps, ⟨repoId, [IIOP.encodeProfile ⟨iiop, key⟩], .inl (List.cons_ne_nil _ _)⟩)

/-- The component for a further address. -/
def alternateAddress (a : Address) : TaggedComponent :=
  ⟨tagAlternateIIOPAddress, encapsulate fun s => s.marshalAddress a⟩

/-- A reference to the first of the addresses, without interceptors. In IIOP 1.0 the other addresses
are in a profile of their own, and the tagged components are not in any. -/
def ofAddresses (repoId : CString) (key : List UInt8) (address : Address) (addrs : List Address)
    (ver : Version) (taggedComponents : List TaggedComponent) : IOR :=
  let alternatives := addrs.map alternateAddress
  let components :=
    if 1 < ver.major ∨ 0 < ver.minor then alternatives ++ taggedComponents else taggedComponents
  let others :=
    if addrs ≠ [] ∧ ver.major = 1 ∧ ver.minor = 0 then
      [IIOP.encodeMultiComponentProfile alternatives]
    else []
  ⟨repoId, IIOP.encodeProfile ⟨⟨ver, address, components⟩, key⟩ :: others,
    .inl (List.cons_ne_nil _ _)⟩

/-! ### What is got from them -/

/-- The profile that `createIdentity` selects. -/
def selectedProfile (profiles : List TaggedProfile) : Option TaggedProfile :=
  profiles.find? fun p => p.tag = tagInternetIop

/-- `getIORInfo`: the addresses, of the selected profile and the multi-component profiles. -/
def getIORInfo (strictIIOP : Bool) (self : CString) (profiles : List TaggedProfile) :
    Except IorExn (List GiopAddress) :=
  match selectedProfile profiles with
  | none => .ok []
  | some p => do
    let iiop ← IIOP.unmarshalProfile strictIIOP p
    let components ← (profiles.filter fun p => p.tag = tagMultipleComponents).foldlM
      (fun components p => IIOP.unmarshalMultiComponentProfile strictIIOP p components)
      iiop.components
    extractSupportedComponents self { iiop.toProfileBody with components := components }

/-- The object key that `createIdentity` gets. -/
def getObjectKey (inPlace : Bool) (profiles : List TaggedProfile) :
    Except IorExn (List (Option UInt8)) :=
  match selectedProfile profiles with
  | none => .ok []
  | some p => IIOP.unmarshalObjectKey inPlace p

end OmniIOR

/-! ### corbaloc -/

/-- The local variables of `locToObject`. -/
structure Corbaloc where
  addrlist : List Address := []
  ver : Version := ⟨127, 127⟩
  taggedComponents : List TaggedComponent := []

namespace Corbaloc

/-- The lower of two versions, as the source has it. -/
def lower (ver : Version) (a : HostAddr) : Version :=
  if a.majver.toNat < ver.major ∨ a.minver.toNat < ver.minor then ⟨a.majver.toNat, a.minver.toNat⟩
  else ver

/-- One address of the list. A reference that is found by name has no others. -/
def addAddress (self : CString) (loc : Corbaloc) : ObjAddr → Corbaloc
  | .iiop a =>
    { loc with
      addrlist := loc.addrlist ++ [⟨a.host, UInt16.ofNat a.port⟩]
      ver := lower loc.ver a }
  | .ssliop a =>
    { addrlist := loc.addrlist ++ [⟨a.host, 0⟩]
      ver := ⟨1, 2⟩
      taggedComponents := loc.taggedComponents ++
        [⟨tagSSLSecTrans, IORPublish.sslComponent 0 0 (UInt16.ofNat a.port)⟩] }
  | .uiop _ _ filename =>
    { loc with
      taggedComponents := loc.taggedComponents ++ [⟨tagOmniorbUnixTrans, encapsulate fun s =>
        ((s.marshalRawString self.octets).1.marshalRawString filename.octets).1⟩] }
  | .rir => loc

/-- `locToObject`, other than for `rir`: the reference. -/
def toReference (self : CString) (parsed : List ObjAddr) (key : List UInt8) : IOR :=
  let loc := parsed.foldl (addAddress self) {}
  match loc.addrlist with
  | [] => OmniIOR.ofAddresses .empty key ⟨self, 0⟩ [] ⟨1, 2⟩ loc.taggedComponents
  | address :: addrs => OmniIOR.ofAddresses .empty key address addrs loc.ver loc.taggedComponents

end Corbaloc

/-! ### Decoding what was made -/

namespace IIOP

variable {body : Profile}

lemma unmarshalObjectKey_encodeProfile (hbody : body.Fits) (hmajor : body.version.major = 1)
    (inPlace : Bool) :
    unmarshalObjectKey inPlace (encodeProfile body) = .ok (body.objectKey.map some) := by
  obtain ⟨e, hopen, hrun⟩ := (ReadsBack.profile hbody hmajor).exists_run
  exact unmarshalObjectKey_of_run hopen hrun inPlace

/-- The parts of a body are shorter than its profile. -/
lemma Profile.lengths_lt :
    body.address.host.octets.length + body.objectKey.length <
      (encodeProfile body).profileData.length ∧
    (0 < body.version.minor →
      body.components.length < (encodeProfile body).profileData.length ∧
      ∀ c ∈ body.components, c.componentData.length < (encodeProfile body).profileData.length) := by
  have hcounted (s : CdrOut) (c : TaggedComponent) :
      s.mkr + c.componentData.length < (s.marshalTaggedComponent c).mkr :=
    s.lt_mkr_marshalCounted c.tag c.componentData
  generalize hs : ((CdrOut.encapsulation.marshalVersion body.version).marshalAddress
    body.address).marshalOctetSeq body.objectKey = s
  have hfront : body.address.host.octets.length + body.objectKey.length < s.mkr := by
    have h4 := le_alignTo (CdrOut.encapsulation.marshalVersion body.version).mkr
      (by decide : 0 < 4)
    have h2 := le_alignTo (alignTo (CdrOut.encapsulation.marshalVersion body.version).mkr 4 + 4 +
      (body.address.host.octets.length + 1)) (by decide : 0 < 2)
    have hkey := le_alignTo ((CdrOut.encapsulation.marshalVersion body.version).marshalAddress
      body.address).mkr (by decide : 0 < 4)
    rw [← hs, CdrOut.marshalOctetSeq, CdrOut.mkr_putOctetArray, CdrOut.mkr_marshalULong]
    rw [OmniIOR.mkr_marshalAddress] at hkey ⊢
    omega
  have hdata : (encodeProfile body).profileData.length =
      (if 0 < body.version.minor then
        s.marshalSequence CdrOut.marshalTaggedComponent body.components else s).mkr := by
    rw [← hs]
    rfl
  by_cases hminor : 0 < body.version.minor
  · have hn := le_alignTo s.mkr (by decide : 0 < 4)
    rw [hdata, if_pos hminor, CdrOut.marshalSequence]
    have hcount := CdrOut.mkr_marshalULong s body.components.length
    have hfold := ReadsBack.le_mkr_foldl
      (fun s c => (Nat.le_add_right _ _).trans_lt (hcounted s c)) body.components
      (s.marshalULong body.components.length)
    refine ⟨by omega, fun _ => ⟨by omega, fun c hc => ?_⟩⟩
    exact (Nat.le_add_left _ _).trans_lt (CdrOut.le_mkr_foldl_of_mem hcounted hc _)
  · rw [hdata, if_neg hminor]
    exact ⟨hfront, fun h => absurd h hminor⟩

lemma Profile.fits_of_length (hversion : body.version.major < 256 ∧ body.version.minor < 256)
    (htags : ∀ c ∈ body.components, c.tag < 2 ^ 32)
    (hsize : (encodeProfile body).profileData.length < 2 ^ 30) : body.Fits := by
  obtain ⟨hfront, hcomponents⟩ := body.lengths_lt
  refine ⟨hversion, ?_, by omega, fun hminor => ?_⟩
  · rw [CString.Short]
    omega
  · obtain ⟨hcount, hdata⟩ := hcomponents hminor
    exact ⟨by omega, fun c hc => ⟨htags c hc, (hdata c hc).trans (by omega)⟩⟩

end IIOP

namespace OmniIOR

open IIOP

variable {body : Profile}

/-- What is got from an IIOP profile, and the components behind it. -/
lemma getIORInfo_eq (hbody : body.Fits) (hmajor : body.version.major = 1) (strictIIOP : Bool)
    (self : CString) {l : List TaggedComponent} (hl : ComponentsFit l) :
    getIORInfo strictIIOP self
      (encodeProfile body :: if l ≠ [] then [encodeMultiComponentProfile l] else []) =
      extractSupportedComponents self
        { body.toProfileBody with components := body.sent.components ++ l } := by
  have hprofile : unmarshalProfile strictIIOP (encodeProfile body) = .ok body.sent := by
    have h := unmarshalProfile_append hbody hmajor strictIIOP []
    rwa [List.append_nil, if_neg (by simp)] at h
  by_cases hne : l = []
  · subst hne
    have hinfo : getIORInfo strictIIOP self [encodeProfile body] =
        unmarshalProfile strictIIOP (encodeProfile body) >>= fun iiop =>
          extractSupportedComponents self iiop.toProfileBody := rfl
    rw [if_neg (not_not.mpr rfl), hinfo, hprofile, List.append_nil]
    rfl
  · have hmulti : unmarshalMultiComponentProfile strictIIOP (encodeMultiComponentProfile l)
        body.sent.components = .ok (body.sent.components ++ l) := by
      have h := unmarshalMultiComponentProfile_append hl hne strictIIOP [] body.sent.components
      rwa [List.append_nil, if_neg (by simp)] at h
    have hinfo : getIORInfo strictIIOP self
          [encodeProfile body, encodeMultiComponentProfile l] =
        unmarshalProfile strictIIOP (encodeProfile body) >>= fun iiop =>
          (unmarshalMultiComponentProfile strictIIOP (encodeMultiComponentProfile l)
            iiop.components >>= pure) >>= fun components =>
          extractSupportedComponents self
            { iiop.toProfileBody with components := components } := rfl
    rw [if_pos hne, hinfo, hprofile]
    change (unmarshalMultiComponentProfile _ _ body.sent.components >>= pure) >>= _ = _
    rw [bind_pure, hmulti]
    rfl

end OmniIOR

section Strings

variable {ior : IOR}

lemma IOP.IOR.fits_of_toString (htags : ∀ p ∈ ior.profiles, p.tag < 2 ^ 32)
    (hsize : (OmniObjRef.toString (some ior)).length < 2 ^ 31) :
    ior.Fits ∧ ∀ p ∈ ior.profiles, p.profileData.length < 2 ^ 30 := by
  rw [OmniObjRef.toString, List.length_append, OmniObjRef.length_digits] at hsize
  refine ⟨IOR.fits_of_length htags (by omega), fun p hp => ?_⟩
  have hlt := ior.lengths_lt.2 p hp
  omega

lemma OmniObjRef.fromString_toString (h : ior.Fits) :
    fromString (toString (some ior)) = .ok (some ior) := by
  have hfits : ∀ i ∈ some ior, i.Fits := by
    rintro i ⟨⟩
    exact h
  obtain ⟨garbage, hgarbage⟩ := @octets_digits_append
    (encapsulate fun buf => buf.marshalObjRef (some ior)) [] (by simp)
  rw [List.append_nil] at hgarbage
  exact fromString_of_octets hfits rfl hgarbage

end Strings

/-! ### What a server publishes -/

lemma tag_supportedComponents (orb : OrbParameters) (eps : IORPublish) (v : Version) :
    ∀ c ∈ supportedComponents orb eps v, c.tag < 2 ^ 32 := by
  have hif (p : Prop) [Decidable p] {l : List TaggedComponent} (hl : ∀ c ∈ l, c.tag < 2 ^ 32) :
      ∀ c ∈ (if p then l else []), c.tag < 2 ^ 32 := by
    split
    · exact hl
    · simp
  have hone (tag : ℕ) (data : List UInt8) (htag : tag < 2 ^ 32) :
      ∀ c ∈ [TaggedComponent.mk tag data], c.tag < 2 ^ 32 := by
    simpa using htag
  have hfor (tag : ℕ) (l : List (List UInt8)) (htag : tag < 2 ^ 32) :
      ∀ c ∈ componentsFor tag l, c.tag < 2 ^ 32 := by
    intro c hc
    obtain ⟨data, -, rfl⟩ := List.mem_map.mp hc
    exact htag
  simp only [supportedComponents, List.forall_mem_append]
  exact ⟨hif _ (hone _ _ (by decide)), hif _ (hone _ _ (by decide)), hif _ (hfor _ _ (by decide)),
    hif _ (hfor _ _ (by decide)), hif _ (hone _ _ (by decide)), hif _ (hfor _ _ (by decide)),
    hif _ (hfor _ _ (by decide)), hif _ (hone _ _ (by decide))⟩

section Published

open Publication

variable {orb : OrbParameters} {σ : Publication}

/-- However endpoints are published that keep what there is, with references made in between, the
string of a reference that is made then has all of them, and nothing else but a tcp address without
a port, and it has the object key. -/
theorem published_in_references (h : ReachedBy (step orb) (Keeps orb) {} σ)
    (hne : σ.published ≠ []) (repoId : CString) (key : List UInt8) :
    ∃ eps ior, OmniIOR.ofKey orb σ.eps repoId key = .ok (eps, ior) ∧
      ((OmniObjRef.toString (some ior)).length < 2 ^ 31 →
        ∃ ior' addresses, OmniObjRef.fromString (OmniObjRef.toString (some ior)) = .ok (some ior') ∧
          ior'.typeId = repoId ∧
          (∀ strictIIOP, OmniIOR.getIORInfo strictIIOP orb.self ior'.profiles = .ok addresses) ∧
          (∀ inPlace, OmniIOR.getObjectKey inPlace ior'.profiles = .ok (key.map some)) ∧
          (∀ e ∈ σ.published, e ∈ addresses) ∧
          ∀ e ∈ addresses, e ∈ σ.published ∨ ∃ host, e = .tcp ⟨host, 0⟩) := by
  have hinv : ∃ c, Consistent orb c σ := by
    refine ReachedBy.invariant (P := fun σ => ∃ c, Consistent orb c σ)
      ⟨_, consistent_start orb⟩ ?_ h
    rintro s action s' ⟨c, hc⟩ hk hs
    exact hc.step hk hs
  obtain ⟨c, hc⟩ := hinv
  obtain ⟨eps, iiop, addresses, hinsert, hextract, hall, honly⟩ := hc.survives hne
  obtain ⟨heps, hiiop⟩ : eps = _ ∧ iiop = _ := Prod.ext_iff.mp (Except.ok.inj
    (hinsert.symm.trans (insertSupportedComponents_newProfile orb (hc.host hne))))
  have hversion : iiop.version = ⟨1, 2⟩ := by rw [hiiop]
  have hhost : iiop.address.host.octets ≠ [] := by
    rw [hiiop, address_withCSIComponent]
    exact hc.host hne
  have htags : ∀ c ∈ iiop.components, c.tag < 2 ^ 32 := by
    rw [hiiop]
    exact tag_supportedComponents orb _ _
  refine ⟨eps, ⟨repoId, [IIOP.encodeProfile ⟨iiop, key⟩], .inl (List.cons_ne_nil _ _)⟩, ?_, ?_⟩
  · rw [OmniIOR.ofKey, hinsert]
    exact if_neg hhost
  · intro hsize
    have hprofiles : ∀ p ∈ [IIOP.encodeProfile ⟨iiop, key⟩], p.tag < 2 ^ 32 := by
      simp [IIOP.encodeProfile, tagInternetIop]
    obtain ⟨hior, hdata⟩ := IOR.fits_of_toString hprofiles hsize
    have hfits : IIOP.Profile.Fits ⟨iiop, key⟩ := by
      refine IIOP.Profile.fits_of_length ?_ htags (hdata _ List.mem_cons_self)
      rw [hversion]
      decide
    have hmajor : iiop.version.major = 1 := by rw [hversion]
    have hsent : IIOP.Profile.sent ⟨iiop, key⟩ = ⟨iiop, key⟩ := by
      rw [IIOP.Profile.sent, if_pos (by rw [hversion]; decide)]
    refine ⟨_, addresses, OmniObjRef.fromString_toString hior, rfl, fun strictIIOP => ?_,
      fun inPlace => IIOP.unmarshalObjectKey_encodeProfile hfits hmajor inPlace, hall, honly⟩
    have hinfo := OmniIOR.getIORInfo_eq hfits hmajor strictIIOP orb.self (l := [])
      ⟨by simp, by simp⟩
    rw [hsent, List.append_nil] at hinfo
    exact hinfo.trans hextract

/-- A TLS endpoint on another host than that of the tcp endpoint. -/
theorem published_in_references_two : ∃ σ, execute (step aHost) {}
    [.addIIOPAddress addressB, .addTagSSLSecTrans addressA 0x66 0x66] = some σ ∧
    ∃ eps ior, OmniIOR.ofKey aHost σ.eps .empty [0x6b] = .ok (eps, ior) ∧
      ((OmniObjRef.toString (some ior)).length < 2 ^ 31 →
        ∃ ior' addresses, OmniObjRef.fromString (OmniObjRef.toString (some ior)) = .ok (some ior') ∧
          ior'.typeId = .empty ∧
          (∀ strictIIOP, OmniIOR.getIORInfo strictIIOP aHost.self ior'.profiles = .ok addresses) ∧
          (∀ inPlace, OmniIOR.getObjectKey inPlace ior'.profiles = .ok ([0x6b].map some)) ∧
          (∀ e ∈ σ.published, e ∈ addresses) ∧
          ∀ e ∈ addresses, e ∈ σ.published ∨ ∃ host, e = .tcp ⟨host, 0⟩) :=
  ⟨_, rfl, published_in_references (((ReachedBy.start).next (a := .addIIOPAddress addressB)
    ⟨by decide, by decide, fun _ => ⟨by decide, Or.inl rfl, fun _ h => by cases h⟩⟩ rfl).next
    (a := .addTagSSLSecTrans addressA 0x66 0x66)
    ⟨by decide, by decide, by decide, fun h => absurd h (by decide), fun _ _ => Or.inl rfl⟩ rfl)
    (List.append_ne_nil_of_right_ne_nil _ (List.cons_ne_nil _ _)) .empty [0x6b]⟩

end Published

/-! ### What addresses are given -/

namespace OmniIOR

open IIOP

lemma lengths_lt_encodeMultiComponentProfile {l : List TaggedComponent} (hne : l ≠ []) :
    l.length < (IIOP.encodeMultiComponentProfile l).profileData.length ∧
      ∀ c ∈ l, c.componentData.length <
        (IIOP.encodeMultiComponentProfile l).profileData.length := by
  have hcounted (s : CdrOut) (c : TaggedComponent) :
      s.mkr + c.componentData.length < (s.marshalTaggedComponent c).mkr :=
    s.lt_mkr_marshalCounted c.tag c.componentData
  have hdata : (IIOP.encodeMultiComponentProfile l).profileData.length =
      (l.foldl CdrOut.marshalTaggedComponent (CdrOut.encapsulation.marshalULong l.length)).mkr := by
    rw [IIOP.encodeMultiComponentProfile]
    simp only [if_neg hne]
    rfl
  have hfold := ReadsBack.le_mkr_foldl
    (fun s c => (Nat.le_add_right _ _).trans_lt (hcounted s c)) l
    (CdrOut.encapsulation.marshalULong l.length)
  rw [CdrOut.mkr_marshalULong] at hfold
  rw [hdata]
  refine ⟨by omega, fun c hc => ?_⟩
  exact (Nat.le_add_left _ _).trans_lt (CdrOut.le_mkr_foldl_of_mem hcounted hc _)

variable {repoId : CString} {key : List UInt8} {address : Address} {addrs : List Address}
  {ver : Version} {taggedComponents : List TaggedComponent}

/-- What is got from a reference that can be made a string. -/
lemma getIORInfo_ofAddresses (hver : ver.major = 1 ∧ ver.minor < 256)
    (htags : ∀ c ∈ taggedComponents, c.tag < 2 ^ 32)
    (hsize : (OmniObjRef.toString
      (some (ofAddresses repoId key address addrs ver taggedComponents))).length < 2 ^ 31) :
    let ior := ofAddresses repoId key address addrs ver taggedComponents
    let components := addrs.map alternateAddress ++ if 0 < ver.minor then taggedComponents else []
    ior.Fits ∧ (∀ c ∈ components, c.componentData.length < 2 ^ 30) ∧
      (∀ strictIIOP self, getIORInfo strictIIOP self ior.profiles =
        extractSupportedComponents self ⟨ver, address, components⟩) ∧
      ∀ inPlace, getObjectKey inPlace ior.profiles = .ok (key.map some) := by
  intro ior components
  -- the components of the profile, and those of the other one
  let body : Profile := ⟨⟨ver, address, addrs.map alternateAddress ++ taggedComponents⟩, key⟩
  let others := if 0 < ver.minor then [] else addrs.map alternateAddress
  have halternate : ∀ c ∈ addrs.map alternateAddress, c.tag < 2 ^ 32 := by
    intro c hc
    obtain ⟨a, -, rfl⟩ := List.mem_map.mp hc
    exact (by decide : tagAlternateIIOPAddress < 2 ^ 32)
  have hprofiles : ior.profiles =
      encodeProfile body :: if others ≠ [] then [encodeMultiComponentProfile others] else [] := by
    by_cases hminor : 0 < ver.minor
    · have h0 : ver.minor ≠ 0 := hminor.ne'
      simp [ior, others, body, ofAddresses, hminor, h0]
    · have h0 : ver.minor = 0 := Nat.eq_zero_of_not_pos hminor
      simp [ior, others, body, ofAddresses, encodeProfile, CdrOut.marshalProfile, hver.1, h0]
  have htagged : ∀ p ∈ ior.profiles, p.tag < 2 ^ 32 := by
    rw [hprofiles]
    intro p hp
    obtain rfl | hp := List.mem_cons.mp hp
    · exact (by decide : tagInternetIop < 2 ^ 32)
    · split at hp
      · obtain rfl := List.mem_singleton.mp hp
        exact (by decide : tagMultipleComponents < 2 ^ 32)
      · exact absurd hp List.not_mem_nil
  obtain ⟨hior, hdata⟩ := IOR.fits_of_toString htagged hsize
  rw [hprofiles] at hdata
  have hfirst := hdata _ List.mem_cons_self
  have hbody : body.Fits := Profile.fits_of_length ⟨by rw [hver.1]; decide, hver.2⟩
    (List.forall_mem_append.mpr ⟨halternate, htags⟩) hfirst
  have hothers (hne : others ≠ []) : others.length < 2 ^ 30 ∧
      ∀ c ∈ others, c.componentData.length < 2 ^ 30 := by
    have hsecond := hdata (encodeMultiComponentProfile others) (by simp [hne])
    obtain ⟨hlen, hall⟩ := lengths_lt_encodeMultiComponentProfile hne
    exact ⟨hlen.trans hsecond, fun c hc => (hall c hc).trans hsecond⟩
  have hfit : ComponentsFit others := by
    by_cases hne : others = []
    · rw [hne]
      exact ⟨by simp, by simp⟩
    · obtain ⟨hlen, hall⟩ := hothers hne
      have hsub : ∀ c ∈ others, c ∈ addrs.map alternateAddress := by
        intro c hc
        by_cases hminor : 0 < ver.minor
        · simp [others, hminor] at hc
        · simpa [others, hminor] using hc
      exact ⟨by omega, fun c hc => ⟨halternate c (hsub c hc), (hall c hc).trans (by decide)⟩⟩
  have hcomponents : body.sent.components ++ others = components := by
    by_cases hminor : 0 < ver.minor
    · simp [body, others, components, Profile.sent, hminor]
    · simp [body, others, components, Profile.sent, hminor]
  refine ⟨hior, fun c hc => ?_, fun strictIIOP self => ?_, fun inPlace => ?_⟩
  · rw [← hcomponents] at hc
    obtain hc | hc := List.mem_append.mp hc
    · by_cases hminor : 0 < ver.minor
      · have hsent : c ∈ body.components := by simpa [Profile.sent, body, hminor] using hc
        exact ((body.lengths_lt.2 hminor).2 c hsent).trans hfirst
      · simp [Profile.sent, body, hminor] at hc
    · exact (hothers (List.ne_nil_of_mem hc)).2 c hc
  · rw [hprofiles, getIORInfo_eq hbody hver.1 strictIIOP self hfit, hcomponents]
  · rw [hprofiles]
    exact unmarshalObjectKey_encodeProfile hbody hver.1 inPlace

end OmniIOR

/-! ### What a corbaloc URI denotes -/

namespace Corbaloc

/-- The tcp address of an address of the list. One for TLS has no port for tcp. -/
def tcpAddress : ObjAddr → Option Address
  | .iiop a => some ⟨a.host, UInt16.ofNat a.port⟩
  | .ssliop a => some ⟨a.host, 0⟩
  | _ => none

def taggedComponent (self : CString) : ObjAddr → Option TaggedComponent
  | .ssliop a => some ⟨tagSSLSecTrans, IORPublish.sslComponent 0 0 (UInt16.ofNat a.port)⟩
  | .uiop _ _ filename => some ⟨tagOmniorbUnixTrans, encapsulate fun s =>
      ((s.marshalRawString self.octets).1.marshalRawString filename.octets).1⟩
  | _ => none

/-- The endpoint of another transport, where the ports for TLS are on `host`. -/
def otherEndpoint (host : CString) : ObjAddr → Option GiopAddress
  | .ssliop a => some (.ssl ⟨host, UInt16.ofNat a.port⟩)
  | .uiop _ _ filename => some (.unix filename)
  | _ => none

/-- The tcp addresses that the list denotes: `self`, if there are none. -/
def tcpAddresses (self : CString) (parsed : List ObjAddr) : Address × List Address :=
  match parsed.filterMap tcpAddress with
  | [] => (⟨self, 0⟩, [])
  | address :: addrs => (address, addrs)

/-- An iiop address of version 1.0, without a TLS address behind it. -/
def LosesComponents (parsed : List ObjAddr) : Prop :=
  ∃ pre a post, parsed = pre ++ .iiop a :: post ∧ a.minver = 0 ∧ ∀ b, .ssliop b ∉ post

lemma losesComponents_append {parsed : List ObjAddr} {addr : ObjAddr} :
    LosesComponents (parsed ++ [addr]) ↔
      (∃ a, addr = .iiop a ∧ a.minver = 0) ∨
      LosesComponents parsed ∧ ∀ b, addr ≠ .ssliop b := by
  constructor
  · rintro ⟨pre, a, post, h, hminver, hpost⟩
    induction post using List.reverseRecOn with
    | nil =>
      obtain ⟨-, hlast⟩ := List.append_inj' h rfl
      exact .inl ⟨a, List.head_eq_of_cons_eq hlast, hminver⟩
    | append_singleton post last _ =>
      rw [← List.cons_append, ← List.append_assoc] at h
      obtain ⟨hfront, hlast⟩ := List.append_inj' h rfl
      obtain rfl := List.head_eq_of_cons_eq hlast
      refine .inr ⟨⟨pre, a, post, hfront, hminver, fun b hb => ?_⟩, fun b hb => ?_⟩
      · exact hpost b (List.mem_append_left _ hb)
      · exact hpost b (by simp [hb])
  · rintro (⟨a, rfl, hminver⟩ | ⟨⟨pre, a, post, rfl, hminver, hpost⟩, haddr⟩)
    · exact ⟨parsed, a, [], rfl, hminver, fun b => List.not_mem_nil⟩
    · refine ⟨pre, a, post ++ [addr], by simp, hminver, fun b hb => ?_⟩
      obtain hb | hb := List.mem_append.mp hb
      · exact hpost b hb
      · exact haddr b (List.mem_singleton.mp hb).symm

/-- What the local variables are after a list of addresses. -/
structure Denotes (self : CString) (parsed : List ObjAddr) (loc : Corbaloc) : Prop where
  addrlist : loc.addrlist = parsed.filterMap tcpAddress
  components : loc.taggedComponents = parsed.filterMap (taggedComponent self)
  none : loc.addrlist = [] → loc.ver = ⟨127, 127⟩ ∧ ¬LosesComponents parsed
  some : loc.addrlist ≠ [] →
    loc.ver.major = 1 ∧ loc.ver.minor < 256 ∧ (loc.ver.minor = 0 ↔ LosesComponents parsed)

lemma denotes_foldl (self : CString) {parsed : List ObjAddr} (hrir : .rir ∉ parsed)
    (hmajor : ∀ a, .iiop a ∈ parsed → a.majver = 1) :
    Denotes self parsed (parsed.foldl (addAddress self) {}) := by
  induction parsed using List.reverseRecOn with
  | nil =>
    refine ⟨rfl, rfl, fun _ => ⟨rfl, ?_⟩, fun h => absurd rfl h⟩
    rintro ⟨pre, a, post, h, -⟩
    simp at h
  | append_singleton parsed addr ih =>
    obtain ⟨haddrlist, hcomponents, hnone, hsome⟩ := ih (fun h => hrir (by simp [h]))
      fun a ha => hmajor a (by simp [ha])
    rw [List.foldl_append, List.foldl_cons, List.foldl_nil]
    generalize parsed.foldl (addAddress self) {} = loc at *
    cases addr with
    | rir => exact absurd (by simp) hrir
    | iiop a =>
      have hmaj : a.majver.toNat = 1 := congrArg UInt8.toNat (hmajor a (by simp))
      have hmin : a.minver.toNat = 0 ↔ a.minver = 0 := UInt8.toNat_inj (b := 0)
      have hlt := a.minver.toNat_lt
      have hloses : LosesComponents (parsed ++ [.iiop a]) ↔
          a.minver.toNat = 0 ∨ LosesComponents parsed := by
        rw [losesComponents_append, hmin]
        simp
      refine ⟨by simp [addAddress, haddrlist, tcpAddress],
        by simp [addAddress, hcomponents, taggedComponent], fun h => by simp [addAddress] at h,
        fun _ => ?_⟩
      rw [hloses, addAddress]
      by_cases hnil : loc.addrlist = []
      · obtain ⟨hver, hnot⟩ := hnone hnil
        rw [hver, lower, if_pos (.inl (by rw [hmaj]; decide))]
        exact ⟨hmaj, hlt, by simp [hnot]⟩
      · obtain ⟨hver, hminor, hiff⟩ := hsome hnil
        rw [← hiff, lower]
        split
        case isTrue hlow => exact ⟨hmaj, hlt, by dsimp only; omega⟩
        case isFalse hlow => exact ⟨hver, hminor, by dsimp only; omega⟩
    | ssliop a =>
      refine ⟨by simp [addAddress, haddrlist, tcpAddress],
        by simp [addAddress, hcomponents, taggedComponent], fun h => by simp [addAddress] at h,
        fun _ => ⟨rfl, (by decide : 2 < 256), ?_⟩⟩
      rw [losesComponents_append]
      simp [addAddress]
    | uiop maj min filename =>
      have hloses : LosesComponents (parsed ++ [.uiop maj min filename]) ↔
          LosesComponents parsed := by
        rw [losesComponents_append]
        simp
      refine ⟨by simp [addAddress, haddrlist, tcpAddress],
        by simp [addAddress, hcomponents, taggedComponent], fun h => ?_, fun h => ?_⟩
      · rw [hloses]
        exact hnone h
      · rw [hloses]
        exact hsome h

section Reference

variable {self : CString} {parsed : List ObjAddr}

/-- The reference is made from the addresses that the list denotes, in the version that decides
whether it has the components. -/
lemma toReference_eq (hrir : .rir ∉ parsed) (hmajor : ∀ a, .iiop a ∈ parsed → a.majver = 1)
    (key : List UInt8) :
    ∃ ver, toReference self parsed key = OmniIOR.ofAddresses .empty key
        (tcpAddresses self parsed).1 (tcpAddresses self parsed).2 ver
        (parsed.filterMap (taggedComponent self)) ∧
      ver.major = 1 ∧ ver.minor < 256 ∧ (ver.minor = 0 ↔ LosesComponents parsed) := by
  obtain ⟨haddrlist, hcomponents, hnone, hsome⟩ := denotes_foldl self hrir hmajor
  rw [toReference, tcpAddresses]
  generalize parsed.foldl (addAddress self) {} = loc at *
  rw [hcomponents, haddrlist]
  cases hl : parsed.filterMap tcpAddress with
  | nil =>
    have hnot := (hnone (haddrlist.trans hl)).2
    exact ⟨⟨1, 2⟩, rfl, rfl, by decide, by simp [hnot]⟩
  | cons address addrs =>
    obtain ⟨hver, hminor, hiff⟩ := hsome (by simp [haddrlist, hl])
    exact ⟨loc.ver, rfl, hver, hminor, hiff⟩

lemma tag_taggedComponent : ∀ c ∈ parsed.filterMap (taggedComponent self), c.tag < 2 ^ 32 := by
  intro c hc
  obtain ⟨addr, -, haddr⟩ := List.mem_filterMap.mp hc
  cases addr with
  | rir => cases haddr
  | iiop a => cases haddr
  | ssliop a =>
    cases haddr
    exact (by decide : tagSSLSecTrans < 2 ^ 32)
  | uiop maj min filename =>
    cases haddr
    exact (by decide : tagOmniorbUnixTrans < 2 ^ 32)

/-- What the components for other transports are read as, behind a first tcp address. -/
lemma foldlM_taggedComponents {address : Address} (hself : self.Short)
    (haddress : address.host.Readable)
    (hfiles : ∀ maj min filename, .uiop maj min filename ∈ parsed →
      filename.Short ∧ filename.octets ≠ []) (acc : List GiopAddress)
    (hacc : acc.findSome? GiopAddress.tcpAddress? = some (buildURI (ascii "giop:tcp") address)) :
    (parsed.filterMap (taggedComponent self)).foldlM (extractComponent self) acc =
      .ok (acc ++ parsed.filterMap (otherEndpoint address.host)) := by
  obtain ⟨-, -, -, hssl, -, hunix, -, -⟩ := handlerFor_tags self
  have happend (acc : List GiopAddress) (x : GiopAddress)
      (h : acc.findSome? GiopAddress.tcpAddress? = some (buildURI (ascii "giop:tcp") address)) :
      (acc ++ [x]).findSome? GiopAddress.tcpAddress? =
        some (buildURI (ascii "giop:tcp") address) := by
    rw [List.findSome?_append, h]
    rfl
  induction parsed generalizing acc with
  | nil =>
    rw [List.filterMap_nil, List.filterMap_nil, List.append_nil]
    rfl
  | cons addr parsed ih =>
    have hrest := ih fun maj min filename h => hfiles maj min filename (List.mem_cons_of_mem _ h)
    cases addr with
    | rir => exact hrest acc hacc
    | iiop a => exact hrest acc hacc
    | ssliop a =>
      have h := hrest (acc ++ [.ssl ⟨address.host, UInt16.ofNat a.port⟩]) (happend acc _ hacc)
      rw [List.append_assoc] at h
      change (TaggedComponent.mk _ _ :: parsed.filterMap (taggedComponent self)).foldlM _ acc = _
      rw [List.foldlM_cons, extractComponent_of_handler hssl,
        OmniIOR.unmarshalTagSSLSecTrans_eq haddress hacc]
      exact h
    | uiop maj min filename =>
      obtain ⟨hshort, hne⟩ := hfiles maj min filename List.mem_cons_self
      have h := hrest (acc ++ [.unix filename]) (happend acc _ hacc)
      rw [List.append_assoc] at h
      change (TaggedComponent.mk _ _ :: parsed.filterMap (taggedComponent self)).foldlM _ acc = _
      rw [List.foldlM_cons, extractComponent_of_handler hunix,
        OmniIOR.unmarshalTagOmniorbUnixTrans_eq hself hshort hne]
      exact h

lemma readable_tcpAddresses (hself : self.Readable)
    (hhosts : ∀ addr ∈ parsed, ∀ a ∈ tcpAddress addr, a.host.Readable) :
    (tcpAddresses self parsed).1.host.Readable ∧
      ∀ a ∈ (tcpAddresses self parsed).2, a.host.Readable := by
  have hall : ∀ a ∈ parsed.filterMap tcpAddress, a.host.Readable := by
    intro a ha
    obtain ⟨addr, haddr, hsome⟩ := List.mem_filterMap.mp ha
    exact hhosts addr haddr a hsome
  rw [tcpAddresses]
  cases hl : parsed.filterMap tcpAddress with
  | nil => exact ⟨hself, by simp⟩
  | cons address addrs =>
    rw [hl, List.forall_mem_cons] at hall
    exact hall

end Reference

lemma short_of_alternateAddress {a : Address}
    (h : (OmniIOR.alternateAddress a).componentData.length < 2 ^ 30) : a.host.Short := by
  have h4 := le_alignTo CdrOut.encapsulation.mkr (by decide : 0 < 4)
  have h2 := le_alignTo (alignTo CdrOut.encapsulation.mkr 4 + 4 + (a.host.octets.length + 1))
    (by decide : 0 < 2)
  rw [OmniIOR.alternateAddress, length_encapsulate, OmniIOR.mkr_marshalAddress] at h
  rw [CString.Short]
  omega

lemma short_of_taggedComponent {self filename : CString}
    (h : (encapsulate fun s =>
      ((s.marshalRawString self.octets).1.marshalRawString filename.octets).1).length < 2 ^ 30) :
    filename.Short := by
  have hle := le_alignTo (CdrOut.encapsulation.marshalRawString self.octets).1.mkr
    (by decide : 0 < 4)
  rw [length_encapsulate, CdrOut.mkr_marshalRawString] at h
  rw [CString.Short]
  omega

/-- The string of a corbaloc URI's reference has the tcp addresses that the URI denotes, and its
object key. It has the other endpoints, but with the host of the first address for each port for
TLS, unless an iiop address makes the version 1.0: then it has none of them. -/
theorem corbaloc_endpoints {orb : OrbParameters} {parsed : List ObjAddr} {key : List UInt8}
    (hrir : .rir ∉ parsed) (hmajor : ∀ a, .iiop a ∈ parsed → a.majver = 1)
    (hself : orb.self.Readable)
    (hhosts : ∀ addr ∈ parsed, ∀ a ∈ tcpAddress addr, a.host.Readable)
    (hfiles : ∀ maj min filename, .uiop maj min filename ∈ parsed → filename.octets ≠ [])
    (hsize : (OmniObjRef.toString (some (toReference orb.self parsed key))).length < 2 ^ 31) :
    let addresses := tcpAddresses orb.self parsed
    ∃ ior others,
      OmniObjRef.fromString (OmniObjRef.toString (some (toReference orb.self parsed key))) =
        .ok (some ior) ∧
      (∀ strictIIOP, OmniIOR.getIORInfo strictIIOP orb.self ior.profiles =
        .ok (.tcp addresses.1 :: addresses.2.map .tcp ++ others)) ∧
      (∀ inPlace, OmniIOR.getObjectKey inPlace ior.profiles = .ok (key.map some)) ∧
      (LosesComponents parsed → others = []) ∧
      (¬LosesComponents parsed → others = parsed.filterMap (otherEndpoint addresses.1.host)) := by
  intro addresses
  obtain ⟨ver, href, hver, hminor, hiff⟩ := toReference_eq hrir hmajor key
  rw [href] at hsize ⊢
  obtain ⟨hfits, hdata, hinfo, hkey⟩ :=
    OmniIOR.getIORInfo_ofAddresses ⟨hver, hminor⟩ tag_taggedComponent hsize
  obtain ⟨hfirst, haddrs⟩ := readable_tcpAddresses hself hhosts
  have hstart : [GiopAddress.tcp addresses.1].findSome? GiopAddress.tcpAddress? =
      some (buildURI (ascii "giop:tcp") addresses.1) := rfl
  -- the further addresses come first
  have halternate := foldlM_componentsFor (fun acc => acc.findSome? GiopAddress.tcpAddress? =
      some (buildURI (ascii "giop:tcp") addresses.1)) (f := GiopAddress.tcp)
    (l := addresses.2) (handlerFor_tags orb.self).2.2.1
    (fun a ha acc _ => OmniIOR.unmarshalTagAlternateIIOPAddress_eq (haddrs a ha)
      (short_of_alternateAddress (hdata _ (List.mem_append_left _ (List.mem_map_of_mem ha)))))
    (fun acc y h => by rw [List.findSome?_append, h]; rfl) _ hstart
  have hmap : componentsFor tagAlternateIIOPAddress
      (addresses.2.map fun a => encapsulate fun s => s.marshalAddress a) =
      addresses.2.map OmniIOR.alternateAddress := List.map_map
  rw [hmap] at halternate
  have hextract (l : List TaggedComponent) : extractSupportedComponents orb.self
        ⟨ver, addresses.1, addresses.2.map OmniIOR.alternateAddress ++ l⟩ =
      l.foldlM (extractComponent orb.self) (.tcp addresses.1 :: addresses.2.map .tcp) := by
    rw [extractSupportedComponents, GiopAddress.fromTcpAddress_of_readable hfirst]
    exact foldlM_append_of_ok halternate
  have hshort : orb.self.Short := by
    have h := orb.self_lt
    rw [hostnameMax] at h
    rw [CString.Short]
    omega
  refine ⟨_, if 0 < ver.minor then parsed.filterMap (otherEndpoint addresses.1.host) else [],
    OmniObjRef.fromString_toString hfits, fun strictIIOP => ?_, hkey, fun h => ?_, fun h => ?_⟩
  · rw [hinfo, hextract]
    by_cases hpos : 0 < ver.minor
    · rw [if_pos hpos, if_pos hpos]
      refine foldlM_taggedComponents hshort hfirst (fun maj min filename hmem => ?_) _ rfl
      have hcomponent : TaggedComponent.mk tagOmniorbUnixTrans _ ∈
          parsed.filterMap (taggedComponent orb.self) := List.mem_filterMap.mpr ⟨_, hmem, rfl⟩
      rw [if_pos hpos] at hdata
      exact ⟨short_of_taggedComponent (hdata _ (List.mem_append_right _ hcomponent)),
        hfiles maj min filename hmem⟩
    · rw [if_neg hpos, if_neg hpos, List.append_nil]
      rfl
  · rw [if_neg (by rw [hiff.mpr h]; decide)]
  · rw [if_pos (Nat.pos_of_ne_zero fun h0 => h (hiff.mp h0))]

lemma noNul_h : 0 ∉ ascii "h" := by decide

/-- A TLS address in front of an iiop address that names no version. -/
def tlsAndPlain : List ObjAddr :=
  [.ssliop ⟨1, 2, ⟨ascii "t", by decide⟩, 2810⟩, .iiop ⟨1, 0, ⟨ascii "h", noNul_h⟩, 2809⟩]

set_option maxRecDepth 20000 in
theorem corbaloc_endpoints_tls :
    let addresses := tcpAddresses Publication.aHost.self tlsAndPlain
    ∃ ior others,
      OmniObjRef.fromString (OmniObjRef.toString
        (some (toReference Publication.aHost.self tlsAndPlain [0x6b]))) = .ok (some ior) ∧
      (∀ strictIIOP, OmniIOR.getIORInfo strictIIOP Publication.aHost.self ior.profiles =
        .ok (.tcp addresses.1 :: addresses.2.map .tcp ++ others)) ∧
      (∀ inPlace, OmniIOR.getObjectKey inPlace ior.profiles = .ok ([0x6b].map some)) ∧
      (LosesComponents tlsAndPlain → others = []) ∧
      (¬LosesComponents tlsAndPlain →
        others = tlsAndPlain.filterMap (otherEndpoint addresses.1.host)) :=
  corbaloc_endpoints (by decide) (by simp [tlsAndPlain]) (by decide)
    (by simp [tlsAndPlain, tcpAddress]; decide) (by simp [tlsAndPlain]) (by decide)

end Corbaloc

end OmniORB
