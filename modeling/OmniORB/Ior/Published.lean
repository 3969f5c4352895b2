import OmniORB.Ior.Contents
import OmniORB.Library.Transitions

/-!
# Published endpoints

Endpoints are published one after another, with profiles made in between. What is published comes
back from a profile where no call of `ior.cc` takes away the host under which an earlier one was
published, and the list of security mechanisms is not made too early.
-/

namespace OmniORB

open Library IOP

/-- What a server has to put in a profile, and the endpoints that were published. -/
structure Publication where
  eps : IORPublish := {}
  published : List GiopAddress := []

/-- A call that publishes an endpoint, or the making of an IOR. -/
inductive PublishAction where
  | addIIOPAddress (address : Address)
  | addTagSSLSecTrans (address : Address) (supports requires : UInt16)
  | addTagOmniorbUnixTrans (filename : CString)
  | addTagOmniorbHttpTrans (url : CString)
  | makeIOR

namespace Publication

/-- A profile of GIOP 1.2 that is to be filled. -/
def newProfile : ProfileBody := ⟨⟨1, 2⟩, ⟨.empty, 0⟩, []⟩

def step (orb : OrbParameters) (σ : Publication) : PublishAction → Option Publication
  | .addIIOPAddress address =>
    some ⟨σ.eps.addIIOPAddress address, σ.published ++ [.tcp address]⟩
  | .addTagSSLSecTrans address supports requires =>
    some ⟨σ.eps.addTagSSLSecTrans address supports requires, σ.published ++ [.ssl address]⟩
  | .addTagOmniorbUnixTrans filename =>
    (σ.eps.addTagOmniorbUnixTrans orb.self filename).map fun eps =>
      ⟨eps, σ.published ++ [.unix filename]⟩
  | .addTagOmniorbHttpTrans url =>
    (σ.eps.addTagOmniorbHttpTrans url).map fun eps => ⟨eps, σ.published ++ [.http url]⟩
  | .makeIOR =>
    match insertSupportedComponents orb σ.eps newProfile with
    | .ok (eps, _) => some { σ with eps := eps }
    | .error _ => some σ

/-- The published endpoints come back from a profile, and nothing else but a tcp address without a
port, that nobody connects to. -/
def Survives (orb : OrbParameters) (σ : Publication) : Prop :=
  σ.published ≠ [] → ∃ eps profile addresses,
    insertSupportedComponents orb σ.eps newProfile = .ok (eps, profile) ∧
    extractSupportedComponents orb.self profile = .ok addresses ∧
    (∀ e ∈ σ.published, e ∈ addresses) ∧
    ∀ e ∈ addresses, e ∈ σ.published ∨ ∃ host, e = .tcp ⟨host, 0⟩

/-- A call takes nothing away from what is published and can be read itself. -/
def Keeps (orb : OrbParameters) (σ : Publication) : PublishAction → Prop
  | .addIIOPAddress address =>
    address.host.Readable ∧ address.host.Short ∧
    (σ.eps.address.port = 0 → address.host.octets ≠ [] ∧
      (σ.eps.sslAddrs = [] ∨ σ.eps.address.host = address.host) ∧
      ∀ other, .tcp other ∈ σ.published → other = address)
  | .addTagSSLSecTrans address _ _ =>
    address.host.Readable ∧ address.host.Short ∧
    OmniIOR.tlsOctets (σ.eps.tlsAddrs ++ [address]) < 2 ^ 31 ∧
    (σ.eps.address.host.octets = [] → address.host.octets ≠ []) ∧
    (σ.eps.address.host.octets ≠ [] → σ.eps.address.host ≠ address.host →
      σ.eps.csiComponent = [] ∨ .ssl address ∈ σ.published)
  | .addTagOmniorbUnixTrans filename =>
    filename.Short ∧ (σ.eps.address.host.octets = [] → orb.self.octets ≠ [])
  | .addTagOmniorbHttpTrans url =>
    url.Short ∧ httpIsValid url.octets = true ∧
    (σ.eps.address.host.octets = [] → ∀ u, extractURL url.octets = some u →
      u.address.host.octets ≠ [])
  | .makeIOR => True

/-! ### What holds between the calls -/

structure Consistent (orb : OrbParameters) (c : Contents) (σ : Publication) : Prop where
  describes : Describes orb.self c σ.eps
  decodable : c.Decodable σ.eps.address.host
  host : σ.published ≠ [] → σ.eps.address.host.octets ≠ []
  slot : σ.eps.address.port ≠ 0 →
    .tcp σ.eps.address ∈ σ.published ∧ σ.eps.address.host.Readable
  tcp : ∀ a, .tcp a ∈ σ.published →
    a = σ.eps.address ∧ σ.eps.address.host.Readable ∨ a ∈ c.alternatives
  noPort : σ.eps.address.port = 0 → c.alternatives = []
  alternatives : ∀ a ∈ c.alternatives, .tcp a ∈ σ.published
  sslPorts : ∀ o ∈ c.ssl, .ssl ⟨σ.eps.address.host, o.2.2⟩ ∈ σ.published
  tlsAddrs : ∀ a ∈ σ.eps.tlsAddrs, .ssl a ∈ σ.published ∧ a.host.Readable ∧ a.host.Short
  tlsOctets : OmniIOR.tlsOctets σ.eps.tlsAddrs < 2 ^ 31
  ssl : ∀ a, .ssl a ∈ σ.published → a ∈ σ.eps.tlsAddrs ∧
    ((a.host = σ.eps.address.host ∧ ∃ o ∈ c.ssl, o.2.2 = a.port) ∨
      σ.eps.csiEnabled = true ∧ (c.csi = none ∨ a ∈ c.csiAddrs))
  csiAddrs : ∀ a ∈ c.csiAddrs, .ssl a ∈ σ.published
  unix : ∀ filename, .unix filename ∈ σ.published ↔ filename ∈ c.unix
  http : ∀ url, .http url ∈ σ.published ↔ url ∈ c.http

lemma consistent_start (orb : OrbParameters) : Consistent orb {} {} where
  describes := ⟨rfl, rfl, rfl, rfl, rfl⟩
  decodable := by constructor <;> simp [Contents.csiAddrs, OmniIOR.tlsOctets]
  host h := absurd rfl h
  slot h := absurd rfl h
  tcp _ h := absurd h List.not_mem_nil
  noPort _ := rfl
  alternatives _ h := absurd h List.not_mem_nil
  sslPorts _ h := absurd h List.not_mem_nil
  tlsAddrs _ h := absurd h List.not_mem_nil
  tlsOctets := by simp [OmniIOR.tlsOctets]
  ssl _ h := absurd h List.not_mem_nil
  csiAddrs _ h := absurd h List.not_mem_nil
  unix _ := by simp
  http _ := by simp

section Steps

variable {orb : OrbParameters} {c : Contents} {σ : Publication}

lemma Consistent.csiComponent_eq_nil (h : Consistent orb c σ) :
    σ.eps.csiComponent = [] ↔ c.csi = none := by
  rw [h.describes.csiComponent, Contents.csiOctets]
  have hall := h.decodable.csi
  have hsize := h.decodable.csiOctets
  rw [Contents.csiAddrs] at hall hsize
  cases hc : c.csi with
  | none => exact ⟨fun _ => rfl, fun _ => rfl⟩
  | some v =>
    rw [hc] at hall hsize
    have hpos : 1 ≤ (csiComponent v.1 v.2.1 v.2.2).length :=
      OmniIOR.length_csiComponent_pos hall hsize
    exact ⟨fun hn => absurd hn (List.ne_nil_of_length_pos hpos), fun hn => absurd hn (by simp)⟩

/-- The host of the profile gets an address when there is none with a port. -/
lemma Consistent.setAddress (h : Consistent orb c σ) {address : Address}
    (hport : σ.eps.address.port = 0) (hr : address.host.Readable) (hne : address.host.octets ≠ [])
    (hssl : σ.eps.sslAddrs = [] ∨ σ.eps.address.host = address.host)
    (honly : ∀ other, .tcp other ∈ σ.published → other = address) :
    Consistent orb c ⟨{ σ.eps with address := address }, σ.published ++ [.tcp address]⟩ where
  describes := ⟨h.describes.alternativeAddrs, h.describes.sslAddrs, h.describes.csiComponent,
    h.describes.unixAddrs, h.describes.httpAddrs⟩
  decodable := { h.decodable with ssl := fun _ => hr }
  host _ := hne
  slot _ := ⟨by simp, hr⟩
  tcp a ha := by
    rcases List.mem_append.mp ha with ha | ha
    · exact Or.inl ⟨honly a ha, hr⟩
    · obtain rfl := GiopAddress.tcp.inj (List.mem_singleton.mp ha)
      exact Or.inl ⟨rfl, hr⟩
  noPort _ := h.noPort hport
  alternatives a ha := by
    rw [h.noPort hport] at ha
    cases ha
  sslPorts o ho := by
    refine List.mem_append_left _ ?_
    rcases hssl with hssl | hssl
    · rw [h.describes.sslAddrs, List.map_eq_nil_iff] at hssl
      rw [hssl] at ho
      cases ho
    · have hport := h.sslPorts o ho
      rwa [hssl] at hport
  tlsAddrs a ha := ⟨List.mem_append_left _ (h.tlsAddrs a ha).1, (h.tlsAddrs a ha).2⟩
  tlsOctets := h.tlsOctets
  ssl a ha := by
    have ha' : GiopAddress.ssl a ∈ σ.published := by simpa using ha
    obtain ⟨htls, hwhere⟩ := h.ssl a ha'
    refine ⟨htls, hwhere.imp_left fun ⟨hhost, o, ho, hoport⟩ => ?_⟩
    rcases hssl with hssl | hssl
    · rw [h.describes.sslAddrs, List.map_eq_nil_iff] at hssl
      rw [hssl] at ho
      cases ho
    · exact ⟨hhost.trans hssl, o, ho, hoport⟩
  csiAddrs a ha := List.mem_append_left _ (h.csiAddrs a ha)
  unix filename := by simpa using h.unix filename
  http url := by simpa using h.http url

/-- Another address of the host. -/
lemma Consistent.addAlternative (h : Consistent orb c σ) {address : Address}
    (hport : σ.eps.address.port ≠ 0) (hr : address.host.Readable) (hs : address.host.Short) :
    Consistent orb { c with alternatives := c.alternatives ++ [address] }
      ⟨σ.eps.addTagAlternateIIOPAddress address, σ.published ++ [.tcp address]⟩ where
  describes := { h.describes with
    alternativeAddrs := by
      rw [IORPublish.addTagAlternateIIOPAddress, h.describes.alternativeAddrs, List.map_append]
      rfl }
  decodable := { h.decodable with
    alternatives := by
      intro a ha
      rcases List.mem_append.mp ha with ha | ha
      · exact h.decodable.alternatives a ha
      · rw [List.mem_singleton.mp ha]
        exact ⟨hr, hs⟩ }
  host _ := h.host (List.ne_nil_of_mem (h.slot hport).1)
  slot _ := ⟨List.mem_append_left _ (h.slot hport).1, (h.slot hport).2⟩
  tcp a ha := by
    rcases List.mem_append.mp ha with ha | ha
    · exact (h.tcp a ha).imp_right (List.mem_append_left _)
    · obtain rfl := GiopAddress.tcp.inj (List.mem_singleton.mp ha)
      exact Or.inr (List.mem_append_right _ (List.mem_singleton_self a))
  noPort hp := absurd hp hport
  alternatives a ha := by
    rcases List.mem_append.mp ha with ha | ha
    · exact List.mem_append_left _ (h.alternatives a ha)
    · rw [List.mem_singleton.mp ha]
      exact List.mem_append_right _ (List.mem_singleton_self _)
  sslPorts o ho := List.mem_append_left _ (h.sslPorts o ho)
  tlsAddrs a ha := ⟨List.mem_append_left _ (h.tlsAddrs a ha).1, (h.tlsAddrs a ha).2⟩
  tlsOctets := h.tlsOctets
  ssl a ha := h.ssl a (by simpa using ha)
  csiAddrs a ha := List.mem_append_left _ (h.csiAddrs a ha)
  unix filename := by simpa using h.unix filename
  http url := by simpa using h.http url

/-- A TLS endpoint on the host of the profile, or the first endpoint of all. -/
lemma Consistent.addPort (h : Consistent orb c σ) {address : Address} {supports requires : UInt16}
    (hhost : σ.eps.address.host.octets = [] ∨ σ.eps.address.host = address.host)
    (hr : address.host.Readable) (hs : address.host.Short) (hne : address.host.octets ≠ [])
    (hsize : OmniIOR.tlsOctets (σ.eps.tlsAddrs ++ [address]) < 2 ^ 31) :
    Consistent orb { c with ssl := c.ssl ++ [(supports, requires, address.port)] }
      ⟨σ.eps.addTagSSLSecTrans address supports requires, σ.published ++ [.ssl address]⟩ := by
  have hif : ¬(σ.eps.address.host.octets ≠ [] ∧ σ.eps.address.host ≠ address.host) :=
    fun hn => hhost.elim hn.1 hn.2
  -- with an empty host nothing has been published
  have hempty : σ.published = [] ∨ σ.eps.address.host = address.host := by
    by_cases hp : σ.published = []
    · exact Or.inl hp
    · exact Or.inr (hhost.resolve_left (h.host hp))
  have hslot : σ.eps.address.port ≠ 0 → σ.eps.address.host = address.host := fun hport =>
    hempty.resolve_left (List.ne_nil_of_mem (h.slot hport).1)
  rw [IORPublish.addTagSSLSecTrans]
  simp only [if_neg hif]
  refine ⟨⟨h.describes.alternativeAddrs, ?_, h.describes.csiComponent, h.describes.unixAddrs,
    h.describes.httpAddrs⟩, { h.decodable with ssl := fun _ => hr }, fun _ => hne, fun hport => ?_,
    fun a ha => ?_, h.noPort, fun a ha => List.mem_append_left _ (h.alternatives a ha),
    fun o ho => ?_, fun a ha => ?_, hsize, fun a ha => ?_,
    fun a ha => List.mem_append_left _ (h.csiAddrs a ha), fun filename => ?_, fun url => ?_⟩
  · rw [List.map_append, h.describes.sslAddrs]
    rfl
  · have hmem := (h.slot hport).1
    refine ⟨List.mem_append_left _ ?_, hr⟩
    rwa [← hslot hport]
  · have ha' : GiopAddress.tcp a ∈ σ.published := by simpa using ha
    refine (h.tcp a ha').imp_left fun ⟨heq, _⟩ => ⟨?_, hr⟩
    rw [heq]
    rw [← hempty.resolve_left (List.ne_nil_of_mem ha')]
  · rcases List.mem_append.mp ho with ho | ho
    · have hmem := h.sslPorts o ho
      refine List.mem_append_left _ ?_
      rwa [hempty.resolve_left (List.ne_nil_of_mem hmem)] at hmem
    · rw [List.mem_singleton.mp ho]
      exact List.mem_append_right _ (List.mem_singleton_self _)
  · rcases List.mem_append.mp ha with ha | ha
    · exact ⟨List.mem_append_left _ (h.tlsAddrs a ha).1, (h.tlsAddrs a ha).2⟩
    · rw [List.mem_singleton.mp ha]
      exact ⟨List.mem_append_right _ (List.mem_singleton_self _), hr, hs⟩
  · rcases List.mem_append.mp ha with ha | ha
    · obtain ⟨htls, hwhere⟩ := h.ssl a ha
      refine ⟨List.mem_append_left _ htls, hwhere.imp_left fun ⟨hh, o, ho, hport⟩ => ?_⟩
      exact ⟨hh.trans (hempty.resolve_left (List.ne_nil_of_mem ha)), o,
        List.mem_append_left _ ho, hport⟩
    · obtain rfl := GiopAddress.ssl.inj (List.mem_singleton.mp ha)
      exact ⟨List.mem_append_right _ (List.mem_singleton_self _),
        Or.inl ⟨rfl, _, List.mem_append_right _ (List.mem_singleton_self _), rfl⟩⟩
  · simpa using h.unix filename
  · simpa using h.http url

/-- A TLS endpoint on another host, that the list of security mechanisms has or will have. -/
lemma Consistent.addMechanism (h : Consistent orb c σ) {address : Address}
    {supports requires : UInt16} (hhost : σ.eps.address.host.octets ≠ [])
    (hother : σ.eps.address.host ≠ address.host)
    (hr : address.host.Readable) (hs : address.host.Short)
    (hsize : OmniIOR.tlsOctets (σ.eps.tlsAddrs ++ [address]) < 2 ^ 31)
    (hcsi : σ.eps.csiComponent = [] ∨ .ssl address ∈ σ.published) :
    Consistent orb c
      ⟨σ.eps.addTagSSLSecTrans address supports requires, σ.published ++ [.ssl address]⟩ := by
  have hlist : c.csi = none ∨ address ∈ c.csiAddrs := by
    rcases hcsi with hcsi | hcsi
    · exact Or.inl (h.csiComponent_eq_nil.mp hcsi)
    · rcases (h.ssl address hcsi).2 with ⟨hh, -⟩ | ⟨-, hin⟩
      · exact absurd hh.symm hother
      · exact hin
  rw [IORPublish.addTagSSLSecTrans]
  simp only [if_pos (And.intro hhost hother)]
  refine ⟨⟨h.describes.alternativeAddrs, h.describes.sslAddrs, h.describes.csiComponent,
    h.describes.unixAddrs, h.describes.httpAddrs⟩, h.decodable, fun _ => hhost,
    fun hport => ⟨List.mem_append_left _ (h.slot hport).1, (h.slot hport).2⟩,
    fun a ha => h.tcp a (by simpa using ha), h.noPort,
    fun a ha => List.mem_append_left _ (h.alternatives a ha),
    fun o ho => List.mem_append_left _ (h.sslPorts o ho), fun a ha => ?_, hsize, fun a ha => ?_,
    fun a ha => List.mem_append_left _ (h.csiAddrs a ha), fun filename => ?_, fun url => ?_⟩
  · rcases List.mem_append.mp ha with ha | ha
    · exact ⟨List.mem_append_left _ (h.tlsAddrs a ha).1, (h.tlsAddrs a ha).2⟩
    · rw [List.mem_singleton.mp ha]
      exact ⟨List.mem_append_right _ (List.mem_singleton_self _), hr, hs⟩
  · rcases List.mem_append.mp ha with ha | ha
    · obtain ⟨htls, hwhere⟩ := h.ssl a ha
      exact ⟨List.mem_append_left _ htls, hwhere.imp_right fun hin => ⟨rfl, hin.2⟩⟩
    · obtain rfl := GiopAddress.ssl.inj (List.mem_singleton.mp ha)
      exact ⟨List.mem_append_right _ (List.mem_singleton_self _), Or.inr ⟨rfl, hlist⟩⟩
  · simpa using h.unix filename
  · simpa using h.http url

/-- The host of the profile, where none has been set, changes nothing for what is published. -/
lemma Consistent.setHost (h : Consistent orb c σ) {address : Address} {host : CString}
    (haddress : address = if σ.eps.address.host.octets = [] then { σ.eps.address with host := host }
      else σ.eps.address)
    (hne : σ.eps.address.host.octets = [] → host.octets ≠ []) :
    address.host.octets ≠ [] ∧
      Consistent orb c ⟨{ σ.eps with address := address }, σ.published⟩ := by
  split_ifs at haddress with hnil
  · have hp : σ.published = [] := by_contra fun hp => h.host hp hnil
    have hnone : ∀ e, e ∉ σ.published := fun e => by rw [hp]; exact List.not_mem_nil
    rw [haddress]
    exact ⟨hne hnil,
      ⟨⟨h.describes.alternativeAddrs, h.describes.sslAddrs, h.describes.csiComponent,
        h.describes.unixAddrs, h.describes.httpAddrs⟩,
      { h.decodable with ssl := fun hssl => (hssl (List.eq_nil_iff_forall_not_mem.mpr
          fun o ho => hnone _ (h.sslPorts o ho))).elim },
      fun _ => hne hnil, fun hport => absurd (h.slot hport).1 (hnone _),
      fun a ha => absurd ha (hnone _), h.noPort, h.alternatives,
      fun o ho => absurd (h.sslPorts o ho) (hnone _), h.tlsAddrs, h.tlsOctets,
      fun a ha => absurd ha (hnone _), h.csiAddrs, h.unix, h.http⟩⟩
  · rw [haddress]
    exact ⟨hnil, h⟩

lemma Consistent.addUnix (h : Consistent orb c σ) {filename : CString}
    (hhost : σ.eps.address.host.octets ≠ []) (hs : filename.Short) (hne : filename.octets ≠ []) :
    Consistent orb { c with unix := c.unix ++ [filename] }
      ⟨{ σ.eps with unixAddrs := σ.eps.unixAddrs ++ [encapsulate fun s =>
          ((s.marshalRawString orb.self.octets).1.marshalRawString filename.octets).1] },
        σ.published ++ [.unix filename]⟩ where
  describes := { h.describes with
    unixAddrs := by
      rw [List.map_append, h.describes.unixAddrs]
      rfl }
  decodable := { h.decodable with
    unix := by
      intro f hf
      rcases List.mem_append.mp hf with hf | hf
      · exact h.decodable.unix f hf
      · rw [List.mem_singleton.mp hf]
        exact ⟨hs, hne⟩ }
  host _ := hhost
  slot hport := ⟨List.mem_append_left _ (h.slot hport).1, (h.slot hport).2⟩
  tcp a ha := h.tcp a (by simpa using ha)
  noPort := h.noPort
  alternatives a ha := List.mem_append_left _ (h.alternatives a ha)
  sslPorts o ho := List.mem_append_left _ (h.sslPorts o ho)
  tlsAddrs a ha := ⟨List.mem_append_left _ (h.tlsAddrs a ha).1, (h.tlsAddrs a ha).2⟩
  tlsOctets := h.tlsOctets
  ssl a ha := h.ssl a (by simpa using ha)
  csiAddrs a ha := List.mem_append_left _ (h.csiAddrs a ha)
  unix f := by simp [h.unix f]
  http url := by simpa using h.http url

lemma Consistent.addHttp (h : Consistent orb c σ) {url : CString}
    (hhost : σ.eps.address.host.octets ≠ []) (hs : url.Short) (hne : url.octets ≠ [])
    (hvalid : httpIsValid url.octets = true) :
    Consistent orb { c with http := c.http ++ [url] }
      ⟨{ σ.eps with httpAddrs := σ.eps.httpAddrs ++
          [encapsulate fun s => (s.marshalRawString url.octets).1] },
        σ.published ++ [.http url]⟩ where
  describes := { h.describes with
    httpAddrs := by
      rw [List.map_append, h.describes.httpAddrs]
      rfl }
  decodable := { h.decodable with
    http := by
      intro u hu
      rcases List.mem_append.mp hu with hu | hu
      · exact h.decodable.http u hu
      · rw [List.mem_singleton.mp hu]
        exact ⟨hs, hne, hvalid⟩ }
  host _ := hhost
  slot hport := ⟨List.mem_append_left _ (h.slot hport).1, (h.slot hport).2⟩
  tcp a ha := h.tcp a (by simpa using ha)
  noPort := h.noPort
  alternatives a ha := List.mem_append_left _ (h.alternatives a ha)
  sslPorts o ho := List.mem_append_left _ (h.sslPorts o ho)
  tlsAddrs a ha := ⟨List.mem_append_left _ (h.tlsAddrs a ha).1, (h.tlsAddrs a ha).2⟩
  tlsOctets := h.tlsOctets
  ssl a ha := h.ssl a (by simpa using ha)
  csiAddrs a ha := List.mem_append_left _ (h.csiAddrs a ha)
  unix filename := by simpa using h.unix filename
  http u := by simp [h.http u]

/-- The list of security mechanisms has all TLS addresses when it is made. -/
lemma Consistent.withCSIComponent (h : Consistent orb c σ) :
    ∃ c', Consistent orb c' ⟨σ.eps.withCSIComponent, σ.published⟩ ∧
      (σ.eps.csiEnabled = true → c'.csi ≠ none) := by
  rw [IORPublish.withCSIComponent]
  split_ifs with hmake
  · refine ⟨{ c with csi := some (σ.eps.tlsAddrs, σ.eps.tlsSupports, σ.eps.tlsRequires) }, ?_,
      fun _ => by simp⟩
    exact { h with
      describes := { h.describes with csiComponent := rfl }
      decodable := { h.decodable with
        csi := fun a ha => (h.tlsAddrs a ha).2
        csiOctets := h.tlsOctets }
      ssl := fun a ha => ⟨(h.ssl a ha).1, (h.ssl a ha).2.imp_right fun hin =>
        ⟨hin.1, Or.inr (h.ssl a ha).1⟩⟩
      csiAddrs := fun a ha => (h.tlsAddrs a ha).1 }
  · refine ⟨c, h, fun hen hnone => hmake ⟨hen, h.csiComponent_eq_nil.mpr hnone⟩⟩

end Steps

/-! ### Runs -/

variable {orb : OrbParameters} {σ σ' : Publication} {action : PublishAction}

lemma address_withCSIComponent (eps : IORPublish) : eps.withCSIComponent.address = eps.address := by
  rw [IORPublish.withCSIComponent]
  split_ifs <;> rfl

lemma csiEnabled_withCSIComponent (eps : IORPublish) :
    eps.withCSIComponent.csiEnabled = eps.csiEnabled := by
  rw [IORPublish.withCSIComponent]
  split_ifs <;> rfl

/-- A new profile is filled if there is a host for it. -/
lemma insertSupportedComponents_newProfile (orb : OrbParameters) {eps : IORPublish} (h : eps.address.host.octets ≠ []) :
    insertSupportedComponents orb eps newProfile =
      .ok (eps.withCSIComponent, ⟨⟨1, 2⟩, eps.withCSIComponent.address,
        supportedComponents orb eps.withCSIComponent ⟨1, 2⟩⟩) := by
  have hif : ¬(newProfile.address.host.octets = [] ∧ eps.address.host.octets = []) :=
    fun hn => h hn.2
  rw [insertSupportedComponents, if_neg hif, address_withCSIComponent]
  rfl

/-- What one call keeps. -/
lemma Consistent.step {c : Contents} (h : Consistent orb c σ) (hk : Keeps orb σ action)
    (hs : step orb σ action = some σ') : ∃ c', Consistent orb c' σ' := by
  cases action with
  | addIIOPAddress address =>
    obtain rfl := Option.some.inj hs
    obtain ⟨hr, hshort, hslot⟩ := hk
    by_cases hport : σ.eps.address.port = 0
    · obtain ⟨hne, hssl, honly⟩ := hslot hport
      rw [IORPublish.addIIOPAddress, if_pos hport]
      exact ⟨c, h.setAddress hport hr hne hssl honly⟩
    · rw [IORPublish.addIIOPAddress, if_neg hport]
      exact ⟨_, h.addAlternative hport hr hshort⟩
  | addTagSSLSecTrans address supports requires =>
    obtain rfl := Option.some.inj hs
    obtain ⟨hr, hshort, hsize, hempty, hcsi⟩ := hk
    by_cases hhost : σ.eps.address.host.octets = []
    · exact ⟨_, h.addPort (Or.inl hhost) hr hshort (hempty hhost) hsize⟩
    · by_cases hsame : σ.eps.address.host = address.host
      · rw [hsame] at hhost
        exact ⟨_, h.addPort (Or.inr hsame) hr hshort hhost hsize⟩
      · exact ⟨c, h.addMechanism hhost hsame hr hshort hsize (hcsi hhost hsame)⟩
  | addTagOmniorbUnixTrans filename =>
    obtain ⟨eps, heps, rfl⟩ := Option.map_eq_some_iff.mp hs
    obtain ⟨hne, heps⟩ := Option.ite_none_left_eq_some.mp heps
    obtain rfl := Option.some.inj heps
    obtain ⟨hhost, hset⟩ := h.setHost rfl hk.2
    exact ⟨_, hset.addUnix hhost hk.1 hne⟩
  | addTagOmniorbHttpTrans url =>
    obtain ⟨eps, heps, rfl⟩ := Option.map_eq_some_iff.mp hs
    obtain ⟨hne, heps⟩ := Option.ite_none_left_eq_some.mp heps
    obtain ⟨address, haddress, rfl⟩ := Option.map_eq_some_iff.mp heps
    obtain ⟨hshort, hvalid, hempty⟩ := hk
    by_cases hnil : σ.eps.address.host.octets = []
    · rw [if_pos hnil] at haddress
      obtain ⟨u, hu, rfl⟩ := Option.map_eq_some_iff.mp haddress
      obtain ⟨hhost, hset⟩ := h.setHost (if_pos hnil).symm fun _ => hempty hnil u hu
      exact ⟨_, hset.addHttp hhost hshort hne hvalid⟩
    · rw [if_neg hnil] at haddress
      obtain rfl := Option.some.inj haddress
      exact ⟨_, h.addHttp hnil hshort hne hvalid⟩
  | makeIOR =>
    rw [step] at hs
    by_cases hnil : σ.eps.address.host.octets = []
    · rw [insertSupportedComponents, if_pos ⟨rfl, hnil⟩] at hs
      obtain rfl := Option.some.inj hs
      exact ⟨c, h⟩
    · rw [insertSupportedComponents_newProfile orb hnil] at hs
      obtain rfl := Option.some.inj hs
      obtain ⟨c', hc', -⟩ := h.withCSIComponent
      exact ⟨c', hc'⟩

/-- What is published between consistent calls comes back. -/
lemma Consistent.survives {c : Contents} (h : Consistent orb c σ) : Survives orb σ := by
  intro hp
  obtain ⟨c', hc', hcsi⟩ := h.withCSIComponent
  have hinsert := insertSupportedComponents_newProfile orb (h.host hp)
  have hextract := extractSupportedComponents_eq orb hc'.describes hc'.decodable
    (fun hen => hcsi (by rwa [csiEnabled_withCSIComponent] at hen))
  refine ⟨_, _, _, hinsert, hextract, fun e he => ?_, fun e he => ?_⟩
  · simp only [Contents.addresses, List.mem_append]
    cases e with
    | tcp a =>
      rcases hc'.tcp a he with ⟨rfl, hr⟩ | ha
      · simp [GiopAddress.fromTcpAddress_of_readable hr]
      · simp [ha]
    | ssl a =>
      rcases (hc'.ssl a he).2 with ⟨hhost, o, ho, hport⟩ | ⟨hen, hin⟩
      · have hmem : GiopAddress.ssl a ∈
            c'.ssl.map fun o => GiopAddress.ssl ⟨σ.eps.withCSIComponent.address.host, o.2.2⟩ := by
          refine List.mem_map.mpr ⟨o, ho, ?_⟩
          rw [hport, ← hhost]
        simp only [hmem, true_or, or_true]
      · have hen' : σ.eps.csiEnabled = true := by rwa [csiEnabled_withCSIComponent] at hen
        have ha := hin.resolve_left (hcsi hen')
        rw [if_pos hen]
        simp [ha]
    | unix filename =>
      have hmem := (hc'.unix filename).mp he
      simp [hmem]
    | http url =>
      have hmem := (hc'.http url).mp he
      simp [hmem]
  · simp only [Contents.addresses, List.mem_append, List.mem_map, Option.mem_toList] at he
    rcases he with ((((he | ⟨a, ha, rfl⟩) | ⟨o, ho, rfl⟩) | he) | ⟨filename, hf, rfl⟩) | ⟨url, hu, rfl⟩
    · by_cases hport : σ.eps.withCSIComponent.address.port = 0
      · obtain ⟨b, rfl, hb⟩ := GiopAddress.port_of_fromTcpAddress he
        rw [hport] at hb
        exact Or.inr ⟨b.host, by rw [← hb]⟩
      · obtain ⟨hmem, hr⟩ := hc'.slot hport
        rw [GiopAddress.fromTcpAddress_of_readable hr] at he
        exact Or.inl (Option.some.inj he ▸ hmem)
    · exact Or.inl (hc'.alternatives a ha)
    · exact Or.inl (hc'.sslPorts o ho)
    · split_ifs at he with hen
      · obtain ⟨a, ha, rfl⟩ := List.mem_map.mp he
        exact Or.inl (hc'.csiAddrs a ha)
      · cases he
    · exact Or.inl ((hc'.unix filename).mpr hf)
    · exact Or.inl ((hc'.http url).mpr hu)

/-- Endpoints that are published by calls that keep the earlier ones survive in an IOR. -/
theorem endpoints_survive (orb : OrbParameters)
    (h : ReachedBy (step orb) (Keeps orb) {} σ) : Survives orb σ := by
  have hinv : ∃ c, Consistent orb c σ := by
    refine ReachedBy.invariant (P := fun σ => ∃ c, Consistent orb c σ)
      ⟨_, consistent_start orb⟩ ?_ h
    rintro s action s' ⟨c, hc⟩ hk hs
    exact hc.step hk hs
  obtain ⟨c, hc⟩ := hinv
  exact hc.survives

/-- A host to publish from. -/
def aHost : OrbParameters where
  self := ⟨ascii "c", by decide⟩
  self_lt := by decide
  nativeCharCodeSet := 0x00010001
  nativeWCharCodeSet := 0x00010109
  persistentId := []

def addressA : Address := ⟨⟨ascii "a", by decide⟩, 1000⟩

def addressB : Address := ⟨⟨ascii "b", by decide⟩, 2000⟩

/-- A TLS endpoint on another host than that of the tcp endpoint, published after it. -/
theorem endpoints_survive_two : ∃ σ, execute (step aHost) {}
    [.addIIOPAddress addressB, .addTagSSLSecTrans addressA 0x66 0x66] = some σ ∧
    Survives aHost σ :=
  ⟨_, rfl, endpoints_survive aHost (((ReachedBy.start).next (a := .addIIOPAddress addressB)
    ⟨by decide, by decide, fun _ => ⟨by decide, Or.inl rfl, fun _ h => by cases h⟩⟩ rfl).next
    (a := .addTagSSLSecTrans addressA 0x66 0x66)
    ⟨by decide, by decide, by decide, fun h => absurd h (by decide), fun _ _ => Or.inl rfl⟩ rfl)⟩

/-- What there is to publish after the same two the other way round. -/
def otherWayRound : IORPublish where
  address := addressB
  sslAddrs := [IORPublish.sslComponent 0x66 0x66 1000]
  tlsAddrs := [addressA]
  tlsSupports := 0x66
  tlsRequires := 0x66

/-- The port of the TLS endpoint gets the host of the tcp endpoint that is published after it. -/
theorem tls_host_lost : ¬∀ orb σ, ReachedBy (step orb) (fun _ _ => True) {} σ → Survives orb σ := by
  intro hall
  have hrun : ReachedBy (step aHost) (fun _ _ => True) {}
      ⟨otherWayRound, [.ssl addressA, .tcp addressB]⟩ :=
    (ReachedBy.start.next (a := .addTagSSLSecTrans addressA 0x66 0x66) trivial rfl).next
      (a := .addIIOPAddress addressB) trivial rfl
  obtain ⟨eps, profile, addresses, hinsert, hextract, hmem, -⟩ := hall aHost _ hrun (by simp)
  have hcsi : otherWayRound.withCSIComponent = otherWayRound := if_neg (by decide)
  rw [insertSupportedComponents_newProfile aHost (by decide), Except.ok.injEq, Prod.mk.injEq, hcsi]
    at hinsert
  obtain ⟨-, rfl⟩ := hinsert
  have hdescribes : Describes aHost.self { ssl := [(0x66, 0x66, 1000)] } otherWayRound :=
    ⟨rfl, rfl, rfl, rfl, rfl⟩
  have hread := extractSupportedComponents_eq aHost hdescribes
    (by constructor <;> simp [Contents.csiAddrs, OmniIOR.tlsOctets]; decide) (by decide)
  rw [hread, Except.ok.injEq] at hextract
  have hlost : GiopAddress.ssl addressA ∉ addresses := by
    rw [← hextract, Contents.addresses, GiopAddress.fromTcpAddress_of_readable (by decide)]
    decide
  exact hlost (hmem _ (by simp))

end Publication

end OmniORB
