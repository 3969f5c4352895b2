import OmniORB.Ior.Decoding

/-!
# What a profile holds

The endpoints that the encapsulations of an `IORPublish` stand for, and the list of addresses that
is read from a profile that is filled with them.
-/

namespace OmniORB

open IOP

/-- What the encapsulations of an `IORPublish` stand for: addresses, the options and ports of TLS
endpoints on the host of the profile, the TLS addresses and options in the CSI component if it has
been made, file names and URLs. -/
structure Contents where
  alternatives : List Address := []
  ssl : List (UInt16 × UInt16 × UInt16) := []
  csi : Option (List Address × UInt16 × UInt16) := none
  unix : List CString := []
  http : List CString := []

/-- The octets of the CSI component. -/
def Contents.csiOctets (c : Contents) : List UInt8 :=
  c.csi.elim [] fun v => csiComponent v.1 v.2.1 v.2.2

/-- The addresses in the CSI component. -/
def Contents.csiAddrs (c : Contents) : List Address := c.csi.elim [] Prod.fst

/-- The encapsulations of an `IORPublish` are those of what they stand for. -/
structure Describes (hostname : CString) (c : Contents) (eps : IORPublish) : Prop where
  alternativeAddrs : eps.alternativeAddrs =
    c.alternatives.map fun a => encapsulate fun s => s.marshalAddress a
  sslAddrs : eps.sslAddrs = c.ssl.map fun o => IORPublish.sslComponent o.1 o.2.1 o.2.2
  csiComponent : eps.csiComponent = c.csiOctets
  unixAddrs : eps.unixAddrs = c.unix.map fun filename => encapsulate fun s =>
    ((s.marshalRawString hostname.octets).1.marshalRawString filename.octets).1
  httpAddrs : eps.httpAddrs =
    c.http.map fun url => encapsulate fun s => (s.marshalRawString url.octets).1

/-- All of it reads back. -/
structure Contents.Decodable (c : Contents) (host : CString) : Prop where
  alternatives : ∀ a ∈ c.alternatives, a.host.Readable ∧ a.host.Short
  ssl : c.ssl ≠ [] → host.Readable
  csi : ∀ a ∈ c.csiAddrs, a.host.Readable ∧ a.host.Short
  csiOctets : OmniIOR.tlsOctets c.csiAddrs < 2 ^ 31
  unix : ∀ filename ∈ c.unix, filename.Short ∧ filename.octets ≠ []
  http : ∀ url ∈ c.http, url.Short ∧ url.octets ≠ [] ∧ httpIsValid url.octets = true

/-- The addresses that are read from a profile with an address and components. -/
def Contents.addresses (c : Contents) (address : Address) (csiEnabled : Bool) : List GiopAddress :=
  (GiopAddress.fromTcpAddress address).toList ++ c.alternatives.map .tcp ++
    (c.ssl.map fun o => .ssl ⟨address.host, o.2.2⟩) ++
    (if csiEnabled then c.csiAddrs.map .ssl else []) ++ c.unix.map .unix ++ c.http.map .http

section Blocks

variable {α : Type} {self : CString} {tag : ℕ} {handler : OmniIOR.Handler}

/-- Components of one tag that add an address each, where something is kept that all of them need. -/
lemma foldlM_componentsFor (P : List GiopAddress → Prop) {enc : α → List UInt8} {f : α → GiopAddress}
    {l : List α} (hh : OmniIOR.handlerFor self tag = some handler)
    (h : ∀ x ∈ l, ∀ acc, P acc → handler (enc x) acc = .ok (acc ++ [f x]))
    (hP : ∀ acc y, P acc → P (acc ++ [y])) (acc : List GiopAddress) (hacc : P acc) :
    (componentsFor tag (l.map enc)).foldlM (extractComponent self) acc =
      .ok (acc ++ l.map f) := by
  induction l generalizing acc with
  | nil =>
    rw [List.map_nil, List.map_nil, List.append_nil]
    rfl
  | cons x l ih =>
    rw [List.forall_mem_cons] at h
    have hx := h.1 acc hacc
    have hl := ih h.2 (acc ++ [f x]) (hP acc (f x) hacc)
    rw [List.append_assoc, List.singleton_append] at hl
    rw [List.map_cons, List.map_cons, componentsFor, List.map_cons, List.foldlM_cons,
      extractComponent_of_handler hh, hx]
    exact hl

/-- A component that adds no address. -/
lemma foldlM_singleton {data : List UInt8} (hh : OmniIOR.handlerFor self tag = some handler)
    (acc : List GiopAddress) {out : List GiopAddress} (h : handler data acc = .ok out) :
    [TaggedComponent.mk tag data].foldlM (extractComponent self) acc = .ok out := by
  rw [List.foldlM_cons, extractComponent_of_handler hh, h]
  rfl

/-- Components behind others that have been read. -/
lemma foldlM_append_of_ok {l m : List TaggedComponent} {acc out : List GiopAddress}
    (h : l.foldlM (extractComponent self) acc = .ok out) :
    (l ++ m).foldlM (extractComponent self) acc = m.foldlM (extractComponent self) out := by
  rw [List.foldlM_append, h]
  rfl

end Blocks

variable {c : Contents} {eps : IORPublish} {acc : List GiopAddress}

/-- The first tcp address is that of the profile, if there are ports that are published without a
host. -/
def HasHost (c : Contents) (address : Address) (acc : List GiopAddress) : Prop :=
  c.ssl ≠ [] → acc.findSome? GiopAddress.tcpAddress? = some (buildURI (ascii "giop:tcp") address)

lemma HasHost.append {address : Address} (h : HasHost c address acc) (l : List GiopAddress) :
    HasHost c address (acc ++ l) := by
  intro hssl
  rw [List.findSome?_append, h hssl]
  rfl

lemma hasHost_fromTcpAddress {address : Address} (h : c.Decodable address.host) :
    HasHost c address (GiopAddress.fromTcpAddress address).toList := by
  intro hssl
  rw [GiopAddress.fromTcpAddress_of_readable (h.ssl hssl)]
  rfl

/-- What is read from a profile that is filled by the server itself. -/
theorem extractSupportedComponents_eq (orb : OrbParameters) (hd : Describes orb.self c eps)
    (hc : c.Decodable eps.address.host) (hcsi : eps.csiEnabled = true → c.csi ≠ none) :
    extractSupportedComponents orb.self
      ⟨⟨1, 2⟩, eps.address, supportedComponents orb eps ⟨1, 2⟩⟩ =
      .ok (c.addresses eps.address eps.csiEnabled) := by
  have hself : orb.self.Short := by
    have h := orb.self_lt
    rw [hostnameMax] at h
    rw [CString.Short]
    omega
  obtain ⟨horb, hsets, halt, hssl, hlist, hunix, hhttp, hid⟩ := handlerFor_tags orb.self
  have hhost := hasHost_fromTcpAddress hc
  generalize hstart : (GiopAddress.fromTcpAddress eps.address).toList = start at hhost
  have h1 := foldlM_singleton horb start OmniIOR.unmarshalTagOrbType_eq
  have h2 := foldlM_singleton hsets start (OmniIOR.unmarshalTagCodeSets_eq orb)
  have h3 := foldlM_componentsFor (HasHost c eps.address) (f := GiopAddress.tcp) halt
    (fun a ha acc _ => OmniIOR.unmarshalTagAlternateIIOPAddress_eq (hc.alternatives a ha).1
      (hc.alternatives a ha).2) (fun acc y h => h.append [y]) start hhost
  have hhost' := hhost.append (c.alternatives.map .tcp)
  have h4 := foldlM_componentsFor (HasHost c eps.address)
    (f := fun o => GiopAddress.ssl ⟨eps.address.host, o.2.2⟩) hssl
    (fun o ho acc h => OmniIOR.unmarshalTagSSLSecTrans_eq (hc.ssl (List.ne_nil_of_mem ho))
      (h (List.ne_nil_of_mem ho)) o.1 o.2.1 o.2.2) (fun acc y h => h.append [y]) _ hhost'
  have hu := fun acc => foldlM_componentsFor (fun _ => True) (f := GiopAddress.unix)
    hunix (fun filename hf acc _ => OmniIOR.unmarshalTagOmniorbUnixTrans_eq hself (hc.unix _ hf).1
      (hc.unix _ hf).2) (fun _ _ h => h) acc trivial
  have hh := fun acc => foldlM_componentsFor (fun _ => True) (f := GiopAddress.http)
    hhttp (fun url hurl acc _ => OmniIOR.unmarshalTagOmniorbHttpTrans_eq (hc.http _ hurl).1
      (hc.http _ hurl).2.2 (hc.http _ hurl).2.1) (fun _ _ h => h) acc trivial
  have hlist' : ∀ acc, (if eps.csiEnabled = true then
        [TaggedComponent.mk tagCSISecMechList c.csiOctets] else []).foldlM
        (extractComponent orb.self) acc =
      .ok (acc ++ if eps.csiEnabled = true then c.csiAddrs.map GiopAddress.ssl else []) := by
    intro acc
    split_ifs with hen
    · obtain ⟨v, hv⟩ := Option.ne_none_iff_exists'.mp (hcsi hen)
      have haddrs : c.csiAddrs = v.1 := by rw [Contents.csiAddrs, hv]; rfl
      have hoctets : c.csiOctets = csiComponent v.1 v.2.1 v.2.2 := by
        rw [Contents.csiOctets, hv]; rfl
      rw [hoctets, haddrs]
      have hall := hc.csi
      have hsize := hc.csiOctets
      rw [haddrs] at hall hsize
      exact foldlM_singleton hlist acc (OmniIOR.unmarshalTagCSISecMechList_eq hall hsize)
    · rw [List.append_nil]
      rfl
  have hid' : ∀ acc, (if orb.persistentId ≠ [] then
        [TaggedComponent.mk tagOmniorbPersistentId orb.persistentId] else []).foldlM
        (extractComponent orb.self) acc = .ok acc := by
    intro acc
    split_ifs
    · exact foldlM_singleton hid acc rfl
    · rfl
  have hv1 : Version.atLeast ⟨1, 2⟩ 1 = true := rfl
  have hv2 : Version.atLeast ⟨1, 2⟩ 2 = true := rfl
  rw [extractSupportedComponents, supportedComponents, hstart, Contents.addresses, hstart]
  simp only [hv1, hv2, if_true, true_and, hd.alternativeAddrs, hd.sslAddrs, hd.csiComponent,
    hd.unixAddrs, hd.httpAddrs]
  rw [foldlM_append_of_ok h1, foldlM_append_of_ok h2, foldlM_append_of_ok h3,
    foldlM_append_of_ok h4, foldlM_append_of_ok (hlist' _), foldlM_append_of_ok (hu _),
    foldlM_append_of_ok (hh _)]
  exact hid' _

end OmniORB
