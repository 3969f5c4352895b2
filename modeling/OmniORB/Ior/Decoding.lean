import OmniORB.Ior.Components

/-!
# Components read back

What the handlers of `ior.cc` get from the components that the server fills.
-/

namespace OmniORB

open Library IOP

/-- A string that `CORBA::string_alloc` has room for with what it is put behind. -/
def CString.Short (s : CString) : Prop := s.octets.length + 32 < 2 ^ 31

instance (s : CString) : Decidable s.Short := inferInstanceAs (Decidable (_ < _))

lemma CString.Short.lt {s : CString} (h : s.Short) : s.octets.length + 1 < 2 ^ 32 := by
  rw [Short] at h
  omega

/-! ### What the records read -/

namespace ReadsBack

lemma address {a : Address} (h : a.host.Short) :
    ReadsBack (fun s => s.marshalAddress a) Unmarshal.address a :=
  (rawString h.lt).bind (v := fun s => s.marshalUShort a.port)
    ((ushort a.port).map (f := fun port => Address.mk a.host port))

lemma taggedComponent {c : TaggedComponent} (htag : c.tag < 2 ^ 32)
    (hlen : c.componentData.length < 2 ^ 32) :
    ReadsBack (fun s => s.marshalTaggedComponent c) Unmarshal.taggedComponent c :=
  (length htag).bind (v := fun s => s.marshalOctetSeq c.componentData)
    ((octetSeq hlen).map (f := fun data => TaggedComponent.mk c.tag data))

lemma codeSetComponent (native conversion : UInt32) :
    ReadsBack (fun s => OrbParameters.marshalCodeSetComponent s native conversion)
      Unmarshal.codeSetComponent (native.toNat, [conversion]) := by
  have hid : ∀ id : UInt32, ReadsBack (fun s => s.marshalULong id.toNat)
      (Unmarshal.ulong >>= fun n => pure (UInt32.ofNat n)) id := by
    intro id
    have h := (length id.toNat_lt).map (f := UInt32.ofNat)
    rwa [UInt32.ofNat_toNat] at h
  have hseq : ReadsBack
      (fun s => s.marshalSequence (fun s (id : UInt32) => s.marshalULong id.toNat) [conversion])
      (Unmarshal.sequence (Unmarshal.ulong >>= fun n => pure (UInt32.ofNat n))) [conversion] := by
    refine sequence (by rw [List.length_singleton]; decide) (fun id _ => hid id) fun out id => ?_
    have hle := le_alignTo out.mkr (Alignment.size_pos .align4)
    rw [CdrOut.mkr_marshalULong]
    exact Nat.lt_add_right_iff_pos.mpr (by decide) |>.trans_le (Nat.add_le_add_right hle 4)
  exact (length native.toNat_lt).bind
    (v := fun s => s.marshalSequence (fun s (id : UInt32) => s.marshalULong id.toNat) [conversion])
    (hseq.map (f := fun l => (native.toNat, l)))

end ReadsBack

/-! ### Components with an address each -/

namespace OmniIOR

variable {addresses : List GiopAddress}

lemma unmarshalTagOrbType_eq :
    unmarshalTagOrbType OrbParameters.myOrbType addresses = .ok addresses := by
  rw [unmarshalTagOrbType, OrbParameters.myOrbType, (ReadsBack.ulong _).fromEncapsulation]
  rfl

lemma unmarshalTagCodeSets_eq (orb : OrbParameters) :
    unmarshalTagCodeSets orb.myCodeSet addresses = .ok addresses := by
  have h := (ReadsBack.codeSetComponent orb.nativeCharCodeSet 0x05010001).bind
    (k := fun forChar => Unmarshal.codeSetComponent >>= fun forWChar => pure (forChar, forWChar))
    (ReadsBack.codeSetComponent orb.nativeWCharCodeSet 0x00010109).map
  have hread := h.fromEncapsulation
  rw [unmarshalTagCodeSets, OrbParameters.myCodeSet]
  exact congrArg (fun r => r >>= fun _ => Except.ok addresses) hread

lemma unmarshalTagAlternateIIOPAddress_eq {a : Address} (hr : a.host.Readable)
    (hs : a.host.Short) :
    unmarshalTagAlternateIIOPAddress (encapsulate fun s => s.marshalAddress a) addresses =
      .ok (addresses ++ [.tcp a]) := by
  rw [unmarshalTagAlternateIIOPAddress, (ReadsBack.address hs).fromEncapsulation]
  change Except.ok (addresses ++ (GiopAddress.fromTcpAddress a).toList) = _
  rw [GiopAddress.fromTcpAddress_of_readable hr]
  rfl

/-- The first tcp address is the one that is read with the components of the other transports. -/
lemma unmarshalTagSSLSecTrans_eq {a : Address} (hr : a.host.Readable)
    (ha : addresses.findSome? GiopAddress.tcpAddress? = some (buildURI (ascii "giop:tcp") a))
    (supports requires port : UInt16) :
    unmarshalTagSSLSecTrans (IORPublish.sslComponent supports requires port) addresses =
      .ok (addresses ++ [.ssl ⟨a.host, port⟩]) := by
  have hlen : (IORPublish.sslComponent supports requires port).length = 8 := by
    simp [IORPublish.sslComponent, length_encapsulate, alignTo]
  have hread : ReadsBack
      (fun s => ((s.marshalUShort supports).marshalUShort requires).marshalUShort port)
      (sslPort 8) port := by
    rw [sslPort, if_pos rfl]
    exact (ReadsBack.ushort supports).bind
      (v := fun s => (s.marshalUShort requires).marshalUShort port)
      ((ReadsBack.ushort requires).bind (v := fun s => s.marshalUShort port)
        (ReadsBack.ushort port))
  obtain ⟨e, hopen, hrun⟩ := hread.exists_run
  have hhost := extractHostPort_of_readable hr
  rw [unmarshalTagSSLSecTrans]
  simp only [hlen]
  rw [IORPublish.sslComponent, hopen]
  dsimp only [bind, Except.bind]
  rw [hrun]
  simp only [ha]
  have hdrop : (buildURI (ascii "giop:tcp") a).drop 9 =
      uriHost a.host.octets ++ 0x3a :: decimal a.port.toNat := rfl
  rw [hdrop]
  rw [hhost]
  simp only
  rw [GiopAddress.fromSslAddress_of_readable (a := ⟨a.host, port⟩) hr]
  rfl

lemma unmarshalTagOmniorbUnixTrans_eq {self filename : CString} (hself : self.Short)
    (hf : filename.Short) (hne : filename.octets ≠ []) :
    unmarshalTagOmniorbUnixTrans self
      (encapsulate fun s => ((s.marshalRawString self.octets).1.marshalRawString filename.octets).1)
      addresses = .ok (addresses ++ [.unix filename]) := by
  have hread := ((ReadsBack.rawString hself.lt).bind
    (k := fun host => Unmarshal.rawString >>= fun filename => pure (host, filename))
    (v := fun s => (s.marshalRawString filename.octets).1)
    (ReadsBack.rawString hf.lt).map).fromEncapsulation
  rw [unmarshalTagOmniorbUnixTrans]
  refine (congrArg (fun r => r >>= _) hread).trans ?_
  change (if self ≠ self ∨ filename.octets = [] then _ else _) = _
  rw [if_neg (by simp [hne]), GiopAddress.str2Address_unix]
  rfl

lemma unmarshalTagOmniorbHttpTrans_eq {url : CString} (hu : url.Short)
    (hvalid : httpIsValid url.octets = true) (hne : url.octets ≠ []) :
    unmarshalTagOmniorbHttpTrans (encapsulate fun s => (s.marshalRawString url.octets).1)
      addresses = .ok (addresses ++ [.http url]) := by
  have hread := (ReadsBack.rawString hu.lt).fromEncapsulation
  rw [unmarshalTagOmniorbHttpTrans, hread]
  change (if url.octets = [] then _ else _) = _
  rw [if_neg hne, GiopAddress.str2Address_http hvalid]
  rfl

/-! ### The list of security mechanisms -/

/-- The octets of the TLS addresses, with what stands in front of them. -/
def tlsOctets (addrs : List Address) : ℕ := 12 + (addrs.map fun a => a.host.octets.length + 11).sum

lemma mkr_marshalAddress (s : CdrOut) (a : Address) : (s.marshalAddress a).mkr =
    alignTo (alignTo s.mkr 4 + 4 + (a.host.octets.length + 1)) 2 + 2 := by
  rw [CdrOut.marshalAddress, CdrOut.mkr_marshalUShort, CdrOut.mkr_marshalRawString]

lemma lt_mkr_marshalAddress (s : CdrOut) (a : Address) : s.mkr < (s.marshalAddress a).mkr := by
  have h4 := le_alignTo s.mkr (by decide : 0 < 4)
  have h2 := le_alignTo (alignTo s.mkr 4 + 4 + (a.host.octets.length + 1)) (by decide : 0 < 2)
  rw [mkr_marshalAddress]
  omega

lemma mkr_foldl_marshalAddress (addrs : List Address) (s : CdrOut) :
    (addrs.foldl CdrOut.marshalAddress s).mkr + 12 ≤ s.mkr + tlsOctets addrs := by
  induction addrs generalizing s with
  | nil => exact le_rfl
  | cons a addrs ih =>
    have hrest := ih (s.marshalAddress a)
    have h4 := alignTo_lt s.mkr (by decide : 0 < 4)
    have h2 := alignTo_lt (alignTo s.mkr 4 + 4 + (a.host.octets.length + 1)) (by decide : 0 < 2)
    rw [mkr_marshalAddress] at hrest
    simp only [tlsOctets, List.foldl_cons, List.map_cons, List.sum_cons] at hrest ⊢
    omega

lemma length_tlsComponent (addrs : List Address) (supports requires : UInt16) :
    addrs.length + 12 ≤ (tlsComponent addrs supports requires).length ∧
      (tlsComponent addrs supports requires).length ≤ tlsOctets addrs := by
  have hle := mkr_foldl_marshalAddress addrs
    (((CdrOut.encapsulation.marshalUShort supports).marshalUShort requires).marshalULong addrs.length)
  have hge := ReadsBack.le_mkr_foldl lt_mkr_marshalAddress addrs
    (((CdrOut.encapsulation.marshalUShort supports).marshalUShort requires).marshalULong addrs.length)
  simp only [CdrOut.mkr_marshalULong, CdrOut.mkr_marshalUShort, CdrOut.mkr_encapsulation] at hle hge
  have h12 : alignTo (alignTo (alignTo 1 2 + 2) 2 + 2) 4 + 4 = 12 := by decide
  rw [h12] at hle hge
  rw [tlsComponent, length_encapsulate, CdrOut.marshalSequence]
  omega

/-- The TLS addresses of a list that all of them read from. -/
lemma tlsAddresses_eq {addrs : List Address}
    (h : ∀ a ∈ addrs, a.host.Readable ∧ a.host.Short) (addresses : List GiopAddress) :
    ReadsBack (fun s => addrs.foldl CdrOut.marshalAddress s) (tlsAddresses addrs.length addresses)
      (addresses ++ addrs.map .ssl, true) := by
  induction addrs generalizing addresses with
  | nil =>
    rw [List.map_nil, List.append_nil]
    exact .pure _
  | cons a addrs ih =>
    rw [List.forall_mem_cons] at h
    refine (ReadsBack.address h.1.2).bind (v := fun s => addrs.foldl CdrOut.marshalAddress s) ?_
    rw [GiopAddress.fromSslAddress_of_readable h.1.1]
    have hrest := ih h.2 (addresses ++ [.ssl a])
    rwa [List.append_assoc] at hrest

lemma tlsMechanism_eq {addrs : List Address} (h : ∀ a ∈ addrs, a.host.Readable ∧ a.host.Short)
    (hsize : tlsOctets addrs < 2 ^ 31) (supports requires : UInt16) :
    tlsMechanism (tlsComponent addrs supports requires) addresses =
      .ok (addresses ++ addrs.map .ssl, true) := by
  obtain ⟨hge, hle⟩ := length_tlsComponent addrs supports requires
  have hread : ReadsBack
      (fun s => addrs.foldl CdrOut.marshalAddress (s.marshalULong addrs.length))
      (Unmarshal.ulong >>= fun n =>
        if (tlsComponent addrs supports requires).length < n then
          throw (.cdr .marshalPassEndOfMessage)
        else tlsAddresses n addresses)
      (addresses ++ addrs.map .ssl, true) := by
    refine (ReadsBack.length (by omega)).bind
      (v := fun s => addrs.foldl CdrOut.marshalAddress s) ?_
    rw [if_neg (by omega)]
    exact tlsAddresses_eq h addresses
  rw [tlsMechanism]
  refine ReadsBack.fromEncapsulation ?_
  refine (ReadsBack.ushort supports).bind (v := fun s => addrs.foldl CdrOut.marshalAddress
    ((s.marshalUShort requires).marshalULong addrs.length)) ?_
  exact (ReadsBack.ushort requires).bind
    (v := fun s => addrs.foldl CdrOut.marshalAddress (s.marshalULong addrs.length)) hread

/-- Empty octet sequences, lists of them and zeros are all written the same way. -/
lemma zero_readsBack : ReadsBack (fun s => s.marshalULong 0) Unmarshal.ulong 0 ∧
    ReadsBack (fun s => s.marshalULong 0) Unmarshal.octetSeq [] ∧
    ReadsBack (fun s => s.marshalULong 0) (Unmarshal.sequence Unmarshal.octetSeq) [] := by
  have hzero : ReadsBack (fun s => s.marshalULong 0) Unmarshal.ulong 0 := .length (by decide)
  refine ⟨hzero, ?_, hzero.bind (v := fun s => s) (ReadsBack.checkOverrun (.pure []) fun _ => le_rfl)⟩
  have h := ReadsBack.octetSeq (b := []) (by decide)
  simpa only [CdrOut.marshalOctetSeq, CdrOut.putOctetArray_nil, List.length_nil] using h

/-- The mechanism that is read from what stands in a `TAG_CSI_SEC_MECH_LIST`. -/
lemma compoundSecMech_eq (data : List UInt8) (hlen : data.length < 2 ^ 32) (requires : UInt16) :
    ReadsBack
      (fun s => s.marshalCompoundSecMech requires ⟨tagTLSSecTrans, data⟩) compoundSecMech (0, 0, ⟨tagTLSSecTrans, data⟩) := by
  obtain ⟨hzero, hseq, hnames⟩ := zero_readsBack
  -- the two contexts that nothing is asked for in
  have hsas : ReadsBack (fun s => ((s.marshalULong 0).marshalULong 0).marshalULong 0)
      (Unmarshal.ulong >>= fun authoritiesLen =>
        if data.length < authoritiesLen then throw (.cdr .marshalPassEndOfMessage)
        else Unmarshal.items (Unmarshal.ulong >>= fun syntax' =>
            Unmarshal.octetSeq >>= fun name => pure (syntax', name)) authoritiesLen >>= fun _ =>
          Unmarshal.sequence Unmarshal.octetSeq >>= fun _ =>
          Unmarshal.ulong >>= fun _ => pure ((0 : UInt16), (0 : UInt16),
            TaggedComponent.mk tagTLSSecTrans data))
      (0, 0, ⟨tagTLSSecTrans, data⟩) := by
    refine hzero.bind (v := fun s => (s.marshalULong 0).marshalULong 0) ?_
    rw [if_neg (Nat.not_lt_zero _)]
    exact (ReadsBack.pure []).bind (v := fun s => (s.marshalULong 0).marshalULong 0)
      (hnames.bind (v := fun s => s.marshalULong 0) hzero.map)
  unfold compoundSecMech CdrOut.marshalCompoundSecMech
  refine (ReadsBack.ushort requires).bind (v := fun s =>
    let s := s.marshalTaggedComponent ⟨tagTLSSecTrans, data⟩
    let s := (((s.marshalUShort 0).marshalUShort 0).marshalULong 0).marshalULong 0
    ((((s.marshalUShort 0).marshalUShort 0).marshalULong 0).marshalULong 0).marshalULong 0) ?_
  refine (ReadsBack.taggedComponent (by decide : tagTLSSecTrans < 2 ^ 32) hlen).bind (v := fun s =>
    let s := (((s.marshalUShort 0).marshalUShort 0).marshalULong 0).marshalULong 0
    ((((s.marshalUShort 0).marshalUShort 0).marshalULong 0).marshalULong 0).marshalULong 0) ?_
  refine (ReadsBack.ushort 0).bind (v := fun s =>
    let s := ((s.marshalUShort 0).marshalULong 0).marshalULong 0
    ((((s.marshalUShort 0).marshalUShort 0).marshalULong 0).marshalULong 0).marshalULong 0) ?_
  refine (ReadsBack.ushort 0).bind (v := fun s =>
    let s := (s.marshalULong 0).marshalULong 0
    ((((s.marshalUShort 0).marshalUShort 0).marshalULong 0).marshalULong 0).marshalULong 0) ?_
  refine hseq.bind (v := fun s =>
    let s := s.marshalULong 0
    ((((s.marshalUShort 0).marshalUShort 0).marshalULong 0).marshalULong 0).marshalULong 0) ?_
  refine hseq.bind (v := fun s =>
    ((((s.marshalUShort 0).marshalUShort 0).marshalULong 0).marshalULong 0).marshalULong 0) ?_
  refine (ReadsBack.ushort 0).bind (v := fun s =>
    (((s.marshalUShort 0).marshalULong 0).marshalULong 0).marshalULong 0) ?_
  exact (ReadsBack.ushort 0).bind
    (v := fun s => ((s.marshalULong 0).marshalULong 0).marshalULong 0) hsas

section CSI

variable {addrs : List Address} {supports requires : UInt16}

lemma compoundSecMechs_eq (h : ∀ a ∈ addrs, a.host.Readable ∧ a.host.Short)
    (hsize : tlsOctets addrs < 2 ^ 31) :
    ReadsBack (fun s => s.marshalCompoundSecMech requires
        ⟨tagTLSSecTrans, tlsComponent addrs supports requires⟩)
      (compoundSecMechs 1 addresses) (addresses ++ addrs.map .ssl) := by
  obtain ⟨-, hle⟩ := length_tlsComponent addrs supports requires
  have hmech := compoundSecMech_eq (tlsComponent addrs supports requires) (by omega) requires
  refine hmech.bind (v := fun s => s) ?_
  rw [if_pos ⟨rfl, rfl, rfl⟩, tlsMechanism_eq h hsize]
  exact .pure _

lemma length_csiComponent_pos (h : ∀ a ∈ addrs, a.host.Readable ∧ a.host.Short)
    (hsize : tlsOctets addrs < 2 ^ 31) : 1 ≤ (csiComponent addrs supports requires).length :=
  ((ReadsBack.boolean false).bind (k := fun _ => Unmarshal.ulong >>= fun _ => compoundSecMechs 1 [])
    ((ReadsBack.length (by decide)).bind (compoundSecMechs_eq h hsize))).length_encapsulate_pos

/-- The TLS addresses that are in the list of mechanisms come out of it. -/
lemma unmarshalTagCSISecMechList_eq (h : ∀ a ∈ addrs, a.host.Readable ∧ a.host.Short)
    (hsize : tlsOctets addrs < 2 ^ 31) :
    unmarshalTagCSISecMechList (csiComponent addrs supports requires) addresses =
      .ok (addresses ++ addrs.map .ssl) := by
  have hpos : 1 ≤ (csiComponent addrs supports requires).length := length_csiComponent_pos h hsize
  rw [unmarshalTagCSISecMechList]
  refine ReadsBack.fromEncapsulation ?_
  refine (ReadsBack.boolean false).bind
    (v := fun s => (s.marshalULong 1).marshalCompoundSecMech requires
      ⟨tagTLSSecTrans, tlsComponent addrs supports requires⟩) ?_
  refine (ReadsBack.length (by decide : 1 < 2 ^ 32)).bind
    (v := fun s => s.marshalCompoundSecMech requires
      ⟨tagTLSSecTrans, tlsComponent addrs supports requires⟩) ?_
  rw [if_neg (by omega)]
  exact compoundSecMechs_eq h hsize

end CSI

end OmniIOR

/-! ### Handlers by tag -/

section Extract

variable {self : CString} {addresses : List GiopAddress} {data : List UInt8}

lemma extractComponent_of_handler {tag : ℕ} {handler : OmniIOR.Handler}
    (h : OmniIOR.handlerFor self tag = some handler) :
    extractComponent self addresses ⟨tag, data⟩ = handler data addresses := by
  rw [extractComponent, h]

/-- The table is in ascending order, so that the search finds what is in it. -/
lemma handlerFor_of_get {k tag : ℕ} {handler : Option OmniIOR.Handler}
    (h : (OmniIOR.componentUnmarshalHandlers self)[k]? = some (tag, handler)) :
    OmniIOR.handlerFor self tag = handler := by
  have hsorted : ((OmniIOR.componentUnmarshalHandlers self).map Prod.fst).Pairwise (· < ·) := by
    have hids : (OmniIOR.componentUnmarshalHandlers self).map Prod.fst =
        [0, 1, 2, 3, 5, 6, 12, 13, 14, 15, 16, 17, 18, 19, 20, 21, 22, 23, 24, 25, 33, 100, 101, 102,
          103, 123, 90002, 90003, 0x41545401, 0x41545402, 0x41545403, 0x41545405] := rfl
    rw [hids]
    decide
  have ht := TargetAt.of_sorted hsorted h
  have hlen := (List.getElem?_eq_some_iff.mp h).1
  rw [OmniIOR.handlerFor, search_eq_some ht (Nat.sub_le _ _) le_rfl (Nat.zero_le k) hlen]
  rfl

/-- The handlers of the tags that a server writes. -/
lemma handlerFor_tags (self : CString) :
    OmniIOR.handlerFor self tagOrbType = some OmniIOR.unmarshalTagOrbType ∧
    OmniIOR.handlerFor self tagCodeSets = some OmniIOR.unmarshalTagCodeSets ∧
    OmniIOR.handlerFor self tagAlternateIIOPAddress =
      some OmniIOR.unmarshalTagAlternateIIOPAddress ∧
    OmniIOR.handlerFor self tagSSLSecTrans = some OmniIOR.unmarshalTagSSLSecTrans ∧
    OmniIOR.handlerFor self tagCSISecMechList = some OmniIOR.unmarshalTagCSISecMechList ∧
    OmniIOR.handlerFor self tagOmniorbUnixTrans =
      some (OmniIOR.unmarshalTagOmniorbUnixTrans self) ∧
    OmniIOR.handlerFor self tagOmniorbHttpTrans = some OmniIOR.unmarshalTagOmniorbHttpTrans ∧
    OmniIOR.handlerFor self tagOmniorbPersistentId =
      some OmniIOR.unmarshalTagOmniorbPersistentId :=
  ⟨handlerFor_of_get (k := 0) rfl, handlerFor_of_get (k := 1) rfl, handlerFor_of_get (k := 3) rfl,
    handlerFor_of_get (k := 14) rfl, handlerFor_of_get (k := 20) rfl,
    handlerFor_of_get (k := 29) rfl, handlerFor_of_get (k := 31) rfl,
    handlerFor_of_get (k := 30) rfl⟩

end Extract

end OmniORB
