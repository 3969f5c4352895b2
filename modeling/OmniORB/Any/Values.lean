import OmniORB.Any.Contents

/-!
# The value in each representation

What of an Any's stream, pointer and functions gives its value, and what each function of an Any
keeps of that. A null pointer with a function for it is the representation that not every function
understands.
-/

namespace OmniORB.Any

variable {TC D V Buf : Type} {orb : Orb TC D Buf} {μ : Meaning TC D V Buf}

/-- Every part of the representation gives the value. -/
structure Rep.HoldsValue (orb : Orb TC D Buf) (μ : Meaning TC D V Buf) (a : Rep TC D Buf)
    (v : V) : Prop where
  stream : ∀ s, a.mbuf = some s → μ.contents (orb.get a.tc) s.buf = some v
  lawful : ∀ fns, a.fns = some fns →
    fns.Lawful μ (orb.get a.tc) ∧ μ.byPointer (orb.get a.tc) = true
  data : ∀ d, a.data = some d →
    a.fns.isSome = true ∧ μ.denotes (orb.get a.tc) (some d) = some v
  null : a.holdsNull = true →
    (orb.kind (orb.get a.tc)).hasNil = true ∧ μ.denotes (orb.get a.tc) none = some v
  nothing : a.mbuf = none → a.fns = none →
    (orb.kind (orb.get a.tc)).isEmpty = true ∧ v = μ.empty

/-- The Any has this content. -/
structure Rep.Holds (orb : Orb TC D Buf) (μ : Meaning TC D V Buf) (a : Rep TC D Buf)
    (c : Content TC V) : Prop where
  tc : a.tc = c.tc
  value : ∃ v, c.value = some v ∧ a.HoldsValue orb μ v

section Laws

variable {stub : Stub D Buf} {tc tc' : TC}

lemma Stub.Lawful.of_equivalent (hl : stub.Lawful μ tc) (ho : orb.Lawful μ)
    (h : orb.equivalent tc tc' = true) : stub.Lawful μ tc' := by
  have hencodes : ∀ m o v, μ.Encodes tc m o v → μ.Encodes tc' m o v := by
    intro m o v he rest
    rw [← ho.decode_eq tc tc' h]
    exact he rest
  refine ⟨?_, ?_, ?_⟩
  · rw [← ho.contents_eq tc tc' h, ← ho.denotes_eq tc tc' h]
    exact hl.toStream
  · intro d v m hd
    rw [← ho.denotes_eq tc tc' h] at hd
    obtain ⟨o, hmessage, he⟩ := hl.toMessage d v m hd
    exact ⟨o, hmessage, hencodes m o v he⟩
  · rw [← ho.contents_eq tc tc' h, ← ho.denotes_eq tc tc' h]
    exact hl.fromStream

lemma Orb.Lawful.encodes_nil (ho : orb.Lawful μ) (h : (orb.kind tc).isEmpty = true)
    (m : List UInt8) : μ.Encodes tc m [] μ.empty := by
  intro rest
  rw [ho.decode_empty tc _ h, List.nil_append, List.append_nil]

lemma Kind.isEmpty_eq_false {k : Kind} (h : k.hasNil = true) : k.isEmpty = false := by
  cases k <;> first | rfl | cases h

end Laws

namespace Rep

variable {a : Rep TC D Buf} {c : Content TC V} {v : V} {id : ℕ}

/-! ### New representations -/

lemma holdsValue_streamOnly {tc : Option TC} {buf : Buf}
    (h : μ.contents (orb.get tc) buf = some v) :
    (streamOnly tc (some ⟨id, buf⟩) : Rep TC D Buf).HoldsValue orb μ v where
  stream := by
    rintro _ ⟨⟩
    exact h
  lawful := by rintro _ ⟨⟩
  data := by rintro _ ⟨⟩
  null := by rintro ⟨⟩
  nothing := by rintro ⟨⟩

lemma holdsValue_empty {tc : Option TC} (h : (orb.kind (orb.get tc)).isEmpty = true) :
    (streamOnly tc none : Rep TC D Buf).HoldsValue orb μ μ.empty where
  stream := by rintro _ ⟨⟩
  lawful := by rintro _ ⟨⟩
  data := by rintro _ ⟨⟩
  null := by rintro ⟨⟩
  nothing := fun _ _ => ⟨h, rfl⟩

/-- A pointer that a stub has inserted. -/
lemma holdsValue_insertConsuming {tc : TC} {stub : Stub D Buf} {data : Option D}
    (hl : stub.Lawful μ tc) (hp : μ.byPointer tc = true) (hd : μ.denotes tc data = some v)
    (hnull : data = none → (orb.kind tc).hasNil = true) :
    (insertConsuming tc stub data).HoldsValue orb μ v where
  stream := by rintro _ ⟨⟩
  lawful := by
    rintro _ ⟨⟩
    exact ⟨hl, hp⟩
  data := by
    rintro d hdata
    cases hdata
    exact ⟨rfl, hd⟩
  null := by
    intro h
    cases data with
    | none => exact ⟨hnull rfl, hd⟩
    | some d => cases h
  nothing := by rintro - ⟨⟩

/-! ### What functions are given -/

/-- The value is marshalled from the pointer where there is no stream. -/
lemma HoldsValue.denotes (ha : a.HoldsValue orb μ v) (hm : a.mbuf = none)
    {fns : Stub D Buf} (hf : a.fns = some fns) :
    μ.denotes (orb.get a.tc) a.data = some v := by
  cases hd : a.data with
  | some d => exact (ha.data d hd).2
  | none => exact (ha.null (by simp [holdsNull, hd, hm, hf])).2

lemma HoldsValue.data_eq_none (ha : a.HoldsValue orb μ v) (hf : a.fns = none) :
    a.data = none := by
  cases hd : a.data with
  | none => rfl
  | some d =>
    have hsome := (ha.data d hd).1
    rw [hf] at hsome
    cases hsome

/-- A null pointer is only where there is neither data nor a stream. -/
lemma HoldsValue.nothing_of_not_holdsNull (ha : a.HoldsValue orb μ v)
    (hn : a.holdsNull = false) (hm : a.mbuf = none) (hd : a.data = none) :
    (orb.kind (orb.get a.tc)).isEmpty = true ∧ v = μ.empty := by
  apply ha.nothing hm
  cases hf : a.fns with
  | none => rfl
  | some fns => simp [holdsNull, hd, hm, hf] at hn

/-! ### Copies -/

/-- A copy has the value, unless that is a null pointer. -/
theorem HoldsValue.copy (ha : a.HoldsValue orb μ v) (hn : a.holdsNull = false) (id : ℕ) :
    (a.copy id).1.tc = a.tc ∧ (a.copy id).1.HoldsValue orb μ v ∧ (a.copy id).2 = .done := by
  cases hm : a.mbuf with
  | some s =>
    simp only [Rep.copy, hm]
    exact ⟨rfl, holdsValue_streamOnly (ha.stream s hm), trivial⟩
  | none =>
    cases hd : a.data with
    | none =>
      obtain ⟨hempty, rfl⟩ := ha.nothing_of_not_holdsNull hn hm hd
      simp only [Rep.copy, hm, hd]
      exact ⟨rfl, holdsValue_empty hempty, trivial⟩
    | some d =>
      obtain ⟨hf, hdenotes⟩ := ha.data d hd
      obtain ⟨fns, hfns⟩ := Option.isSome_iff_exists.mp hf
      simp only [Rep.copy, hm, hd, hfns]
      exact ⟨rfl, holdsValue_streamOnly ((ha.lawful fns hfns).1.toStream _ _ hdenotes), trivial⟩

/-! ### Marshalling -/

/-- The value is written in every representation. -/
theorem Holds.marshalDataOnly (ha : a.Holds orb μ c) (ho : orb.Lawful μ) (m : List UInt8) :
    c.Writes orb μ m (a.marshalDataOnly orb m) := by
  obtain ⟨v, hv, hvalue⟩ := ha.value
  rw [Content.Writes, ← ha.tc]
  refine ⟨v, ?_⟩
  have hcall : ∀ data fns, a.fns = some fns → μ.denotes (orb.get a.tc) data = some v →
      ∃ octets, c.value = some v ∧ a.callMarshal data m = .written (m ++ octets) ∧
        μ.Encodes (orb.get a.tc) m octets v := by
    intro data fns hfns hdata
    obtain ⟨octets, hmessage, hencodes⟩ := (hvalue.lawful fns hfns).1.toMessage data v m hdata
    exact ⟨octets, hv, by simp only [callMarshal, hfns, hmessage], hencodes⟩
  cases hd : a.data with
  | some d =>
    obtain ⟨hf, hdenotes⟩ := hvalue.data d hd
    obtain ⟨fns, hfns⟩ := Option.isSome_iff_exists.mp hf
    simp only [Rep.marshalDataOnly, hd]
    exact hcall _ fns hfns hdenotes
  | none =>
    cases hm : a.mbuf with
    | some s =>
      obtain ⟨octets, hmessage, hencodes⟩ := ho.copyToMessage _ _ _ m (hvalue.stream s hm)
      simp only [Rep.marshalDataOnly, hd, hm, hmessage]
      exact ⟨octets, hv, rfl, hencodes⟩
    | none =>
      simp only [Rep.marshalDataOnly, hd, hm]
      cases hf : a.fns with
      | some fns =>
        obtain ⟨hnil, hdenotes⟩ := hvalue.null (by simp [holdsNull, hd, hm, hf])
        rw [if_pos hnil]
        exact hcall _ fns hf hdenotes
      | none =>
        obtain ⟨hempty, rfl⟩ := hvalue.nothing hm hf
        have hnil : ¬(orb.kind (orb.get a.tc)).hasNil = true := by
          intro hnil
          rw [Kind.isEmpty_eq_false hnil] at hempty
          cases hempty
        rw [if_neg hnil, if_pos hempty]
        exact ⟨[], hv, by rw [List.append_nil], ho.encodes_nil hempty m⟩

theorem Holds.marshal (ha : a.Holds orb μ c) (ho : orb.Lawful μ) (m : List UInt8) :
    c.Writes orb μ (orb.marshalTypeCode (orb.written (orb.get c.tc)) m) (a.marshal orb m) := by
  rw [Rep.marshal, ha.tc]
  exact ha.marshalDataOnly ho _

/-! ### Unmarshalling -/

/-- A value that a message has is copied into a new stream. -/
theorem holdsValue_fill (ho : orb.Lawful μ) {tc : Option TC} {r rest : Reader} (id : ℕ)
    (h : μ.decode (orb.get tc) r = some (v, rest)) :
    (fill orb tc r id).1.tc = tc ∧ (fill orb tc r id).1.HoldsValue orb μ v ∧
      (fill orb tc r id).2 = .read rest := by
  obtain ⟨buf, hcopy, hcontents⟩ := ho.copyFromMessage _ _ _ _ h
  simp only [fill, hcopy]
  exact ⟨rfl, holdsValue_streamOnly hcontents, trivial⟩

theorem holdsValue_unmarshal (ho : orb.Lawful μ) {tc : TC} {r r' rest : Reader} (id : ℕ)
    (htc : orb.unmarshalTypeCode r = some (tc, r')) (h : μ.decode tc r' = some (v, rest)) :
    (a.unmarshal orb r id).1.tc = some tc ∧ (a.unmarshal orb r id).1.HoldsValue orb μ v ∧
      (a.unmarshal orb r id).2 = .read rest := by
  simp only [unmarshal, htc]
  by_cases hempty : (orb.kind tc).isEmpty = true
  · rw [ho.decode_empty tc r' hempty] at h
    cases h
    rw [if_pos hempty]
    exact ⟨rfl, holdsValue_empty hempty, rfl⟩
  · rw [if_neg hempty]
    exact holdsValue_fill ho id h

/-! ### Extraction -/

/-- A simple type is extracted from the stream. -/
lemma Holds.extracts_of_stream (ha : a.Holds orb μ c) {tc : TC} {stub : Stub D Buf}
    (hl : stub.Lawful μ tc) (htc : μ.contents tc = μ.contents (orb.get c.tc))
    {s : MemStream Buf} (hs : a.mbuf = some s) :
    ∃ d v, (Outcome.extracted true (stub.fromStream s.buf) : Outcome D Buf) = .extracted true d ∧
      μ.denotes tc d = some v ∧ c.value = some v := by
  obtain ⟨v, hv, hvalue⟩ := ha.value
  have hcontents := hvalue.stream s hs
  rw [ha.tc, ← htc] at hcontents
  exact ⟨_, v, rfl, hl.fromStream _ _ hcontents, hv⟩

/-- Values of simple types are in a stream. -/
lemma Holds.exists_stream (ha : a.Holds orb μ c) (hp : μ.byPointer (orb.get c.tc) = false)
    (he : (orb.kind (orb.get c.tc)).isEmpty = false) : ∃ s, a.mbuf = some s := by
  obtain ⟨v, hv, hvalue⟩ := ha.value
  rw [← ha.tc] at hp he
  cases hm : a.mbuf with
  | some s => exact ⟨s, rfl⟩
  | none =>
    cases hf : a.fns with
    | some fns =>
      rw [(hvalue.lawful fns hf).2] at hp
      cases hp
    | none =>
      rw [(hvalue.nothing hm hf).1] at he
      cases he

theorem Holds.extract (ha : a.Holds orb μ c) (ho : orb.Lawful μ) {tc : TC} {stub : Stub D Buf}
    (hl : stub.Lawful μ tc) (hp : μ.byPointer tc = false)
    (he : (orb.kind tc).isEmpty = false) :
    c.Extracts μ tc (orb.equivalent tc (orb.get c.tc)) (a.extract orb tc stub) := by
  rw [Content.Extracts, Rep.extract, ha.tc]
  by_cases heq : orb.equivalent tc (orb.get c.tc) = true
  · rw [if_pos heq, if_pos heq]
    rw [ho.byPointer_eq _ _ heq] at hp
    rw [ho.isEmpty_eq _ _ heq] at he
    obtain ⟨s, hs⟩ := ha.exists_stream hp he
    simp only [hs]
    exact ha.extracts_of_stream hl (ho.contents_eq _ _ heq) hs
  · rw [if_neg heq, if_neg heq]

theorem Holds.extractSimple (ha : a.Holds orb μ c) (ho : orb.Lawful μ) {tc : TC}
    {stub : Stub D Buf} (hl : stub.Lawful μ tc) (hp : μ.byPointer tc = false)
    (he : (orb.kind tc).isEmpty = false) :
    c.Extracts μ tc (orb.equivalent (orb.get c.tc) tc) (a.extractSimple orb tc stub) := by
  rw [Content.Extracts, Rep.extractSimple, ha.tc]
  by_cases heq : orb.equivalent (orb.get c.tc) tc = true
  · rw [if_pos heq, if_pos heq]
    rw [← ho.byPointer_eq _ _ heq] at hp
    rw [← ho.isEmpty_eq _ _ heq] at he
    obtain ⟨s, hs⟩ := ha.exists_stream hp he
    simp only [hs]
    exact ha.extracts_of_stream hl (ho.contents_eq _ _ heq).symm hs
  · rw [if_neg heq, if_neg heq]

/-- A pointer is kept for the next extraction. -/
theorem Holds.extractPointer (ha : a.Holds orb μ c) (ho : orb.Lawful μ) {tc : TC}
    {stub : Stub D Buf} (hl : stub.Lawful μ tc) (hp : μ.byPointer tc = true)
    (he : (orb.kind tc).isEmpty = false)
    (hn : orb.equivalent tc (orb.get a.tc) = true → a.holdsNull = false) :
    (a.extractPointer orb tc stub).1.Holds orb μ c ∧
      c.Extracts μ tc (orb.equivalent tc (orb.get c.tc)) (a.extractPointer orb tc stub).2 := by
  rw [Content.Extracts, ← ha.tc]
  by_cases heq : orb.equivalent tc (orb.get a.tc) = true
  · obtain ⟨v, hv, hvalue⟩ := ha.value
    rw [if_pos heq, ho.denotes_eq _ _ heq]
    cases hd : a.data with
    | some d =>
      simp only [Rep.extractPointer, if_pos heq, hd]
      exact ⟨ha, _, v, rfl, (hvalue.data d hd).2, hv⟩
    | none =>
      cases hm : a.mbuf with
      | some s =>
        have hlawful := hl.of_equivalent ho heq
        have hdenotes := hlawful.fromStream _ _ (hvalue.stream s hm)
        simp only [Rep.extractPointer, if_pos heq, hd, hm]
        refine ⟨⟨ha.tc, v, hv, ?_, ?_, ?_, ?_, ?_⟩, _, v, rfl, hdenotes, hv⟩
        · rintro _ ⟨⟩
          exact hvalue.stream s hm
        · rintro _ ⟨⟩
          rw [ho.byPointer_eq _ _ heq] at hp
          exact ⟨hlawful, hp⟩
        · intro d hsome
          dsimp only at hsome
          rw [hsome] at hdenotes
          exact ⟨rfl, hdenotes⟩
        · intro hnull
          simp [holdsNull] at hnull
        · rintro ⟨⟩
      | none =>
        rw [ho.isEmpty_eq _ _ heq, (hvalue.nothing_of_not_holdsNull (hn heq) hm hd).1] at he
        cases he
  · simp only [Rep.extractPointer, if_neg heq]
    exact ⟨ha, trivial⟩

theorem Holds.extractOwn (ha : a.Holds orb μ c) (ho : orb.Lawful μ) {kind : Kind}
    {stub : Stub D Buf} (he : kind.isEmpty = false)
    (hl : ∀ tc, orb.kind tc = kind → stub.Lawful μ tc ∧ μ.byPointer tc = true)
    (hn : orb.kind (orb.get a.tc) = kind → a.holdsNull = false) :
    (a.extractOwn orb kind stub).1.Holds orb μ c ∧
      c.Extracts μ (orb.get c.tc) (decide (orb.kind (orb.get c.tc) = kind))
        (a.extractOwn orb kind stub).2 := by
  by_cases hkind : orb.kind (orb.get a.tc) = kind
  · have hself := ho.equivalent_self (orb.get a.tc)
    have hkind' := hkind
    rw [ha.tc] at hkind'
    have hextract := ha.extractPointer ho (hl _ hkind).1 (hl _ hkind).2 (by rw [hkind, he])
      fun _ => hn hkind
    rw [ha.tc] at hself
    simp only [Rep.extractOwn, if_pos hkind, decide_eq_true hkind']
    rw [ha.tc, hself] at hextract
    rw [ha.tc]
    exact hextract
  · have hkind' := hkind
    rw [ha.tc] at hkind'
    simp only [Rep.extractOwn, if_neg hkind, decide_eq_false hkind']
    exact ⟨ha, rfl⟩

/-! ### Values -/

/-- A value is extracted, from a stream of which it has not been taken. -/
theorem Holds.toValue (ha : a.Holds orb μ c) (ho : orb.Lawful μ) {taken : List ℕ}
    (hn : orb.kind (orb.get a.tc) = .value ∨ orb.kind (orb.get a.tc) = .valueBox →
      a.holdsNull = false ∧ ∀ s, a.mbuf = some s → s.id ∉ taken) :
    if orb.kind (orb.get c.tc) = .value ∨ orb.kind (orb.get c.tc) = .valueBox then
      ∃ d v, (a.toValue orb taken).2 = .extracted true d ∧ μ.denotesBase d = some v ∧
        c.value = some v
    else (a.toValue orb taken).2 = .extracted false none := by
  rw [← ha.tc]
  by_cases hkind : orb.kind (orb.get a.tc) = .value ∨ orb.kind (orb.get a.tc) = .valueBox
  · rw [if_pos hkind]
    obtain ⟨hnull, htaken⟩ := hn hkind
    obtain ⟨v, hv, hvalue⟩ := ha.value
    have hbase : ∀ buf, μ.contents (orb.get a.tc) buf = some v →
        ∃ d v, (Outcome.extracted true (orb.unmarshalValueBase buf) : Outcome D Buf)
          = .extracted true d ∧ μ.denotesBase d = some v ∧ c.value = some v :=
      fun buf hbuf => ⟨_, v, rfl, ho.unmarshalValueBase _ _ _ hkind hbuf, hv⟩
    cases hm : a.mbuf with
    | some s =>
      simp only [Rep.toValue, if_pos hkind, hm, if_neg (htaken s hm)]
      exact hbase _ (hvalue.stream s hm)
    | none =>
      cases hd : a.data with
      | some d =>
        obtain ⟨hf, hdenotes⟩ := hvalue.data d hd
        obtain ⟨fns, hfns⟩ := Option.isSome_iff_exists.mp hf
        simp only [Rep.toValue, if_pos hkind, hm, hd, hfns]
        exact hbase _ ((hvalue.lawful fns hfns).1.toStream _ _ hdenotes)
      | none =>
        have hempty := (hvalue.nothing_of_not_holdsNull hnull hm hd).1
        rcases hkind with hkind | hkind <;> rw [hkind] at hempty <;> cases hempty
  · rw [if_neg hkind, Rep.toValue, if_neg hkind]

/-! ### Streams and types -/

/-- A stream that is filled from the pointer is kept. -/
lemma HoldsValue.withStream (ha : a.HoldsValue orb μ v) {buf : Buf}
    (h : μ.contents (orb.get a.tc) buf = some v) :
    ({ a with mbuf := some ⟨id, buf⟩ } : Rep TC D Buf).HoldsValue orb μ v where
  stream := by
    rintro _ ⟨⟩
    exact h
  lawful := ha.lawful
  data := ha.data
  null := by
    intro hnull
    simp [holdsNull] at hnull
  nothing := by rintro ⟨⟩

/-- The functions that make a stream where there is none. -/
lemma Holds.streams (ha : a.Holds orb μ c) {fns : Stub D Buf} (hm : a.mbuf = none)
    (hf : a.fns = some fns) :
    ({ a with mbuf := some ⟨id, fns.toStream a.data⟩ } : Rep TC D Buf).Holds orb μ c ∧
      c.Streams orb μ (Outcome.stream (fns.toStream a.data) : Outcome D Buf) := by
  obtain ⟨v, hv, hvalue⟩ := ha.value
  have hcontents := (hvalue.lawful fns hf).1.toStream _ _ (hvalue.denotes hm hf)
  refine ⟨⟨ha.tc, v, hv, hvalue.withStream hcontents⟩, v, _, hv, rfl, ?_⟩
  rw [← ha.tc]
  exact hcontents

lemma Holds.streams_of_mbuf (ha : a.Holds orb μ c) {s : MemStream Buf} (hm : a.mbuf = some s) :
    c.Streams orb μ (Outcome.stream s.buf : Outcome D Buf) := by
  obtain ⟨v, hv, hvalue⟩ := ha.value
  refine ⟨v, _, hv, rfl, ?_⟩
  rw [← ha.tc]
  exact hvalue.stream s hm

theorem Holds.streamToRead (ha : a.Holds orb μ c) (ho : orb.Lawful μ) :
    (a.streamToRead orb id).1.Holds orb μ c ∧
      c.Streams orb μ (a.streamToRead orb id).2 := by
  cases hm : a.mbuf with
  | some s =>
    simp only [Rep.streamToRead, hm]
    exact ⟨ha, ha.streams_of_mbuf hm⟩
  | none =>
    cases hf : a.fns with
    | some fns =>
      have hread : a.streamToRead orb id = ({ a with mbuf := some ⟨id, fns.toStream a.data⟩ },
          .stream (fns.toStream a.data)) := by simp [Rep.streamToRead, hm, hf]
      rw [hread]
      exact ha.streams hm hf
    | none =>
      obtain ⟨v, hv, hvalue⟩ := ha.value
      obtain ⟨hempty, rfl⟩ := hvalue.nothing hm hf
      have hcontents := ho.contents_emptyBuf _ hempty
      have hread : a.streamToRead orb id
          = ({ a with mbuf := some ⟨id, orb.emptyBuf⟩ }, .stream orb.emptyBuf) := by
        simp [Rep.streamToRead, hm, hf, hempty]
      rw [hread]
      refine ⟨⟨ha.tc, _, hv, hvalue.withStream hcontents⟩, _, _, hv, rfl, ?_⟩
      rw [← ha.tc]
      exact hcontents

theorem Holds.value_spec (ha : a.Holds orb μ c) :
    (a.value orb id).1.Holds orb μ c ∧
      if (orb.kind (orb.get c.tc)).isEmpty then (a.value orb id).2 = .done
      else c.Streams orb μ (a.value orb id).2 := by
  rw [← ha.tc]
  by_cases hempty : (orb.kind (orb.get a.tc)).isEmpty = true
  · simp only [Rep.value, if_pos hempty]
    exact ⟨ha, trivial⟩
  · rw [if_neg hempty]
    cases hm : a.mbuf with
    | some s =>
      have hvalue : a.value orb id = (a, .stream s.buf) := by simp [Rep.value, hempty, hm]
      rw [hvalue]
      exact ⟨ha, ha.streams_of_mbuf hm⟩
    | none =>
      cases hf : a.fns with
      | some fns =>
        have hvalue : a.value orb id = ({ a with mbuf := some ⟨id, fns.toStream a.data⟩ },
            .stream (fns.toStream a.data)) := by simp [Rep.value, hempty, hm, hf]
        rw [hvalue]
        exact ha.streams hm hf
      | none =>
        obtain ⟨v, hv, hvalue⟩ := ha.value
        exact absurd (hvalue.nothing hm hf).1 hempty

/-- An equivalent TypeCode has the same values. A null pointer also needs a kind with a nil. -/
theorem HoldsValue.setType (ha : a.HoldsValue orb μ v) (ho : orb.Lawful μ) {tc : TC}
    (heq : orb.equivalent (orb.get a.tc) tc = true)
    (hn : a.holdsNull = true → (orb.kind tc).hasNil = true) :
    ({ a with tc := some tc } : Rep TC D Buf).HoldsValue orb μ v where
  stream := by
    intro s hs
    change μ.contents tc s.buf = some v
    rw [← ho.contents_eq _ _ heq]
    exact ha.stream s hs
  lawful := by
    intro fns hf
    obtain ⟨hl, hp⟩ := ha.lawful fns hf
    rw [ho.byPointer_eq _ _ heq] at hp
    exact ⟨hl.of_equivalent ho heq, hp⟩
  data := by
    intro d hd
    obtain ⟨hf, hdenotes⟩ := ha.data d hd
    rw [ho.denotes_eq _ _ heq] at hdenotes
    exact ⟨hf, hdenotes⟩
  null := by
    intro hnull
    have hdenotes := (ha.null hnull).2
    rw [ho.denotes_eq _ _ heq] at hdenotes
    exact ⟨hn hnull, hdenotes⟩
  nothing := by
    intro hm hf
    obtain ⟨hempty, hv⟩ := ha.nothing hm hf
    rw [ho.isEmpty_eq _ _ heq] at hempty
    exact ⟨hempty, hv⟩

end Rep

end OmniORB.Any
