import OmniORB.Library.Passes
import OmniORB.Ziop.Negotiation

/-!
# Both sides choose the same compressors

What `filterCompressors` makes of two lists, the encapsulations that the two sides exchange, and what
the client and the server choose from them.
-/

namespace OmniORB.Ziop

open Library

/-! ### Filtering -/

/-- The id with the level that two sides have in common. -/
def combine (t m : CompressorIdLevel) : CompressorIdLevel :=
  ⟨t.compressorId, if min t.compressionLevel m.compressionLevel then 1 else 0⟩

/-- What is combined with one of their ids. -/
def matching (mine : List CompressorIdLevel) (t : CompressorIdLevel) : List CompressorIdLevel :=
  (mine.filter fun m => m.compressorId = t.compressorId).map (combine t)

/-- What both have, in their order. -/
def common (theirs mine : List CompressorIdLevel) : List CompressorIdLevel :=
  theirs.flatMap (matching mine)

lemma min_iff (a b : UInt16) : min a b = true ↔ a ≠ 0 ∧ b ≠ 0 := by
  rw [min]
  constructor
  · intro h
    have hne := of_decide_eq_true h
    split_ifs at hne with hab
    · refine ⟨hne, fun hb => ?_⟩
      rw [hb] at hab
      exact absurd hab (UInt16.not_lt_zero)
    · refine ⟨fun ha => ?_, hne⟩
      rw [ha] at hab
      exact hne (UInt16.le_zero_iff.mp (UInt16.not_lt.mp hab))
  · rintro ⟨ha, hb⟩
    apply decide_eq_true
    split_ifs
    · exact ha
    · exact hb

lemma filterStep_eq (room : ℕ) (t : CompressorIdLevel) (combined : List CompressorIdLevel)
    (m : CompressorIdLevel) (h : combined.length ≤ room) : filterStep room t combined m =
      if combined.length + (matching [m] t).length ≤ room then .ok (combined ++ matching [m] t)
      else .error .badParamIndexOutOfRange := by
  rw [filterStep]
  by_cases hm : m.compressorId = t.compressorId
  · have hone : matching [m] t = [combine t m] := by simp [matching, hm]
    rw [if_pos hm, hone]
    rfl
  · have hnone : matching [m] t = [] := by simp [matching, hm]
    rw [if_neg hm, hnone, List.append_nil, List.length_nil, Nat.add_zero, if_pos h]

lemma matching_eq_flatMap (mine : List CompressorIdLevel) (t : CompressorIdLevel) :
    matching mine t = mine.flatMap fun m => matching [m] t := by
  induction mine with
  | nil => rfl
  | cons m mine ih =>
    rw [List.flatMap_cons, ← ih]
    simp only [matching, List.filter_cons]
    split_ifs <;> simp

/-- The result is what both have, unless that is more than the first list has. -/
lemma filterCompressors_eq (theirs mine : List CompressorIdLevel) : filterCompressors theirs mine =
    if (common theirs mine).length ≤ theirs.length then .ok (common theirs mine)
    else .error .badParamIndexOutOfRange := by
  have hinner (acc : List CompressorIdLevel) (t : CompressorIdLevel)
      (hacc : acc.length ≤ theirs.length) : mine.foldlM (filterStep theirs.length t) acc =
        if acc.length + (matching mine t).length ≤ theirs.length then .ok (acc ++ matching mine t)
        else .error .badParamIndexOutOfRange := by
    rw [foldlM_fill (fun acc m => filterStep_eq theirs.length t acc m) mine hacc,
      ← matching_eq_flatMap]
  rw [filterCompressors, foldlM_fill hinner theirs (Nat.zero_le _), common]
  simp

/-- An id that is in the second list once at most is matched once at most. -/
lemma length_matching_le {mine : List CompressorIdLevel}
    (h : (mine.map CompressorIdLevel.compressorId).Nodup) (t : CompressorIdLevel) :
    (matching mine t).length ≤ 1 := by
  rw [matching, List.length_map, ← List.countP_eq_length_filter]
  have hcount := h.count (a := t.compressorId)
  rw [List.count, List.countP_map] at hcount
  calc mine.countP (fun m => m.compressorId = t.compressorId)
      = mine.countP ((· == t.compressorId) ∘ CompressorIdLevel.compressorId) := by
        refine List.countP_congr fun m _ => ?_
        simp
    _ ≤ 1 := by
        rw [hcount]
        split_ifs <;> simp

lemma length_common_le {mine : List CompressorIdLevel}
    (h : (mine.map CompressorIdLevel.compressorId).Nodup) (theirs : List CompressorIdLevel) :
    (common theirs mine).length ≤ theirs.length := by
  induction theirs with
  | nil => exact le_rfl
  | cons t theirs ih =>
    have ht := length_matching_le h t
    rw [common, List.flatMap_cons, List.length_append, List.length_cons]
    rw [common] at ih
    omega

lemma filterCompressors_of_nodup {mine : List CompressorIdLevel}
    (h : (mine.map CompressorIdLevel.compressorId).Nodup) (theirs : List CompressorIdLevel) :
    filterCompressors theirs mine = .ok (common theirs mine) := by
  rw [filterCompressors_eq, if_pos (length_common_le h theirs)]

lemma mem_common {theirs mine : List CompressorIdLevel} {c : CompressorIdLevel} :
    c ∈ common theirs mine ↔
      ∃ t ∈ theirs, ∃ m ∈ mine, m.compressorId = t.compressorId ∧ combine t m = c := by
  simp only [common, matching, List.mem_flatMap, List.mem_map, List.mem_filter, decide_eq_true_eq,
    and_assoc]

lemma map_id_matching (mine : List CompressorIdLevel) (t : CompressorIdLevel) :
    (matching mine t).map CompressorIdLevel.compressorId =
      (mine.filter fun m => m.compressorId = t.compressorId).map fun _ => t.compressorId := by
  rw [matching, List.map_map]
  rfl

/-- The ids that both have, in their order. -/
lemma map_id_common {mine : List CompressorIdLevel}
    (h : (mine.map CompressorIdLevel.compressorId).Nodup) (theirs : List CompressorIdLevel) :
    (common theirs mine).map CompressorIdLevel.compressorId =
      (theirs.map CompressorIdLevel.compressorId).filter
        (· ∈ mine.map CompressorIdLevel.compressorId) := by
  induction theirs with
  | nil => rfl
  | cons t theirs ih =>
    rw [common] at ih
    rw [common, List.flatMap_cons, List.map_append, ih, List.map_cons, List.filter_cons]
    have hle := length_matching_le h t
    rw [matching, List.length_map] at hle
    rw [map_id_matching]
    split_ifs with ht
    · -- the one with the id
      obtain ⟨m, hm, hid⟩ := List.mem_map.mp (of_decide_eq_true ht)
      have hmem : m ∈ mine.filter fun m => m.compressorId = t.compressorId :=
        List.mem_filter.mpr ⟨hm, decide_eq_true hid⟩
      have hlen := Nat.le_antisymm hle (List.length_pos_of_mem hmem)
      obtain ⟨m', hm'⟩ := List.length_eq_one_iff.mp hlen
      rw [hm']
      rfl
    · have hnil : (mine.filter fun m => m.compressorId = t.compressorId) = [] := by
        refine List.filter_eq_nil_iff.mpr fun m hm hid => ht ?_
        exact decide_eq_true (List.mem_map.mpr ⟨m, hm, of_decide_eq_true hid⟩)
      rw [hnil]
      rfl

/-- In a list with each id once, the one with the id of `t` is `t`. -/
lemma filter_id_eq {theirs : List CompressorIdLevel}
    (h : (theirs.map CompressorIdLevel.compressorId).Nodup) {t : CompressorIdLevel}
    (ht : t ∈ theirs) : (theirs.filter fun m => m.compressorId = t.compressorId) = [t] := by
  have hnodup : (theirs.filter fun m => m.compressorId = t.compressorId).Nodup :=
    h.of_map.filter _
  refine List.perm_singleton.mp ((List.perm_ext_iff_of_nodup hnodup (List.nodup_singleton t)).mpr
    fun m => ?_)
  rw [List.mem_filter, List.mem_singleton]
  constructor
  · rintro ⟨hm, hid⟩
    exact List.inj_on_of_nodup_map h hm ht (of_decide_eq_true hid)
  · rintro rfl
    exact ⟨ht, decide_eq_true rfl⟩

/-- A level that was combined before does not change. -/
lemma combine_combine (t m : CompressorIdLevel) : combine (combine t m) t = combine t m := by
  have hlevel : min (combine t m).compressionLevel t.compressionLevel =
      min t.compressionLevel m.compressionLevel := by
    rw [Bool.eq_iff_iff, min_iff, min_iff, combine]
    have hm := min_iff t.compressionLevel m.compressionLevel
    cases hb : min t.compressionLevel m.compressionLevel with
    | false =>
      rw [hb] at hm
      have hnot : ¬ (t.compressionLevel ≠ 0 ∧ m.compressionLevel ≠ 0) := by simpa using hm
      simp [hnot]
    | true =>
      rw [hb] at hm
      have hand := hm.mp rfl
      simp [hand]
  rw [combine, hlevel]
  rfl

/-- What they have in common with the others is what they have in common with themselves, and the
others. -/
lemma common_common_self {theirs : List CompressorIdLevel}
    (h : (theirs.map CompressorIdLevel.compressorId).Nodup) (mine : List CompressorIdLevel) :
    common (common theirs mine) theirs = common theirs mine := by
  have hself : ∀ c ∈ common theirs mine, matching theirs c = [c] := by
    intro c hc
    obtain ⟨t, ht, m, hm, hid, rfl⟩ := mem_common.mp hc
    have hfilter := filter_id_eq h ht
    rw [matching]
    change (theirs.filter fun m => m.compressorId = t.compressorId).map _ = _
    rw [hfilter, List.map_singleton, combine_combine]
  rw [common, List.flatMap_congr hself, List.flatMap_singleton']

/-! ### What is exchanged -/

lemma readsBack_idLevel (c : CompressorIdLevel) :
    ReadsBack (fun out => marshalIdLevel out c) idLevel c :=
  (ReadsBack.ushort c.compressorId).bind (v := fun out => out.marshalUShort c.compressionLevel)
    (ReadsBack.ushort c.compressionLevel).map

lemma readsBack_policyValue {v : PolicyValue} (htype : v.ptype < 2 ^ 32)
    (hvalue : v.pvalue.length < 2 ^ 32) :
    ReadsBack (fun out => marshalPolicyValue out v) policyValue v :=
  (ReadsBack.length htype).bind (v := fun out => out.marshalOctetSeq v.pvalue)
    (ReadsBack.octetSeq hvalue).map

lemma mkr_lt_marshalIdLevel (out : CdrOut) (c : CompressorIdLevel) :
    out.mkr < (marshalIdLevel out c).mkr := by
  have hone := le_alignTo (a := 2) out.mkr (by decide)
  have htwo := le_alignTo (a := 2) (alignTo out.mkr 2 + 2) (by decide)
  rw [marshalIdLevel, CdrOut.mkr_marshalUShort, CdrOut.mkr_marshalUShort]
  omega

lemma mkr_lt_marshalPolicyValue (out : CdrOut) (v : PolicyValue) :
    out.mkr < (marshalPolicyValue out v).mkr := by
  have hone := le_alignTo (a := 4) out.mkr (by decide)
  have htwo := le_alignTo (a := 4) (alignTo out.mkr 4 + 4) (by decide)
  rw [marshalPolicyValue, CdrOut.marshalOctetSeq, CdrOut.mkr_putOctetArray,
    CdrOut.mkr_marshalULong, CdrOut.mkr_marshalULong]
  omega

/-- Six octets for an id and a level, with padding, are enough. -/
lemma mkr_foldl_marshalIdLevel_le (ids : List CompressorIdLevel) (out : CdrOut) :
    (ids.foldl marshalIdLevel out).mkr ≤ out.mkr + 6 * ids.length := by
  induction ids generalizing out with
  | nil => exact le_rfl
  | cons c ids ih =>
    have hstep : (marshalIdLevel out c).mkr ≤ out.mkr + 6 := by
      have hone := alignTo_lt (a := 2) out.mkr (by decide)
      have htwo := alignTo_lt (a := 2) (alignTo out.mkr 2 + 2) (by decide)
      rw [marshalIdLevel, CdrOut.mkr_marshalUShort, CdrOut.mkr_marshalUShort]
      omega
    have hrest := ih (marshalIdLevel out c)
    rw [List.foldl_cons, List.length_cons]
    omega

lemma length_idLevels_lt {ids : List CompressorIdLevel} (h : ids.length < 2 ^ 29) :
    (encapsulate fun s => s.marshalSequence marshalIdLevel ids).length < 2 ^ 32 := by
  have hle := mkr_foldl_marshalIdLevel_le ids (CdrOut.encapsulation.marshalULong ids.length)
  have hhead : (CdrOut.encapsulation.marshalULong ids.length).mkr = 8 := by
    rw [CdrOut.mkr_marshalULong, CdrOut.mkr_encapsulation]
    rfl
  rw [length_encapsulate]
  change (ids.foldl marshalIdLevel _).mkr < _
  omega

lemma idLevels_read {ids : List CompressorIdLevel} (h : ids.length < 2 ^ 29) :
    fromEncapsulation (encapsulate fun s => s.marshalSequence marshalIdLevel ids)
      (.sequence idLevel) = .ok ids := by
  rw [fromEncapsulation, (ReadsBack.sequence (by omega) (fun c _ => readsBack_idLevel c)
    mkr_lt_marshalIdLevel).fromEncapsulation]
  rfl

lemma enabled_read : fromEncapsulation (encapsulate fun s => s.marshalBoolean true) .boolean =
    .ok true := by
  rw [fromEncapsulation, (ReadsBack.boolean true).fromEncapsulation]
  rfl

/-- What is put into an IOR, or a service context, is read from it. -/
lemma policyValues_read {ids : List CompressorIdLevel} (h : ids.length < 2 ^ 29) :
    fromEncapsulation (encodePolicyValues ids) (.sequence policyValue) =
      .ok (policyValues ids) := by
  have hvalues : ∀ v ∈ policyValues ids,
      ReadsBack (fun out => marshalPolicyValue out v) policyValue v := by
    intro v hv
    rw [policyValues, List.mem_cons, List.mem_singleton] at hv
    rcases hv with rfl | rfl
    · exact readsBack_policyValue (by decide) (by decide)
    · exact readsBack_policyValue (by norm_num) (length_idLevels_lt h)
  rw [fromEncapsulation, encodePolicyValues, (ReadsBack.sequence (by simp [policyValues]) hvalues
    mkr_lt_marshalPolicyValue).fromEncapsulation]
  rfl

/-! ### The two sides -/

/-- The client gets from an IOR what it has in common with the server, if there is anything. -/
lemma decodeIOR_eq {ids mine : List CompressorIdLevel} {before : List IOP.TaggedComponent}
    (hids : ids.length < 2 ^ 29) (hmine : (mine.map CompressorIdLevel.compressorId).Nodup)
    (hbefore : ∀ c ∈ before, c.tag ≠ tagPolicies) (after : List IOP.TaggedComponent) :
    decodeIOR mine (before ++ ⟨tagPolicies, encodePolicyValues ids⟩ :: after) =
      if common ids mine = [] then none else some (common ids mine) := by
  have hfind : (before ++ ⟨tagPolicies, encodePolicyValues ids⟩ :: after).find?
      (fun c => c.tag = tagPolicies) = some ⟨tagPolicies, encodePolicyValues ids⟩ := by
    rw [List.find?_append, List.find?_eq_none.mpr]
    · rfl
    · intro c hc htag
      exact hbefore c hc (of_decide_eq_true htag)
  have henable : enableZiop (policyValues ids) = .ok true := enabled_read
  have hinfo : ziopInfo mine (policyValues ids) = .ok (common ids mine) := by
    have hread := idLevels_read hids
    have hfilter := filterCompressors_of_nodup hmine ids
    simp [ziopInfo, policyValues, hread, hfilter, bind, Except.bind, pure, Except.pure]
  rw [decodeIOR, hfind]
  dsimp only
  rw [policyValues_read hids]
  simp only [bind, Except.bind, henable, hinfo, if_true]
  cases common ids mine with
  | nil => rfl
  | cons id l => rfl

section

variable {ρ κ : Type}

/-- What a server makes of the service context of a client. -/
lemma selectCompressors_eq {g p : ZiopPolicies ρ} {poa : Option (List (PolicyObject ρ))}
    {ids : List CompressorIdLevel} (hids : ids.length < 2 ^ 29)
    (hpoa : decodePolicies (poa.getD []) g = (p, none))
    (hmine : (p.compressorIds.map CompressorIdLevel.compressorId).Nodup) :
    selectCompressors g poa true ⟨invocationPolicies, encodePolicyValues ids⟩ =
      .ok (if common ids p.compressorIds = [] then none
        else some { p with compressorIds := common ids p.compressorIds }) := by
  have hvalues : invocationPolicyValues (policyValues ids) = .ok (true, ids) := by
    have hread := idLevels_read hids
    have henabled := enabled_read
    simp [invocationPolicyValues, policyValues, hread, henabled, bind, Except.bind, pure,
      Except.pure]
  have hfilter := filterCompressors_of_nodup hmine ids
  rw [selectCompressors, if_pos rfl]
  dsimp only
  rw [policyValues_read hids]
  simp only [bind, Except.bind, hvalues, hpoa, hfilter]
  rw [if_neg (by decide)]
  split_ifs <;> rfl

/-- There are compressors for all the ids. -/
lemma exists_setPolicies {manager : Manager κ} {ids : List CompressorIdLevel}
    (h : ∀ c ∈ ids, (manager c.compressorId c.compressionLevel).isSome) (minSize : ℕ) (ratio : ρ) :
    ∃ k : CompressorImpl κ ρ, setPolicies manager ids minSize ratio = .ok k ∧
      k.compressorIds = ids := by
  have hmap : ∃ l : List (CompressorIdLevel × κ), ids.mapM (getCompressor manager) = .ok l ∧
      l.map Prod.fst = ids := by
    induction ids with
    | nil => exact ⟨[], rfl, rfl⟩
    | cons c ids ih =>
      rw [List.forall_mem_cons] at h
      obtain ⟨k, hk⟩ := Option.isSome_iff_exists.mp h.1
      obtain ⟨l, hl, hids⟩ := ih h.2
      refine ⟨(c, k) :: l, ?_, ?_⟩
      · rw [List.mapM_cons, getCompressor, hk, hl]
        rfl
      · rw [List.map_cons, hids]
  obtain ⟨l, hl, hids⟩ := hmap
  refine ⟨⟨l, minSize, ratio⟩, ?_, hids⟩
  rw [setPolicies, hl]
  rfl

/-- Service contexts that are not about policies are passed over. -/
lemma serverReceiveRequest_append (manager : Manager κ) (g : ZiopPolicies ρ)
    (poa : Option (List (PolicyObject ρ))) (accept : Bool) {strand : ZiopStrand κ ρ}
    {before : List Context} (hstrand : strand.compression = false)
    (hbefore : ∀ c ∈ before, c.contextId ≠ invocationPolicies) (after : List Context) :
    serverReceiveRequest manager g poa accept strand (before ++ after) =
      serverReceiveRequest manager g poa accept strand after := by
  induction before with
  | nil => rfl
  | cons c before ih =>
    rw [List.forall_mem_cons] at hbefore
    have hnone : selectCompressors g poa accept c = .ok none := if_neg hbefore.1
    rw [List.cons_append, serverReceiveRequest, hnone, hstrand, if_neg (by decide)]
    exact ih hbefore.2

/-- The level of what is combined is at most 1, and the id is one that they both have. -/
lemma combine_level_le (t m : CompressorIdLevel) : (combine t m).compressionLevel ≤ 1 := by
  rw [combine]
  split_ifs
  · exact UInt16.le_refl 1
  · exact UInt16.zero_le

lemma manager_common {manager : Manager κ} {mine : List CompressorIdLevel}
    (h : ∀ c ∈ mine, ∀ level ≤ 1, (manager c.compressorId level).isSome)
    (theirs : List CompressorIdLevel) :
    ∀ c ∈ common theirs mine, (manager c.compressorId c.compressionLevel).isSome := by
  intro c hc
  obtain ⟨t, _, m, hm, hid, rfl⟩ := mem_common.mp hc
  have hmanager := h m hm _ (combine_level_le t m)
  rwa [hid] at hmanager

/-- An IOR is made with some policies of the server, and a client makes its first call with it on a
new strand, to a server whose policies may be others now. -/
def firstCall (managerC managerS : Manager κ) (gC gIOR gS : ZiopPolicies ρ)
    (policies : List (PolicyObject ρ)) (poa : Option (List (PolicyObject ρ)))
    (components : List IOP.TaggedComponent) (contexts : List Context) :
    Except ZiopExn (ZiopStrand κ ρ × ZiopStrand κ ρ) := do
  let components ← setPoliciesInProfile gIOR (some policies) components
  let info := decodeIOR gC.compressorIds components
  let (client, contexts) ← clientSendRequest managerC gC info ⟨true, info.isSome, none⟩ contexts
  let server ← serverReceiveRequest managerS gS poa true ⟨true, false, none⟩ contexts
  return (client, server)

/-- The compressors of a strand that compresses. -/
def ZiopStrand.chosen (strand : ZiopStrand κ ρ) : Option (List CompressorIdLevel) :=
  if strand.compression then strand.compressor.map CompressorImpl.compressorIds else none

/-- The ids of a list of compressors. -/
abbrev ids (l : List CompressorIdLevel) : List UInt16 := l.map CompressorIdLevel.compressorId

/-- A list, unless it is empty. -/
def choice {α : Type} (l : List α) : Option (List α) := if l.isEmpty then none else some l

lemma choice_map {α β : Type} (f : α → β) (l : List α) :
    (choice l).map (List.map f) = choice (l.map f) := by
  cases l with
  | nil => rfl
  | cons a l => rfl

lemma choice_of_ne_nil {α : Type} {l : List α} (h : l ≠ []) : choice l = some l := by
  cases l with
  | nil => exact absurd rfl h
  | cons a l => rfl

lemma firstCall_eq (managerC managerS : Manager κ) {gC gIOR gS p q : ZiopPolicies ρ}
    {policies : List (PolicyObject ρ)} {poa : Option (List (PolicyObject ρ))}
    {components : List IOP.TaggedComponent} {contexts : List Context}
    (hpolicies : decodePolicies policies gIOR = (p, none)) (henabled : p.compressionEnabled = true)
    (hlength : p.compressorIds.length < 2 ^ 29)
    (hpoa : decodePolicies (poa.getD []) gS = (q, none))
    (hC : (gC.compressorIds.map CompressorIdLevel.compressorId).Nodup)
    (hS : (q.compressorIds.map CompressorIdLevel.compressorId).Nodup)
    (hmanagerC : ∀ c ∈ gC.compressorIds, ∀ level ≤ 1, (managerC c.compressorId level).isSome)
    (hmanagerS : ∀ c ∈ q.compressorIds, ∀ level ≤ 1, (managerS c.compressorId level).isSome)
    (hcomponents : ∀ c ∈ components, c.tag ≠ tagPolicies)
    (hcontexts : ∀ c ∈ contexts, c.contextId ≠ invocationPolicies) :
    ∃ client server, firstCall managerC managerS gC gIOR gS policies poa components contexts =
        .ok (client, server) ∧
      client.chosen = choice (common p.compressorIds gC.compressorIds) ∧
      server.chosen =
        choice (common (common p.compressorIds gC.compressorIds) q.compressorIds) := by
  have hIOR : setPoliciesInProfile gIOR (some policies) components =
      .ok (components ++ [⟨tagPolicies, encodePolicyValues p.compressorIds⟩]) := by
    rw [setPoliciesInProfile, Option.getD_some, hpolicies]
    exact if_pos henabled
  have hinfo := decodeIOR_eq hlength hC hcomponents []
  have hagreed := length_common_le hC p.compressorIds
  have hother (before : ZiopStrand κ ρ) (hbefore : before.compression = false) :
      serverReceiveRequest managerS gS poa true before contexts = .ok before := by
    have happend := serverReceiveRequest_append managerS gS poa true hbefore hcontexts []
    rwa [List.append_nil] at happend
  rw [firstCall, hIOR]
  dsimp only [bind, Except.bind]
  rw [hinfo]
  by_cases hnil : common p.compressorIds gC.compressorIds = []
  · -- the client sends no service context
    have hsend : clientSendRequest managerC gC none ⟨true, false, none⟩ contexts =
        .ok (⟨true, false, none⟩, contexts) := rfl
    rw [if_pos hnil]
    dsimp only [Option.isSome_none]
    rw [hsend]
    dsimp only
    rw [hother _ rfl, hnil]
    exact ⟨_, _, rfl, rfl, rfl⟩
  · obtain ⟨k, hk, hids⟩ := exists_setPolicies (manager_common hmanagerC p.compressorIds)
      (if gC.compressionEnabled then gC.lowValue else 0xffffffff) gC.minRatio
    have hsend : clientSendRequest managerC gC (some (common p.compressorIds gC.compressorIds))
        ⟨true, true, none⟩ contexts = .ok (⟨true, true, some k⟩, contexts ++
          [⟨invocationPolicies,
            encodePolicyValues (common p.compressorIds gC.compressorIds)⟩]) := by
      rw [clientSendRequest]
      dsimp only
      rw [hk]
      rfl
    have hselect := selectCompressors_eq (lt_of_le_of_lt hagreed hlength) hpoa hS
    rw [if_neg hnil]
    dsimp only [Option.isSome_some]
    rw [hsend]
    dsimp only
    rw [serverReceiveRequest_append _ _ _ _ rfl hcontexts, serverReceiveRequest, hselect]
    by_cases hnone : common (common p.compressorIds gC.compressorIds) q.compressorIds = []
    · -- the server has none of them
      rw [if_pos hnone]
      refine ⟨⟨true, true, some k⟩, ⟨true, false, none⟩, rfl, ?_, ?_⟩
      · rw [choice_of_ne_nil hnil, ← hids]
        rfl
      · rw [hnone]
        rfl
    · obtain ⟨l, hl, hlids⟩ := exists_setPolicies
        (manager_common hmanagerS (common p.compressorIds gC.compressorIds)) q.lowValue q.minRatio
      rw [if_neg hnone]
      refine ⟨⟨true, true, some k⟩, ⟨true, true, some l⟩, ?_, ?_, ?_⟩
      · dsimp only [bind, Except.bind]
        rw [hl]
        rfl
      · rw [choice_of_ne_nil hnil, ← hids]
        rfl
      · rw [choice_of_ne_nil hnone, ← hlids]
        rfl

/-- After the first call, the client compresses with those of the ids in the IOR that it has too, and
the server with those of them that it has now, in the order of the IOR. With unchanged policies of
the server, both have the same compressors with the same levels. -/
theorem first_call_agrees (managerC managerS : Manager κ) (gC gIOR gS p q : ZiopPolicies ρ)
    (policies : List (PolicyObject ρ)) (poa : Option (List (PolicyObject ρ)))
    (components : List IOP.TaggedComponent) (contexts : List Context)
    (hpolicies : decodePolicies policies gIOR = (p, none)) (henabled : p.compressionEnabled = true)
    (hlength : p.compressorIds.length < 2 ^ 29)
    (hpoa : decodePolicies (poa.getD []) gS = (q, none))
    (hC : (ids gC.compressorIds).Nodup) (hS : (ids q.compressorIds).Nodup)
    (hmanagerC : ∀ c ∈ gC.compressorIds, ∀ level ≤ 1, (managerC c.compressorId level).isSome)
    (hmanagerS : ∀ c ∈ q.compressorIds, ∀ level ≤ 1, (managerS c.compressorId level).isSome)
    (hcomponents : ∀ c ∈ components, c.tag ≠ tagPolicies)
    (hcontexts : ∀ c ∈ contexts, c.contextId ≠ invocationPolicies) :
    ∃ client server, firstCall managerC managerS gC gIOR gS policies poa components contexts =
        .ok (client, server) ∧
      client.chosen.map ids =
        choice ((ids p.compressorIds).filter (· ∈ ids gC.compressorIds)) ∧
      server.chosen.map ids =
        choice (((ids p.compressorIds).filter (· ∈ ids gC.compressorIds)).filter
          (· ∈ ids q.compressorIds)) ∧
      (q.compressorIds = p.compressorIds → server.chosen = client.chosen) := by
  obtain ⟨client, server, hrun, hclient, hserver⟩ := firstCall_eq managerC
    managerS hpolicies henabled hlength hpoa hC hS hmanagerC hmanagerS hcomponents
    hcontexts
  have hcommon := map_id_common hC p.compressorIds
  have hselected := map_id_common hS (common p.compressorIds gC.compressorIds)
  refine ⟨client, server, hrun, ?_, ?_, ?_⟩
  · rw [hclient, choice_map, hcommon]
  · rw [hserver, choice_map, hselected, hcommon]
  · intro hsame
    rw [hclient, hserver, hsame, common_common_self (hsame ▸ hS)]

theorem first_call_agrees_two : ∃ client server, firstCall (fun _ _ => some ()) (fun _ _ => some ())
    ⟨true, [⟨5, 9⟩, ⟨2, 0⟩, ⟨4, 6⟩], 0, ()⟩ ⟨false, [], 0, ()⟩ ⟨true, [⟨4, 6⟩, ⟨5, 1⟩], 0, ()⟩
    [.compressionIdLevelList [⟨4, 6⟩, ⟨3, 1⟩, ⟨5, 1⟩], .compressionEnabling true] none [] [] =
      .ok (client, server) ∧
    client.chosen.map ids = some [4, 5] ∧ server.chosen.map ids = some [4, 5] := by
  obtain ⟨client, server, hrun, hclient, hserver, _⟩ := first_call_agrees
    (fun _ _ => some ()) (fun _ _ => some ()) ⟨true, [⟨5, 9⟩, ⟨2, 0⟩, ⟨4, 6⟩], 0, ()⟩
    ⟨false, [], 0, ()⟩ ⟨true, [⟨4, 6⟩, ⟨5, 1⟩], 0, ()⟩
    ⟨true, [⟨4, 6⟩, ⟨3, 1⟩, ⟨5, 1⟩], 0, ()⟩ ⟨true, [⟨4, 6⟩, ⟨5, 1⟩], 0, ()⟩
    [.compressionIdLevelList [⟨4, 6⟩, ⟨3, 1⟩, ⟨5, 1⟩], .compressionEnabling true] none [] []
    rfl rfl (by decide) rfl (by decide) (by decide) (fun _ _ _ _ => rfl) (fun _ _ _ _ => rfl)
    (by decide) (by decide)
  exact ⟨client, server, hrun, hclient.trans (by decide), hserver.trans (by decide)⟩

end

end OmniORB.Ziop
