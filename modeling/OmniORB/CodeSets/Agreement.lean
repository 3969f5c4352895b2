import OmniORB.CodeSets.Negotiation

/-!
# Client and server agree on the code sets

The ids that a client sends are looked up again by the server, for the version of the connection.
The code sets of an object reference were looked up for that version before; the default code sets
were looked up for GIOP 1.2 whatever the version of the connection is.
-/

namespace OmniORB

open GIOPVersion

variable {cs : CodeSets} {p : Defaults} {ver : GIOPVersion}

/-! ### Looking up -/

lemma getTCS_some {l : List Tcs} {id : ℕ} {v : GIOPVersion} {t : Tcs} (h : getTCS l id v = some t) :
    t ∈ l ∧ t.id = id ∧ t.giopVersion = v := by
  have hmem := List.mem_of_find?_eq_some h
  have hprop := List.find?_some h
  simp only [Bool.and_eq_true, decide_eq_true_eq] at hprop
  exact ⟨hmem, hprop.1, hprop.2⟩

lemma getTCSByName_some {l : List Tcs} {name : String} {v : GIOPVersion} {t : Tcs}
    (h : getTCSByName l name v = some t) : t ∈ l ∧ t.giopVersion = v := by
  have hmem := List.mem_of_find?_eq_some h
  have hprop := List.find?_some h
  simp only [Bool.and_eq_true, decide_eq_true_eq] at hprop
  exact ⟨hmem, hprop.2⟩

/-- What is registered for a version is found again by its id. -/
lemma isSome_getTCS {l : List Tcs} {t : Tcs} {v : GIOPVersion} (ht : t ∈ l)
    (hv : t.giopVersion = v) : (getTCS l t.id v).isSome := by
  rw [getTCS, List.find?_isSome]
  exact ⟨t, ht, by simp [hv]⟩

/-- The code sets of a selection are registered for a version. -/
structure Known (cs : CodeSets) (ver : GIOPVersion) (s : Selection) : Prop where
  tcsC : ∀ t, s.1 = some t → (getTCS cs.tcsC t.id ver).isSome
  tcsW : ∀ t, s.2 = some t → (getTCS cs.tcsW t.id ver).isSome

/-- The code sets of a selection are registered for some version. -/
structure Registered (cs : CodeSets) (s : Selection) : Prop where
  tcsC : ∀ t, s.1 = some t → t ∈ cs.tcsC
  tcsW : ∀ t, s.2 = some t → t ∈ cs.tcsW

lemma map_id_getTCS {l : List Tcs} {id : ℕ} :
    (getTCS l id ver).map Tcs.id = some id ↔ (getTCS l id ver).isSome := by
  constructor
  · intro h
    obtain ⟨t, ht, -⟩ := Option.map_eq_some_iff.mp h
    rw [ht]
    rfl
  · intro h
    obtain ⟨t, ht⟩ := Option.isSome_iff_exists.mp h
    rw [ht, Option.map_some, (getTCS_some ht).2.1]

/-- The server uses the code sets that the client has sent exactly if they are registered for the
version of the connection. -/
lemma sameCodeSets_accept {c : Tcs} {w : Option Tcs} (hr : Registered cs (some c, w)) :
    SameCodeSets ((some c, w), (acceptCodeSets cs ver (c.id, (w.map Tcs.id).getD 0)).tcsC,
      (acceptCodeSets cs ver (c.id, (w.map Tcs.id).getD 0)).tcsW) ↔ Known cs ver (some c, w) := by
  have hc : c.id ≠ 0 := cs.id_ne_zero c (List.mem_append_left _ (hr.tcsC c rfl))
  simp only [SameCodeSets, acceptCodeSets, if_pos hc, Option.map_some]
  cases w with
  | none =>
    simp only [Option.map_none, Option.getD_none, ne_eq, not_true_eq_false, if_false, and_true]
    rw [eq_comm, map_id_getTCS]
    constructor
    · intro h
      exact ⟨fun t ht => Option.some.inj ht ▸ h, fun t ht => nomatch ht⟩
    · intro h
      exact h.tcsC c rfl
  | some w =>
    have hw : w.id ≠ 0 := cs.id_ne_zero w (List.mem_append_right _ (hr.tcsW w rfl))
    simp only [Option.map_some, Option.getD_some, if_pos hw]
    rw [@eq_comm _ (some c.id), map_id_getTCS, @eq_comm _ (some w.id), map_id_getTCS]
    constructor
    · intro h
      exact ⟨fun t ht => Option.some.inj ht ▸ h.1, fun t ht => Option.some.inj ht ▸ h.2⟩
    · intro h
      exact ⟨h.tcsC c rfl, h.tcsW w rfl⟩

/-! ### Default code sets -/

/-- What the option handlers keep: the defaults are registered for GIOP 1.2, and there is none for
`wchar` without one for `char`. -/
structure Defaults.Ok (cs : CodeSets) (p : Defaults) : Prop where
  charSet : ∀ t, p.charSet = some t → t ∈ cs.tcsC ∧ t.giopVersion = giop12
  wcharSet : ∀ t, p.wcharSet = some t → t ∈ cs.tcsW ∧ t.giopVersion = giop12
  both : p.charSet = none → p.wcharSet = none

lemma Defaults.Ok.visit {p' : Defaults} {o : DefaultOption} (hp : p.Ok cs)
    (h : p.visit cs o = some p') : p'.Ok cs := by
  cases o with
  | defaultCharCodeSet value =>
    obtain ⟨v, hv, heq⟩ := Option.bind_eq_some_iff.mp h
    obtain rfl := Option.some.inj heq
    refine ⟨?_, hp.wcharSet, fun h => nomatch h⟩
    intro t ht
    obtain rfl := Option.some.inj ht
    exact getTCSByName_some hv
  | defaultWCharCodeSet value =>
    obtain ⟨v, hv, heq⟩ := Option.bind_eq_some_iff.mp h
    obtain rfl := Option.some.inj heq
    have hutf8 := cs.utf8 giop12 (by decide)
    refine ⟨?_, ?_, ?_⟩
    · intro t ht
      by_cases hc : p.charSet.isSome
      · simp only [if_pos hc] at ht
        exact hp.charSet t ht
      · simp only [if_neg hc] at ht
        obtain ⟨hmem, -, hver⟩ := getTCS_some ht
        exact ⟨hmem, hver⟩
    · intro t ht
      obtain rfl := Option.some.inj ht
      exact getTCSByName_some hv
    · intro hnone
      by_cases hc : p.charSet.isSome
      · simp only [if_pos hc] at hnone
        rw [hnone] at hc
        exact nomatch hc
      · simp only [if_neg hc] at hnone
        rw [hnone] at hutf8
        exact nomatch hutf8

lemma Defaults.Ok.foldlM {p' : Defaults} {options : List DefaultOption} (hp : p.Ok cs)
    (h : options.foldlM (Defaults.visit cs) p = some p') : p'.Ok cs := by
  induction options generalizing p with
  | nil =>
    rw [List.foldlM_nil] at h
    exact Option.some.inj h ▸ hp
  | cons o options ih =>
    rw [List.foldlM_cons] at h
    obtain ⟨q, hq, hrest⟩ := Option.bind_eq_some_iff.mp h
    exact ih (hp.visit hq) hrest

lemma Defaults.Ok.unset : Defaults.Ok cs ⟨none, none⟩ where
  charSet _ h := nomatch h
  wcharSet _ h := nomatch h
  both _ := rfl

lemma Defaults.Ok.configure {options : List DefaultOption}
    (h : Defaults.configure cs options = some p) : p.Ok cs :=
  Defaults.Ok.unset.foldlM h

lemma Defaults.Ok.registered (hp : p.Ok cs) : Registered cs (p.charSet, p.wcharSet) :=
  ⟨fun t ht => (hp.charSet t ht).1, fun t ht => (hp.wcharSet t ht).1⟩

/-- On a connection with GIOP 1.2 the defaults are known. -/
lemma Defaults.Ok.known (hp : p.Ok cs) : Known cs giop12 (p.charSet, p.wcharSet) where
  tcsC t ht := isSome_getTCS (hp.charSet t ht).1 (hp.charSet t ht).2
  tcsW t ht := isSome_getTCS (hp.wcharSet t ht).1 (hp.wcharSet t ht).2

/-! ### Object references -/

/-- The object reference says which code sets the server knows. -/
def CodeSetRequest.hasInfo (r : CodeSetRequest) : Prop :=
  r.components ≠ [] ∧ r.version ∈ implemented

instance (r : CodeSetRequest) : Decidable r.hasInfo := inferInstanceAs (Decidable (_ ∧ _))

lemma pickTCS_some {l : List Tcs} {fallback : ℕ} {v : GIOPVersion} {c : CodeSetComponent} {t : Tcs}
    (h : pickTCS l fallback v c = some t) : t ∈ l ∧ t.giopVersion = v := by
  have hget : ∀ id, getTCS l id v = some t → t ∈ l ∧ t.giopVersion = v := by
    intro id hid
    obtain ⟨hmem, -, hver⟩ := getTCS_some hid
    exact ⟨hmem, hver⟩
  rw [pickTCS, Option.or_eq_some_iff, Option.or_eq_some_iff] at h
  rcases h with (h | ⟨-, h⟩) | ⟨-, h⟩
  · split_ifs at h
    exact hget _ h
  · obtain ⟨id, -, hid⟩ := List.exists_of_findSome?_eq_some h
    exact hget id hid
  · exact hget _ h

lemma isSome_pickTCS {l : List Tcs} {fallback : ℕ} {v : GIOPVersion} (c : CodeSetComponent)
    (h : (getTCS l fallback v).isSome) : (pickTCS l fallback v c).isSome := by
  rw [pickTCS, Option.isSome_or, h, Bool.or_true]

lemma iorInfo_of_ne_nil {r : CodeSetRequest} (h : r.components ≠ []) :
    ∃ info, r.iorInfo cs = unmarshalTagCodeSets cs r.version info := by
  obtain ⟨l, info, hl⟩ := (List.eq_nil_or_concat r.components).resolve_left h
  refine ⟨info, ?_⟩
  rw [CodeSetRequest.iorInfo, hl, List.concat_eq_append, List.foldl_append]
  rfl

/-- Code sets of an object reference are registered for its version. -/
lemma registered_iorInfo (r : CodeSetRequest) :
    Registered cs (r.iorInfo cs) ∧ Known cs r.version (r.iorInfo cs) := by
  rcases eq_or_ne r.components [] with hnil | hne
  · have hnone : r.iorInfo cs = (none, none) := by rw [CodeSetRequest.iorInfo, hnil, List.foldl_nil]
    rw [hnone]
    exact ⟨⟨fun _ h => (nomatch h), fun _ h => (nomatch h)⟩,
      fun _ h => (nomatch h), fun _ h => (nomatch h)⟩
  · obtain ⟨info, hinfo⟩ := iorInfo_of_ne_nil hne
    rw [hinfo]
    constructor
    · exact ⟨fun t ht => (pickTCS_some ht).1, fun t ht => (pickTCS_some ht).1⟩
    · refine ⟨fun t ht => ?_, fun t ht => ?_⟩
      · exact isSome_getTCS (pickTCS_some ht).1 (pickTCS_some ht).2
      · exact isSome_getTCS (pickTCS_some ht).1 (pickTCS_some ht).2

lemma iorInfo_of_hasInfo {r : CodeSetRequest} (h : r.hasInfo) (hv : r.version ∈ [giop11, giop12]) :
    ∃ c, (r.iorInfo cs).1 = some c := by
  obtain ⟨info, hinfo⟩ := iorInfo_of_ne_nil h.1
  rw [hinfo]
  exact Option.isSome_iff_exists.mp (isSome_pickTCS _ (cs.utf8 _ hv))

/-- Nothing is registered for a version that is not implemented. -/
lemma iorInfo_of_not_hasInfo {r : CodeSetRequest} (h : ¬r.hasInfo) : r.iorInfo cs = (none, none) := by
  rcases eq_or_ne r.components [] with hnil | hne
  · rw [CodeSetRequest.iorInfo, hnil, List.foldl_nil]
  · obtain ⟨info, hinfo⟩ := iorInfo_of_ne_nil hne
    have hver : r.version ∉ implemented := fun hv => h ⟨hne, hv⟩
    have hnone : ∀ (l : List Tcs) (fallback : ℕ) (c : CodeSetComponent),
        (∀ t ∈ l, t ∈ cs.tcsC ++ cs.tcsW) → pickTCS l fallback r.version c = none := by
      intro l fallback c hl
      rw [Option.eq_none_iff_forall_ne_some]
      intro t ht
      obtain ⟨hmem, hv⟩ := pickTCS_some ht
      exact hver (hv ▸ cs.implemented t (hl t hmem))
    rw [hinfo, unmarshalTagCodeSets, hnone _ _ _ fun t => List.mem_append_left _,
      hnone _ _ _ fun t => List.mem_append_right _]

/-! ### One request -/

lemma findCodeSets_others (others : List OtherContext) (contexts : List ServiceContext) :
    findCodeSets (others.map .other ++ contexts) = findCodeSets contexts := by
  induction others with
  | nil => rfl
  | cons c others ih => exact ih

lemma minor_of_mem (hver : ver ∈ [giop11, giop12]) : ¬ver.minor < 1 := by
  have h : ∀ v ∈ [giop11, giop12], ¬v.minor < 1 := by decide
  exact h ver hver

/-- The server goes by the code set context of a request. -/
lemma getCodeSetServiceContext_codeSets (hver : ver ∈ [giop11, giop12]) (others : List OtherContext)
    (c w : ℕ) (d : StrandSets) :
    getCodeSetServiceContext cs p ver (others.map .other ++ [.codeSets c w]) d =
      (acceptCodeSets cs ver (c, w), ((acceptCodeSets cs ver (c, w)).tcsC,
        (acceptCodeSets cs ver (c, w)).tcsW)) := by
  rw [getCodeSetServiceContext, if_neg (minor_of_mem hver), findCodeSets_others]
  simp [findCodeSets, acceptCodeSets]

/-- Without one it goes by what was negotiated before, or by its defaults. -/
lemma getCodeSetServiceContext_none (hver : ver ∈ [giop11, giop12]) (others : List OtherContext)
    (d : StrandSets) :
    getCodeSetServiceContext cs p ver (others.map .other ++ []) d =
      (let e := if d.selected then d else assumeCodeSets cs p ver
       if e.version ≠ ver then (e, (getTCS cs.tcsC Tcs.id8859_1 ver, none))
       else (e, (e.tcsC, e.tcsW))) := by
  rw [getCodeSetServiceContext, if_neg (minor_of_mem hver), findCodeSets_others]
  rfl

/-- Both ends have selected, and the same. -/
structure Settled (ver : GIOPVersion) (d : StrandSets × StrandSets) : Prop where
  client : d.1.selected = true
  server : d.2.selected = true
  version : d.2.version = ver
  same : SameCodeSets ((d.1.tcsC, d.1.tcsW), (d.2.tcsC, d.2.tcsW))

/-- The client has not selected; the server has not either, or has assumed the defaults. -/
structure Unsettled (cs : CodeSets) (p : Defaults) (ver : GIOPVersion) (d : StrandSets × StrandSets) :
    Prop where
  client : d.1.selected = false
  server : d.2.selected = false ∨ d.2 = assumeCodeSets cs p ver

/-- After both ends have selected nothing changes. -/
lemma Settled.negotiate {d : StrandSets × StrandSets} (hver : ver ∈ [giop11, giop12])
    (h : Settled ver d) (r : CodeSetRequest) :
    negotiate cs p ver r d = (d, ((d.1.tcsC, d.1.tcsW), (d.2.tcsC, d.2.tcsW))) := by
  rw [OmniORB.negotiate, setCodeSetServiceContext, if_pos h.client]
  simp only [getCodeSetServiceContext_none hver, if_pos h.server, h.version]
  simp

/-- The code sets that the client selects for a request. -/
def selection (cs : CodeSets) (p : Defaults) (r : CodeSetRequest) : Selection :=
  if r.hasInfo then r.iorInfo cs else (p.charSet, p.wcharSet)

lemma selection_eq {r : CodeSetRequest} (hv : r.hasInfo → r.version ∈ [giop11, giop12]) :
    (if (r.iorInfo cs).1.isSome ∨ (r.iorInfo cs).2.isSome then r.iorInfo cs
      else (p.charSet, p.wcharSet)) = selection cs p r := by
  rw [selection]
  by_cases h : r.hasInfo
  · obtain ⟨c, hc⟩ := iorInfo_of_hasInfo h (hv h)
    rw [if_pos h, if_pos (.inl (by rw [hc]; rfl))]
  · rw [if_neg h, iorInfo_of_not_hasInfo h]
    simp

/-- Where the client selects, the ends agree exactly if what it selects is registered for the
version of the connection. -/
lemma negotiate_selected {d : StrandSets × StrandSets} {r : CodeSetRequest} {c : Tcs}
    {w : Option Tcs} (hver : ver ∈ [giop11, giop12]) (hv : r.hasInfo → r.version ∈ [giop11, giop12])
    (hd : d.1.selected = false) (hs : selection cs p r = (some c, w))
    (hr : Registered cs (some c, w)) :
    (SameCodeSets (negotiate cs p ver r d).2 ↔ Known cs ver (some c, w)) ∧
      (Known cs ver (some c, w) → Settled ver (negotiate cs p ver r d).1) := by
  have hset : setCodeSetServiceContext cs p ver (r.iorInfo cs) d.1 =
      (⟨true, some c, w, ver⟩, (some c, w), [.codeSets c.id ((w.map Tcs.id).getD 0)]) := by
    rw [setCodeSetServiceContext, if_neg (by simp [hd]), if_neg (minor_of_mem hver),
      selection_eq hv, hs]
  simp only [negotiate, hset, getCodeSetServiceContext_codeSets hver]
  refine ⟨sameCodeSets_accept hr, fun hk => ⟨rfl, rfl, rfl, ?_⟩⟩
  exact (sameCodeSets_accept hr).mpr hk

/-- Where the client selects nothing, it has no defaults, and both ends use ISO-8859-1. -/
lemma negotiate_unselected {d : StrandSets × StrandSets} {r : CodeSetRequest} (hp : p.Ok cs)
    (hver : ver ∈ [giop11, giop12]) (hchar : p.charSet = none) (hr : ¬r.hasInfo)
    (hd : Unsettled cs p ver d) :
    SameCodeSets (negotiate cs p ver r d).2 ∧ Unsettled cs p ver (negotiate cs p ver r d).1 := by
  have hwchar := hp.both hchar
  have hset : setCodeSetServiceContext cs p ver (r.iorInfo cs) d.1 =
      (d.1, (getTCS cs.tcsC Tcs.id8859_1 ver, none), []) := by
    rw [setCodeSetServiceContext, if_neg (by simp [hd.client]), if_neg (minor_of_mem hver),
      iorInfo_of_not_hasInfo hr]
    simp [hchar]
  have hserver : (if d.2.selected then d.2 else assumeCodeSets cs p ver) =
      assumeCodeSets cs p ver := by
    rcases hd.server with h | h
    · rw [if_neg (by simp [h])]
    · rw [h]
      exact ite_self _
  simp only [negotiate, hset, getCodeSetServiceContext_none hver, hserver]
  have hversion : ¬(assumeCodeSets cs p ver).version ≠ ver := not_not.mpr rfl
  rw [if_neg hversion]
  refine ⟨?_, hd.client, .inr rfl⟩
  simp [SameCodeSets, assumeCodeSets, hchar, hwchar]

/-! ### All requests on a connection -/

/-- The requests use the same connection: their object references lead to its version. -/
def OnConnection (maxVersion ver : GIOPVersion) (rs : List CodeSetRequest) : Prop :=
  ∀ r ∈ rs, acquired maxVersion r.version = ver

instance (maxVersion ver : GIOPVersion) (rs : List CodeSetRequest) :
    Decidable (OnConnection maxVersion ver rs) := inferInstanceAs (Decidable (∀ r ∈ rs, _))

lemma OnConnection.version {maxVersion : GIOPVersion} {rs : List CodeSetRequest}
    {r : CodeSetRequest} (h : OnConnection maxVersion ver rs) (hr : r ∈ rs) (hi : r.hasInfo) :
    r.version = ver := by
  have hacq := h r hr
  rwa [acquired, if_pos hi.2] at hacq

lemma negotiations_cons (r : CodeSetRequest) (rs : List CodeSetRequest)
    (d : StrandSets × StrandSets) :
    negotiations cs p ver (r :: rs) d =
      (negotiate cs p ver r d).2 :: negotiations cs p ver rs (negotiate cs p ver r d).1 := rfl

lemma Settled.negotiations {d : StrandSets × StrandSets} (hver : ver ∈ [giop11, giop12])
    (h : Settled ver d) (rs : List CodeSetRequest) :
    ∀ used ∈ negotiations cs p ver rs d, SameCodeSets used := by
  induction rs with
  | nil => exact fun _ hu => nomatch hu
  | cons r rs ih =>
    rw [negotiations_cons, h.negotiate hver r]
    intro used hu
    rcases List.mem_cons.mp hu with rfl | hu
    · exact h.same
    · exact ih used hu

/-- A request that says which code sets the server knows settles the connection. -/
lemma negotiate_info {d : StrandSets × StrandSets} {r : CodeSetRequest}
    (hver : ver ∈ [giop11, giop12]) (hv : r.version = ver) (hd : d.1.selected = false)
    (hi : r.hasInfo) :
    SameCodeSets (negotiate cs p ver r d).2 ∧ Settled ver (negotiate cs p ver r d).1 := by
  obtain ⟨c, hc⟩ := iorInfo_of_hasInfo hi (hv ▸ hver)
  obtain ⟨hreg, hknown⟩ := registered_iorInfo r
  have hs : selection cs p r = (some c, (r.iorInfo cs).2) := by
    rw [selection, if_pos hi, ← hc]
  have hpair : r.iorInfo cs = (some c, (r.iorInfo cs).2) := by rw [← hc]
  rw [hpair] at hreg
  rw [hpair, hv] at hknown
  obtain ⟨hsame, hsettled⟩ := negotiate_selected hver (fun _ => hv ▸ hver) hd hs hreg
  exact ⟨hsame.mpr hknown, hsettled hknown⟩

/-- Without a default the ends agree whatever is requested. -/
lemma Unsettled.negotiations {maxVersion : GIOPVersion} {d : StrandSets × StrandSets}
    {rs : List CodeSetRequest} (hp : p.Ok cs) (hver : ver ∈ [giop11, giop12])
    (hchar : p.charSet = none) (hd : Unsettled cs p ver d) (hrs : OnConnection maxVersion ver rs) :
    ∀ used ∈ negotiations cs p ver rs d, SameCodeSets used := by
  induction rs generalizing d with
  | nil => exact fun _ hu => nomatch hu
  | cons r rs ih =>
    rw [negotiations_cons]
    intro used hu
    by_cases hi : r.hasInfo
    · obtain ⟨hsame, hsettled⟩ :=
        negotiate_info (p := p) hver (hrs.version List.mem_cons_self hi) hd.client hi
      rcases List.mem_cons.mp hu with rfl | hu
      · exact hsame
      · exact hsettled.negotiations hver rs used hu
    · obtain ⟨hsame, hnext⟩ := negotiate_unselected hp hver hchar hi hd
      rcases List.mem_cons.mp hu with rfl | hu
      · exact hsame
      · exact ih hnext (fun q hq => hrs q (List.mem_cons_of_mem r hq)) used hu

lemma unsettled_initial : Unsettled cs p ver (.initial, .initial) := ⟨rfl, .inl rfl⟩

/-- On a connection with GIOP 1.1 or 1.2, client and server use the same code sets for every request
if and only if the first object reference says which code sets the server knows, or the default code
sets are registered for the version of the connection. -/
theorem codeSets_agree (cs : CodeSets) (options : List DefaultOption) (p : Defaults)
    (maxVersion ver : GIOPVersion) (rs : List CodeSetRequest)
    (hp : Defaults.configure cs options = some p) (hver : ver = giop11 ∨ ver = giop12)
    (hrs : OnConnection maxVersion ver rs) :
    (∀ used ∈ negotiations cs p ver rs (.initial, .initial), SameCodeSets used) ↔
      ∀ r ∈ rs.head?, r.hasInfo ∨ Known cs ver (p.charSet, p.wcharSet) := by
  have hok := Defaults.Ok.configure hp
  have hmem : ver ∈ [giop11, giop12] := by
    rcases hver with rfl | rfl
    · decide
    · decide
  cases hchar : p.charSet with
  | none =>
    have hall := unsettled_initial.negotiations hok hmem hchar hrs
    have hknown : Known cs ver (none, p.wcharSet) := by
      rw [hok.both hchar]
      exact ⟨fun _ h => (nomatch h), fun _ h => (nomatch h)⟩
    exact ⟨fun _ _ _ => .inr hknown, fun _ => hall⟩
  | some c =>
    cases rs with
    | nil => exact ⟨fun _ r hr => (nomatch hr), fun _ used hu => (nomatch hu)⟩
    | cons r rs =>
      rw [List.head?_cons]
      by_cases hi : r.hasInfo
      · obtain ⟨hsame, hsettled⟩ := negotiate_info (p := p) (d := (.initial, .initial))
          hmem (hrs.version List.mem_cons_self hi) rfl hi
        constructor
        · intro _ q hq
          exact .inl (Option.some.inj hq ▸ hi)
        · intro _ used hu
          rw [negotiations_cons] at hu
          rcases List.mem_cons.mp hu with rfl | hu
          · exact hsame
          · exact hsettled.negotiations hmem rs used hu
      · have hs : selection cs p r = (some c, p.wcharSet) := by rw [selection, if_neg hi, hchar]
        have hreg := hok.registered
        rw [hchar] at hreg
        obtain ⟨hsame, hsettled⟩ := negotiate_selected (d := (.initial, .initial)) hmem
          (fun h => absurd h hi) rfl hs hreg
        constructor
        · intro hall q hq
          have hfirst := hall _ List.mem_cons_self
          exact .inr (hsame.mp hfirst)
        · intro hcond used hu
          have hknown := (hcond r rfl).resolve_left hi
          rw [negotiations_cons] at hu
          rcases List.mem_cons.mp hu with rfl | hu
          · exact hsame.mpr hknown
          · exact (hsettled hknown).negotiations hmem rs used hu

/-- A request on an object reference without code set information. -/
def plainRequest (v : GIOPVersion) : CodeSetRequest := ⟨v, [], []⟩

/-- The defaults after `-ORBdefaultWCharCodeSet UTF-16`. -/
def utf16Default : Defaults :=
  ⟨some ⟨Tcs.idUtf8, "UTF-8", giop12⟩, some ⟨Tcs.idUtf16, "UTF-16", giop12⟩⟩

lemma configure_utf16 :
    Defaults.configure CodeSets.initial [.defaultWCharCodeSet "UTF-16"] = some utf16Default := by
  decide

theorem codeSets_agree_giop12 :
    OnConnection giop12 giop12 [plainRequest giop12] ∧
      ∀ used ∈ negotiations CodeSets.initial utf16Default giop12 [plainRequest giop12]
        (.initial, .initial), SameCodeSets used :=
  ⟨by decide, (codeSets_agree CodeSets.initial [.defaultWCharCodeSet "UTF-16"] utf16Default giop12
    giop12 [plainRequest giop12] configure_utf16 (.inr rfl) (by decide)).mpr
    fun _ _ => .inr (Defaults.Ok.configure configure_utf16).known⟩

/-- With GIOP 1.1 the client marshals wide characters in UTF-16 and the server has no code set for
them. -/
theorem codeSets_disagree_giop11 :
    Defaults.configure CodeSets.initial [.defaultWCharCodeSet "UTF-16"] = some utf16Default ∧
      OnConnection giop12 giop11 [plainRequest giop11] ∧
      ¬ ∀ used ∈ negotiations CodeSets.initial utf16Default giop11 [plainRequest giop11]
        (.initial, .initial), SameCodeSets used := by
  refine ⟨configure_utf16, by decide, by decide⟩

end OmniORB
