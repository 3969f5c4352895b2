import OmniORB.Context.Chains
import OmniORB.Context.Runs
import OmniORB.Library.Firsts

/-!
# Remote and local calls see the same context

The walks over a chain of contexts all keep, of the entries with one name, the first that they meet.
-/

namespace OmniORB

open Library

variable {chain : List ContextScope} {which : List CString} {entries l m : List ContextProperty}
  {e f : ContextProperty} {pattern : CString}

/-! ### Names -/

/-- What two names must share to be the same. -/
def propertyKey (e : ContextProperty) : List UInt8 := foldCase e.1.octets

lemma zero_notMem_propertyName (e : ContextProperty) : 0 ∉ propertyName e := e.1.noNul

lemma strcasecmp_name_iff (e f : ContextProperty) :
    strcasecmp e.1.octets f.1.octets = 0 ↔ propertyKey e = propertyKey f :=
  strcasecmp_eq_zero e.1.noNul f.1.noNul

lemma SortedByName.nodup_keys (h : SortedByName propertyName l) : (l.map propertyKey).Nodup := by
  rw [List.Nodup, List.pairwise_map]
  exact h.lt.imp fun hlt heq => hlt.ne (nameKey_inj.mpr heq)

/-- Which entries match depends on what their names share. -/
lemma matchesPattern_congr {p s t : List UInt8} (h : foldCase s = foldCase t) :
    matchesPattern p s = matchesPattern p t := by
  rw [matchesPattern, matchesPattern, h]

/-- A name that was checked has no `*`. -/
lemma star_notMem_of_check {s : List UInt8} {b : Bool} (h : checkPropertyName b s = true) : 42 ∉ s := by
  induction s generalizing b with
  | nil => exact List.not_mem_nil
  | cons c s ih =>
    have hc : c ≠ 42 ∧ ∃ b', checkPropertyName b' s = true := by
      cases b with
      | true =>
        rw [checkPropertyName, Bool.and_eq_true] at h
        exact ⟨fun hc => absurd h.1 (hc ▸ by decide), false, h.2⟩
      | false =>
        rw [checkPropertyName] at h
        split_ifs at h with h1 h2
        · exact ⟨fun hc => absurd h1 (hc ▸ by decide), false, h⟩
        · exact ⟨fun hc => absurd h2 (hc ▸ by decide), true, h⟩
    obtain ⟨hne, b', hs⟩ := hc
    intro hmem
    rcases List.mem_cons.mp hmem with heq | hmem
    · exact hne heq.symm
    · exact ih hs hmem

lemma ne_nil_of_check {s : List UInt8} (h : checkPropertyName true s = true) : s ≠ [] := by
  rintro rfl
  cases h

/-- As a pattern, a name that was checked matches only itself. -/
lemma matchesPattern_of_check {s t : List UInt8} (h : checkPropertyName true s = true) :
    matchesPattern s t = decide (foldCase s = foldCase t) := by
  have hstar : endsWithStar s = false := by
    refine decide_eq_false fun hlast => ?_
    exact star_notMem_of_check h (List.mem_of_getLast? hlast)
  rw [matchesPattern, hstar]
  rfl

/-! ### Inserting -/

/-- An entry with a new name is put in its place. -/
lemma insertProperty_of_new (h : SortedByName propertyName l) (he : propertyKey e ∉ l.map propertyKey) :
    SortedByName propertyName (insertProperty l e) ∧ (insertProperty l e).Perm (e :: l) := by
  rw [insertProperty]
  rcases findEntry_cases h e.1.noNul with ⟨a, d, rfl, hfind, ha, hd⟩ | ⟨a, f, d, rfl, hfind, hfold⟩
  · simp only [hfind, Bool.false_eq_true, if_false, insertIdx_append]
    refine ⟨SortedByName.of_lt (fun f _ => zero_notMem_propertyName f) ?_, List.perm_middle⟩
    obtain ⟨hpa, hpd, had⟩ := List.pairwise_append.mp h.lt
    refine List.pairwise_append.mpr ⟨hpa, List.pairwise_cons.mpr ⟨hd, hpd⟩, fun f hf g hg => ?_⟩
    rcases List.mem_cons.mp hg with rfl | hg
    · exact ha f hf
    · exact had f hf g hg
  · refine absurd ?_ he
    rw [List.mem_map]
    exact ⟨f, by simp, hfold.symm⟩

/-- Entries of which the names differ are all there afterwards, sorted. -/
lemma foldl_insertProperty (h : SortedByName propertyName l) (hm : ((l ++ m).map propertyKey).Nodup) :
    SortedByName propertyName (m.foldl insertProperty l) ∧ (m.foldl insertProperty l).Perm (l ++ m) := by
  induction m generalizing l with
  | nil => exact ⟨h, by rw [List.append_nil, List.foldl_nil]⟩
  | cons e m ih =>
    have hmiddle : (l ++ e :: m).Perm (e :: l ++ m) := List.perm_middle
    have hnodup := (hmiddle.map propertyKey).nodup_iff.mp hm
    have he : propertyKey e ∉ l.map propertyKey := by
      intro hmem
      rw [List.cons_append, List.map_cons, List.nodup_cons, List.map_append, List.mem_append] at hnodup
      exact hnodup.1 (.inl hmem)
    obtain ⟨hsorted, hperm⟩ := insertProperty_of_new h he
    have hall := hperm.append_right m
    obtain ⟨hs, hp⟩ := ih hsorted ((hall.map propertyKey).nodup_iff.mpr hnodup)
    exact ⟨hs, (hp.trans hall).trans hmiddle.symm⟩

lemma sortedByName_nil : SortedByName propertyName [] := ⟨by simp, List.Pairwise.nil⟩

lemma foldl_insertProperty_nil (h : (m.map propertyKey).Nodup) :
    SortedByName propertyName (m.foldl insertProperty []) ∧ (m.foldl insertProperty []).Perm m :=
  foldl_insertProperty sortedByName_nil (by simpa using h)

/-! ### The entries that match -/

/-- The entries of a chain that match, in the order in which the walks meet them. -/
def candidates (which : List CString) (chain : List ContextScope) : List ContextProperty :=
  chain.flatMap fun c => which.flatMap fun pattern =>
    c.entries.filter fun e => matchesPattern pattern.octets (propertyName e)

/-- The range of the entries that match. -/
lemma ContextScope.matchPattern_eq (c : ContextScope) (hne : pattern.octets ≠ []) : ∃ range,
    matchPattern propertyName c.entries pattern.octets = .ok range ∧
      entriesBetween c.entries range = c.entries.filter fun e => matchesPattern pattern.octets (propertyName e) := by
  obtain ⟨a, d, hrange, hmatch⟩ := OmniORB.matchPattern_eq c.sorted pattern.noNul hne
  refine ⟨_, hmatch, ?_⟩
  have hl := hrange.1
  generalize c.entries.filter (fun e => matchesPattern pattern.octets (propertyName e)) = m at hl
  split_ifs with hnil
  · exact hnil.symm
  · change List.extract _ _ _ = _
    rw [List.extract_eq_take_drop, Nat.add_sub_cancel_left, hl, List.append_assoc, List.drop_left, List.take_left]

lemma matchPattern_empty (l : List ContextProperty) (h : pattern.octets = []) :
    matchPattern propertyName l pattern.octets = .error .emptyContextPattern := by
  rw [matchPattern, if_pos h]

/-! ### The walks of marshalContext and filterContext -/

section Walk

variable {β : Type} {add : β → List ContextProperty → Except ContextExn β} {R : β → List ContextProperty → Prop}
  {acc : β}

/-- What a walk gathers stands for the entries that it met first, if that is so for the matches of
each pattern in a scope. -/
lemma walkScope_ok (c : ContextScope)
    (hadd : ∀ acc m l, R acc m → l.Sublist c.entries →
      ∃ acc', add acc l = .ok acc' ∧ R acc' (l.foldl (addFirst propertyKey) m))
    (hacc : R acc m) (hne : ∀ pattern ∈ which, pattern.octets ≠ []) :
    ∃ acc', walkScope add which acc c = .ok acc' ∧
      R acc' ((candidates which [c]).foldl (addFirst propertyKey) m) := by
  induction which generalizing acc m with
  | nil => exact ⟨acc, rfl, by simpa [candidates] using hacc⟩
  | cons pattern which ih =>
    rw [List.forall_mem_cons] at hne
    obtain ⟨range, hmatch, hbetween⟩ := c.matchPattern_eq hne.1
    obtain ⟨acc1, h1, hR1⟩ := hadd acc m _ hacc (List.filter_sublist (l := c.entries)
      (p := fun e => matchesPattern pattern.octets (propertyName e)))
    obtain ⟨acc2, h2, hR2⟩ := ih hR1 hne.2
    refine ⟨acc2, ?_, by simpa [candidates] using hR2⟩
    rw [walkScope] at h2 ⊢
    rw [List.foldlM_cons, hmatch, ← h2]
    change (add acc (entriesBetween c.entries range) >>= _) = _
    rw [hbetween, h1]
    rfl

/-- An empty pattern ends the walk in the nearest scope. -/
lemma walkScope_error (c : ContextScope)
    (hadd : ∀ acc m l, R acc m → l.Sublist c.entries →
      ∃ acc', add acc l = .ok acc' ∧ R acc' (l.foldl (addFirst propertyKey) m))
    (hacc : R acc m) (hempty : ∃ pattern ∈ which, pattern.octets = []) :
    walkScope add which acc c = .error .emptyContextPattern := by
  induction which generalizing acc m with
  | nil => simp at hempty
  | cons pattern which ih =>
    rw [walkScope, List.foldlM_cons]
    by_cases hp : pattern.octets = []
    · rw [matchPattern_empty c.entries hp]
      rfl
    · obtain ⟨range, hmatch, hbetween⟩ := c.matchPattern_eq hp
      obtain ⟨acc1, h1, hR1⟩ := hadd acc m _ hacc (List.filter_sublist (l := c.entries)
        (p := fun e => matchesPattern pattern.octets (propertyName e)))
      have hrest : ∃ pattern ∈ which, pattern.octets = [] := by
        obtain ⟨q, hq, hq0⟩ := hempty
        rcases List.mem_cons.mp hq with rfl | hq
        · exact absurd hq0 hp
        · exact ⟨q, hq, hq0⟩
      have h2 := ih hR1 hrest
      rw [walkScope] at h2
      rw [hmatch, ← h2]
      change (add acc (entriesBetween c.entries range) >>= _) = _
      rw [hbetween, h1]
      rfl

lemma walkChain_ok (hadd : ∀ c ∈ chain, ∀ acc m l, R acc m → l.Sublist c.entries →
      ∃ acc', add acc l = .ok acc' ∧ R acc' (l.foldl (addFirst propertyKey) m))
    (hacc : R acc m) (hne : ∀ pattern ∈ which, pattern.octets ≠ []) :
    ∃ acc', walkChain add which chain acc = .ok acc' ∧
      R acc' ((candidates which chain).foldl (addFirst propertyKey) m) := by
  induction chain generalizing acc m with
  | nil => exact ⟨acc, rfl, hacc⟩
  | cons c chain ih =>
    rw [List.forall_mem_cons] at hadd
    obtain ⟨acc1, h1, hR1⟩ := walkScope_ok c hadd.1 hacc hne
    obtain ⟨acc2, h2, hR2⟩ := ih hadd.2 hR1
    refine ⟨acc2, ?_, by simpa [candidates] using hR2⟩
    rw [walkChain, List.foldlM_cons, h1]
    exact h2

lemma walkChain_error (hadd : ∀ c ∈ chain, ∀ acc m l, R acc m → l.Sublist c.entries →
      ∃ acc', add acc l = .ok acc' ∧ R acc' (l.foldl (addFirst propertyKey) m))
    (hacc : R acc m) (hchain : chain ≠ []) (hempty : ∃ pattern ∈ which, pattern.octets = []) :
    walkChain add which chain acc = .error .emptyContextPattern := by
  cases chain with
  | nil => exact absurd rfl hchain
  | cons c chain =>
    rw [walkChain, List.foldlM_cons, walkScope_error c (hadd c List.mem_cons_self) hacc hempty]
    rfl

end Walk

/-- `marshalContext` compares with the entries before the pattern, which suffices. -/
lemma appendUnlessThere_eq (h : (l.map propertyKey).Nodup) (seq : List ContextProperty) :
    appendUnlessThere seq l = l.foldl (addFirst propertyKey) seq := by
  rw [foldl_addFirst_of_nodup h, appendUnlessThere]
  have htake : ∀ found d : List ContextProperty, found.foldl (fun s e =>
      if (s.take seq.length).any (fun f => strcasecmp f.1.octets e.1.octets = 0) then s else s ++ [e])
      (seq ++ d) = seq ++ d ++ found.filter fun x => !seq.any fun y => propertyKey y = propertyKey x := by
    intro found
    induction found with
    | nil => simp
    | cons e found ih =>
      intro d
      have hany : ((seq ++ d).take seq.length).any (fun f => strcasecmp f.1.octets e.1.octets = 0) =
          seq.any fun y => propertyKey y = propertyKey e := by
        rw [List.take_left]
        simp only [strcasecmp_name_iff]
      rw [List.foldl_cons, hany]
      by_cases hthere : (seq.any fun y => propertyKey y = propertyKey e) = true
      · rw [if_pos hthere, ih d, List.filter_cons_of_neg (by simpa using hthere)]
      · rw [if_neg hthere, List.append_assoc, ih (d ++ [e]), List.filter_cons_of_pos (by simpa using hthere)]
        simp
  simpa using htake l []

/-- What `marshalContext` has gathered are the entries that it met first. -/
lemma marshal_add (c : ContextScope) (acc m l : List ContextProperty) (hacc : acc = m) (hl : l.Sublist c.entries) :
    ∃ acc' : List ContextProperty, Except.ok (appendUnlessThere acc l) = (.ok acc' : Except ContextExn _) ∧
      acc' = l.foldl (addFirst propertyKey) m := by
  subst hacc
  exact ⟨_, rfl, appendUnlessThere_eq (c.sorted.sublist hl).nodup_keys acc⟩

/-- What `filterContext` has gathered are those entries in their places. -/
structure Gathered (ret m : List ContextProperty) : Prop where
  eq : ret = m.foldl insertProperty []
  nodup : (m.map propertyKey).Nodup

lemma Gathered.nil : Gathered [] [] := ⟨rfl, List.nodup_nil⟩

lemma Gathered.filterProperty {ret : List ContextProperty} (h : Gathered ret m)
    (he : checkPropertyName true e.1.octets = true) : ∃ ret', OmniORB.filterProperty ret e = .ok ret' ∧
      Gathered ret' (addFirst propertyKey m e) := by
  obtain ⟨hsorted, hperm⟩ := foldl_insertProperty_nil h.nodup
  rw [← h.eq] at hsorted hperm
  obtain ⟨a, d, -, hmatch⟩ := matchPattern_eq hsorted e.1.noNul (ne_nil_of_check he)
  have hfound : ret.filter (fun f => matchesPattern e.1.octets (propertyName f)) = [] ↔
      propertyKey e ∉ m.map propertyKey := by
    rw [← (hperm.map propertyKey).mem_iff, List.filter_eq_nil_iff]
    simp only [matchesPattern_of_check he, decide_eq_true_eq, List.mem_map, not_exists, not_and]
    exact ⟨fun hall f hf heq => hall f hf heq.symm, fun hall f hf heq => hall f hf heq.symm⟩
  rw [OmniORB.filterProperty, hmatch]
  refine ⟨_, rfl, ?_, nodup_addFirst h.nodup e⟩
  rw [addFirst]
  by_cases hnew : propertyKey e ∈ m.map propertyKey
  · rw [if_pos (any_key.mpr hnew), if_neg fun hnil => hfound.mp hnil hnew, ← h.eq]
    rfl
  · rw [if_neg fun hany => hnew (any_key.mp hany), if_pos (hfound.mpr hnew), List.foldl_append, ← h.eq]
    rfl

lemma filter_add (c : ContextScope) (acc m l : List ContextProperty) (hacc : Gathered acc m)
    (hl : l.Sublist c.entries) : ∃ acc', l.foldlM OmniORB.filterProperty acc = .ok acc' ∧
      Gathered acc' (l.foldl (addFirst propertyKey) m) := by
  have hvalid : ∀ e ∈ l, checkPropertyName true e.1.octets = true := fun e he => c.valid e (hl.subset he)
  clear hl
  induction l generalizing acc m with
  | nil => exact ⟨acc, rfl, hacc⟩
  | cons e l ih =>
    rw [List.forall_mem_cons] at hvalid
    obtain ⟨acc1, h1, hg1⟩ := hacc.filterProperty hvalid.1
    obtain ⟨acc2, h2, hg2⟩ := ih acc1 _ hg1 hvalid.2
    refine ⟨acc2, ?_, hg2⟩
    rw [List.foldlM_cons, h1]
    exact h2

/-- The entries that a call passes on. -/
def passedOn (which : List CString) (chain : List ContextScope) : List ContextProperty :=
  (firsts propertyKey (candidates which chain)).foldl insertProperty []

lemma marshal_walk_ok (hne : ∀ pattern ∈ which, pattern.octets ≠ []) :
    walkChain (fun seq found => .ok (appendUnlessThere seq found)) which chain [] =
      .ok (firsts propertyKey (candidates which chain)) := by
  have hadd := fun c (_ : c ∈ chain) => marshal_add c
  obtain ⟨seq, hwalk, rfl⟩ := walkChain_ok hadd rfl hne
  exact hwalk

lemma filterContext_ok (hne : ∀ pattern ∈ which, pattern.octets ≠ []) :
    filterContext which chain = .ok (passedOn which chain) := by
  have hadd := fun c (_ : c ∈ chain) => filter_add c
  obtain ⟨ret, hwalk, hret⟩ := walkChain_ok hadd Gathered.nil hne
  rw [filterContext, hwalk, hret.eq]
  rfl

lemma filterContext_error (hchain : chain ≠ []) (hempty : ∃ pattern ∈ which, pattern.octets = []) :
    filterContext which chain = .error .emptyContextPattern :=
  walkChain_error (fun c _ => filter_add c) Gathered.nil hchain hempty

/-! ### Which entries they are -/

lemma find?_filter_key (p : List UInt8) (l : List ContextProperty) (e : ContextProperty) :
    (l.filter fun f => matchesPattern p (propertyName f)).find? (fun f => propertyKey f = propertyKey e) =
      if matchesPattern p e.1.octets then l.find? (fun f => propertyKey f = propertyKey e) else none := by
  have hsame : ∀ f : ContextProperty, propertyKey f = propertyKey e →
      matchesPattern p (propertyName f) = matchesPattern p e.1.octets := fun f => matchesPattern_congr
  rw [List.find?_filter]
  by_cases hp : matchesPattern p e.1.octets = true
  · rw [if_pos hp]
    congr 1
    funext f
    by_cases hf : propertyKey f = propertyKey e
    · simp [hf, hsame f hf, hp]
    · simp [hf]
  · rw [if_neg hp, List.find?_eq_none]
    intro f _ hf
    have hf' := of_decide_eq_true hf
    exact hp (hsame f (of_decide_eq_true hf'.2) ▸ hf'.1)

/-- Among the candidates the entry of a name is found that is the nearest in the chain, if some pattern
matches the name. -/
lemma find?_candidates (which : List CString) (chain : List ContextScope) (e : ContextProperty) :
    (candidates which chain).find? (fun f => propertyKey f = propertyKey e) =
      if ∃ pattern ∈ which, matchesPattern pattern.octets e.1.octets = true then nearestProperty chain e.1
      else none := by
  have hscope : ∀ (l : List ContextProperty) (which : List CString), (which.flatMap fun pattern =>
      l.filter fun f => matchesPattern pattern.octets (propertyName f)).find?
        (fun f => propertyKey f = propertyKey e) =
      if ∃ pattern ∈ which, matchesPattern pattern.octets e.1.octets = true
      then l.find? (fun f => propertyKey f = propertyKey e) else none := by
    intro l which
    induction which with
    | nil => simp
    | cons pattern which ih =>
      rw [List.flatMap_cons, List.find?_append, ih, find?_filter_key]
      simp only [List.exists_mem_cons_iff]
      by_cases hp : matchesPattern pattern.octets e.1.octets = true
      · rw [if_pos hp, if_pos (show _ ∨ _ from .inl hp)]
        split_ifs
        · exact Option.or_self
        · exact Option.or_none
      · rw [if_neg hp, Option.none_or]
        exact if_congr (or_iff_right hp).symm rfl rfl
  rw [nearestProperty]
  induction chain with
  | nil => simp [candidates]
  | cons c chain ih =>
    rw [candidates, List.flatMap_cons, List.find?_append, hscope, List.flatMap_cons, List.find?_append]
    rw [candidates] at ih
    rw [ih]
    split_ifs
    · rfl
    · rfl

lemma passedOn_perm (which : List CString) (chain : List ContextScope) :
    (passedOn which chain).Perm (firsts propertyKey (candidates which chain)) :=
  (foldl_insertProperty_nil (nodup_firsts propertyKey _)).2

lemma seenThrough_passedOn (which : List CString) (chain : List ContextScope) :
    SeenThrough which chain (passedOn which chain) where
  sorted := (foldl_insertProperty_nil (nodup_firsts propertyKey _)).1
  mem_iff e := by
    rw [(passedOn_perm which chain).mem_iff, mem_firsts, find?_candidates]
    split_ifs with hmatch
    · exact (and_iff_left hmatch).symm
    · exact iff_of_false (by simp) fun h => hmatch h.2

/-! ### What is read from the call -/

/-- The texts fit in the length fields. -/
structure FitCall (entries : List ContextProperty) : Prop where
  length : 2 * entries.length < 2 ^ 32
  name : ∀ e ∈ entries, e.1.octets.length + 1 < 2 ^ 32
  value : ∀ e ∈ entries, e.2.octets.length + 1 < 2 ^ 32

lemma FitCall.perm (h : FitCall l) (hp : l.Perm m) : FitCall m where
  length := hp.length_eq ▸ h.length
  name e he := h.name e (hp.mem_iff.mpr he)
  value e he := h.value e (hp.mem_iff.mpr he)

lemma ReadsBack.unmarshalProperties (hname : ∀ e ∈ m, e.1.octets.length + 1 < 2 ^ 32)
    (hvalue : ∀ e ∈ m, e.2.octets.length + 1 < 2 ^ 32) (l : List ContextProperty) :
    ReadsBack (fun out => m.foldl marshalProperty out) (OmniORB.unmarshalProperties m.length l)
      (m.foldl insertProperty l) := by
  induction m generalizing l with
  | nil => exact .pure l
  | cons e m ih =>
    rw [List.forall_mem_cons] at hname hvalue
    refine (rawString hname.1).bind (v := fun out => m.foldl marshalProperty (out.marshalRawString e.2.octets).1) ?_
    exact (rawString hvalue.1).bind (v := fun out => m.foldl marshalProperty out)
      (ih hname.2 hvalue.2 (insertProperty l e))

lemma ReadsBack.unmarshalContext (h : FitCall m) :
    ReadsBack (fun out => m.foldl marshalProperty (out.marshalULong (2 * m.length))) OmniORB.unmarshalContext
      (.ok (m.foldl insertProperty [])) := by
  refine (length h.length).bind (v := fun out => m.foldl marshalProperty out) ?_
  have heven : 2 * m.length % 2 = 0 := Nat.mul_mod_right 2 m.length
  have hhalf : 2 * m.length / 2 = m.length := Nat.mul_div_cancel_left m.length (by decide)
  simp only [heven, hhalf, ne_eq, not_true_eq_false, if_false]
  exact (unmarshalProperties h.name h.value []).map

/-- What was written is the context that a local call sees. -/
lemma marshalContext_ok (hne : ∀ pattern ∈ which, pattern.octets ≠ []) (hfit : FitCall (passedOn which chain))
    (out : CdrOut) : ∃ after, marshalContext which chain out = .ok after ∧
      ∀ rest, unmarshalContext (out.readBack after rest) =
        .ok (.ok (passedOn which chain), after.readAll rest) := by
  have hreads := ReadsBack.unmarshalContext (hfit.perm (passedOn_perm which chain))
  refine ⟨_, ?_, hreads.run out⟩
  rw [marshalContext]
  split_ifs with hnil
  · subst hnil
    rfl
  · rw [marshal_walk_ok hne]
    rfl

lemma marshalContext_error (hchain : chain ≠ []) (hempty : ∃ pattern ∈ which, pattern.octets = [])
    (out : CdrOut) : marshalContext which chain out = .error .emptyContextPattern := by
  rw [marshalContext, if_neg hchain, walkChain_error (fun c _ => marshal_add c) rfl hchain hempty]
  rfl

/-! ### get_values -/

lemma addValue_eq (valList : List ContextProperty) (e : ContextProperty) :
    addValue valList e = addFirst propertyKey valList e := by
  have hany : ∀ f, decide (strcasecmp e.1.octets f.1.octets = 0) = decide (propertyKey f = propertyKey e) :=
    fun f => decide_eq_decide.mpr ((strcasecmp_name_iff e f).trans eq_comm)
  simp only [addValue, addFirst, hany]

/-- With a wildcard all the scopes are searched. -/
lemma addValues_eq (hne : pattern.octets ≠ []) (chain : List ContextScope) (l : List ContextProperty) :
    addValues false pattern true chain l =
      .ok ((candidates [pattern] chain).foldl (addFirst propertyKey) l) := by
  induction chain generalizing l with
  | nil => rfl
  | cons c chain ih =>
    obtain ⟨range, hmatch, hbetween⟩ := c.matchPattern_eq hne
    have hadd : addValue = addFirst propertyKey := by
      funext l e
      exact addValue_eq l e
    rw [addValues, hmatch]
    change (if (range.isSome && !true) = true then _ else _) = _
    rw [Bool.not_true, Bool.and_false, if_neg Bool.false_ne_true, if_neg Bool.false_ne_true, ih, hbetween, hadd]
    simp [candidates]

/-! ### Agreement -/

/-- What a call with the patterns sees of a chain of contexts. A local call and a remote one see the
same, if the texts fit; so does `get_values`, which raises an exception rather than tell of nothing.
An empty pattern is refused by all. -/
structure SeenAlike (which : List CString) (chain : List ContextScope) : Prop where
  refused : chain ≠ [] → (∃ pattern ∈ which, pattern.octets = []) →
    filterContext which chain = .error .emptyContextPattern ∧
      ∀ out, marshalContext which chain out = .error .emptyContextPattern
  filtered : (∀ pattern ∈ which, pattern.octets ≠ []) →
    ∃ entries, filterContext which chain = .ok entries ∧ SeenThrough which chain entries
  remote : ∀ entries, (∀ pattern ∈ which, pattern.octets ≠ []) → filterContext which chain = .ok entries →
    FitCall entries → ∀ out, ∃ after, marshalContext which chain out = .ok after ∧
      ∀ rest, unmarshalContext (out.readBack after rest) = .ok (.ok entries, after.readAll rest)
  values : ∀ (pattern : CString) (startScope : Option CString) (entries : List ContextProperty),
    which = [pattern] → endsWithStar pattern.octets = true → (startScope.getD .empty).octets = [] →
    chain ≠ [] → filterContext which chain = .ok entries →
      if entries = [] then getValues chain startScope false (some pattern) = .error .noMatchingProperty
      else ∃ values, getValues chain startScope false (some pattern) = .ok values ∧ values.Perm entries

/-- Every chain of contexts is seen alike, through any patterns. -/
theorem context_seen_alike (which : List CString) (chain : List ContextScope) : SeenAlike which chain where
  refused hchain hempty := ⟨filterContext_error hchain hempty, marshalContext_error hchain hempty⟩
  filtered hne := ⟨_, filterContext_ok hne, seenThrough_passedOn which chain⟩
  remote entries hne heq hfit := by
    rw [filterContext_ok hne] at heq
    obtain rfl := Except.ok.inj heq
    exact marshalContext_ok hne hfit
  values pattern startScope entries hwhich hstar hstart hchain heq := by
    subst hwhich
    have hpattern : pattern.octets ≠ [] := by
      intro hnil
      rw [hnil] at hstar
      cases hstar
    rw [filterContext_ok (by simpa using hpattern)] at heq
    obtain rfl := Except.ok.inj heq
    have hperm := passedOn_perm [pattern] chain
    have hvalues : getValues chain startScope false (some pattern) =
        if firsts propertyKey (candidates [pattern] chain) = [] then .error .noMatchingProperty
        else .ok (firsts propertyKey (candidates [pattern] chain)) := by
      rw [getValues]
      simp only [Option.getD_some, hstart, if_neg hpattern, if_true, if_neg hchain, hstar,
        addValues_eq hpattern chain []]
      rfl
    rw [hvalues]
    by_cases hnil : firsts propertyKey (candidates [pattern] chain) = []
    · rw [hnil] at hperm
      rw [if_pos hperm.eq_nil, if_pos hnil]
    · rw [if_neg hnil, if_neg fun h => hnil (h ▸ hperm).nil_eq.symm]
      exact ⟨_, rfl, hperm.symm⟩

lemma CdrOut.appends_marshalRawString (str : List UInt8) (out : CdrOut) :
    ∃ b, (out.marshalRawString str).1.octets = out.octets ++ b := by
  obtain ⟨b, hb⟩ := (ReadsBack.ulong (str.length + 1)).appends out
  exact ⟨b ++ (str ++ [0]), by rw [marshalRawString, octets_putOctetArray, hb, List.append_assoc]⟩

/-- A length field of zero is that of no string. -/
lemma rawString_too_long {str : List UInt8} (h : (str.length + 1) % 2 ^ 32 = 0) (out : CdrOut)
    (rest : List UInt8) : Unmarshal.rawString (out.readBack (out.marshalRawString str).1 rest) =
      .error (.cdr .marshalStringNotEndWithNull) := by
  have hlen := ReadsBack.ulong (str.length + 1)
  rw [h] at hlen
  exact hlen.run_bind (v := fun out => out.putOctetArray (str ++ [0])) (fun out => ⟨_, rfl⟩) out rest

/-- A value that is too long cannot be read from the call. -/
lemma unmarshalContext_too_long (hname : e.1.octets.length + 1 < 2 ^ 32)
    (hvalue : (e.2.octets.length + 1) % 2 ^ 32 = 0) (out : CdrOut) (rest : List UInt8) :
    unmarshalContext (out.readBack (marshalProperty (out.marshalULong 2) e) rest) =
      .error (.cdr .marshalStringNotEndWithNull) := by
  have hlist := (ReadsBack.length (show 2 < 2 ^ 32 by decide)).run_bind
    (v := fun out => marshalProperty out e) (k := fun n => if n % 2 ≠ 0 then
      return .error .marshalInvalidContextList else do
        let c ← unmarshalProperties (n / 2) []
        return (.ok c : Except ContextListExn (List ContextProperty))) ?_ out rest
  · refine hlist.trans ?_
    rw [if_neg (by decide)]
    change ((Unmarshal.rawString >>= fun name => _) >>= _) _ = _
    rw [bind_assoc]
    have hfirst := (ReadsBack.rawString hname).run_bind
      (v := fun out => (out.marshalRawString e.2.octets).1) (k := fun name => (do
        let value ← Unmarshal.rawString
        unmarshalProperties 0 (insertProperty [] (name, value))) >>= fun c =>
          pure (Except.ok c : Except ContextListExn (List ContextProperty)))
      (CdrOut.appends_marshalRawString e.2.octets) (out.marshalULong 2) rest
    refine hfirst.trans ?_
    rw [bind_assoc]
    change (Unmarshal.rawString _ >>= _) = _
    rw [rawString_too_long hvalue]
    rfl
  · intro out
    obtain ⟨b, hb⟩ := out.appends_marshalRawString e.1.octets
    obtain ⟨d, hd⟩ := (out.marshalRawString e.1.octets).1.appends_marshalRawString e.2.octets
    exact ⟨b ++ d, by rw [marshalProperty, hd, hb, List.append_assoc]⟩

/-- A context with the property `a`. -/
def scopeOf (value : CString) : ContextScope where
  name := .ofBuffer [99]
  entries := [(.ofBuffer [97], value)]
  sorted := ⟨fun e _ => zero_notMem_propertyName e, List.pairwise_singleton _ _⟩
  valid := by simp [CString.ofBuffer, checkPropertyName, isAlpha]

/-- The value is passed on to a local call, but cannot be read from a remote one. -/
lemma scopeOf_too_long (value : CString) (h : (value.octets.length + 1) % 2 ^ 32 = 0) (out : CdrOut) :
    ∃ after, filterContext [.ofBuffer [97]] [scopeOf value] = .ok [(.ofBuffer [97], value)] ∧
      marshalContext [.ofBuffer [97]] [scopeOf value] out = .ok after ∧
      ∀ rest, unmarshalContext (out.readBack after rest) = .error (.cdr .marshalStringNotEndWithNull) := by
  have hname : (CString.ofBuffer [97]).octets.length + 1 < 2 ^ 32 := by decide
  have hne : ∀ pattern ∈ [CString.ofBuffer [97]], pattern.octets ≠ [] := by decide
  refine ⟨_, filterContext_ok hne, ?_, unmarshalContext_too_long (e := (.ofBuffer [97], value)) hname h out⟩
  rw [marshalContext, if_neg (List.cons_ne_nil _ _), marshal_walk_ok hne]
  rfl

/-- Where no property starts with `b` the call sees none, and `get_values` raises an exception; a value of
`2 ^ 32 - 1` octets cannot be read from the call. -/
theorem nothing_found_or_too_long :
    (filterContext [.ofBuffer [98, 42]] [scopeOf (.ofBuffer [49])] = .ok [] ∧
      getValues [scopeOf (.ofBuffer [49])] none false (some (.ofBuffer [98, 42])) =
        .error .noMatchingProperty) ∧
    ∃ value after, filterContext [.ofBuffer [97]] [scopeOf value] = .ok [(.ofBuffer [97], value)] ∧
      marshalContext [.ofBuffer [97]] [scopeOf value] (CdrOut.mk [] fun _ => 0) = .ok after ∧
      ∀ rest, unmarshalContext ((CdrOut.mk [] fun _ => 0).readBack after rest) =
        .error (.cdr .marshalStringNotEndWithNull) := by
  refine ⟨⟨rfl, rfl⟩, .replicate (2 ^ 32 - 1) 49 (by decide), scopeOf_too_long _ ?_ _⟩
  have hlen : (CString.replicate (2 ^ 32 - 1) 49 (by decide)).octets.length = 2 ^ 32 - 1 := List.length_replicate
  rw [hlen]
  rfl

end OmniORB
