import OmniORB.Poa.Trees

/-!
# Object keys route to their POAs

When `getAdapter` returns the POA whose `pd_poaId` a key starts with, and no other.
-/

namespace OmniORB

open Library

variable {uniqueIds isSigned : Bool}
  {activate : Poa → List UInt8 → Except PoaExn (Option PoaTree)}

/-! ### The end of a key -/

/-- The comparison with octets `v` in the middle of `pd_poaId`. -/
lemma matchSuffix_eq (u v w k : List UInt8) (h : v.length ≤ k.length) :
    matchSuffix (u ++ v ++ w) v.length k u.length =
      .ok (if v <+: k then some (k.drop v.length) else none) := by
  induction v generalizing u k with
  | nil => simp [matchSuffix]
  | cons x v ih =>
    cases k with
    | nil => simp at h
    | cons c k =>
      have hx : (u ++ x :: v ++ w).getD u.length 0 = x := by simp
      have hin : ¬((u.length : ℤ) < 0 ∨ ((u ++ x :: v ++ w).length : ℤ) ≤ u.length) := by
        simp
        omega
      rw [List.length_cons, matchSuffix, if_neg hin, Int.toNat_natCast, hx]
      by_cases hc : c = x
      · have hih := ih (u ++ [x]) k (by simpa using h)
        rw [List.append_assoc u [x] v, List.singleton_append, List.length_append,
          List.length_singleton] at hih
        rw [if_neg (not_not.mpr hc), hc]
        push_cast at hih
        rw [hih]
        simp
      · rw [if_pos hc, if_neg]
        rintro ⟨r, hr⟩
        exact hc (by simpa using congrArg List.head? hr.symm)

/-- The key goes on with the NUL. -/
lemma finishAdapter_nul (p : Poa) (r : List UInt8) : finishAdapter p (0 :: r) = .ok (some p) := rfl

/-- Something is returned only after a NUL or a suffix. -/
lemma endsPath_of_finishAdapter {p : Poa} {k : List UInt8} (h : finishAdapter p k ≠ .ok none) :
    EndsPath k := by
  cases k with
  | nil => exact absurd rfl h
  | cons c k =>
    by_cases hc : c = transientSuffixSep
    · exact .inr (congrArg some hc)
    · left
      by_contra h0
      refine h ?_
      rw [finishAdapter, if_neg hc, checkNul, if_pos (fun hc => h0 (congrArg some hc))]

/-- A suffix that is compared with `v`, of which eight octets stand before the last one. -/
lemma finishAdapter_suffix {p : Poa} {u v : List UInt8} {x : UInt8} (hid : p.poaId = u ++ v ++ [x])
    (hv : v.length = transientSuffixSize) (k : List UInt8) :
    finishAdapter p (transientSuffixSep :: k) =
      .ok (if v ++ [0] <+: k then some p else none) := by
  rw [finishAdapter, if_pos rfl]
  by_cases hk : k.length ≤ transientSuffixSize
  · rw [if_pos hk, if_neg]
    intro h
    have := h.length_le
    rw [List.length_append, hv, List.length_singleton] at this
    omega
  · have hstart : (p.poaId.length : ℤ) - transientSuffixSize - 1 = u.length := by
      rw [hid, List.length_append, List.length_append, hv, List.length_singleton]
      push_cast
      ring
    rw [if_neg hk, hstart, hid, ← hv, matchSuffix_eq u v [x] k (by omega)]
    obtain ⟨a, c, b, rfl, ha⟩ : ∃ a c b, k = a ++ c :: b ∧ a.length = v.length := by
      obtain ⟨c, b, hcb⟩ := List.exists_cons_of_length_pos (l := k.drop v.length) (by
        rw [List.length_drop]
        omega)
      refine ⟨k.take v.length, c, b, by rw [← hcb, List.take_append_drop], ?_⟩
      rw [List.length_take]
      omega
    have hpre : v <+: a ++ c :: b ↔ v = a := by
      rw [List.prefix_iff_eq_take, ← ha, List.take_left]
    have hpre0 : v ++ [0] <+: a ++ c :: b ↔ v = a ∧ c = 0 := by
      constructor
      · intro h
        have hva := hpre.mp ((List.prefix_append v [0]).trans h)
        subst hva
        rw [List.prefix_append_right_inj] at h
        exact ⟨rfl, by simpa using (List.cons_prefix_cons.mp h).1.symm⟩
      · rintro ⟨rfl, rfl⟩
        exact (List.prefix_append_right_inj v).mpr (List.cons_prefix_cons.mpr ⟨rfl, List.nil_prefix⟩)
    rw [if_congr hpre rfl rfl, if_congr hpre0 rfl rfl, ← ha, List.drop_left]
    by_cases hva : v = a
    · rw [if_pos hva]
      by_cases hc : c = 0
      · rw [if_pos ⟨hva, hc⟩, hc]
        rfl
      · rw [if_neg (fun h => hc h.2)]
        exact congrArg Except.ok (if_pos hc)
    · rw [if_neg hva, if_neg (fun h => hva h.1)]
      rfl

/-- Where fewer than eight octets stand before the last one, those before the array are read. -/
lemma finishAdapter_short {p : Poa} (hid : p.poaId.length ≤ transientSuffixSize) (k : List UInt8) :
    finishAdapter p (transientSuffixSep :: k) =
      if k.length ≤ transientSuffixSize then .ok none else .error .overrun := by
  rw [finishAdapter, if_pos rfl]
  by_cases hk : k.length ≤ transientSuffixSize
  · rw [if_pos hk, if_pos hk]
  · rw [if_neg hk, if_neg hk]
    obtain ⟨c, k, rfl⟩ := List.exists_cons_of_length_pos (l := k) (by omega)
    rw [show transientSuffixSize = 7 + 1 from rfl, matchSuffix, if_pos (by
      left
      unfold transientSuffixSize at hid
      push_cast
      omega)]
    rfl

/-- The suffix of a persistent POA is compared with the end of its name. -/
lemma finishAdapter_persistent {p : Poa} (hid : p.poaId = p.fullname ++ [0]) (k : List UInt8) :
    finishAdapter p (transientSuffixSep :: k) =
      if k.length ≤ transientSuffixSize then .ok none
      else if p.fullname.length < transientSuffixSize then .error .overrun
      else .ok (if p.fullname.drop (p.fullname.length - transientSuffixSize) ++ [0] <+: k then
        some p else none) := by
  by_cases hshort : p.fullname.length < transientSuffixSize
  · rw [finishAdapter_short (by rw [hid, List.length_append, List.length_singleton]; omega),
      if_pos hshort]
  · have hid' : p.poaId = p.fullname.take (p.fullname.length - transientSuffixSize) ++
        p.fullname.drop (p.fullname.length - transientSuffixSize) ++ [0] := by
      rw [List.take_append_drop, hid]
    have hlen : (p.fullname.drop (p.fullname.length - transientSuffixSize)).length =
        transientSuffixSize := by
      rw [List.length_drop]
      omega
    rw [finishAdapter_suffix hid' hlen, if_neg hshort]
    by_cases hk : k.length ≤ transientSuffixSize
    · rw [if_pos hk, if_neg]
      intro hpre
      have := hpre.length_le
      rw [List.length_append, hlen, List.length_singleton] at this
      omega
    · rw [if_neg hk]

/-! ### Walking down the tree -/

/-- The POA at the end of a path on which each child is found. -/
inductive Found (isSigned : Bool) : PoaTree → List (List UInt8) → PoaTree → Prop where
  | here (t) : Found isSigned t [] t
  | child {t c d path} (hc : c ∈ t.children) (hs : Seen isSigned t c)
      (h : Found isSigned c path d) : Found isSigned t (c.poa.name.octets :: path) d

lemma Found.member {t d : PoaTree} {path : List (List UInt8)} (h : Found isSigned t path d) :
    Member t path d := by
  induction h with
  | here t => exact .here t
  | child hc _ _ ih => exact .child hc ih

/-- One turn of the loop, at a name. -/
lemma walk_name {t : PoaTree} (ht : Built uniqueIds t) {k : List UInt8} :
    walk isSigned activate t (poaNameSep :: k) =
      if k.dropWhile (fun c => !endsName c) = [] then .ok none
      else (t.findChild isSigned (k.takeWhile fun c => !endsName c)).elim (.ok none) fun c =>
        walk isSigned activate c (k.dropWhile fun c => !endsName c) := by
  rw [walk, if_pos rfl]
  dsimp only
  by_cases hend : k.dropWhile (fun c => !endsName c) = []
  · rw [if_pos hend, if_pos hend]
  · rw [if_neg hend, if_neg hend, ht.node.adapterActivator]
    rcases hc : t.findChild isSigned (k.takeWhile fun c => !endsName c) with - | c
    · rfl
    · have h0 : 0 ∉ k.takeWhile fun c => !endsName c := by
        intro h0
        have := List.mem_takeWhile_imp h0
        simp [endsName] at this
      obtain ⟨hmem, -⟩ := of_findChild h0 hc
      have hdying := (ht.node.made c hmem).2.node.dying
      simp [Option.filter, hdying]

/-- The loop goes down a path on which each child is found. -/
lemma walk_found {t d : PoaTree} (ht : Built uniqueIds t) {path : List (List UInt8)}
    (h : Found isSigned t path d) {rest : List UInt8} (hr : EndsPath rest) :
    walk isSigned activate t (pathOctets path ++ rest) = finishAdapter d.poa rest := by
  induction h with
  | here t =>
    rw [pathOctets_nil, List.nil_append]
    rcases hr with hr | hr
    all_goals
      obtain ⟨r, rfl⟩ := List.head?_eq_some_iff.mp hr
      rw [walk, if_neg (by decide)]
  | @child t c d path hc hs _ ih =>
    obtain ⟨hmade, hbuilt⟩ := ht.node.made c hc
    obtain ⟨htake, hdrop⟩ := takeWhile_name hmade.clean (endsName_head path hr)
    obtain ⟨x, r, hxr, -⟩ := endsName_head path hr
    rw [pathOctets_cons, List.append_assoc, List.cons_append, walk_name ht, htake, hdrop,
      if_neg (by rw [hxr]; exact List.cons_ne_nil x r), (findChild_eq_some_iff ht hc).mpr hs]
    exact ih hbuilt

/-- The loop ends nowhere else: whatever comes of it other than that there is no POA comes of the
end of a path on which each child is found. -/
lemma found_of_walk {t : PoaTree} (ht : Built uniqueIds t) {key : List UInt8}
    {r : Except PoaExn (Option Poa)} (hr : r ≠ .ok none)
    (h : walk isSigned activate t key = r) :
    ∃ path d rest, Found isSigned t path d ∧ key = pathOctets path ++ rest ∧ EndsPath rest ∧
      finishAdapter d.poa rest = r := by
  induction hn : key.length using Nat.strong_induction_on generalizing t key with
  | _ n ih =>
    cases key with
    | nil =>
      rw [walk] at h
      exact absurd h.symm hr
    | cons c k =>
      by_cases hc : c = poaNameSep
      · subst hc
        rw [walk_name ht] at h
        split_ifs at h with hend
        · exact absurd h.symm hr
        · rcases hchild : t.findChild isSigned (k.takeWhile fun c => !endsName c) with - | b
          · rw [hchild] at h
            exact absurd h.symm hr
          · rw [hchild, Option.elim_some] at h
            have h0 : 0 ∉ k.takeWhile fun c => !endsName c := by
              intro h0
              have := List.mem_takeWhile_imp h0
              simp [endsName] at this
            obtain ⟨hmem, hname⟩ := of_findChild h0 hchild
            rw [← hname] at hchild
            obtain ⟨path, d, rest, hf, hkey, hrest, hfin⟩ :=
              ih _ (by rw [← hn]; exact length_dropWhile_lt) (ht.node.made b hmem).2 h rfl
            refine ⟨b.poa.name.octets :: path, d, rest,
              .child hmem ((findChild_eq_some_iff ht hmem).mp hchild) hf, ?_, hrest, hfin⟩
            rw [pathOctets_cons, List.append_assoc, List.cons_append, ← hkey, hname,
              List.takeWhile_append_dropWhile]
      · rw [walk, if_neg hc] at h
        exact ⟨[], t, c :: k, .here t, rfl, endsPath_of_finishAdapter (by rw [h]; exact hr), h⟩

/-! ### Routing -/

/-- A key is routed right: to the POA whose `pd_poaId` it starts with, and to no other, nothing
outside the arrays is read, and the key that is dispatched is no shorter than `pd_poaId`. -/
def Routes (isSigned : Bool) (activate : Poa → List UInt8 → Except PoaExn (Option PoaTree))
    (t : PoaTree) (key : List UInt8) : Prop :=
  (∀ path d, Member t path d →
    (getAdapter isSigned activate (some t) key = .ok (some d.poa) ↔ d.poa.poaId <+: key)) ∧
  getAdapter isSigned activate (some t) key ≠ .error .overrun ∧
  ∀ p uniqueIds, getAdapter isSigned activate (some t) key = .ok (some p) →
    checkKeySize uniqueIds p key ≠ .error .assertionFailure

/-- What a key must not be for it to be routed right. -/
structure Routable (isSigned : Bool) (t : PoaTree) (key : List UInt8) : Prop where
  /-- no child on the way is lost by the signed comparison -/
  seen : ∀ path d, Member t path d → d.poa.poaId <+: key → Found isSigned t path d
  /-- no names of a transient POA without its suffix -/
  suffixed : ∀ path d rest, Found isSigned t path d → d.poa.policy.transient = true →
    key ≠ pathOctets path ++ 0 :: rest
  /-- no names of a persistent POA with a suffix: it has too short a name, or the suffix is made of
  the end of its name -/
  plain : ∀ path d rest, Found isSigned t path d → d.poa.policy.transient = false →
    transientSuffixSize < rest.length → key = pathOctets path ++ transientSuffixSep :: rest →
    transientSuffixSize ≤ d.poa.fullname.length ∧
      ¬d.poa.fullname.drop (d.poa.fullname.length - transientSuffixSize) ++ [0] <+: rest
  /-- if there is the INS POA, it is the one that is named -/
  ins : ∀ path d, Member t path d → d.poa.poaId = [] → ∃ rest, key = pathOctets path ++ 0 :: rest

/-- Nothing but the POA itself is returned at the end of a key. -/
lemma eq_of_finishAdapter {p q : Poa} {k : List UInt8} (h : finishAdapter p k = .ok (some q)) :
    q = p := by
  have hnul : ∀ {l}, checkNul p l = .ok (some q) → q = p := by
    intro l hl
    cases l with
    | nil => cases hl
    | cons c l =>
      rw [checkNul, Except.ok.injEq] at hl
      split_ifs at hl
      exact (Option.some.inj hl).symm
  cases k with
  | nil => cases h
  | cons c k =>
    rw [finishAdapter] at h
    split_ifs at h with h1 h2
    · cases h
    · rcases hm : matchSuffix p.poaId transientSuffixSize k
          ((p.poaId.length : ℤ) - transientSuffixSize - 1) with e | - | l
      · rw [hm] at h
        cases h
      · rw [hm] at h
        cases h
      · rw [hm] at h
        exact hnul h
    · exact hnul h

namespace RootTree

variable {t d e : PoaTree} {path : List (List UInt8)} {key : List UInt8}

lemma fullname_eq (ht : RootTree uniqueIds t) (h : Member t path d) :
    d.poa.fullname = pathOctets path := by
  rw [h.fullname_append ht.built, ht.prefixed.1, List.nil_append]

lemma prefixed_member (ht : RootTree uniqueIds t) (h : Member t path d) : Prefixed d.poa :=
  h.prefixed ht.built ht.prefixed.2

/-- A POA is in one place only. -/
lemma eq_of_poa_eq (ht : RootTree uniqueIds t) {q : List (List UInt8)} (hd : Member t path d)
    (he : Member t q e) (h : d.poa = e.poa) : path = q ∧ d = e := by
  have hfull : pathOctets path ++ [0] = pathOctets q ++ [0] := by
    rw [← ht.fullname_eq hd, ← ht.fullname_eq he, h]
  obtain ⟨rfl, -⟩ := pathOctets_append_inj (hd.clean ht.built) (he.clean ht.built) (.inl rfl)
    (.inl rfl) hfull
  exact ⟨rfl, hd.unique ht.built he⟩

/-- A POA is returned at the end of its path. -/
lemma of_getAdapter (ht : RootTree uniqueIds t) {p : Poa}
    (h : getAdapter isSigned activate (some t) key = .ok (some p)) :
    ∃ path d rest, Found isSigned t path d ∧ key = pathOctets path ++ rest ∧ EndsPath rest ∧
      finishAdapter d.poa rest = .ok (some d.poa) ∧ p = d.poa := by
  obtain ⟨path, d, rest, hf, hkey, hr, hfin⟩ := found_of_walk ht.built (by simp) h
  obtain rfl := eq_of_finishAdapter hfin
  exact ⟨path, d, rest, hf, hkey, hr, hfin, rfl⟩

/-- The POA of a member is returned at the end of the member's path. -/
lemma of_getAdapter_member (ht : RootTree uniqueIds t) (hd : Member t path d)
    (h : getAdapter isSigned activate (some t) key = .ok (some d.poa)) :
    ∃ rest, Found isSigned t path d ∧ key = pathOctets path ++ rest ∧ EndsPath rest ∧
      finishAdapter d.poa rest = .ok (some d.poa) := by
  obtain ⟨q, e, rest, hf, hkey, hr, hfin, heq⟩ := ht.of_getAdapter h
  obtain ⟨rfl, rfl⟩ := ht.eq_of_poa_eq hd hf.member heq
  exact ⟨rest, hf, hkey, hr, hfin⟩

/-! ### What is enough -/

/-- What is returned for a key that can be routed is what the key starts with. -/
lemma prefix_of_finish (ht : RootTree uniqueIds t) (hk : Routable isSigned t key)
    (hf : Found isSigned t path d) {rest : List UInt8} (hkey : key = pathOctets path ++ rest)
    (hr : EndsPath rest) (hfin : finishAdapter d.poa rest = .ok (some d.poa)) :
    d.poa.poaId <+: key := by
  have hfull := ht.fullname_eq hf.member
  cases ht.prefixed_member hf.member with
  | ins _ hid hname =>
    rw [hid]
    exact List.nil_prefix
  | transient uid htr hid =>
    rcases hr with hr | hr
    · obtain ⟨r, rfl⟩ := List.head?_eq_some_iff.mp hr
      exact absurd hkey (hk.suffixed path d r hf htr)
    · obtain ⟨k, rfl⟩ := List.head?_eq_some_iff.mp hr
      have hid' : d.poa.poaId = (d.poa.fullname ++ [transientSuffixSep]) ++ uid.octets ++ [0] := by
        simpa using hid
      rw [finishAdapter_suffix hid' uid.size] at hfin
      split_ifs at hfin with hpre
      · rw [hid, hkey, hfull, List.append_assoc, List.prefix_append_right_inj, List.cons_append]
        exact List.cons_prefix_cons.mpr ⟨rfl, hpre⟩
      · cases hfin
  | persistent htr hid =>
    rcases hr with hr | hr
    · obtain ⟨r, rfl⟩ := List.head?_eq_some_iff.mp hr
      rw [hid, hkey, hfull, List.prefix_append_right_inj]
      exact List.cons_prefix_cons.mpr ⟨rfl, List.nil_prefix⟩
    · obtain ⟨k, rfl⟩ := List.head?_eq_some_iff.mp hr
      rw [finishAdapter_persistent hid] at hfin
      split_ifs at hfin with hlen hshort hpre
      · cases hfin
      · exact absurd hpre (hk.plain path d k hf htr (by omega) hkey).2
      · cases hfin

/-- The POA that a key starts with is returned. -/
lemma finish_of_prefix (ht : RootTree uniqueIds t) (hk : Routable isSigned t key)
    (hd : Member t path d) (h : d.poa.poaId <+: key) :
    ∃ rest, key = pathOctets path ++ rest ∧ EndsPath rest ∧
      finishAdapter d.poa rest = .ok (some d.poa) := by
  have hfull := ht.fullname_eq hd
  cases ht.prefixed_member hd with
  | ins _ hid hname =>
    obtain ⟨rest, hrest⟩ := hk.ins path d hd hid
    exact ⟨0 :: rest, hrest, .inl rfl, rfl⟩
  | transient uid htr hid =>
    obtain ⟨r, hr⟩ := h
    have hid' : d.poa.poaId = (d.poa.fullname ++ [transientSuffixSep]) ++ uid.octets ++ [0] := by
      simpa using hid
    refine ⟨transientSuffixSep :: (uid.octets ++ [0] ++ r), ?_, .inr rfl, ?_⟩
    · rw [← hr, hid, hfull]
      simp
    · rw [finishAdapter_suffix hid' uid.size, if_pos (List.prefix_append _ r)]
  | persistent htr hid =>
    obtain ⟨r, hr⟩ := h
    refine ⟨0 :: r, ?_, .inl rfl, rfl⟩
    rw [← hr, hid, hfull]
    simp

/-- Nothing outside the arrays is read. -/
lemma no_overrun (ht : RootTree uniqueIds t) (hk : Routable isSigned t key) :
    getAdapter isSigned activate (some t) key ≠ .error .overrun := by
  intro h
  obtain ⟨path, d, rest, hf, hkey, hr, hfin⟩ := found_of_walk ht.built (by simp) h
  rcases hr with hr | hr
  · obtain ⟨r, rfl⟩ := List.head?_eq_some_iff.mp hr
    cases hfin
  · obtain ⟨k, rfl⟩ := List.head?_eq_some_iff.mp hr
    cases ht.prefixed_member hf.member with
    | ins _ hid hname =>
      obtain ⟨r, hr'⟩ := hk.ins path d hf.member hid
      have hclean := hf.member.clean ht.built
      obtain ⟨-, h0⟩ := pathOctets_append_inj hclean hclean (.inr rfl) (.inl rfl)
        (hkey.symm.trans hr')
      exact absurd (congrArg List.head? h0) (by simp [transientSuffixSep])
    | transient uid htr hid =>
      have hid' : d.poa.poaId = (d.poa.fullname ++ [transientSuffixSep]) ++ uid.octets ++ [0] := by
        simpa using hid
      rw [finishAdapter_suffix hid' uid.size] at hfin
      cases hfin
    | persistent htr hid =>
      rw [finishAdapter_persistent hid] at hfin
      split_ifs at hfin with hlen hshort
      have := (hk.plain path d k hf htr (by omega) hkey).1
      omega

lemma routes_of_routable (ht : RootTree uniqueIds t) (hk : Routable isSigned t key) :
    Routes isSigned activate t key := by
  refine ⟨fun path d hd => ⟨fun h => ?_, fun h => ?_⟩, ht.no_overrun hk, fun p u h => ?_⟩
  · obtain ⟨rest, hf, hkey, hr, hfin⟩ := ht.of_getAdapter_member hd h
    exact ht.prefix_of_finish hk hf hkey hr hfin
  · obtain ⟨rest, rfl, hr, hfin⟩ := ht.finish_of_prefix hk hd h
    rw [← hfin]
    exact walk_found ht.built (hk.seen path d hd h) hr
  · obtain ⟨path, d, rest, hf, hkey, hr, hfin, rfl⟩ := ht.of_getAdapter h
    have hlen := (ht.prefix_of_finish hk hf hkey hr hfin).length_le
    unfold checkKeySize
    rw [if_neg (by omega)]
    split_ifs <;> simp

/-! ### What is needed -/

/-- At the end of a path on which each child is found, what is returned is a POA that the key starts
with. -/
lemma prefix_of_routes (ht : RootTree uniqueIds t) (hk : Routes isSigned activate t key)
    (hf : Found isSigned t path d) {rest : List UInt8} (hkey : key = pathOctets path ++ rest)
    (hr : EndsPath rest) (hfin : finishAdapter d.poa rest = .ok (some d.poa)) :
    d.poa.poaId <+: key := by
  refine (hk.1 path d hf.member).mp ?_
  rw [hkey, ← hfin]
  exact walk_found ht.built hf hr

lemma routable_of_routes (ht : RootTree uniqueIds t) (hk : Routes isSigned activate t key) :
    Routable isSigned t key where
  seen := by
    intro path d hd h
    obtain ⟨rest, hf, -⟩ := ht.of_getAdapter_member hd ((hk.1 path d hd).mpr h)
    exact hf
  suffixed := by
    intro path d rest hf htr hkey
    have hpre := ht.prefix_of_routes hk hf hkey (.inl rfl) rfl
    have hfull := ht.fullname_eq hf.member
    cases ht.prefixed_member hf.member with
    | ins h _ _ =>
      rw [htr] at h
      cases h
    | transient uid _ hid =>
      rw [hid, hkey, hfull, List.append_assoc, List.prefix_append_right_inj] at hpre
      exact absurd (List.cons_prefix_cons.mp hpre).1 (by decide)
    | persistent h _ =>
      rw [htr] at h
      cases h
  plain := by
    intro path d rest hf htr hlen hkey
    have hfull := ht.fullname_eq hf.member
    have hover : getAdapter isSigned activate (some t) key =
        finishAdapter d.poa (transientSuffixSep :: rest) := by
      rw [hkey]
      exact walk_found ht.built hf (.inr rfl)
    cases ht.prefixed_member hf.member with
    | ins _ hid hname =>
      refine absurd hover ?_
      rw [finishAdapter_short (by rw [hid]; exact Nat.zero_le _), if_neg (by omega)]
      exact hk.2.1
    | transient uid h _ =>
      rw [htr] at h
      cases h
    | persistent _ hid =>
      rw [finishAdapter_persistent hid, if_neg (by omega)] at hover
      split_ifs at hover with hshort hpre
      · exact absurd hover hk.2.1
      · have hpre' := ht.prefix_of_routes hk hf hkey (.inr rfl)
          (by rw [finishAdapter_persistent hid, if_neg (by omega), if_neg hshort, if_pos hpre])
        rw [hid, hkey, hfull, List.prefix_append_right_inj] at hpre'
        exact absurd (List.cons_prefix_cons.mp hpre').1 (by decide)
      · exact ⟨by omega, hpre⟩
  ins := by
    intro path d hd hid
    obtain ⟨rest, hf, hkey, hr, hfin⟩ := ht.of_getAdapter_member hd
      ((hk.1 path d hd).mpr (by rw [hid]; exact List.nil_prefix))
    rcases hr with hr | hr
    · obtain ⟨r, rfl⟩ := List.head?_eq_some_iff.mp hr
      exact ⟨r, hkey⟩
    · obtain ⟨k, rfl⟩ := List.head?_eq_some_iff.mp hr
      rw [finishAdapter_short (by rw [hid]; exact Nat.zero_le _)] at hfin
      split_ifs at hfin
      cases hfin

end RootTree

/-! ### Keys that are made -/

/-- The keys that are made for an object id: the id is given, or made with the key. -/
def MakesKey (uniqueIds : Bool) (p : Poa) (id key : List UInt8) : Prop :=
  key = createKey p id ∨ ∃ i j, createNewKey uniqueIds p i = .ok (key, id, j)

/-- Both ways of making a key put the id after `pd_poaId`. -/
lemma MakesKey.eq_append {p : Poa} {id key : List UInt8}
    (h : MakesKey uniqueIds p id key) : key = p.poaId ++ id := by
  rcases h with rfl | ⟨i, j, h⟩
  · rfl
  · unfold createNewKey at h
    split_ifs at h with h1
    · rcases hp : p.oidPrefix with - | o
      · rw [hp] at h
        cases h
      · rw [hp] at h
        simp only [Except.ok.injEq, Prod.mk.injEq] at h
        rw [← h.1, ← h.2.1, List.append_assoc]
    · simp only [Except.ok.injEq, Prod.mk.injEq] at h
      rw [← h.1, ← h.2.1]

/-- The key prefix of any POA but the INS POA tells its names. -/
lemma Prefixed.names {p : Poa} (hp : Prefixed p) (h : p.poaId ≠ []) (id : List UInt8) :
    ∃ rest, p.poaId ++ id = p.fullname ++ rest ∧ EndsPath rest := by
  cases hp with
  | ins _ hid _ => exact absurd hid h
  | transient uid _ hid =>
    refine ⟨transientSuffixSep :: uid.octets ++ [0] ++ id, ?_, .inr rfl⟩
    rw [hid]
    simp
  | persistent _ hid =>
    refine ⟨0 :: id, ?_, .inl rfl⟩
    rw [hid]
    simp

namespace RootTree

variable {t d e : PoaTree} {path q : List (List UInt8)} {id id' : List UInt8}

/-- Keys of two POAs neither of which is the INS POA. -/
lemma eq_of_key_eq (ht : RootTree uniqueIds t) (hd : Member t path d) (he : Member t q e)
    (hd0 : d.poa.poaId ≠ []) (he0 : e.poa.poaId ≠ [])
    (h : d.poa.poaId ++ id = e.poa.poaId ++ id') : d.poa = e.poa ∧ id = id' := by
  obtain ⟨r, hr, hre⟩ := (ht.prefixed_member hd).names hd0 id
  obtain ⟨s, hs, hse⟩ := (ht.prefixed_member he).names he0 id'
  rw [hr, hs, ht.fullname_eq hd, ht.fullname_eq he] at h
  obtain ⟨rfl, rfl⟩ := pathOctets_append_inj (hd.clean ht.built) (he.clean ht.built) hre hse h
  obtain rfl := hd.unique ht.built he
  exact ⟨rfl, List.append_cancel_left (hr.trans hs.symm)⟩

/-- There is one INS POA. -/
lemma eq_of_ins (ht : RootTree uniqueIds t) (hd : Member t path d) (he : Member t q e)
    (hd0 : d.poa.poaId = []) (he0 : e.poa.poaId = []) : d = e := by
  have hname : ∀ {p b}, Member t p b → b.poa.poaId = [] →
      pathOctets p ++ [0] = pathOctets [insPoaName.octets] ++ [0] := by
    intro p b hb hb0
    rw [← ht.fullname_eq hb]
    cases ht.prefixed_member hb with
    | ins _ _ hname => rw [hname]
    | transient uid _ hid => simp [hid] at hb0
    | persistent _ hid => simp [hid] at hb0
  obtain ⟨rfl, -⟩ := pathOctets_append_inj (hd.clean ht.built) (he.clean ht.built) (.inl rfl)
    (.inl rfl) ((hname hd hd0).trans (hname he he0).symm)
  exact hd.unique ht.built he

end RootTree

/-- Keys for different POAs or object ids differ, unless one is of the INS POA with an object id
that is the other. -/
lemma keys_distinct_iff {t d e : PoaTree} {path q : List (List UInt8)} {id id' k k' : List UInt8}
    (ht : RootTree uniqueIds t) (hd : Member t path d) (he : Member t q e)
    (hk : MakesKey uniqueIds d.poa id k) (hk' : MakesKey uniqueIds e.poa id' k') :
    (k = k' → d.poa = e.poa ∧ id = id') ↔
      ¬(d.poa.poaId = [] ∧ e.poa.poaId ≠ [] ∧ id = e.poa.poaId ++ id' ∨
        e.poa.poaId = [] ∧ d.poa.poaId ≠ [] ∧ id' = d.poa.poaId ++ id) := by
  rw [hk.eq_append, hk'.eq_append]
  by_cases hd0 : d.poa.poaId = []
  · by_cases he0 : e.poa.poaId = []
    · obtain rfl := ht.eq_of_ins hd he hd0 he0
      simp [hd0]
    · have hne : d.poa ≠ e.poa := fun h => he0 (h ▸ hd0)
      simp [hd0, he0, hne]
  · by_cases he0 : e.poa.poaId = []
    · have hne : d.poa ≠ e.poa := fun h => hd0 (h ▸ he0)
      simp [hd0, he0, hne, eq_comm]
    · refine iff_of_true (ht.eq_of_key_eq hd he hd0 he0) ?_
      simp [hd0, he0]

/-- Which keys are routed right in a tree of POAs, and which keys are different. -/
theorem poa_keys_route {t : PoaTree} (ht : RootTree uniqueIds t) :
    (∀ key, Routes isSigned activate t key ↔ Routable isSigned t key) ∧
    ∀ path d q e id id' k k', Member t path d → Member t q e → MakesKey uniqueIds d.poa id k →
      MakesKey uniqueIds e.poa id' k' → ((k = k' → d.poa = e.poa ∧ id = id') ↔
        ¬(d.poa.poaId = [] ∧ e.poa.poaId ≠ [] ∧ id = e.poa.poaId ++ id' ∨
          e.poa.poaId = [] ∧ d.poa.poaId ≠ [] ∧ id' = d.poa.poaId ++ id)) :=
  ⟨fun _ => ⟨ht.routable_of_routes, ht.routes_of_routable⟩,
    fun _ _ _ _ _ _ _ _ hd he hk hk' => keys_distinct_iff ht hd he hk hk'⟩

/-! ### A root POA -/

/-- A root POA without children. -/
def lonelyRoot : PoaTree :=
  .node (omniOrbPOA true rootPoaName ⟨true, false⟩ ⟨[1, 2, 3, 4, 5, 6, 7, 8], rfl⟩ .null) false
    false []

theorem poa_keys_route_root :
    RootTree true lonelyRoot ∧
      (Routes true (fun _ _ => .ok none) lonelyRoot [0] ↔ Routable true lonelyRoot [0]) := by
  have ht : RootTree true lonelyRoot := ⟨.new _, _, _, _, rfl, rfl⟩
  exact ⟨ht, (poa_keys_route ht).1 [0]⟩

/-- The key of one NUL is dispatched to the root POA, and an assertion fails. -/
theorem nul_key_reaches_root :
    RootTree true lonelyRoot ∧
      getAdapter true (fun _ _ => .ok none) (some lonelyRoot) [0] = .ok (some lonelyRoot.poa) ∧
      ¬lonelyRoot.poa.poaId <+: [0] ∧
      checkKeySize true lonelyRoot.poa [0] = .error .assertionFailure := by
  refine ⟨⟨.new _, _, _, _, rfl, rfl⟩, ?_, by decide, by decide⟩
  rw [getAdapter, walk, if_neg (by decide)]
  rfl

end OmniORB
