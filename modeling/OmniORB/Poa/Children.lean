import OmniORB.Poa.Trees

/-!
# The children of a POA

`pd_children` is sorted by `strcmp`, and searched by name with `strcmp` and by a part of a key with
`tstrcmp`. The two agree on names unless these differ first in octets of which only one is at least
0x80.
-/

namespace OmniORB

open Library

namespace PoaTree

/-- `find_child(name)` -/
def findChildNamed (cs : List PoaTree) (name : CString) : Option PoaTree :=
  search (fun c => strcmp name.octets c.poa.name.octets) cs cs.length 0 cs.length

/-- `lose_child`: the children afterwards, if there is a place that the search has looked at. -/
def loseChild (cs : List PoaTree) (child : PoaTree) : Option (List PoaTree) :=
  (lastPlace (fun c => strcmp child.poa.name.octets c.poa.name.octets) cs cs.length 0 cs.length
    none).map cs.eraseIdx

end PoaTree

open PoaTree

/-! ### Runs -/

inductive ChildOp where
  | insert (child : PoaTree)
  | lose (child : PoaTree)

namespace ChildOp

def exec (cs : List PoaTree) : ChildOp → Option (List PoaTree)
  | insert child => insertChild cs child
  | lose child => loseChild cs child

/-- A child that is inserted has a valid name that none has yet. A child that is lost is there. -/
def Allowed (cs : List PoaTree) : ChildOp → Prop
  | insert child => adapterNameIsValid child.poa.name = true ∧ ∀ c ∈ cs, c.poa.name ≠ child.poa.name
  | lose child => child ∈ cs

/-- The children afterwards. -/
def Keeps (cs : List PoaTree) (c : PoaTree) : ChildOp → Prop
  | insert child => c = child ∨ c ∈ cs
  | lose child => c ∈ cs ∧ c ≠ child

end ChildOp

/-- The lists of children that a run reaches. -/
inductive ChildrenReached : List PoaTree → Prop where
  | start : ChildrenReached []
  | step {cs cs'} {op : ChildOp} (h : ChildrenReached cs) (hop : op.Allowed cs) (he : op.exec cs = some cs') :
      ChildrenReached cs'

/-- Children are sorted by their names, which are all different and valid. -/
structure SortedChildren (cs : List PoaTree) : Prop where
  sorted : cs.Pairwise Before
  nodup : (cs.map fun c => c.poa.name).Nodup
  valid : ∀ c ∈ cs, adapterNameIsValid c.poa.name = true

lemma sorted_nodup {cs : List PoaTree} (h : cs.Pairwise Before) :
    (cs.map fun c => c.poa.name).Nodup := by
  rw [List.nodup_iff_pairwise_ne, List.pairwise_map]
  refine h.imp ?_
  rintro a b hab heq
  unfold Before at hab
  rw [strcmp_eq_zero.mpr heq] at hab
  exact lt_irrefl 0 hab

/-- The child that is lost is the one in the place that is looked at last. -/
lemma loseChild_sorted {cs : List PoaTree} {child : PoaTree} (h : cs.Pairwise Before)
    (hc : child ∈ cs) :
    ∃ cs', loseChild cs child = some cs' ∧ cs'.Sublist cs ∧
      ∀ c, c ∈ cs' ↔ c ∈ cs ∧ c ≠ child := by
  obtain ⟨k, hk⟩ := targetAt_of_pairwise h hc
  obtain ⟨hlen, hget⟩ := List.getElem?_eq_some_iff.mp hk.get
  refine ⟨cs.eraseIdx k, ?_, List.eraseIdx_sublist cs k, fun c => ?_⟩
  · rw [loseChild, lastPlace_eq_some hk (Nat.sub_le _ _) le_rfl (Nat.zero_le k) hlen]
    rfl
  · rw [List.mem_eraseIdx_iff_getElem?]
    constructor
    · rintro ⟨i, hne, hi⟩
      refine ⟨List.mem_of_getElem? hi, ?_⟩
      rintro rfl
      exact hne (hk.eq_of_eq_zero hi hk.eq)
    · rintro ⟨hmem, hne⟩
      obtain ⟨i, hi⟩ := List.getElem?_of_mem hmem
      refine ⟨i, ?_, hi⟩
      rintro rfl
      rw [hk.get, Option.some.injEq] at hi
      exact hne hi.symm

/-- An operation that is allowed succeeds, and does what it should. -/
lemma SortedChildren.step {cs : List PoaTree} (h : SortedChildren cs) {op : ChildOp}
    (hop : op.Allowed cs) :
    ∃ cs', op.exec cs = some cs' ∧ SortedChildren cs' ∧ ∀ c, c ∈ cs' ↔ op.Keeps cs c := by
  cases op with
  | insert child =>
    obtain ⟨hvalid, hnew⟩ := hop
    obtain ⟨k, hk⟩ := exists_insertionPoint (n := cs.length) (l := cs)
      (c := fun c => strcmp child.poa.name.octets c.poa.name.octets)
      (fun c hc h0 => hnew c hc (strcmp_eq_zero.mp h0).symm) (Nat.sub_le cs.length 0) le_rfl
    have hcs : insertChild cs child = some (cs.take k ++ child :: cs.drop k) := by
      rw [insertChild, hk]
      rfl
    obtain ⟨hsorted, hmem⟩ := insertChild_sorted h.sorted hcs
    refine ⟨_, hcs, ⟨hsorted, sorted_nodup hsorted, fun c hc => ?_⟩, hmem⟩
    rcases (hmem c).mp hc with rfl | hc
    · exact hvalid
    · exact h.valid c hc
  | lose child =>
    obtain ⟨cs', hcs, hsub, hmem⟩ := loseChild_sorted h.sorted hop
    have hsorted := h.sorted.sublist hsub
    exact ⟨cs', hcs, ⟨hsorted, sorted_nodup hsorted, fun c hc => h.valid c ((hmem c).mp hc).1⟩, hmem⟩

/-- The children stay sorted in a run. -/
lemma ChildrenReached.sortedChildren {cs : List PoaTree} (h : ChildrenReached cs) :
    SortedChildren cs := by
  induction h with
  | start => exact ⟨List.Pairwise.nil, List.nodup_nil, fun _ hc => absurd hc List.not_mem_nil⟩
  | step _ hop he ih =>
    obtain ⟨cs', hcs, hsorted, -⟩ := ih.step hop
    rw [he, Option.some.injEq] at hcs
    rwa [hcs]

/-! ### High octets -/

/-- The octets in which two names differ first. The end of a name is zero. -/
def firstDifference : List UInt8 → List UInt8 → UInt8 × UInt8
  | x :: a, y :: b => if x = y then firstDifference a b else (x, y)
  | x :: _, [] => (x, 0)
  | [], y :: _ => (0, y)
  | [], [] => (0, 0)

/-- Both octets are below 0x80, or both are not. -/
def SameHalf (d : UInt8 × UInt8) : Prop := d.1.toNat < 0x80 ↔ d.2.toNat < 0x80

lemma compareStrings_eq (isSigned : Bool) (a b : List UInt8) :
    compareStrings (charValue isSigned) a b = charValue isSigned (firstDifference a b).1 -
      charValue isSigned (firstDifference a b).2 := by
  have h0 : charValue isSigned 0 = 0 := by
    cases isSigned with
    | false => rfl
    | true => rfl
  fun_induction firstDifference a b with
  | case1 x a b ih => rw [compareStrings, if_pos rfl, ih]
  | case2 x a y b h => rw [compareStrings, if_neg h]
  | case3 x a => rw [compareStrings, h0]
  | case4 y b => rw [compareStrings, h0]
  | case5 => rw [compareStrings, sub_self]

/-- The signed comparison is the unsigned one unless the octets are in different halves. -/
lemma sign_tstrcmp_iff (a b : List UInt8) :
    (tstrcmp true a b).sign = (strcmp a b).sign ↔ SameHalf (firstDifference a b) := by
  unfold tstrcmp strcmp SameHalf
  rw [compareStrings_eq, compareStrings_eq]
  generalize firstDifference a b = d
  obtain ⟨x, y⟩ := d
  have hx := x.toNat_lt
  have hy := y.toNat_lt
  dsimp only
  unfold charValue
  by_cases hxh : 128 ≤ x.toNat
  · by_cases hyh : 128 ≤ y.toNat
    · have hsame : (x.toNat : ℤ) - 256 - (y.toNat - 256) = x.toNat - y.toNat := by omega
      simp [hxh, hyh, hsame, not_lt.mpr hxh, not_lt.mpr hyh]
    · have hneg : ((x.toNat : ℤ) - 256 - y.toNat).sign = -1 := Int.sign_eq_neg_one_of_neg (by omega)
      have hpos : ((x.toNat : ℤ) - y.toNat).sign = 1 := Int.sign_eq_one_of_pos (by omega)
      simp [hxh, hyh, hneg, hpos, not_lt.mpr hxh, not_le.mp hyh]
  · by_cases hyh : 128 ≤ y.toNat
    · have hpos : ((x.toNat : ℤ) - (y.toNat - 256)).sign = 1 := Int.sign_eq_one_of_pos (by omega)
      have hneg : ((x.toNat : ℤ) - y.toNat).sign = -1 := Int.sign_eq_neg_one_of_neg (by omega)
      simp [hxh, hyh, hneg, hpos, not_le.mp hxh, not_lt.mpr hyh]
    · simp [hxh, hyh, not_le.mp hxh, not_le.mp hyh]

/-! ### Looking for children -/

section Lookup

variable {isSigned : Bool} {cs : List PoaTree}

/-- All ways to look for a child find the one of that name, if there is one. -/
structure ChildrenFound (isSigned : Bool) (cs : List PoaTree) : Prop where
  named : ∀ name c, findChildNamed cs name = some c ↔ c ∈ cs ∧ c.poa.name = name
  part : ∀ t : PoaTree, t.children = cs → ∀ (name : CString) c,
    t.findChild isSigned name.octets = some c ↔ c ∈ cs ∧ c.poa.name = name
  agree : ∀ t : PoaTree, t.children = cs → ∀ name : CString,
    t.findChild isSigned name.octets = findChildNamed cs name
  /-- `getAdapter` goes on with the child, unless it is dying. -/
  adapter : ∀ activate (t : PoaTree), t.children = cs → ∀ (name : CString) e k,
    (∀ x ∈ name.octets, endsName x = false) → endsName e = true →
    (∀ c ∈ cs, c.poa.name = name → c.dying = false →
      walk isSigned activate t (poaNameSep :: (name.octets ++ e :: k)) =
        walk isSigned activate c (e :: k)) ∧
    ((∀ c ∈ cs, c.poa.name = name → c.dying = true) → t.adapterActivator = false →
      walk isSigned activate t (poaNameSep :: (name.octets ++ e :: k)) = .ok none)

/-- The children that a search for a name looks at. -/
def lookedAt (cs : List PoaTree) (name : CString) : List PoaTree :=
  probes (fun b => strcmp name.octets b.poa.name.octets) cs cs.length 0 cs.length

/-- Where `char` is signed, no child is compared with one whose name differs from its own first in an
octet of the other half. -/
def Comparable (isSigned : Bool) (cs : List PoaTree) : Prop :=
  isSigned = true → ∀ c ∈ cs, ∀ b ∈ lookedAt cs c.poa.name,
    SameHalf (firstDifference c.poa.name.octets b.poa.name.octets)

lemma findChildNamed_iff (h : SortedChildren cs) (name : CString) (c : PoaTree) :
    findChildNamed cs name = some c ↔ c ∈ cs ∧ c.poa.name = name := by
  constructor
  · intro hc
    obtain ⟨h0, i, -, -, hi⟩ := of_search hc
    exact ⟨List.mem_of_getElem? hi, (strcmp_eq_zero.mp h0).symm⟩
  · rintro ⟨hc, rfl⟩
    obtain ⟨k, hk⟩ := targetAt_of_pairwise h.sorted hc
    have hlen := (List.getElem?_eq_some_iff.mp hk.get).1
    exact search_eq_some hk (Nat.sub_le _ _) le_rfl (Nat.zero_le k) hlen

/-- The signed search finds each child if it agrees on what it looks at. -/
lemma findChild_iff (h : SortedChildren cs) {t : PoaTree} (ht : t.children = cs) {c : PoaTree}
    (hc : c ∈ cs) : t.findChild isSigned c.poa.name.octets = some c ↔
      (isSigned = true → ∀ b ∈ lookedAt cs c.poa.name,
        SameHalf (firstDifference c.poa.name.octets b.poa.name.octets)) := by
  obtain ⟨k, hk⟩ := targetAt_of_pairwise h.sorted hc
  have hsearch := search_eq_some_iff hk (c := fun b => tstrcmp isSigned c.poa.name.octets
    b.poa.name.octets) fun b hb => strcmp_eq_zero.mpr ((tstrcmp_eq_zero isSigned).mp hb)
  rw [findChild, ht, hsearch]
  cases isSigned with
  | false => exact iff_of_true (fun _ _ => rfl) fun h => by cases h
  | true =>
    rw [forall_prop_of_true rfl]
    exact forall₂_congr fun b _ => sign_tstrcmp_iff _ _

lemma part_iff (h : SortedChildren cs) (hcomp : Comparable isSigned cs) {t : PoaTree}
    (ht : t.children = cs) (name : CString) (c : PoaTree) :
    t.findChild isSigned name.octets = some c ↔ c ∈ cs ∧ c.poa.name = name := by
  constructor
  · intro hc
    obtain ⟨hmem, hname⟩ := of_findChild name.noNul hc
    rw [ht] at hmem
    exact ⟨hmem, CString.ext hname⟩
  · rintro ⟨hc, rfl⟩
    exact (findChild_iff h ht hc).mpr fun hsigned => hcomp hsigned c hc

/-- The turn of the loop of `getAdapter` at a name. -/
lemma walk_child {activate : Poa → List UInt8 → Except PoaExn (Option PoaTree)} (t : PoaTree)
    {name : CString} {e : UInt8} (k : List UInt8) (hname : ∀ x ∈ name.octets, endsName x = false)
    (he : endsName e = true) :
    (∀ c, t.findChild isSigned name.octets = some c → c.dying = false →
      walk isSigned activate t (poaNameSep :: (name.octets ++ e :: k)) =
        walk isSigned activate c (e :: k)) ∧
    ((∀ c, t.findChild isSigned name.octets = some c → c.dying = true) →
      t.adapterActivator = false →
      walk isSigned activate t (poaNameSep :: (name.octets ++ e :: k)) = .ok none) := by
  obtain ⟨htake, hdrop⟩ := takeWhile_name hname ⟨e, k, rfl, he⟩
  rw [walk, if_pos rfl]
  dsimp only
  rw [htake, hdrop, if_neg (List.cons_ne_nil e k)]
  constructor
  · intro c hc hdying
    rw [hc, Option.filter_some_pos (by rw [hdying]; rfl)]
  · intro hdying hactivator
    have hnone : (t.findChild isSigned name.octets).filter (fun c => !c.dying) = none := by
      rcases hc : t.findChild isSigned name.octets with - | c
      · rfl
      · exact Option.filter_some_neg (by rw [hdying c hc]; rfl)
    rw [hnone, hactivator]
    rfl

lemma found_of_comparable (h : SortedChildren cs) (hcomp : Comparable isSigned cs) :
    ChildrenFound isSigned cs where
  named := findChildNamed_iff h
  part t ht := part_iff h hcomp ht
  agree t ht name := by
    ext c
    rw [part_iff h hcomp ht, findChildNamed_iff h]
  adapter activate t ht name e k hname he := by
    obtain ⟨h1, h2⟩ := @walk_child isSigned activate t name e k hname he
    refine ⟨fun c hc hcn => h1 c ((part_iff h hcomp ht name c).mpr ⟨hc, hcn⟩), fun hdying => h2 ?_⟩
    intro c hc
    obtain ⟨hmem, hcn⟩ := (part_iff h hcomp ht name c).mp hc
    exact hdying c hmem hcn

lemma children_found_iff (h : SortedChildren cs) :
    ChildrenFound isSigned cs ↔ Comparable isSigned cs := by
  constructor
  · intro hfound hsigned c hc
    have hpart := (hfound.part (.node c.poa false false cs) rfl c.poa.name c).mpr ⟨hc, rfl⟩
    exact (findChild_iff h rfl hc).mp hpart hsigned
  · exact found_of_comparable h

end Lookup

/-- After any run the children are sorted, all different and those that were inserted and not lost,
and all ways to look for one agree if and only if no search compares names across the halves. -/
theorem children_exact_iff {isSigned : Bool} {cs : List PoaTree} (h : ChildrenReached cs) :
    (SortedChildren cs ∧ (∀ op : ChildOp, op.Allowed cs → ∃ cs', op.exec cs = some cs' ∧
      ∀ c, c ∈ cs' ↔ op.Keeps cs c) ∧ ChildrenFound isSigned cs) ↔ Comparable isSigned cs := by
  have hsorted := h.sortedChildren
  have hnext : ∀ op : ChildOp, op.Allowed cs → ∃ cs', op.exec cs = some cs' ∧
      ∀ c, c ∈ cs' ↔ op.Keeps cs c := by
    intro op hop
    obtain ⟨cs', hcs, -, hmem⟩ := hsorted.step hop
    exact ⟨cs', hcs, hmem⟩
  rw [and_iff_right hsorted, and_iff_right hnext]
  exact children_found_iff hsorted

/-- A POA with a name of one octet. -/
def childNamed (x : UInt8) (h : x ≠ 0) : PoaTree :=
  .node ⟨⟨[x], by simpa using h.symm⟩, [], [], ⟨true, false⟩, none⟩ false false []

/-- The children `a` and `b`. -/
theorem children_exact_letters :
    let cs := [childNamed 0x61 (by decide), childNamed 0x62 (by decide)]
    (SortedChildren cs ∧ (∀ op : ChildOp, op.Allowed cs → ∃ cs', op.exec cs = some cs' ∧
      ∀ c, c ∈ cs' ↔ op.Keeps cs c) ∧ ChildrenFound true cs) ↔ Comparable true cs := by
  have hfirst : (ChildOp.insert (childNamed 0x62 (by decide))).Allowed [] :=
    ⟨by decide, fun _ hc => absurd hc List.not_mem_nil⟩
  have hsecond : (ChildOp.insert (childNamed 0x61 (by decide))).Allowed
      [childNamed 0x62 (by decide)] := by
    refine ⟨by decide, fun c hc => ?_⟩
    rw [List.mem_singleton.mp hc]
    decide
  exact children_exact_iff (.step (.step .start hfirst rfl) hsecond rfl)

/-- Next to a child of a name with a high octet the child `a` is found by name, and not by a part of
a key. -/
theorem child_lost :
    let a := childNamed 0x61 (by decide)
    let cs := [a, childNamed 0x80 (by decide)]
    ChildrenReached cs ∧ findChildNamed cs a.poa.name = some a ∧
      (PoaTree.node a.poa false false cs).findChild true [0x61] = none := by
  have hfirst : (ChildOp.insert (childNamed 0x80 (by decide))).Allowed [] :=
    ⟨by decide, fun _ hc => absurd hc List.not_mem_nil⟩
  have hsecond : (ChildOp.insert (childNamed 0x61 (by decide))).Allowed
      [childNamed 0x80 (by decide)] := by
    refine ⟨by decide, fun c hc => ?_⟩
    rw [List.mem_singleton.mp hc]
    decide
  exact ⟨.step (.step .start hfirst rfl) hsecond rfl, rfl, rfl⟩

end OmniORB
