import OmniORB.Poa.Keys

/-!
# Trees of POAs

The trees that the constructor of `omniOrbPOA` and `insert_child` build, and the names and key
prefixes in them.
-/

namespace OmniORB

open Library

/-! ### Comparing names -/

lemma charValue_injective (isSigned : Bool) {x y : UInt8}
    (h : charValue isSigned x = charValue isSigned y) : x = y := by
  have hx := x.toNat_lt
  have hy := y.toNat_lt
  unfold charValue at h
  apply UInt8.toNat_inj.mp
  split_ifs at h <;> omega

lemma charValue_ne_zero (isSigned : Bool) {x : UInt8} (h : x ≠ 0) : charValue isSigned x ≠ 0 := by
  have hx := x.toNat_lt
  have h0 : x.toNat ≠ 0 := fun h0 => h (UInt8.toNat_inj.mp h0)
  unfold charValue
  split_ifs <;> omega

/-- Only a string is equal to itself. -/
lemma compareStrings_eq_zero (isSigned : Bool) {a b : List UInt8} (ha : 0 ∉ a) (hb : 0 ∉ b) :
    compareStrings (charValue isSigned) a b = 0 ↔ a = b := by
  induction a generalizing b with
  | nil =>
    cases b with
    | nil => simp [compareStrings]
    | cons y b =>
      have := charValue_ne_zero isSigned (Ne.symm (List.ne_of_not_mem_cons hb))
      simpa [compareStrings] using this
  | cons x a ih =>
    cases b with
    | nil =>
      have := charValue_ne_zero isSigned (Ne.symm (List.ne_of_not_mem_cons ha))
      simpa [compareStrings] using this
    | cons y b =>
      rw [compareStrings]
      split_ifs with hxy
      · rw [ih (List.not_mem_of_not_mem_cons ha) (List.not_mem_of_not_mem_cons hb)]
        simp [hxy]
      · refine iff_of_false (fun h => hxy (charValue_injective isSigned (by omega))) ?_
        simp [hxy]

lemma compareStrings_neg (value : UInt8 → ℤ) (a b : List UInt8) :
    compareStrings value b a = -compareStrings value a b := by
  fun_induction compareStrings value a b with
  | case1 x a b ih => rw [compareStrings, if_pos rfl, ih]
  | case2 x a y b h => rw [compareStrings, if_neg (Ne.symm h), neg_sub]
  | case3 x a => simp [compareStrings]
  | case4 y b => simp [compareStrings]
  | case5 => rfl

/-- The unsigned comparison is the lexicographic order. -/
lemma strcmp_neg_iff {a b : List UInt8} (ha : 0 ∉ a) (hb : 0 ∉ b) :
    strcmp a b < 0 ↔ a.map UInt8.toNat < b.map UInt8.toNat := by
  unfold strcmp
  induction a generalizing b with
  | nil =>
    cases b with
    | nil => simp [compareStrings]
    | cons y b =>
      have hy : y.toNat ≠ 0 :=
        fun h0 => List.ne_of_not_mem_cons hb (UInt8.toNat_inj.mp h0.symm)
      simp [compareStrings, charValue]
      omega
  | cons x a ih =>
    cases b with
    | nil => simp [compareStrings, charValue]
    | cons y b =>
      have hab := ih (List.not_mem_of_not_mem_cons ha) (List.not_mem_of_not_mem_cons hb)
      rw [compareStrings, List.map_cons, List.map_cons, List.cons_lt_cons_iff]
      split_ifs with hxy
      · rw [hab]
        simp [hxy]
      · have hne : x.toNat ≠ y.toNat := fun h => hxy (UInt8.toNat_inj.mp h)
        simp [charValue, hne]

lemma strcmp_trans {a b c : CString} (hab : strcmp a.octets b.octets < 0)
    (hbc : strcmp b.octets c.octets < 0) : strcmp a.octets c.octets < 0 := by
  rw [strcmp_neg_iff a.noNul b.noNul] at hab
  rw [strcmp_neg_iff b.noNul c.noNul] at hbc
  rw [strcmp_neg_iff a.noNul c.noNul]
  exact hab.trans hbc

lemma strcmp_pos_iff (a b : List UInt8) : 0 < strcmp a b ↔ strcmp b a < 0 := by
  unfold strcmp
  rw [compareStrings_neg _ b a]
  omega

lemma strcmp_eq_zero {a b : CString} : strcmp a.octets b.octets = 0 ↔ a = b := by
  unfold strcmp
  rw [compareStrings_eq_zero false a.noNul b.noNul]
  exact ⟨CString.ext, fun h => h ▸ rfl⟩

/-! ### Trees -/

/-- The name `RootPOA` -/
def rootPoaName : CString := ⟨[0x52, 0x6f, 0x6f, 0x74, 0x50, 0x4f, 0x41], by decide⟩

/-- The name `omniINSPOA` -/
def insPoaName : CString :=
  ⟨[0x6f, 0x6d, 0x6e, 0x69, 0x49, 0x4e, 0x53, 0x50, 0x4f, 0x41], by decide⟩

/-- The POA is made by the constructor, under the other. -/
inductive Made (uniqueIds : Bool) (parent : Poa) : Poa → Prop where
  | poa (name policies uid) (h : adapterNameIsValid name = true) :
      Made uniqueIds parent (omniOrbPOA uniqueIds name policies uid (.poa parent))
  | ins (uid) (h : parent.fullname = []) :
      Made uniqueIds parent (omniOrbPOA uniqueIds insPoaName ⟨false, true⟩ uid (.ins parent))

/-- The POAs under a POA are made by the constructor, and inserted into `pd_children`. -/
inductive Built (uniqueIds : Bool) : PoaTree → Prop where
  | new (p) : Built uniqueIds (.node p false false [])
  | insert {p cs cs' child} (h : Built uniqueIds (.node p false false cs))
      (hchild : Built uniqueIds child) (hmade : Made uniqueIds p child.poa)
      (hcs : PoaTree.insertChild cs child = some cs') :
      Built uniqueIds (.node p false false cs')

/-- A tree under the root POA. -/
structure RootTree (uniqueIds : Bool) (t : PoaTree) : Prop where
  built : Built uniqueIds t
  root : ∃ name policies uid, policies.transient = true ∧
    t.poa = omniOrbPOA uniqueIds name policies uid .null

/-- One child comes before the other. -/
def Before (c d : PoaTree) : Prop := strcmp c.poa.name.octets d.poa.name.octets < 0

lemma Before.trans {b c d : PoaTree} (h1 : Before b c) (h2 : Before c d) : Before b d :=
  strcmp_trans h1 h2

lemma Before.irrefl (c : PoaTree) : ¬Before c c := by
  unfold Before
  rw [strcmp_eq_zero.mpr rfl]
  exact lt_irrefl 0

/-- Comparing a name with sorted children tells first that it comes after them, then that it comes
before them. -/
lemma ordered_of_pairwise {cs : List PoaTree} (h : cs.Pairwise Before) (name : CString) :
    Ordered (fun c => strcmp name.octets c.poa.name.octets) cs where
  neg := by
    intro i j x y hij hi hj hx
    obtain ⟨hi1, hi2⟩ := List.getElem?_eq_some_iff.mp hi
    obtain ⟨hj1, hj2⟩ := List.getElem?_eq_some_iff.mp hj
    have hxy : Before x y := by
      rw [← hi2, ← hj2]
      exact List.pairwise_iff_getElem.mp h i j hi1 hj1 hij
    exact strcmp_trans hx hxy
  pos := by
    intro i j x y hij hi hj hy
    obtain ⟨hi1, hi2⟩ := List.getElem?_eq_some_iff.mp hi
    obtain ⟨hj1, hj2⟩ := List.getElem?_eq_some_iff.mp hj
    have hxy : Before x y := by
      rw [← hi2, ← hj2]
      exact List.pairwise_iff_getElem.mp h i j hi1 hj1 hij
    rw [strcmp_pos_iff] at hy ⊢
    exact strcmp_trans hxy hy

/-- A new child goes where the children stay sorted. -/
lemma insertChild_sorted {cs cs' : List PoaTree} {child : PoaTree} (h : cs.Pairwise Before)
    (hcs : PoaTree.insertChild cs child = some cs') :
    cs'.Pairwise Before ∧ ∀ c, c ∈ cs' ↔ c = child ∨ c ∈ cs := by
  obtain ⟨k, hk, rfl⟩ := Option.map_eq_some_iff.mp hcs
  obtain ⟨hlen, hbefore, hafter⟩ := insertionPoint_spec (ordered_of_pairwise h child.poa.name)
    le_rfl (Nat.zero_le _) (by omega) (fun i y hi hy => by
      have := (List.getElem?_eq_some_iff.mp hy).1
      omega) hk
  have htake : ∀ c ∈ cs.take k, Before c child := by
    intro c hc
    obtain ⟨i, hi, rfl⟩ := List.mem_take_iff_getElem.mp hc
    exact (strcmp_pos_iff _ _).mp (hbefore i _ (by omega) (List.getElem?_eq_getElem (by omega)))
  have hdrop : ∀ c ∈ cs.drop k, Before child c := by
    intro c hc
    obtain ⟨i, hi, rfl⟩ := List.mem_drop_iff_getElem.mp hc
    exact hafter (k + i) _ (Nat.le_add_right k i) (List.getElem?_eq_getElem (by omega))
  rw [← List.take_append_drop k cs] at h
  obtain ⟨h1, h2, h3⟩ := List.pairwise_append.mp h
  constructor
  · refine List.pairwise_append.mpr ⟨h1, List.pairwise_cons.mpr ⟨hdrop, h2⟩, ?_⟩
    intro c hc d hd
    rcases List.mem_cons.mp hd with rfl | hd
    · exact htake c hc
    · exact h3 c hc d hd
  · intro c
    conv_rhs => rw [← List.take_append_drop k cs]
    simp only [List.mem_append, List.mem_cons]
    tauto

/-- What is known of a POA with its children. -/
structure BuiltNode (uniqueIds : Bool) (t : PoaTree) : Prop where
  dying : t.dying = false
  adapterActivator : t.adapterActivator = false
  sorted : t.children.Pairwise Before
  made : ∀ c ∈ t.children, Made uniqueIds t.poa c.poa ∧ Built uniqueIds c

lemma Built.node {uniqueIds : Bool} {t : PoaTree} (h : Built uniqueIds t) :
    BuiltNode uniqueIds t := by
  generalize hu : uniqueIds = u at h ⊢
  induction h with
  | new p => exact ⟨rfl, rfl, List.Pairwise.nil, fun c hc => absurd hc List.not_mem_nil⟩
  | insert h hchild hmade hcs ih _ =>
    obtain ⟨hsorted, hmem⟩ := insertChild_sorted ih.sorted hcs
    refine ⟨rfl, rfl, hsorted, fun c hc => ?_⟩
    rcases (hmem c).mp hc with rfl | hc
    · exact ⟨hmade, hchild⟩
    · exact ih.made c hc

/-! ### Paths -/

/-- The POA at the end of a path of names. -/
inductive Member : PoaTree → List (List UInt8) → PoaTree → Prop where
  | here (t) : Member t [] t
  | child {t c d path} (hc : c ∈ t.children) (h : Member c path d) :
      Member t (c.poa.name.octets :: path) d

/-- The names of a path as they stand in a key. -/
def pathOctets (path : List (List UInt8)) : List UInt8 := path.flatMap (poaNameSep :: ·)

@[simp] lemma pathOctets_nil : pathOctets [] = [] := rfl

@[simp] lemma pathOctets_cons (n : List UInt8) (path : List (List UInt8)) :
    pathOctets (n :: path) = poaNameSep :: n ++ pathOctets path := rfl

/-- No octet of a name ends it. -/
def CleanPath (path : List (List UInt8)) : Prop := ∀ n ∈ path, ∀ c ∈ n, endsName c = false

@[simp] lemma cleanPath_nil : CleanPath [] := by simp [CleanPath]

@[simp] lemma cleanPath_cons {n : List UInt8} {path : List (List UInt8)} :
    CleanPath (n :: path) ↔ (∀ c ∈ n, endsName c = false) ∧ CleanPath path := by
  simp [CleanPath]

/-- What follows the names in a key: a suffix, or the NUL. -/
def EndsPath (rest : List UInt8) : Prop :=
  rest.head? = some 0 ∨ rest.head? = some transientSuffixSep

/-- A name is followed by what ends it. -/
lemma endsName_head (path : List (List UInt8)) {rest : List UInt8} (h : EndsPath rest) :
    ∃ c r, pathOctets path ++ rest = c :: r ∧ endsName c = true := by
  cases path with
  | nil =>
    rcases h with h | h
    all_goals
      obtain ⟨r, rfl⟩ := List.head?_eq_some_iff.mp h
      exact ⟨_, r, rfl, by decide⟩
  | cons n path => exact ⟨poaNameSep, _, rfl, by decide⟩

lemma takeWhile_name {n k : List UInt8} (hn : ∀ c ∈ n, endsName c = false)
    (hk : ∃ c r, k = c :: r ∧ endsName c = true) :
    (n ++ k).takeWhile (fun c => !endsName c) = n ∧
      (n ++ k).dropWhile (fun c => !endsName c) = k := by
  obtain ⟨c, r, rfl, hc⟩ := hk
  have hn : ∀ c ∈ n, (!endsName c) = true := fun c hc => by rw [hn c hc]; rfl
  rw [List.takeWhile_append_of_pos hn, List.dropWhile_append_of_pos hn]
  simp [hc]

/-- The names in a key can be told. -/
lemma pathOctets_append_inj {p q : List (List UInt8)} {r s : List UInt8} (hp : CleanPath p)
    (hq : CleanPath q) (hr : EndsPath r) (hs : EndsPath s)
    (h : pathOctets p ++ r = pathOctets q ++ s) : p = q ∧ r = s := by
  have hsep : ∀ {k}, EndsPath k → k.head? ≠ some poaNameSep := by
    rintro k (hk | hk) h0 <;> rw [hk] at h0 <;> exact absurd h0 (by decide)
  induction p generalizing q with
  | nil =>
    cases q with
    | nil => exact ⟨rfl, h⟩
    | cons n q =>
      refine absurd ?_ (hsep hr)
      rw [pathOctets_nil, List.nil_append] at h
      rw [h]
      rfl
  | cons m p ih =>
    cases q with
    | nil =>
      refine absurd ?_ (hsep hs)
      rw [pathOctets_nil, List.nil_append] at h
      rw [← h]
      rfl
    | cons n q =>
      obtain ⟨hm, hp⟩ := cleanPath_cons.mp hp
      obtain ⟨hn, hq⟩ := cleanPath_cons.mp hq
      simp only [pathOctets_cons, List.cons_append, List.append_assoc, List.cons.injEq,
        true_and] at h
      have h1 := takeWhile_name hm (endsName_head p hr)
      have h2 := takeWhile_name hn (endsName_head q hs)
      rw [h] at h1
      obtain ⟨hpq, hrs⟩ := ih hp hq (h1.2.symm.trans h2.2)
      exact ⟨by rw [hpq, ← h1.1, h2.1], hrs⟩

lemma insPoaName_clean : ∀ x ∈ insPoaName.octets, endsName x = false := by
  have h : insPoaName.octets.all (fun x => !endsName x) = true := by decide
  intro x hx
  simpa using List.all_eq_true.mp h x hx

/-- The name of a POA is clean. -/
lemma Made.clean {uniqueIds : Bool} {p c : Poa} (h : Made uniqueIds p c) :
    ∀ x ∈ c.name.octets, endsName x = false := by
  intro x hx
  have h0 : x ≠ 0 := fun h0 => c.name.noNul (h0 ▸ hx)
  cases h with
  | poa name policies uid hvalid =>
    have := List.all_eq_true.mp hvalid x hx
    simpa [endsName, h0] using this
  | ins uid hp => exact insPoaName_clean x hx

lemma Made.fullname {uniqueIds : Bool} {p c : Poa} (h : Made uniqueIds p c) :
    c.fullname = p.fullname ++ poaNameSep :: c.name.octets := by
  cases h <;> rfl

/-- The key prefix of a POA: none for the INS POA. -/
inductive Prefixed (p : Poa) : Prop where
  | ins (h : p.policy.transient = false) (hid : p.poaId = []) (hname : p.fullname = pathOctets [insPoaName.octets])
  | transient (uid : UniqueId) (h : p.policy.transient = true)
      (hid : p.poaId = p.fullname ++ transientSuffixSep :: uid.octets ++ [0])
  | persistent (h : p.policy.transient = false) (hid : p.poaId = p.fullname ++ [0])

lemma Made.prefixed {uniqueIds : Bool} {p c : Poa} (h : Made uniqueIds p c) : Prefixed c := by
  cases h with
  | poa name policies uid hvalid =>
    cases ht : policies.transient with
    | true => exact .transient uid ht (by simp [omniOrbPOA, ht])
    | false => exact .persistent ht (by simp [omniOrbPOA, ht])
  | ins uid hp => exact .ins rfl rfl (by simp [omniOrbPOA, hp])

lemma RootTree.prefixed {uniqueIds : Bool} {t : PoaTree} (h : RootTree uniqueIds t) :
    t.poa.fullname = [] ∧ Prefixed t.poa := by
  obtain ⟨name, policies, uid, ht, heq⟩ := h.root
  rw [heq]
  exact ⟨rfl, .transient uid ht rfl⟩

namespace Member

variable {uniqueIds : Bool} {t d e : PoaTree} {path : List (List UInt8)}

lemma built (h : Member t path d) (ht : Built uniqueIds t) : Built uniqueIds d := by
  induction h with
  | here t => exact ht
  | child hc _ ih => exact ih (ht.node.made _ hc).2

lemma clean (h : Member t path d) (ht : Built uniqueIds t) : CleanPath path := by
  induction h with
  | here t => exact cleanPath_nil
  | child hc _ ih =>
    obtain ⟨hmade, hbuilt⟩ := ht.node.made _ hc
    exact cleanPath_cons.mpr ⟨hmade.clean, ih hbuilt⟩

lemma fullname_append (h : Member t path d) (ht : Built uniqueIds t) :
    d.poa.fullname = t.poa.fullname ++ pathOctets path := by
  induction h with
  | here t => simp
  | child hc _ ih =>
    obtain ⟨hmade, hbuilt⟩ := ht.node.made _ hc
    rw [ih hbuilt, hmade.fullname, pathOctets_cons, List.append_assoc, List.cons_append]

lemma prefixed (h : Member t path d) (ht : Built uniqueIds t) (hroot : Prefixed t.poa) :
    Prefixed d.poa := by
  induction h with
  | here t => exact hroot
  | child hc _ ih =>
    obtain ⟨hmade, hbuilt⟩ := ht.node.made _ hc
    exact ih hbuilt hmade.prefixed

end Member

/-! ### Looking for a child -/

/-- A child in the place where the comparison with its name says that it is. -/
lemma targetAt_of_pairwise {cs : List PoaTree} {c : PoaTree} (h : cs.Pairwise Before)
    (hc : c ∈ cs) :
    ∃ k, TargetAt (fun b => strcmp c.poa.name.octets b.poa.name.octets) cs k c := by
  obtain ⟨k, hk, hkc⟩ := List.getElem_of_mem hc
  have hsorted := List.pairwise_iff_getElem.mp h
  refine ⟨k, ⟨?_, strcmp_eq_zero.mpr rfl, ?_, ?_⟩⟩
  · rw [List.getElem?_eq_getElem hk, hkc]
  · intro i b hik hib
    obtain ⟨hi, rfl⟩ := List.getElem?_eq_some_iff.mp hib
    rw [strcmp_pos_iff, ← hkc]
    exact hsorted i k hi hk hik
  · intro i b hki hib
    obtain ⟨hi, rfl⟩ := List.getElem?_eq_some_iff.mp hib
    rw [← hkc]
    exact hsorted k i hk hi hki

lemma Built.targetAt {uniqueIds : Bool} {t c : PoaTree} (ht : Built uniqueIds t)
    (hc : c ∈ t.children) :
    ∃ k, TargetAt (fun b => strcmp c.poa.name.octets b.poa.name.octets) t.children k c :=
  targetAt_of_pairwise ht.node.sorted hc

/-- No two children have the same name. -/
lemma Built.eq_of_name_eq {uniqueIds : Bool} {t b c : PoaTree} (ht : Built uniqueIds t)
    (hb : b ∈ t.children) (hc : c ∈ t.children) (h : b.poa.name = c.poa.name) : b = c := by
  obtain ⟨k, hk⟩ := ht.targetAt hc
  obtain ⟨i, hi, hib⟩ := List.getElem_of_mem hb
  have hget : t.children[i]? = some b := by rw [List.getElem?_eq_getElem hi, hib]
  have hik := hk.eq_of_eq_zero hget (strcmp_eq_zero.mpr h.symm)
  rw [hik, hk.get, Option.some.injEq] at hget
  exact hget.symm

lemma Member.unique {uniqueIds : Bool} {t d e : PoaTree} {path : List (List UInt8)}
    (ht : Built uniqueIds t) (hd : Member t path d) (he : Member t path e) : d = e := by
  induction hd with
  | here t =>
    cases he
    rfl
  | @child t c d path hc _ ih =>
    generalize hname : c.poa.name.octets = name at he
    cases he with
    | @child _ b _ _ hb hbe =>
      obtain rfl := ht.eq_of_name_eq hc hb (CString.ext hname)
      exact ih (ht.node.made c hc).2 hbe

/-- The signed comparison of names finds the child: it agrees with the unsigned one on all the
children that the binary search looks at. -/
def Seen (isSigned : Bool) (t c : PoaTree) : Prop :=
  ∀ b ∈ probes (fun b => strcmp c.poa.name.octets b.poa.name.octets) t.children t.children.length 0
      t.children.length,
    (tstrcmp isSigned c.poa.name.octets b.poa.name.octets).sign =
      (strcmp c.poa.name.octets b.poa.name.octets).sign

lemma tstrcmp_eq_zero (isSigned : Bool) {a b : CString} :
    tstrcmp isSigned a.octets b.octets = 0 ↔ a = b := by
  unfold tstrcmp
  rw [compareStrings_eq_zero isSigned a.noNul b.noNul]
  exact ⟨CString.ext, fun h => h ▸ rfl⟩

/-- Where `char` is unsigned every child is found. -/
lemma seen_unsigned (t c : PoaTree) : Seen false t c := fun _ _ => rfl

lemma findChild_eq_some_iff {uniqueIds isSigned : Bool} {t c : PoaTree} (ht : Built uniqueIds t)
    (hc : c ∈ t.children) :
    t.findChild isSigned c.poa.name.octets = some c ↔ Seen isSigned t c := by
  obtain ⟨k, hk⟩ := ht.targetAt hc
  exact search_eq_some_iff hk fun b hb =>
    strcmp_eq_zero.mpr ((tstrcmp_eq_zero isSigned).mp hb)

lemma of_findChild {isSigned : Bool} {t c : PoaTree} {name : List UInt8} (h0 : 0 ∉ name)
    (h : t.findChild isSigned name = some c) : c ∈ t.children ∧ c.poa.name.octets = name := by
  obtain ⟨heq, i, -, -, hi⟩ := of_search h
  refine ⟨List.mem_of_getElem? hi, ?_⟩
  have := (tstrcmp_eq_zero isSigned (a := ⟨name, h0⟩) (b := c.poa.name)).mp heq
  rw [← this]

end OmniORB
