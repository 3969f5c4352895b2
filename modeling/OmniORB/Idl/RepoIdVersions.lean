import OmniORB.Idl.RepoIds

/-!
# Versions in repository ids

An id in the OMG IDL format ends in a version. Which version `DeclRepoId::setRepoId` reads from an
id, and which one is in the ids that `DeclRepoId::genRepoId` writes.
-/

namespace OmniORB.Idl

/-! ### Texts with separators -/

lemma dropWhile_append_sep {a b : List UInt8} {c : UInt8} (h : c ∉ a) :
    (a ++ c :: b).dropWhile (· ≠ c) = c :: b := by
  have hall : ∀ x ∈ a, decide (x ≠ c) = true := by
    intro x hx
    rw [decide_eq_true_eq]
    rintro rfl
    exact h hx
  rw [List.dropWhile_append_of_pos hall]
  simp

lemma takeWhile_append_sep {a b : List UInt8} {c : UInt8} (h : c ∉ a) :
    (a ++ c :: b).takeWhile (· ≠ c) = a := by
  have hall : ∀ x ∈ a, decide (x ≠ c) = true := by
    intro x hx
    rw [decide_eq_true_eq]
    rintro rfl
    exact h hx
  rw [List.takeWhile_append_of_pos hall]
  simp

/-- Texts are cut in one way at the first separator. -/
lemma append_sep_inj {a a' b b' : List UInt8} {c : UInt8} (h : a ++ c :: b = a' ++ c :: b')
    (ha : c ∉ a) (ha' : c ∉ a') : a = a' ∧ b = b' := by
  have htake := congrArg (List.takeWhile (· ≠ c)) h
  rw [takeWhile_append_sep ha, takeWhile_append_sep ha'] at htake
  rw [htake] at h
  exact ⟨htake, (List.cons.inj (List.append_cancel_left h)).2⟩

/-- And in one way at the last. -/
lemma append_sep_inj_last {a a' b b' : List UInt8} {c : UInt8} (h : a ++ c :: b = a' ++ c :: b')
    (hb : c ∉ b) (hb' : c ∉ b') : a = a' ∧ b = b' := by
  have hrev := congrArg List.reverse h
  rw [List.reverse_append, List.reverse_append, List.reverse_cons, List.reverse_cons,
    List.append_assoc, List.append_assoc] at hrev
  obtain ⟨h1, h2⟩ := append_sep_inj hrev (by simpa using hb) (by simpa using hb')
  exact ⟨List.reverse_inj.mp h2, List.reverse_inj.mp h1⟩

/-! ### Versions -/

/-- The id is one in the OMG IDL format with this version. -/
def HasVersion (s : List UInt8) (maj min : ℕ) : Prop :=
  ∃ body majText minText, s = ascii "IDL:" ++ (body ++ 0x3a :: (majText ++ 0x2e :: minText)) ∧
    0x3a ∉ body ∧ Numeral majText maj ∧ Numeral minText min

/-- A number that an `IDL_Short` holds. -/
abbrev Small (n : ℕ) : Prop := n ≤ 0x7fff

/-- The numbers of the version that the id has are small. -/
def SmallVersion (s : List UInt8) : Prop :=
  ∀ maj min, HasVersion s maj min → Small maj ∧ Small min

lemma toShort_of_small {n : ℕ} (h : Small n) : toShort n = n := by
  apply Int.bmod_eq_of_le
  · omega
  · norm_num
    omega

/-- `sscanf` reads digits up to something else. -/
lemma scanShort_digits {m rest : List UInt8} (hne : m ≠ []) (hm : ∀ c ∈ m, isDigit c = true)
    (hrest : isDigit (peek rest) = false) :
    scanShort (m ++ rest)
      = some (toShort (max (-2 ^ 63) (min (numeralValue m : ℤ) (2 ^ 63 - 1))), rest) := by
  obtain ⟨c, t, rfl, hc, hspace, hsign⟩ :=
    (⟨hne, hm, rfl⟩ : Numeral m (numeralValue m)).exists_cons
  have hstart : ((c :: t) ++ rest).dropWhile isSpace = (c :: t) ++ rest :=
    List.dropWhile_cons_of_neg (by rw [hspace]; simp)
  have hpeek : peek ((c :: t) ++ rest) = c := rfl
  have hstop : rest.takeWhile isDigit = [] ∧ rest.dropWhile isDigit = rest := by
    cases rest with
    | nil => exact ⟨rfl, rfl⟩
    | cons d rest =>
      have hd : isDigit d = false := hrest
      exact ⟨List.takeWhile_cons_of_neg (by simp [hd]), List.dropWhile_cons_of_neg (by simp [hd])⟩
  have htake : ((c :: t) ++ rest).takeWhile isDigit = c :: t := by
    rw [List.takeWhile_append_of_pos hm, hstop.1, List.append_nil]
  have hdrop : ((c :: t) ++ rest).dropWhile isDigit = rest := by
    rw [List.dropWhile_append_of_pos hm, hstop.2]
  have hminus : ¬c = 0x2d := fun h => hsign (.inl h)
  rw [scanShort]
  simp only [hstart, hpeek, if_neg hsign, hc, if_true, htake, hdrop, if_neg hminus]

lemma scanShort_numeral {m rest : List UInt8} {p : ℕ} (h : Numeral m p) (hp : Small p)
    (hrest : isDigit (peek rest) = false) : scanShort (m ++ rest) = some ((p : ℤ), rest) := by
  rw [scanShort_digits h.ne_nil h.digits hrest, h.value, min_eq_left (by omega),
    max_eq_right (by omega), toShort_of_small hp]

/-- Nothing is read from a text that begins with a dot, or is empty. -/
lemma scanShort_eq_none {c : List UInt8} (h : c = [] ∨ peek c = 0x2e) : scanShort c = none := by
  cases c with
  | nil => rfl
  | cons d t =>
    rcases h with h | h
    · cases h
    · have hd : d = 0x2e := h
      rw [hd]
      rfl

lemma scanVersion_eq {majText minText : List UInt8} {a b : ℤ}
    (ha : scanShort (majText ++ 0x2e :: minText) = some (a, 0x2e :: minText))
    (hb : scanShort minText = some (b, [])) :
    scanVersion (majText ++ 0x2e :: minText) = some (a, b) := by
  rw [scanVersion, ha, Option.bind_some]
  change Option.map (fun b => (a, b.1)) (scanShort minText) = some (a, b)
  rw [hb]
  rfl

lemma dropWhile_numeral {m : List UInt8} {p : ℕ} (h : Numeral m p) (rest : List UInt8) :
    (m ++ 0x2e :: rest).dropWhile isDigit = 0x2e :: rest := by
  rw [List.dropWhile_append_of_pos h.digits]
  rfl

/-- The version of an id is read. -/
theorem idVersion_of_hasVersion {s : List UInt8} {maj min : ℕ} (h : HasVersion s maj min)
    (hmaj : Small maj) (hmin : Small min) (minor : ℤ) :
    idVersion s minor = ((maj : ℤ), (min : ℤ)) := by
  obtain ⟨body, majText, minText, rfl, hbody, hmajText, hminText⟩ := h
  have hc : ((ascii "IDL:" ++ (body ++ 0x3a :: (majText ++ 0x2e :: minText))).drop 4).dropWhile
      (· ≠ 0x3a) = 0x3a :: (majText ++ 0x2e :: minText) := by
    have hdrop : (ascii "IDL:" ++ (body ++ 0x3a :: (majText ++ 0x2e :: minText))).drop 4
        = body ++ 0x3a :: (majText ++ 0x2e :: minText) := rfl
    rw [hdrop, dropWhile_append_sep hbody]
  have hscan : scanVersion (majText ++ 0x2e :: minText) = some ((maj : ℤ), (min : ℤ)) := by
    apply scanVersion_eq
    · exact scanShort_numeral hmajText hmaj rfl
    · have hread : scanShort (minText ++ []) = some ((min : ℤ), []) :=
        scanShort_numeral hminText hmin rfl
      rwa [List.append_nil] at hread
  have hend : minText.dropWhile isDigit = [] := List.dropWhile_eq_nil_iff.mpr hminText.digits
  have hmem : 0x3a ∈ ascii "IDL:" ++ (body ++ 0x3a :: (majText ++ 0x2e :: minText)) := by simp
  have hstarts : startsWith (ascii "IDL:")
      (ascii "IDL:" ++ (body ++ 0x3a :: (majText ++ 0x2e :: minText))) = true := by
    simp [startsWith]
  rw [idVersion]
  simp only [hc, List.drop_succ_cons, List.drop_zero, hscan, dropWhile_numeral hmajText, hend]
  rw [if_pos ⟨hmem, hstarts, by simp⟩, if_pos ⟨rfl, trivial⟩]

/-- What is read without a complaint is the version of the id. -/
theorem hasVersion_of_idVersion {s : List UInt8} {minor : ℤ} (h : 0 ≤ (idVersion s minor).1) :
    ∃ maj min, HasVersion s maj min := by
  rw [idVersion] at h
  by_cases hform : 0x3a ∈ s ∧ startsWith (ascii "IDL:") s ∧
      (s.drop 4).dropWhile (· ≠ 0x3a) ≠ []
  · rw [if_pos hform] at h
    obtain ⟨-, hstarts, hc⟩ := hform
    obtain ⟨x, v, hv⟩ := List.exists_cons_of_ne_nil hc
    have hx : x = 0x3a := by
      have hhead := List.head_dropWhile_not (p := (· ≠ 0x3a)) (l := s.drop 4) hc
      simp only [hv, List.head_cons] at hhead
      simpa using hhead
    rw [hv, List.drop_succ_cons, List.drop_zero] at h
    cases hscan : scanVersion v with
    | none =>
      rw [hscan] at h
      norm_num at h
    | some w =>
      rw [hscan] at h
      dsimp only at h
      split_ifs at h with hend
      · obtain ⟨hdot, hrest⟩ := hend
        -- the text of the version is digits, a dot and digits
        have hcut : v = v.takeWhile isDigit ++ v.dropWhile isDigit :=
          List.takeWhile_append_dropWhile.symm
        have hne : v.dropWhile isDigit ≠ [] := by
          intro hnil
          rw [hnil] at hdot
          cases hdot
        obtain ⟨y, t, hyt⟩ := List.exists_cons_of_ne_nil hne
        rw [hyt] at hdot hrest hcut
        have hy : y = 0x2e := hdot
        rw [hy] at hcut
        rw [List.drop_succ_cons, List.drop_zero] at hrest
        have hdigits : ∀ d ∈ v.takeWhile isDigit, isDigit d = true :=
          fun d hd => List.mem_takeWhile_imp hd
        have htdigits : ∀ d ∈ t, isDigit d = true := List.dropWhile_eq_nil_iff.mp hrest
        have hvne : v.takeWhile isDigit ≠ [] := by
          intro hnil
          rw [hnil, List.nil_append] at hcut
          rw [hcut, scanVersion, scanShort_eq_none (.inr rfl)] at hscan
          cases hscan
        have htne : t ≠ [] := by
          intro hnil
          rw [hcut, scanVersion, scanShort_digits hvne hdigits rfl, Option.bind_some] at hscan
          simp [hnil, peek, scanShort_eq_none] at hscan
        refine ⟨_, _, (s.drop 4).takeWhile (· ≠ 0x3a), v.takeWhile isDigit, t, ?_, ?_,
          ⟨hvne, hdigits, rfl⟩, ⟨htne, htdigits, rfl⟩⟩
        · have hs : s = ascii "IDL:" ++ s.drop 4 := by
            have htake : s.take 4 = ascii "IDL:" := of_decide_eq_true hstarts
            rw [← htake, List.take_append_drop]
          have hbody : (s.drop 4).takeWhile (· ≠ 0x3a) ++ 0x3a :: v = s.drop 4 := by
            rw [hx] at hv
            rw [← hv, List.takeWhile_append_dropWhile]
          rw [← hcut, hbody]
          exact hs
        · intro hmem
          simpa using List.mem_takeWhile_imp hmem
      · norm_num at h
  · rw [if_neg hform] at h
    norm_num at h

/-- In an id whose numbers are small, the version that is read is the one that it has. -/
theorem idVersion_eq_iff {s : List UInt8} (hs : SmallVersion s) {minor : ℤ} {maj min : ℕ} :
    idVersion s minor = ((maj : ℤ), (min : ℤ)) ↔ HasVersion s maj min := by
  constructor
  · intro h
    have hnonneg : 0 ≤ (idVersion s minor).1 := by
      rw [h]
      simp
    obtain ⟨maj', min', hv⟩ := hasVersion_of_idVersion hnonneg
    have hread := idVersion_of_hasVersion hv (hs _ _ hv).1 (hs _ _ hv).2 minor
    rw [h, Prod.mk.injEq, Nat.cast_inj, Nat.cast_inj] at hread
    rw [hread.1, hread.2]
    exact hv
  · intro h
    exact idVersion_of_hasVersion h (hs _ _ h).1 (hs _ _ h).2 minor

/-! ### Ids that are written -/

/-- The id of a declaration with this prefix, name and version. -/
def omgId (scopePrefix name : List UInt8) (maj min : ℕ) : List UInt8 :=
  ascii "IDL:" ++ scopePrefix ++ (if scopePrefix = [] then [] else [0x2f]) ++ name ++
    0x3a :: (decimal maj ++ 0x2e :: decimal min)

lemma length_decimal {n : ℕ} (h : Small n) : (decimal n).length ≤ 5 := by
  rw [decimal, List.length_map, Nat.length_toDigits_le_iff (by decide) (by decide)]
  omega

/-- `genRepoId` writes the ids of small versions, within its buffer. -/
theorem genRepoId_of_small {scopePrefix name : List UInt8} {maj min : ℕ} (hmaj : Small maj)
    (hmin : Small min) :
    genRepoId scopePrefix name maj min = some (omgId scopePrefix name maj min) := by
  have htext : ∀ n : ℕ, shortText n = decimal n := by
    intro n
    rw [shortText, if_neg (by omega), List.nil_append, Int.natAbs_natCast]
  have h1 := length_decimal hmaj
  have h2 := length_decimal hmin
  have hslash : (if scopePrefix = [] then ([] : List UInt8) else [0x2f]).length ≤ 1 := by
    split_ifs <;> simp
  rw [genRepoId, htext, htext]
  apply if_pos
  have h4 : (ascii "IDL:").length = 4 := rfl
  simp only [List.length_append, List.length_cons, h4]
  omega

/-- The numbers of an id that is written are those that it is written with. -/
lemma smallVersion_omgId {scopePrefix name : List UInt8} {maj min : ℕ} (hmaj : Small maj)
    (hmin : Small min) : SmallVersion (omgId scopePrefix name maj min) := by
  rintro maj' min' ⟨body, majText, minText, hs, -, hmajText, hminText⟩
  have hcolon : ∀ {m n : List UInt8} {p q : ℕ}, Numeral m p → Numeral n q →
      (0x3a : UInt8) ∉ m ++ 0x2e :: n := by
    intro m n p q hm hn hmem
    rcases List.mem_append.mp hmem with hmem | hmem
    · exact hm.notMem rfl hmem
    · rcases List.mem_cons.mp hmem with hmem | hmem
      · cases hmem
      · exact hn.notMem rfl hmem
  rw [omgId, ← List.append_assoc (ascii "IDL:") body] at hs
  obtain ⟨-, hversion⟩ := append_sep_inj_last hs
    (hcolon (numeral_decimal maj) (numeral_decimal min)) (hcolon hmajText hminText)
  obtain ⟨h1, h2⟩ := append_sep_inj hversion ((numeral_decimal maj).notMem rfl)
    (hmajText.notMem rfl)
  rw [← h1] at hmajText
  rw [← h2] at hminText
  rw [hmajText.unique (numeral_decimal maj), hminText.unique (numeral_decimal min)]
  exact ⟨hmaj, hmin⟩

end OmniORB.Idl
