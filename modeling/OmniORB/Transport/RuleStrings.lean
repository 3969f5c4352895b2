import OmniORB.Transport.Rules

/-!
# Rule strings

What `createRules` adds to the list, which actions `parseAndAddRuleString` reads, and that the dump
of a rule is read back as that rule.
-/

namespace OmniORB

open Library

/-! ### Words -/

def Unspaced (s : List UInt8) : Prop := ∀ c ∈ s, isSpace c = false

lemma word_of_unspaced {s : List UInt8} (h : Unspaced s) : word s = s := by
  rw [word, List.takeWhile_eq_self_iff]
  intro c hc
  rw [h c hc]
  rfl

lemma unspaced_word (q : List UInt8) : Unspaced (word q) := by
  intro c hc
  simpa using List.mem_takeWhile_imp hc

lemma peek_dropWhile_isSpace (q : List UInt8) : isSpace (peek (q.dropWhile isSpace)) = false := by
  cases h : q.dropWhile isSpace with
  | nil => rfl
  | cons c rest =>
    have hhead := List.head_dropWhile_not (p := isSpace) (l := q) (by rw [h]; simp)
    simpa [h, peek] using hhead

lemma dropWhile_isSpace {q : List UInt8} (h : isSpace (peek q) = false) :
    q.dropWhile isSpace = q := by
  cases q with
  | nil => rfl
  | cons c rest =>
    apply List.dropWhile_cons_of_neg
    have hc : isSpace c = false := h
    rw [hc]
    simp

lemma peek_append_of_ne_nil {s t : List UInt8} (h : s ≠ []) : peek (s ++ t) = peek s := by
  cases s with
  | nil => exact absurd rfl h
  | cons c rest => rfl

lemma Unspaced.peek {s : List UInt8} (h : Unspaced s) : isSpace (peek s) = false := by
  cases s with
  | nil => rfl
  | cons c rest => exact h c List.mem_cons_self

/-! ### Actions -/

/-- An action as it is read from a rule string. -/
structure PlainAction (a : List UInt8) : Prop where
  ne_nil : a ≠ []
  unspaced : Unspaced a
  noComma : 0x2c ∉ a

lemma plainAction_word {s : List UInt8} (hs : s ≠ []) (hspace : isSpace (peek s) = false)
    (hcomma : 0x2c ∉ word s) : PlainAction (word s) where
  ne_nil := by
    cases s with
    | nil => exact absurd rfl hs
    | cons c rest =>
      have hc : isSpace c = false := hspace
      rw [word, List.takeWhile_cons_of_pos (by rw [hc]; rfl)]
      simp
  unspaced := unspaced_word s
  noComma := hcomma

lemma notMem_takeWhile_comma (q : List UInt8) : 0x2c ∉ q.takeWhile (· ≠ 0x2c) := by
  intro h
  simpa using List.mem_takeWhile_imp h

/-- The actions that the loop reads are plain. -/
lemma plain_of_parseActions {steps : ℕ} {q : List UInt8} {actions read : List (List UInt8)}
    (h : parseActions steps q actions = some read) (hq : isSpace (peek q) = false)
    (hplain : ∀ a ∈ actions, PlainAction a) : ∀ a ∈ read, PlainAction a := by
  induction steps generalizing q actions with
  | zero => cases h
  | succ steps ih =>
    rw [parseActions] at h
    have hadd : ∀ w, PlainAction w → ∀ a ∈ actions ++ [w], PlainAction a := by
      intro w hw a ha
      rcases List.mem_append.mp ha with ha | ha
      · exact hplain a ha
      · rw [List.mem_singleton.mp ha]
        exact hw
    split_ifs at h with hmem hcomma hnil
    · apply ih h (peek_dropWhile_isSpace _)
      obtain ⟨c, rest, rfl⟩ := List.exists_cons_of_ne_nil (List.ne_nil_of_mem hmem.1)
      have hc : c ≠ 0x2c := hmem.2
      have htake : (c :: rest).takeWhile (· ≠ 0x2c) = c :: rest.takeWhile (· ≠ 0x2c) :=
        List.takeWhile_cons_of_pos (decide_eq_true hc)
      apply hadd
      apply plainAction_word
      · rw [htake]
        simp
      · rw [htake]
        exact hq
      · intro hw
        exact notMem_takeWhile_comma _ ((List.takeWhile_subset _) hw)
    · rw [← Option.some.inj h]
      exact hplain
    · rw [← Option.some.inj h]
      apply hadd
      apply plainAction_word hnil hq
      intro hw
      have hq' : 0x2c ∈ q := (List.takeWhile_subset _) hw
      exact hmem ⟨hq', hcomma⟩

lemma peek_of_plain {a : List UInt8} (h : PlainAction a) : peek a ≠ 0x2c := by
  obtain ⟨c, rest, rfl⟩ := List.exists_cons_of_ne_nil h.ne_nil
  intro hc
  apply h.noComma
  rw [← hc]
  exact List.mem_cons_self

lemma takeWhile_of_noComma {a : List UInt8} (h : 0x2c ∉ a) (rest : List UInt8) :
    (a ++ 0x2c :: rest).takeWhile (· ≠ 0x2c) = a ∧
      (a ++ 0x2c :: rest).dropWhile (· ≠ 0x2c) = 0x2c :: rest := by
  have hall : ∀ c ∈ a, decide (c ≠ 0x2c) = true := by
    intro c hc
    rw [decide_eq_true_eq]
    rintro rfl
    exact h hc
  rw [List.takeWhile_append_of_pos hall, List.dropWhile_append_of_pos hall]
  simp

lemma intercalate_cons_cons (a b : List UInt8) (actions : List (List UInt8)) :
    List.intercalate [0x2c] (a :: b :: actions)
      = a ++ 0x2c :: List.intercalate [0x2c] (b :: actions) := by
  simp [List.intercalate]

lemma peek_intercalate {a : List UInt8} (ha : a ≠ []) (actions : List (List UInt8)) :
    peek (List.intercalate [0x2c] (a :: actions)) = peek a := by
  cases actions with
  | nil => simp [List.intercalate]
  | cons b actions => rw [intercalate_cons_cons, peek_append_of_ne_nil ha]

/-- The loop reads what `dumpRuleString` writes. -/
lemma parseActions_intercalate {actions : List (List UInt8)} (hplain : ∀ a ∈ actions, PlainAction a)
    {steps : ℕ} (hsteps : (List.intercalate [0x2c] actions).length < steps)
    (before : List (List UInt8)) :
    parseActions steps (List.intercalate [0x2c] actions) before = some (before ++ actions) := by
  induction actions generalizing steps before with
  | nil =>
    obtain ⟨steps, rfl⟩ : ∃ k, steps = k + 1 := ⟨steps - 1, by omega⟩
    simp [parseActions, List.intercalate, peek]
  | cons a actions ih =>
    obtain ⟨steps, rfl⟩ : ∃ k, steps = k + 1 := ⟨steps - 1, by omega⟩
    have ha := hplain a List.mem_cons_self
    rw [parseActions]
    cases actions with
    | nil =>
      have hone : List.intercalate [0x2c] [a] = a := by simp [List.intercalate]
      rw [hone, if_neg (fun h => ha.noComma h.1), if_neg (peek_of_plain ha), if_neg ha.ne_nil,
        word_of_unspaced ha.unspaced]
    | cons b actions =>
      have hb := hplain b (List.mem_cons_of_mem _ List.mem_cons_self)
      have hmore := intercalate_cons_cons a b actions
      have hbegin : isSpace (peek (List.intercalate [0x2c] (b :: actions))) = false := by
        rw [peek_intercalate hb.ne_nil]
        exact hb.unspaced.peek
      rw [hmore] at hsteps ⊢
      obtain ⟨htake, hdrop⟩ := takeWhile_of_noComma ha.noComma
        (List.intercalate [0x2c] (b :: actions))
      have hmem : 0x2c ∈ a ++ 0x2c :: List.intercalate [0x2c] (b :: actions) := by simp
      rw [if_pos ⟨hmem, by rw [peek_append_of_ne_nil ha.ne_nil]; exact peek_of_plain ha⟩, htake, hdrop,
        word_of_unspaced ha.unspaced, List.drop_succ_cons, List.drop_zero,
        dropWhile_isSpace hbegin, ih (fun c hc => hplain c (List.mem_cons_of_mem _ hc))]
      · simp
      · simp only [List.length_append, List.length_cons] at hsteps
        omega

/-! ### The rules that a mask gives -/

section Create

variable {num : Numeric} {hosts : Hosts}

/-- A rule has the mask that it was made from, and a mask begins as no reset does. -/
lemma directRule_spec {m : List UInt8} {r : Rule} (h : directRule num m = some (some r)) :
    r.addressMask = m ∧ m ≠ [] ∧ peek m ≠ 0x5e := by
  rw [directRule] at h
  split_ifs at h with hall hlocal
  · cases h
    rw [hall]
    exact ⟨rfl, by decide, by decide⟩
  · cases h
    rw [hlocal]
    exact ⟨rfl, by decide, by decide⟩
  · obtain ⟨parsed, hparsed, hr⟩ := Option.map_eq_some_iff.mp h
    -- the address in front of the slash begins with a digit or a colon
    have hbegin : ∀ a : List UInt8, beforeSlash m = a → a ≠ [] → peek a ≠ 0x5e →
        m ≠ [] ∧ peek m ≠ 0x5e := by
      rintro a rfl hne hpeek
      cases m with
      | nil => exact absurd rfl hne
      | cons c rest =>
        refine ⟨by simp, ?_⟩
        by_cases hc : c = 0x2f
        · rw [beforeSlash, List.takeWhile_cons_of_neg (by simp [hc])] at hne
          exact absurd rfl hne
        · rw [beforeSlash, List.takeWhile_cons_of_pos (by simpa using hc)] at hpeek
          exact hpeek
    cases parsed with
    | some p =>
      cases hr
      refine ⟨rfl, ?_⟩
      have h4 : isip4addr (beforeSlash m) = true := by
        by_contra h4
        rw [parseIPv4AddressMask, if_neg h4] at hparsed
        cases hparsed
      have hne : beforeSlash m ≠ [] := List.ne_nil_of_mem (dot_mem_isip4addr h4)
      apply hbegin _ rfl hne
      obtain ⟨c, rest, hs⟩ := List.exists_cons_of_ne_nil hne
      have hc := mem_isip4addr h4 (c := c) (by rw [hs]; exact List.mem_cons_self)
      rw [hs]
      rintro rfl
      revert hc
      decide
    | none =>
      obtain ⟨p, hp, rfl⟩ := Option.map_eq_some_iff.mp hr
      refine ⟨rfl, ?_⟩
      obtain ⟨bits, -, hp⟩ := Option.bind_eq_some_iff.mp hp
      split_ifs at hp with h6
      have hne : beforeSlash m ≠ [] := List.ne_nil_of_mem (colon_mem_isip6addr h6)
      apply hbegin _ rfl hne
      obtain ⟨c, rest, hs⟩ := List.exists_cons_of_ne_nil hne
      have hc := mem_isip6addr h6 (c := c) (by rw [hs]; exact List.mem_cons_self)
      rw [hs]
      rintro rfl
      revert hc
      decide

/-- Names resolve to addresses without white space. -/
def Hosts.Plain (hosts : Hosts) : Prop := ∀ name, ∀ addr ∈ hosts.getAddrInfo name, Unspaced addr

/-- What the list holds of a rule string: a rule that its mask gives, with actions as they are
read. -/
structure RuleActionPair.WellFormed (num : Numeric) (ra : RuleActionPair) : Prop where
  direct : directRule num ra.rule.addressMask = some (some ra.rule)
  unspaced : Unspaced ra.rule.addressMask
  plain : ∀ a ∈ ra.action, PlainAction a

/-- `createRules` adds rules at the end of the list. -/
theorem createRules_spec (hplain : hosts.Plain) {actions : List (List UInt8)}
    (hactions : ∀ a ∈ actions, PlainAction a) {depth : ℕ} {m : List UInt8} (hm : Unspaced m)
    {tr tr' : List RuleActionPair} {b : Bool}
    (h : createRules num hosts depth m actions tr = some (b, tr')) :
    ∃ added, tr' = tr ++ added ∧ (b = true ↔ added ≠ []) ∧ ∀ ra ∈ added, ra.WellFormed num := by
  induction depth generalizing m tr tr' b with
  | zero => cases h
  | succ depth ih =>
    rw [createRules] at h
    obtain ⟨direct, hdirect, h⟩ := Option.bind_eq_some_iff.mp h
    cases direct with
    | some rule =>
      cases h
      obtain ⟨hmask, -, -⟩ := directRule_spec hdirect
      refine ⟨[⟨rule, actions⟩], rfl, by simp, ?_⟩
      intro ra hra
      rw [List.mem_singleton.mp hra]
      exact ⟨by rw [hmask]; exact hdirect, by rw [hmask]; exact hm, hactions⟩
    | none =>
      -- what the loop has added so far
      have hloop : ∀ (addrs : List (List UInt8)), (∀ a ∈ addrs, Unspaced a) →
          ∀ (so : Bool × List RuleActionPair) (added : List RuleActionPair),
          so.2 = tr ++ added → (so.1 = true ↔ added ≠ []) → (∀ ra ∈ added, ra.WellFormed num) →
          addrs.foldlM (fun (added : Bool × List RuleActionPair) addr =>
            (createRules num hosts depth addr actions added.2).map
              fun r => (r.1 || added.1, r.2)) so = some (b, tr') →
          ∃ added, tr' = tr ++ added ∧ (b = true ↔ added ≠ []) ∧
            ∀ ra ∈ added, ra.WellFormed num := by
        intro addrs
        induction addrs with
        | nil =>
          intro _ so added hso hiff hwf hfold
          cases hfold
          exact ⟨added, hso, hiff, hwf⟩
        | cons addr addrs ihs =>
          intro haddrs so added hso hiff hwf hfold
          rw [List.foldlM_cons] at hfold
          obtain ⟨so', hstep, hfold⟩ := Option.bind_eq_some_iff.mp hfold
          obtain ⟨r, hr, rfl⟩ := Option.map_eq_some_iff.mp hstep
          obtain ⟨more, hmore, hiff', hwf'⟩ := ih (haddrs addr List.mem_cons_self) hr
          apply ihs (fun a ha => haddrs a (List.mem_cons_of_mem _ ha)) _ (added ++ more) _ _ _ hfold
          · rw [hmore, hso, List.append_assoc]
          · rw [Bool.or_eq_true, hiff', hiff, ne_eq, ne_eq, ne_eq, List.append_eq_nil_iff]
            tauto
          · intro ra hra
            rcases List.mem_append.mp hra with hra | hra
            · exact hwf ra hra
            · exact hwf' ra hra
      exact hloop _ (hplain m) (false, tr) [] (by simp) (by simp) (by simp) h

/-- The mask gives no rule, and what it resolves to gives none either. -/
def Refused (num : Numeric) (hosts : Hosts) : ℕ → List UInt8 → Prop
  | 0, _ => False
  | depth + 1, m =>
    directRule num m = some none ∧ ∀ addr ∈ hosts.getAddrInfo m, Refused num hosts depth addr

/-- `createRules` says no exactly to such masks, and then it leaves the list alone. -/
theorem createRules_eq_false_iff {actions : List (List UInt8)} {depth : ℕ} {m : List UInt8}
    {tr tr' : List RuleActionPair} :
    createRules num hosts depth m actions tr = some (false, tr') ↔
      Refused num hosts depth m ∧ tr' = tr := by
  induction depth generalizing m tr tr' with
  | zero => simp [createRules, Refused]
  | succ depth ih =>
    -- the loop ends with `false` if every address was refused and nothing was added before
    have hloop : ∀ (addrs : List (List UInt8)) (so : Bool × List RuleActionPair),
        addrs.foldlM (fun (added : Bool × List RuleActionPair) addr =>
          (createRules num hosts depth addr actions added.2).map
            fun r => (r.1 || added.1, r.2)) so = some (false, tr') ↔
          so.1 = false ∧ (∀ addr ∈ addrs, Refused num hosts depth addr) ∧ tr' = so.2 := by
      intro addrs
      induction addrs with
      | nil =>
        rintro ⟨b, l⟩
        simp [List.foldlM, eq_comm]
      | cons addr addrs ihs =>
        intro so
        rw [List.foldlM_cons]
        constructor
        · intro h
          obtain ⟨so', hstep, hfold⟩ := Option.bind_eq_some_iff.mp h
          obtain ⟨r, hr, rfl⟩ := Option.map_eq_some_iff.mp hstep
          obtain ⟨hb, hall, rfl⟩ := (ihs _).mp hfold
          obtain ⟨hr1, hso⟩ := Bool.or_eq_false_iff.mp hb
          obtain ⟨b, l⟩ := r
          cases hr1
          obtain ⟨href, rfl⟩ := ih.mp hr
          refine ⟨hso, ?_, rfl⟩
          intro a ha
          rcases List.mem_cons.mp ha with rfl | ha
          · exact href
          · exact hall a ha
        · rintro ⟨hso, hall, rfl⟩
          have hr : createRules num hosts depth addr actions so.2 = some (false, so.2) :=
            ih.mpr ⟨hall addr List.mem_cons_self, rfl⟩
          rw [hr]
          change addrs.foldlM _ (false || so.1, so.2) = _
          rw [ihs]
          exact ⟨by rw [hso]; rfl, fun a ha => hall a (List.mem_cons_of_mem _ ha), rfl⟩
    rw [createRules, Refused]
    cases hdirect : directRule num m with
    | none => simp
    | some direct =>
      cases direct with
      | some rule => simp
      | none =>
        rw [Option.bind_some]
        change List.foldlM _ (false, tr) _ = _ ↔ _
        rw [hloop]
        simp

/-! ### Dumps -/

/-- What is read from a rule string is made of words. -/
lemma splitRuleString_plain {rs : List UInt8} {q : RuleString}
    (h : splitRuleString rs = some q) :
    Unspaced q.addressMask ∧ ∀ a ∈ q.actions, PlainAction a := by
  rw [splitRuleString] at h
  split_ifs at h with hp hreset hcaret
  all_goals
    obtain ⟨actions, hactions, rfl⟩ := Option.map_eq_some_iff.mp h
    refine ⟨?_, plain_of_parseActions hactions (peek_dropWhile_isSpace _) (by simp)⟩
  · intro c hc
    exact unspaced_word _ c (List.mem_of_mem_drop hc)
  · exact unspaced_word _

/-- The lists that rule strings build, whatever names resolve to at the time. -/
inductive Reachable (num : Numeric) : List RuleActionPair → Prop
  | empty : Reachable num []
  | add {tr tr' : List RuleActionPair} {hosts : Hosts} {depth : ℕ} {rs : List UInt8} {b : Bool}
      (h : Reachable num tr) (hplain : hosts.Plain)
      (hadd : parseAndAddRuleString num hosts depth tr rs = some (b, tr')) : Reachable num tr'

/-- One rule string keeps the rules of the list well formed. -/
theorem wellFormed_parseAndAddRuleString (hplain : hosts.Plain) {depth : ℕ} {rs : List UInt8}
    {tr tr' : List RuleActionPair} {b : Bool} (htr : ∀ ra ∈ tr, ra.WellFormed num)
    (h : parseAndAddRuleString num hosts depth tr rs = some (b, tr')) :
    ∀ ra ∈ tr', ra.WellFormed num := by
  rw [parseAndAddRuleString] at h
  cases hsplit : splitRuleString rs with
  | none =>
    rw [hsplit] at h
    cases h
    exact htr
  | some q =>
    rw [hsplit] at h
    obtain ⟨hm, hactions⟩ := splitRuleString_plain hsplit
    obtain ⟨added, rfl, -, hadded⟩ := createRules_spec hplain hactions hm h
    intro ra hra
    rcases List.mem_append.mp hra with hra | hra
    · split_ifs at hra with hreset
      · cases hra
      · exact htr ra hra
    · exact hadded ra hra

theorem Reachable.wellFormed {tr : List RuleActionPair} (h : Reachable num tr) :
    ∀ ra ∈ tr, ra.WellFormed num := by
  induction h with
  | empty => simp
  | add _ hplain hadd ih => exact wellFormed_parseAndAddRuleString hplain ih hadd

lemma splitRuleString_dumpRuleString {ra : RuleActionPair} (h : ra.WellFormed num) :
    splitRuleString (dumpRuleString ra) = some ⟨false, ra.rule.addressMask, ra.action⟩ := by
  obtain ⟨-, hne, hcaret⟩ := directRule_spec h.direct
  set m := ra.rule.addressMask with hm
  have htext : dumpRuleString ra = m ++ 0x20 :: List.intercalate [0x2c] ra.action := by
    rw [dumpRuleString, ← hm, List.append_assoc]
    rfl
  have hall : ∀ c ∈ m, (!isSpace c) = true := by
    intro c hc
    rw [h.unspaced c hc]
    rfl
  have hstart : (dumpRuleString ra).dropWhile isSpace = dumpRuleString ra := by
    apply dropWhile_isSpace
    rw [htext, peek_append_of_ne_nil hne]
    exact h.unspaced.peek
  have hword : word (dumpRuleString ra) = m := by
    rw [htext, word, List.takeWhile_append_of_pos hall]
    simp [isSpace]
  have hrest : (dumpRuleString ra).dropWhile (fun c => !isSpace c)
      = 0x20 :: List.intercalate [0x2c] ra.action := by
    rw [htext, List.dropWhile_append_of_pos hall]
    simp [isSpace]
  have hbegin : (List.intercalate [0x2c] ra.action).dropWhile isSpace
      = List.intercalate [0x2c] ra.action := by
    apply dropWhile_isSpace
    cases hact : ra.action with
    | nil => rfl
    | cons a actions =>
      have ha := h.plain a (by rw [hact]; exact List.mem_cons_self)
      rw [peek_intercalate ha.ne_nil]
      exact ha.unspaced.peek
  rw [splitRuleString]
  simp only [hstart, hword, hrest, List.drop_succ_cons, List.drop_zero, hbegin]
  rw [if_neg (by simp), if_neg (fun hr => hcaret hr.1), if_neg hcaret,
    parseActions_intercalate h.plain (by omega)]
  simp [hcaret]

/-- The dump of a rule is read as that rule. -/
theorem parseAndAddRuleString_dumpRuleString {ra : RuleActionPair} (h : ra.WellFormed num)
    (depth : ℕ) (tr : List RuleActionPair) :
    parseAndAddRuleString num hosts (depth + 1) tr (dumpRuleString ra)
      = some (true, tr ++ [ra]) := by
  rw [parseAndAddRuleString, splitRuleString_dumpRuleString h]
  change createRules num hosts (depth + 1) ra.rule.addressMask ra.action tr = _
  rw [createRules, h.direct]
  rfl

/-- Rule strings one after the other. -/
def parseAll (num : Numeric) (hosts : Hosts) (depth : ℕ) (tr : List RuleActionPair)
    (strings : List (List UInt8)) : Option (List RuleActionPair) :=
  strings.foldlM (fun tr rs => (parseAndAddRuleString num hosts depth tr rs).map Prod.snd) tr

/-- The dump of a list is read as that list. -/
theorem parseAll_dumpRuleString {rules : List RuleActionPair}
    (h : ∀ ra ∈ rules, ra.WellFormed num) (depth : ℕ) (tr : List RuleActionPair) :
    parseAll num hosts (depth + 1) tr (rules.map dumpRuleString) = some (tr ++ rules) := by
  induction rules generalizing tr with
  | nil => simp [parseAll]
  | cons ra rules ih =>
    rw [parseAll, List.map_cons, List.foldlM_cons,
      parseAndAddRuleString_dumpRuleString (h ra List.mem_cons_self)]
    change parseAll num hosts (depth + 1) (tr ++ [ra]) (rules.map dumpRuleString) = _
    rw [ih fun r hr => h r (List.mem_cons_of_mem _ hr)]
    simp

end Create

end OmniORB
