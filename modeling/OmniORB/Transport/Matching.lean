import OmniORB.Transport.RuleStrings

/-!
# What transport rules match

A rule string with an address mask, and an endpoint: when the rule that is made matches the endpoint
as the mask says.
-/

namespace OmniORB

open Library

variable (num : Numeric) (hosts : Hosts)

/-! ### What a mask says -/

/-- The endpoint has this address. One of the local transport has those of the interfaces. -/
def HasAddress (endpoint x : List UInt8) : Prop :=
  if isUnix endpoint then ∃ ifaddrs, hosts.interfaces = some ifaddrs ∧ x ∈ ifaddrs
  else extractHost hosts endpoint = some (some x)

/-- The endpoint has an IPv4 address that agrees with `n` where `mask` has a bit. -/
def Agrees4 (endpoint : List UInt8) (n mask : BitVec 32) : Prop :=
  ∃ x, HasAddress hosts endpoint x ∧ isip4addr x = true ∧ AgreeIn mask n (num.inetAddr x)

/-- The address is an IPv6 address with the same first `p` bits as `n`. -/
def SamePrefix6 (n : Vector (BitVec 8) 16) (p : ℕ) (x : List UInt8) : Prop :=
  isip6addr x = true ∧
    ∃ bytes, num.sin6Addr x = some bytes ∧ AgreeUpTo p n.toList bytes.toList

/-- The mask of a prefix. -/
def prefixMask (p : ℕ) : BitVec 32 := BitVec.allOnes 32 <<< (32 - p)

/-- The rule string adds one rule, and the rule tells of the endpoint what it should. -/
def Means (depth : ℕ) (tr : List RuleActionPair) (rs endpoint : List UInt8) (q : RuleString)
    (agrees : Prop) : Prop :=
  ∃ r, parseAndAddRuleString num hosts depth tr rs
      = some (true, (if q.resetList then [] else tr) ++ [⟨r, q.actions⟩]) ∧
    ∃ b, r.Returns num hosts endpoint b ∧ (b = true ↔ agrees)

/-- A rule string with this mask text: an address, a slash and what follows it. -/
structure MaskString (rs a m : List UInt8) (q : RuleString) : Prop where
  split : splitRuleString rs = some q
  mask : q.addressMask = a ++ 0x2f :: m

/-- Transport rules mean what their masks say. -/
structure RulesRight (depth : ℕ) (tr : List RuleActionPair) (rs endpoint : List UInt8) : Prop where
  byPrefix : ∀ q a m p, MaskString rs a m q → isip4addr a = true → Numeral m p → p ≤ 32 →
    Means num hosts (depth + 1) tr rs endpoint q
      (∃ x, HasAddress hosts endpoint x ∧ isip4addr x = true ∧
        ∀ i < p, (num.inetAddr a).getMsbD i = (num.inetAddr x).getMsbD i)
  byNetmask : ∀ q a m, MaskString rs a m q → isip4addr a = true → isip4addr m = true →
    Means num hosts (depth + 1) tr rs endpoint q
      (Agrees4 num hosts endpoint (num.inetAddr a) (num.inetAddr m))
  byPrefix6 : ∀ q a m p n, MaskString rs a m q → isip6addr a = true → num.sin6Addr a = some n →
    Numeral m p → p ≤ 128 →
    Means num hosts (depth + 1) tr rs endpoint q
      (∃ x, HasAddress hosts endpoint x ∧ SamePrefix6 num n p x)
  first : ∀ steps actions priority,
    matchRules num hosts steps endpoint tr 0 = some (some (actions, priority)) ↔
      (∃ ra, tr[priority]? = some ra ∧ ra.action = actions ∧
        ra.rule.matchEndpoint num hosts steps endpoint = some true) ∧
      ∀ i < priority, ∀ ra, tr[i]? = some ra →
        ra.rule.matchEndpoint num hosts steps endpoint = some false
  dumped : parseAll num hosts (depth + 1) [] (tr.map dumpRuleString) = some tr
  rejected : ∀ tr', parseAndAddRuleString num hosts (depth + 1) tr rs = some (false, tr') → tr' = tr

/-- There is no address in the endpoint, or it can be read. -/
def Readable (endpoint : List UInt8) : Prop :=
  isUnix endpoint = true ∨ ∀ p, afterTransport endpoint = some p → extractHostPort p ≠ none

/-- Where transport rules mean what their masks say. -/
structure RulesHold (depth : ℕ) (tr : List RuleActionPair) (rs endpoint : List UInt8) : Prop where
  byPrefix : ∀ q a m p, MaskString rs a m q → isip4addr a = true → Numeral m p → p ≤ 32 →
    p ≠ 0 ∧ Readable endpoint ∧
      ((∀ i, p ≤ i → (num.inetAddr a).getMsbD i = false) ∨
        ¬Agrees4 num hosts endpoint (num.inetAddr a) (prefixMask p))
  byNetmask : ∀ q a m, MaskString rs a m q → isip4addr a = true → isip4addr m = true →
    Readable endpoint ∧
      ((∀ i, (num.inetAddr a).getMsbD i = true → (num.inetAddr m).getMsbD i = true) ∨
        ¬Agrees4 num hosts endpoint (num.inetAddr a) (num.inetAddr m))
  byPrefix6 : ∀ q a m p n, MaskString rs a m q → isip6addr a = true → num.sin6Addr a = some n →
    Numeral m p → p ≤ 128 →
    Readable endpoint ∧
      (isUnix endpoint = true → ∀ x ifaddrs, hosts.interfaces = some (x :: ifaddrs) →
        SamePrefix6 num n p x)
  rejected : ∀ q, splitRuleString rs = some q → q.resetList = true →
    Refused num hosts (depth + 1) q.addressMask → tr = []

/-! ### Endpoints -/

section Endpoints

variable {num hosts} {endpoint : List UInt8}

lemma extractHost_eq_none (hunix : isUnix endpoint = false) :
    extractHost hosts endpoint = none ↔ ¬Readable endpoint := by
  rw [Readable, hunix, extractHost]
  cases afterTransport endpoint with
  | none => simp
  | some p =>
    cases hp : extractHostPort p with
    | none => simp [hp]
    | some addr => simp [hp]

/-- A rule that looks at the addresses one after the other: its result, and when there is one. -/
lemma matchIPv4_spec {network netmask : BitVec 32} :
    (matchIPv4 num hosts network netmask endpoint = none ↔ ¬Readable endpoint) ∧
    ∀ b, matchIPv4 num hosts network netmask endpoint = some b →
      (b = true ↔ ∃ x, HasAddress hosts endpoint x ∧ matchAddr4 num network netmask x = true) := by
  rw [matchIPv4]
  simp only [HasAddress]
  cases hunix : isUnix endpoint with
  | true =>
    have hread : Readable endpoint := .inl hunix
    cases hifs : hosts.interfaces with
    | none => simp [hread]
    | some ifaddrs =>
      refine ⟨by simp [hread], ?_⟩
      rintro b hb
      rw [← Option.some.inj hb, List.any_eq_true]
      simp
  | false =>
    constructor
    · have hnone : extractHost hosts endpoint = none ↔ _ := extractHost_eq_none hunix
      rw [← hnone]
      simp
    · intro b hb
      obtain ⟨x, hx, rfl⟩ := Option.map_eq_some_iff.mp hb
      cases x with
      | none => simp [hx]
      | some x => simp [hx]

lemma matchAddr4_iff {network netmask : BitVec 32} {x : List UInt8}
    (hnet : network &&& netmask = network) :
    matchAddr4 num network netmask x = true ↔
      isip4addr x = true ∧ AgreeIn netmask network (num.inetAddr x) := by
  rw [matchAddr4, Bool.and_eq_true, decide_eq_true_eq, eq_and_iff hnet]

lemma matchAddr4_eq_false {network netmask : BitVec 32} {x : List UInt8}
    (hnet : network &&& netmask ≠ network) : matchAddr4 num network netmask x ≠ true := by
  intro h
  rw [matchAddr4, Bool.and_eq_true, decide_eq_true_eq] at h
  exact ne_and hnet h.2

/-- An IPv4 rule means what it says as long as the network has no bits outside the mask, or nothing
agrees with it. -/
theorem ipv4_right_iff {addressMask : List UInt8} {network netmask : BitVec 32} :
    (∃ b, (Rule.ipv4 addressMask network netmask).Returns num hosts endpoint b ∧
      (b = true ↔ Agrees4 num hosts endpoint network netmask)) ↔
    Readable endpoint ∧
      (network &&& netmask = network ∨ ¬Agrees4 num hosts endpoint network netmask) := by
  obtain ⟨hnone, hsome⟩ :=
    @matchIPv4_spec num hosts endpoint network netmask
  constructor
  · rintro ⟨b, ⟨steps, hb⟩, hiff⟩
    change matchIPv4 num hosts network netmask endpoint = some b at hb
    have hread : Readable endpoint := by
      by_contra hread
      rw [hnone.mpr hread] at hb
      cases hb
    refine ⟨hread, ?_⟩
    by_cases hnet : network &&& netmask = network
    · exact .inl hnet
    · right
      intro hagrees
      obtain ⟨x, -, hx⟩ := (hsome b hb).mp (hiff.mpr hagrees)
      exact matchAddr4_eq_false hnet hx
  · rintro ⟨hread, hnet⟩
    obtain ⟨b, hb⟩ : ∃ b, matchIPv4 num hosts network netmask endpoint = some b := by
      apply Option.ne_none_iff_exists'.mp
      intro hb
      exact hnone.mp hb hread
    refine ⟨b, ⟨0, hb⟩, ?_⟩
    rw [hsome b hb]
    by_cases hclear : network &&& netmask = network
    · simp only [matchAddr4_iff hclear, Agrees4]
    · have hno := hnet.resolve_left hclear
      constructor
      · rintro ⟨x, -, hx⟩
        exact absurd hx (matchAddr4_eq_false hclear)
      · intro h
        exact absurd h hno

/-- The comparison of the octets is one of the leading bits. -/
lemma sameBits_iff {a b : List (BitVec 8)} (hlen : a.length = b.length) {p : ℕ}
    (hp : p ≤ 8 * a.length) : sameBits a b p = true ↔ AgreeUpTo p a b := by
  induction a generalizing b p with
  | nil =>
    have hp0 : p = 0 := by simpa using hp
    rw [hp0]
    simp [sameBits, agreeUpTo_zero]
  | cons x a ih =>
    cases b with
    | nil => cases hlen
    | cons y b =>
      rw [sameBits]
      split_ifs with h7
      · rw [Bool.and_eq_true, decide_eq_true_eq, agreeUpTo_cons_of_le (by omega),
          ih (by simpa using hlen) (by simp only [List.length_cons] at hp; omega)]
      · rw [agreeUpTo_cons_of_lt (by omega), ← and_eq_and_iff, Bool.or_eq_true,
          decide_eq_true_eq, decide_eq_true_eq]
        constructor
        · rintro (h0 | h)
          · rw [h0]
            simp
          · exact h
        · exact .inr

lemma matchAddr6_iff {network : Vector (BitVec 8) 16} {p : ℕ} (hp : p ≤ 128) {x : List UInt8} :
    matchAddr6 num network p x = true ↔ SamePrefix6 num network p x := by
  rw [matchAddr6, SamePrefix6, Bool.and_eq_true]
  cases num.sin6Addr x with
  | none => simp
  | some bytes =>
    have hbits := sameBits_iff (a := network.toList) (b := bytes.toList) (by simp) (p := p) (by simpa)
    simp [hbits]

/-- The loop over the interfaces comes back from the first of them or not at all. -/
lemma interfaceLoop6_eq_some {network : Vector (BitVec 8) 16} {p : ℕ} {ifaddrs : List (List UInt8)}
    {b : Bool} :
    (∃ steps, interfaceLoop6 num network p steps ifaddrs = some b) ↔
      (ifaddrs = [] ∧ b = false) ∨
        ∃ x rest, ifaddrs = x :: rest ∧ matchAddr6 num network p x = true ∧ b = true := by
  constructor
  · rintro ⟨steps, h⟩
    induction steps with
    | zero => cases h
    | succ steps ih =>
      cases ifaddrs with
      | nil =>
        cases h
        exact .inl ⟨rfl, rfl⟩
      | cons x rest =>
        rw [interfaceLoop6] at h
        split_ifs at h with hx
        · cases h
          exact .inr ⟨x, rest, rfl, hx, rfl⟩
        · exact ih h
  · rintro (⟨rfl, rfl⟩ | ⟨x, rest, rfl, hx, rfl⟩)
    · exact ⟨1, rfl⟩
    · exact ⟨1, by rw [interfaceLoop6, if_pos hx]⟩

/-- An IPv6 rule means what it says as long as its loop over the interfaces has nothing to do after
the first one. -/
theorem ipv6_right_iff {addressMask : List UInt8} {network : Vector (BitVec 8) 16} {p : ℕ}
    (hp : p ≤ 128) :
    (∃ b, (Rule.ipv6 addressMask network p).Returns num hosts endpoint b ∧
      (b = true ↔ ∃ x, HasAddress hosts endpoint x ∧ SamePrefix6 num network p x)) ↔
    Readable endpoint ∧
      (isUnix endpoint = true → ∀ x ifaddrs, hosts.interfaces = some (x :: ifaddrs) →
        SamePrefix6 num network p x) := by
  simp only [Rule.Returns, Rule.matchEndpoint, matchIPv6, HasAddress]
  cases hunix : isUnix endpoint with
  | true =>
    have hread : Readable endpoint := .inl hunix
    cases hifs : hosts.interfaces with
    | none => simp [hread]
    | some ifaddrs =>
      simp only [if_true, interfaceLoop6_eq_some, matchAddr6_iff hp]
      constructor
      · rintro ⟨b, ⟨rfl, -⟩ | ⟨x, rest, rfl, hx, -⟩, -⟩
        · exact ⟨hread, by simp⟩
        · refine ⟨hread, ?_⟩
          rintro - y rest' h
          cases h
          exact hx
      · rintro ⟨-, h⟩
        cases ifaddrs with
        | nil => exact ⟨false, .inl ⟨rfl, rfl⟩, by simp⟩
        | cons x rest =>
          have hx := h trivial x rest rfl
          exact ⟨true, .inr ⟨x, rest, rfl, hx, rfl⟩, by simpa using .inl hx⟩
  | false =>
    have hnone : extractHost hosts endpoint = none ↔ _ := extractHost_eq_none hunix
    cases hhost : extractHost hosts endpoint with
    | none => simp [hnone.mp hhost]
    | some host =>
      have hread : Readable endpoint := by
        by_contra hread
        rw [hnone.mpr hread] at hhost
        cases hhost
      cases host with
      | none => simp [hread]
      | some x => simp [hread, matchAddr6_iff hp]

end Endpoints

/-! ### Masks -/

section Masks

variable {num hosts}

lemma slash_split {a : List UInt8} (h : 0x2f ∉ a) (m : List UInt8) :
    beforeSlash (a ++ 0x2f :: m) = a ∧ afterSlash (a ++ 0x2f :: m) = some m := by
  have hall : ∀ c ∈ a, decide (c ≠ 0x2f) = true := by
    intro c hc
    rw [decide_eq_true_eq]
    rintro rfl
    exact h hc
  rw [beforeSlash, afterSlash, List.takeWhile_append_of_pos hall, List.dropWhile_append_of_pos hall]
  simp

lemma slash_notMem_isip4addr {a : List UInt8} (h : isip4addr a = true) : 0x2f ∉ a := by
  intro hmem
  have hc := mem_isip4addr h hmem
  revert hc
  decide

lemma slash_notMem_isip6addr {a : List UInt8} (h : isip6addr a = true) : 0x2f ∉ a := by
  intro hmem
  have hc := mem_isip6addr h hmem
  revert hc
  decide

lemma isip4addr_numeral {m : List UInt8} {p : ℕ} (h : Numeral m p) : isip4addr m = false := by
  by_contra h4
  have hdot := h.digits _ (dot_mem_isip4addr (Bool.eq_true_of_not_eq_false h4))
  cases hdot

/-- A text with a slash is not one of the names of a rule. -/
lemma slash_not_named {a m : List UInt8} :
    a ++ 0x2f :: m ≠ ascii "*" ∧ a ++ 0x2f :: m ≠ ascii "localhost" := by
  constructor
  all_goals
    intro h
    have hmem : (0x2f : UInt8) ∈ a ++ 0x2f :: m := by simp
    rw [h] at hmem
    revert hmem
    decide

lemma directRule_prefix4 {a m : List UInt8} {p : ℕ} (ha : isip4addr a = true) (hm : Numeral m p)
    (hp : p ≤ 32) :
    directRule num (a ++ 0x2f :: m)
      = (shiftedMask p).map fun netmask => some (.ipv4 (a ++ 0x2f :: m) (num.inetAddr a) netmask) := by
  obtain ⟨hbefore, hafter⟩ := slash_split (slash_notMem_isip4addr ha) m
  rw [directRule, if_neg slash_not_named.1, if_neg slash_not_named.2, parseIPv4AddressMask]
  simp only [hbefore, hafter, ha, Option.getD_some, isip4addr_numeral hm,
    strtoulBase_numeral hm (by omega), if_true]
  rw [if_neg (by simp), ulong, Nat.mod_eq_of_lt (by omega), if_neg (by simpa using hp)]
  cases shiftedMask p with
  | none => rfl
  | some netmask => rfl

lemma directRule_netmask {a m : List UInt8} (ha : isip4addr a = true) (hm : isip4addr m = true) :
    directRule num (a ++ 0x2f :: m)
      = some (some (.ipv4 (a ++ 0x2f :: m) (num.inetAddr a) (num.inetAddr m))) := by
  obtain ⟨hbefore, hafter⟩ := slash_split (slash_notMem_isip4addr ha) m
  rw [directRule, if_neg slash_not_named.1, if_neg slash_not_named.2, parseIPv4AddressMask]
  simp [hbefore, hafter, ha, hm]

lemma directRule_prefix6 {a m : List UInt8} {p : ℕ} {n : Vector (BitVec 8) 16}
    (ha : isip6addr a = true) (hn : num.sin6Addr a = some n) (hm : Numeral m p) (hp : p ≤ 128) :
    directRule num (a ++ 0x2f :: m) = some (some (.ipv6 (a ++ 0x2f :: m) n p)) := by
  obtain ⟨hbefore, hafter⟩ := slash_split (slash_notMem_isip6addr ha) m
  rw [directRule, if_neg slash_not_named.1, if_neg slash_not_named.2, parseIPv4AddressMask,
    parseIPv6AddressMask, parsePrefix6.eq_def]
  simp only [hbefore, hafter, isip4addr_of_isip6addr ha, strtoulBase_numeral hm (by omega)]
  rw [ulong, Nat.mod_eq_of_lt (by omega), if_neg (by simp [hm.ne_nil, hp])]
  simp [ha, hn]

variable {depth : ℕ} {tr : List RuleActionPair} {rs endpoint a m : List UInt8} {q : RuleString}

/-- What a rule string means is what its one rule does. -/
lemma means_iff {r : Rule} {agrees : Prop} (hq : MaskString rs a m q)
    (hr : directRule num (a ++ 0x2f :: m) = some (some r)) :
    Means num hosts (depth + 1) tr rs endpoint q agrees ↔
      ∃ b, r.Returns num hosts endpoint b ∧ (b = true ↔ agrees) := by
  have hparse : parseAndAddRuleString num hosts (depth + 1) tr rs
      = some (true, (if q.resetList then [] else tr) ++ [⟨r, q.actions⟩]) := by
    rw [parseAndAddRuleString, hq.split]
    change createRules num hosts (depth + 1) q.addressMask q.actions _ = _
    rw [createRules, hq.mask, hr]
    rfl
  constructor
  · rintro ⟨r', hr', h⟩
    rw [hparse] at hr'
    simp only [Option.some.injEq, Prod.mk.injEq, true_and, List.append_cancel_left_eq,
      List.cons.injEq, RuleActionPair.mk.injEq, and_true] at hr'
    rw [hr']
    exact h
  · intro h
    exact ⟨r, hparse, h⟩

/-- The mask of no bits at all is shifted out of its word. -/
lemma not_means {agrees : Prop} (hq : MaskString rs a m q)
    (hr : directRule num (a ++ 0x2f :: m) = none) :
    ¬Means num hosts (depth + 1) tr rs endpoint q agrees := by
  rintro ⟨r, hparse, -⟩
  rw [parseAndAddRuleString, hq.split] at hparse
  change createRules num hosts (depth + 1) q.addressMask q.actions _ = _ at hparse
  rw [createRules, hq.mask, hr] at hparse
  cases hparse

lemma prefix4_iff {p : ℕ} (hq : MaskString rs a m q) (ha : isip4addr a = true) (hm : Numeral m p)
    (hp : p ≤ 32) :
    Means num hosts (depth + 1) tr rs endpoint q
      (∃ x, HasAddress hosts endpoint x ∧ isip4addr x = true ∧
        ∀ i < p, (num.inetAddr a).getMsbD i = (num.inetAddr x).getMsbD i) ↔
    p ≠ 0 ∧ Readable endpoint ∧
      ((∀ i, p ≤ i → (num.inetAddr a).getMsbD i = false) ∨
        ¬Agrees4 num hosts endpoint (num.inetAddr a) (prefixMask p)) := by
  have hagrees : (∃ x, HasAddress hosts endpoint x ∧ isip4addr x = true ∧
      ∀ i < p, (num.inetAddr a).getMsbD i = (num.inetAddr x).getMsbD i) ↔
      Agrees4 num hosts endpoint (num.inetAddr a) (prefixMask p) := by
    simp only [Agrees4, prefixMask, agreeIn_allOnes_shiftLeft hp]
  rw [hagrees]
  have hdirect : directRule num _ = _ := directRule_prefix4 ha hm hp
  by_cases h0 : p = 0
  · have hnone : shiftedMask p = none := by
      rw [h0]
      rfl
    rw [hnone] at hdirect
    simp [not_means hq hdirect, h0]
  · rw [shiftedMask, if_pos (by omega)] at hdirect
    change directRule num (a ++ 0x2f :: m) = some (some (.ipv4 _ _ (prefixMask p))) at hdirect
    have hclear : num.inetAddr a &&& prefixMask p = num.inetAddr a ↔
        ∀ i, p ≤ i → (num.inetAddr a).getMsbD i = false :=
      and_allOnes_shiftLeft_eq_left_iff hp
    rw [means_iff hq hdirect, ipv4_right_iff, hclear]
    exact ⟨fun h => ⟨h0, h⟩, fun h => h.2⟩

end Masks

/-! ### Lists -/

/-- The loop of `transportRules::match` ends with the first rule that matches. -/
theorem matchRules_eq_some {steps : ℕ} {endpoint : List UInt8} {tr : List RuleActionPair}
    {start priority : ℕ} {actions : List (List UInt8)} :
    matchRules num hosts steps endpoint tr start = some (some (actions, priority)) ↔
      ∃ n, priority = start + n ∧
        (∃ ra, tr[n]? = some ra ∧ ra.action = actions ∧
          ra.rule.matchEndpoint num hosts steps endpoint = some true) ∧
        ∀ i < n, ∀ ra, tr[i]? = some ra →
          ra.rule.matchEndpoint num hosts steps endpoint = some false := by
  induction tr generalizing start with
  | nil => simp [matchRules]
  | cons ra tr ih =>
    rw [matchRules]
    cases hra : ra.rule.matchEndpoint num hosts steps endpoint with
    | none =>
      constructor
      · intro h
        cases h
      · rintro ⟨n, -, ⟨rb, hrb, -, hmatch⟩, hbefore⟩
        cases n with
        | zero =>
          cases hrb
          rw [hra] at hmatch
          cases hmatch
        | succ n =>
          have h0 := hbefore 0 (by omega) ra rfl
          rw [hra] at h0
          cases h0
    | some b =>
      cases b with
      | true =>
        constructor
        · intro h
          cases h
          exact ⟨0, rfl, ⟨ra, rfl, rfl, hra⟩, by simp⟩
        · rintro ⟨n, rfl, ⟨rb, hrb, rfl, -⟩, hbefore⟩
          cases n with
          | zero =>
            cases hrb
            rfl
          | succ n =>
            have h0 := hbefore 0 (by omega) ra rfl
            rw [hra] at h0
            cases h0
      | false =>
        change matchRules num hosts steps endpoint tr (start + 1) = _ ↔ _
        rw [ih]
        constructor
        · rintro ⟨n, rfl, hmatch, hbefore⟩
          refine ⟨n + 1, by omega, hmatch, ?_⟩
          intro i hi rb hrb
          cases i with
          | zero =>
            cases hrb
            exact hra
          | succ i => exact hbefore i (by omega) rb hrb
        · rintro ⟨n, rfl, ⟨rb, hrb, hact, hmatch⟩, hbefore⟩
          cases n with
          | zero =>
            cases hrb
            rw [hra] at hmatch
            cases hmatch
          | succ n =>
            exact ⟨n, by omega, ⟨rb, hrb, hact, hmatch⟩,
              fun i hi rb hrb => hbefore (i + 1) (by omega) rb hrb⟩

/-- A rule string that is rejected leaves the list as it was, unless it emptied it first. -/
theorem rejected_iff {depth : ℕ} {tr : List RuleActionPair} {rs : List UInt8} :
    (∀ tr', parseAndAddRuleString num hosts depth tr rs = some (false, tr') → tr' = tr) ↔
      ∀ q, splitRuleString rs = some q → q.resetList = true →
        Refused num hosts depth q.addressMask → tr = [] := by
  constructor
  · intro h q hq hreset hrefused
    have hparse : parseAndAddRuleString num hosts depth tr rs = some (false, []) := by
      rw [parseAndAddRuleString, hq]
      change createRules num hosts depth q.addressMask q.actions _ = _
      rw [createRules_eq_false_iff, if_pos hreset]
      exact ⟨hrefused, rfl⟩
    exact (h [] hparse).symm
  · intro h tr' hparse
    rw [parseAndAddRuleString] at hparse
    cases hq : splitRuleString rs with
    | none =>
      rw [hq] at hparse
      cases hparse
      rfl
    | some q =>
      rw [hq] at hparse
      obtain ⟨hrefused, rfl⟩ := createRules_eq_false_iff.mp hparse
      split_ifs with hreset
      · exact (h q hq hreset hrefused).symm
      · rfl

/-- Transport rules mean what their masks say exactly where the address of an IPv4 mask has no bits
outside it or nothing agrees with it, a prefix of an IPv4 address is not empty, the address of the
endpoint can be read, an IPv6 rule meets no interface after one that does not match, and no refused
mask follows a reset. -/
theorem transport_rules_right_iff {tr : List RuleActionPair} (htr : Reachable num tr) (depth : ℕ)
    (rs endpoint : List UInt8) :
    RulesRight num hosts depth tr rs endpoint ↔ RulesHold num hosts depth tr rs endpoint := by
  constructor
  · intro h
    constructor
    · intro q a m p hq ha hm hp
      exact (prefix4_iff hq ha hm hp).mp (h.byPrefix q a m p hq ha hm hp)
    · intro q a m hq ha hm
      have hmeans := h.byNetmask q a m hq ha hm
      rwa [means_iff hq (directRule_netmask ha hm), ipv4_right_iff, and_eq_left_iff] at hmeans
    · intro q a m p n hq ha hn hm hp
      have hmeans := h.byPrefix6 q a m p n hq ha hn hm hp
      rwa [means_iff hq (directRule_prefix6 ha hn hm hp), ipv6_right_iff hp] at hmeans
    · exact (rejected_iff num hosts).mp h.rejected
  · intro h
    constructor
    · intro q a m p hq ha hm hp
      exact (prefix4_iff hq ha hm hp).mpr (h.byPrefix q a m p hq ha hm hp)
    · intro q a m hq ha hm
      rw [means_iff hq (directRule_netmask ha hm), ipv4_right_iff, and_eq_left_iff]
      exact h.byNetmask q a m hq ha hm
    · intro q a m p n hq ha hn hm hp
      rw [means_iff hq (directRule_prefix6 ha hn hm hp), ipv6_right_iff hp]
      exact h.byPrefix6 q a m p n hq ha hn hm hp
    · intro steps actions priority
      rw [matchRules_eq_some]
      simp
    · have hall : parseAll num hosts (depth + 1) [] _ = _ :=
        parseAll_dumpRuleString htr.wellFormed depth []
      simpa using hall
    · exact (rejected_iff num hosts).mpr h.rejected

/-! ### A network with bits of a host -/

/-- `inet_addr` of four decimal numbers. -/
def dottedQuad (s : List UInt8) : BitVec 32 :=
  (s.splitOn 0x2e).foldl (fun v d => v * 256 + BitVec.ofNat 32 (strtoulBase 10 d).1) 0

/-- A host with one interface, without IPv6 and without a name service. -/
def ipv4Only : Numeric := ⟨dottedQuad, fun _ => none⟩

def oneInterface : Hosts := ⟨fun _ => [], some [ascii "192.168.0.1"]⟩

theorem transport_rules_right_iff_added :
    RulesRight ipv4Only oneInterface 1 [⟨.matchAll (ascii "*"), [ascii "unix", ascii "tcp"]⟩]
        (ascii "192.168.0.0/24 tcp") (ascii "giop:tcp:192.168.0.7:1") ↔
      RulesHold ipv4Only oneInterface 1 [⟨.matchAll (ascii "*"), [ascii "unix", ascii "tcp"]⟩]
        (ascii "192.168.0.0/24 tcp") (ascii "giop:tcp:192.168.0.7:1") := by
  have hplain : oneInterface.Plain := by
    intro name addr haddr
    cases haddr
  have hadd : parseAndAddRuleString ipv4Only oneInterface 1 [] (ascii " * unix , tcp")
      = some (true, [⟨.matchAll (ascii "*"), [ascii "unix", ascii "tcp"]⟩]) := by
    decide
  exact transport_rules_right_iff ipv4Only oneInterface (.add .empty hplain hadd) 1 _ _

set_option maxRecDepth 20000 in
/-- The rule for `192.168.0.5/24` does not match its neighbour `192.168.0.7`. -/
theorem host_bits_not_masked :
    ¬RulesRight ipv4Only oneInterface 0 [] (ascii "192.168.0.5/24 tcp")
      (ascii "giop:tcp:192.168.0.7:1") := by
  intro h
  have hsplit : splitRuleString (ascii "192.168.0.5/24 tcp")
      = some ⟨false, ascii "192.168.0.5/24", [ascii "tcp"]⟩ := by
    decide
  have hq : MaskString (ascii "192.168.0.5/24 tcp") (ascii "192.168.0.5") (ascii "24")
      ⟨false, ascii "192.168.0.5/24", [ascii "tcp"]⟩ :=
    ⟨hsplit, by decide⟩
  have hnumeral : Numeral (ascii "24") 24 := ⟨by decide, by decide, by decide⟩
  have haddr : isip4addr (ascii "192.168.0.5") = true := by decide
  have hmeans := h.byPrefix _ _ _ 24 hq haddr hnumeral (by decide)
  obtain ⟨-, -, hclear | hno⟩ := (prefix4_iff hq haddr hnumeral (by decide)).mp hmeans
  · have hbit : (dottedQuad (ascii "192.168.0.5")).getMsbD 31 = true := by decide
    have hzero : (dottedQuad (ascii "192.168.0.5")).getMsbD 31 = false := hclear 31 (by decide)
    rw [hbit] at hzero
    cases hzero
  · apply hno
    have hhost : extractHost oneInterface (ascii "giop:tcp:192.168.0.7:1")
        = some (some (ascii "192.168.0.7")) := by
      decide
    have hunix : isUnix (ascii "giop:tcp:192.168.0.7:1") = false := by decide
    refine ⟨ascii "192.168.0.7", ?_, by decide, ?_⟩
    · rw [HasAddress, hunix]
      exact hhost
    · apply and_eq_and_iff.mp
      decide

end OmniORB
