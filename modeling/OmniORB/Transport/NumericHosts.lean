import OmniORB.Uri.Numbers

/-!
# Numeric hosts

`isip4addr` and `isip6addr` of `libcWrapper.cc`: which octets an address is made of. A string is the
octets before its terminator.
-/

namespace OmniORB

/-- `checkNumber`: the number is kept in a `long`. -/
def checkNumber (num : List UInt8) (base max : ℕ) : Bool :=
  Int.bmod (strtoulBase base num).1 (2 ^ 64) ≤ max && (strtoulBase base num).2 = []

/-! ### Addresses -/

/-- The loop of `isip4addr`, with what is in `buf`. -/
def isip4addrLoop : List UInt8 → List UInt8 → ℕ → Bool
  | [], buf, dots => dots = 3 && checkNumber buf 10 255
  | c :: rest, buf, dots =>
    if c = 0x2e then
      if buf = [] then false
      else if checkNumber buf 10 255 then isip4addrLoop rest [] (dots + 1)
      else false
    else if isDigit c then
      if buf.length + 1 = 4 then false else isip4addrLoop rest (buf ++ [c]) dots
    else false

/-- `LibcWrapper::isip4addr` -/
def isip4addr (node : List UInt8) : Bool := isip4addrLoop node [] 0

/-- The variables of `isip6addr`. -/
structure Ip6Scan where
  buf : List UInt8
  colons : ℕ
  dots : ℕ
  seenBlank : Bool

/-- The last number of an IPv6 address. -/
def Ip6Scan.ends (node : List UInt8) (st : Ip6Scan) : Bool :=
  if st.buf = [] then node.reverse.take 2 = [0x3a, 0x3a]
  else if st.dots ≠ 0 then
    if st.dots = 3 then isip4addr st.buf else false
  else checkNumber st.buf 16 0xffff

/-- What follows the loop of `isip6addr`. -/
def Ip6Scan.accepts (node : List UInt8) (st : Ip6Scan) : Bool :=
  if st.seenBlank then
    if st.colons < 2 ∨ 7 < st.colons then false else st.ends node
  else if st.colons ≠ (if st.dots ≠ 0 then 6 else 7) then false
  else st.ends node

/-- The loop of `isip6addr`. -/
def isip6addrLoop (node : List UInt8) : List UInt8 → Ip6Scan → Bool
  | [], st => st.accepts node
  | c :: rest, st =>
    if c = 0x3a then
      let st := { st with colons := st.colons + 1 }
      if st.buf ≠ [] then
        if checkNumber st.buf 16 0xffff then isip6addrLoop node rest { st with buf := [] } else false
      else if rest.length + 1 = node.length then
        -- a colon comes first
        if peek rest ≠ 0x3a then false else isip6addrLoop node rest st
      else if st.seenBlank then false
      else isip6addrLoop node rest { st with seenBlank := true }
    else if (hexDigit c).isSome then
      let st := { st with buf := st.buf ++ [c] }
      if st.buf.length = (if st.dots = 0 then 5 else 16) then false else isip6addrLoop node rest st
    else if c = 0x2e then
      let st := { st with dots := st.dots + 1, buf := st.buf ++ [c] }
      if st.buf.length = 16 then false else isip6addrLoop node rest st
    else false

/-- `LibcWrapper::isip6addr` -/
def isip6addr (node : List UInt8) : Bool :=
  isip6addrLoop node node { buf := [], colons := 0, dots := 0, seenBlank := false }

/-! ### What addresses are made of -/

lemma isip4addrLoop_spec {s buf : List UInt8} {dots : ℕ} (h : isip4addrLoop s buf dots = true) :
    (∀ c ∈ s, c = 0x2e ∨ isDigit c = true) ∧ dots + s.count 0x2e = 3 := by
  induction s generalizing buf dots with
  | nil =>
    rw [isip4addrLoop, Bool.and_eq_true, decide_eq_true_eq] at h
    exact ⟨by simp, by simpa using h.1⟩
  | cons c rest ih =>
    rw [isip4addrLoop] at h
    split_ifs at h with hdot hbuf hnum hdigit hlen
    · obtain ⟨hall, hcount⟩ := ih h
      constructor
      · rintro d hd
        rcases List.mem_cons.mp hd with rfl | hd
        · exact .inl hdot
        · exact hall d hd
      · rw [hdot, List.count_cons_self]
        omega
    · obtain ⟨hall, hcount⟩ := ih h
      constructor
      · rintro d hd
        rcases List.mem_cons.mp hd with rfl | hd
        · exact .inr hdigit
        · exact hall d hd
      · rw [List.count_cons_of_ne hdot]
        exact hcount

lemma mem_isip4addr {s : List UInt8} (h : isip4addr s = true) {c : UInt8} (hc : c ∈ s) :
    c = 0x2e ∨ isDigit c = true :=
  (isip4addrLoop_spec h).1 c hc

lemma dot_mem_isip4addr {s : List UInt8} (h : isip4addr s = true) : 0x2e ∈ s := by
  have hcount := (isip4addrLoop_spec h).2
  apply List.count_pos_iff.mp
  omega

/-- The octets of which an IPv6 address is made. -/
def isIp6Char (c : UInt8) : Bool := c = 0x3a || (hexDigit c).isSome || c = 0x2e

lemma isip6addrLoop_spec {node s : List UInt8} {st : Ip6Scan}
    (h : isip6addrLoop node s st = true) :
    (∀ c ∈ s, isIp6Char c = true) ∧ 2 ≤ st.colons + s.count 0x3a := by
  induction s generalizing st with
  | nil =>
    rw [isip6addrLoop, Ip6Scan.accepts] at h
    refine ⟨by simp, ?_⟩
    split_ifs at h <;> simp <;> omega
  | cons c rest ih =>
    rw [isip6addrLoop] at h
    have hstep : ∀ st' : Ip6Scan, isip6addrLoop node rest st' = true → isIp6Char c = true →
        st'.colons = st.colons + (if c = 0x3a then 1 else 0) →
        (∀ d ∈ c :: rest, isIp6Char d = true) ∧ 2 ≤ st.colons + (c :: rest).count 0x3a := by
      intro st' h' hchar hcolons
      obtain ⟨hall, hcount⟩ := ih h'
      constructor
      · rintro d hd
        rcases List.mem_cons.mp hd with rfl | hd
        · exact hchar
        · exact hall d hd
      · rw [List.count_cons]
        simp only [beq_iff_eq]
        omega
    dsimp only at h
    by_cases hcolon : c = 0x3a
    · have hchar : isIp6Char c = true := by simp [isIp6Char, hcolon]
      rw [if_pos hcolon] at h
      split_ifs at h with hbuf hnum hstart hnext hblank
      · exact hstep _ h hchar (by simp [hcolon])
      · exact hstep _ h hchar (by simp [hcolon])
      · exact hstep _ h hchar (by simp [hcolon])
    · rw [if_neg hcolon] at h
      by_cases hhex : (hexDigit c).isSome
      · rw [if_pos hhex] at h
        split_ifs at h with hdots hfull hfull
        · exact hstep _ h (by simp [isIp6Char, hhex]) (by simp [hcolon])
        · exact hstep _ h (by simp [isIp6Char, hhex]) (by simp [hcolon])
      · rw [if_neg hhex] at h
        split_ifs at h with hdot hlen
        exact hstep _ h (by simp [isIp6Char, hdot]) (by simp [hcolon])

lemma mem_isip6addr {s : List UInt8} (h : isip6addr s = true) {c : UInt8} (hc : c ∈ s) :
    isIp6Char c = true :=
  (isip6addrLoop_spec h).1 c hc

lemma colon_mem_isip6addr {s : List UInt8} (h : isip6addr s = true) : 0x3a ∈ s := by
  have hcount := (isip6addrLoop_spec h).2
  apply List.count_pos_iff.mp
  change 2 ≤ 0 + s.count 0x3a at hcount
  omega

/-- No address is one of both families. -/
lemma isip4addr_of_isip6addr {s : List UInt8} (h : isip6addr s = true) : isip4addr s = false := by
  cases h4 : isip4addr s with
  | false => rfl
  | true =>
    rcases mem_isip4addr h4 (colon_mem_isip6addr h) with hc | hc
    · cases hc
    · cases hc

end OmniORB
