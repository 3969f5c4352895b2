import OmniORB.Uri.Addresses

/-!
# Hosts, ports and URLs

`buildURI`, `extractHostPort` and `extractURL` of `uri.cc`, and which hosts come back from the text
that they are put in. A string is taken to be short enough for `string_alloc` here.
-/

namespace OmniORB

open Library

/-- `IIOP::Address` -/
structure Address where
  host : CString
  port : UInt16
  deriving DecidableEq

/-- The octets of a number as `%d` writes it. -/
def decimal (n : ℕ) : List UInt8 := (Nat.toDigits 10 n).map fun ch => UInt8.ofNat ch.toNat

def isSpace (c : UInt8) : Bool := c = 0x20 || (0x09 ≤ c && c ≤ 0x0d)

/-- `sscanf(c, "%d%n", &v, &n)`: the number and what is left behind it. Where the text ends before a
number the source goes on with a `v` that has no value, and this function has none either. -/
def scanInt (c : List UInt8) : Option (ℤ × List UInt8) :=
  let p := c.dropWhile isSpace
  let digits := if peek p = 0x2d ∨ peek p = 0x2b then p.drop 1 else p
  if isDigit (peek digits) then
    some (if peek p = 0x2d then -(strtoul digits).1 else (strtoul digits).1, (strtoul digits).2)
  else none

/-- A port, and what is left behind it. -/
def scanPort (c : List UInt8) : Option (UInt16 × List UInt8) :=
  (scanInt c).bind fun v =>
    if v.1 < 0 ∨ 65535 < v.1 then none else some (UInt16.ofNat v.1.toNat, v.2)

/-- A host as `buildURI` writes it: in brackets if there is a colon in it, unless it is in brackets
already. -/
def uriHost (host : List UInt8) : List UInt8 :=
  if 0x3a ∈ host ∧ ¬(peek host = 0x5b ∧ host.getLast? = some 0x5d) then [0x5b] ++ host ++ [0x5d]
  else host

/-- `omniURI::buildURI` without a path. -/
def buildURI (pre : List UInt8) (a : Address) : List UInt8 :=
  pre ++ (if pre ≠ [] ∧ pre.getLast? ≠ some 0x2f then [0x3a] else []) ++
    (uriHost a.host.octets ++ 0x3a :: decimal a.port.toNat)

/-- The port at the end of an address. -/
def portAtEnd (p : List UInt8) : Option UInt16 :=
  if p = [] then some 0
  else (scanPort p).bind fun v => if v.2 = [] then some v.1 else none

/-- `omniURI::extractHostPort` without `rest`. -/
def extractHostPort (addr : List UInt8) : Option Address :=
  if peek addr = 0x5b then
    let host := (addr.drop 1).takeWhile (· ≠ 0x5d)
    let p := (addr.drop 1).dropWhile (· ≠ 0x5d)
    if p = [] ∨ host = [] then none
    else if peek (p.drop 1) ≠ 0x3a then none
    else (portAtEnd (p.drop 2)).map (Address.mk (.ofBuffer host))
  else
    let p := addr.dropWhile (· ≠ 0x3a)
    if p = [] then none
    else (portAtEnd (p.drop 1)).map (Address.mk (.ofBuffer (addr.takeWhile (· ≠ 0x3a))))

/-- What `omniURI::extractURL` gives. -/
structure URL where
  scheme : CString
  address : Address
  path : CString
  fragment : CString

/-- The host of a URL, and what is left behind it. -/
def extractURLHost (url : List UInt8) : Option (List UInt8 × List UInt8) :=
  if peek url = 0x5b then
    let host := (url.drop 1).takeWhile (· ≠ 0x5d)
    let p := (url.drop 1).dropWhile (· ≠ 0x5d)
    if p = [] ∨ host = [] then none else some (host, p.drop 1)
  else
    let stop : UInt8 := if 0x3a ∈ url then 0x3a else 0x2f
    some (url.takeWhile (· ≠ stop), url.dropWhile (· ≠ stop))

/-- `omniURI::extractURL` -/
def extractURL (url : List UInt8) : Option URL :=
  let p := url.dropWhile (· ≠ 0x3a)
  if startsWith (ascii "://") p then
    (extractURLHost (p.drop 3)).bind fun host =>
      (if peek host.2 = 0x3a then scanPort (host.2.drop 1) else some (0, host.2)).bind fun port =>
        let slash := peek port.2 = 0x2f
        let path := if slash then (port.2.drop 1).takeWhile (· ≠ 0x23) else []
        let rest := if slash then (port.2.drop 1).dropWhile (· ≠ 0x23) else port.2
        some {
          scheme := .ofBuffer (url.takeWhile (· ≠ 0x3a))
          address := ⟨.ofBuffer host.1, port.1⟩
          path := .ofBuffer path
          fragment := .ofBuffer (if peek rest = 0x23 then rest.drop 1 else []) }
  else none

/-! ### Ports -/

lemma toNat_ofNat_digit {ch : Char} (h : ch.isDigit = true) :
    0x30 ≤ (UInt8.ofNat ch.toNat).toNat ∧ (UInt8.ofNat ch.toNat).toNat ≤ 0x39 ∧
      (UInt8.ofNat ch.toNat).toNat = ch.toNat := by
  have hd : 48 ≤ ch.toNat ∧ ch.toNat ≤ 57 := by
    rw [Char.isDigit, Bool.and_eq_true, decide_eq_true_eq, decide_eq_true_eq] at h
    exact h
  rw [UInt8.toNat_ofNat']
  omega

lemma isDigit_of_mem_decimal {n : ℕ} {c : UInt8} (h : c ∈ decimal n) : isDigit c = true := by
  obtain ⟨ch, hch, rfl⟩ := List.mem_map.mp h
  have hd := toNat_ofNat_digit (Nat.isDigit_of_mem_toDigits (by decide) (by decide) hch)
  rw [isDigit, Bool.and_eq_true, decide_eq_true_eq, decide_eq_true_eq, UInt8.le_iff_toNat_le,
    UInt8.le_iff_toNat_le]
  exact ⟨hd.1, hd.2.1⟩

lemma notMem_decimal {n : ℕ} {c : UInt8} (hc : isDigit c = false) : c ∉ decimal n := by
  intro h
  rw [isDigit_of_mem_decimal h] at hc
  cases hc

lemma isSpace_of_isDigit {c : UInt8} (h : isDigit c = true) : isSpace c = false := by
  simp only [isDigit, isSpace, Bool.and_eq_true, decide_eq_true_eq, UInt8.le_iff_toNat_le,
    Bool.or_eq_false_iff, decide_eq_false_iff_not, Bool.and_eq_false_iff] at h ⊢
  have h30 : (0x30 : UInt8).toNat = 0x30 := rfl
  have h0d : (0x0d : UInt8).toNat = 0x0d := rfl
  constructor
  · rintro rfl
    exact absurd h.1 (by decide)
  · omega

lemma decimal_ne_nil (n : ℕ) : decimal n ≠ [] := by
  rw [decimal, ne_eq, List.map_eq_nil_iff]
  exact Nat.toDigits_ne_nil

/-- The digits of a number spell it. -/
lemma foldl_decimal (n : ℕ) :
    (decimal n).foldl (fun l d => 10 * l + (d.toNat - 0x30)) 0 = n := by
  rw [decimal, List.foldl_map]
  refine Eq.trans ?_ (Nat.ofDigitChars_ten_toDigits (n := n))
  rw [Nat.ofDigitChars_eq_foldl]
  refine List.foldl_ext _ _ _ fun l ch hch => ?_
  rw [(toNat_ofNat_digit (Nat.isDigit_of_mem_toDigits (by decide) (by decide) hch)).2.2]
  rfl

lemma strtoul_decimal (n : ℕ) : strtoul (decimal n) = (min n (2 ^ 64 - 1), []) := by
  have hall : ∀ c ∈ decimal n, isDigit c = true := fun c => isDigit_of_mem_decimal
  rw [strtoul, List.takeWhile_eq_self_iff.mpr hall, List.dropWhile_eq_nil_iff.mpr hall,
    foldl_decimal]

/-- The port that ends an address reads back. -/
lemma portAtEnd_decimal (p : UInt16) : portAtEnd (decimal p.toNat) = some p := by
  have hp := p.toNat_lt
  obtain ⟨c, t, hct⟩ := List.exists_cons_of_ne_nil (decimal_ne_nil p.toNat)
  have hc : isDigit c = true := isDigit_of_mem_decimal (by rw [hct]; exact List.mem_cons_self)
  have hspace := isSpace_of_isDigit hc
  have hsign : c ≠ 0x2d ∧ c ≠ 0x2b := by
    constructor <;> (rintro rfl; exact absurd hc (by decide))
  have hint : scanInt (decimal p.toNat) = some ((p.toNat : ℤ), []) := by
    have hdrop : (decimal p.toNat).dropWhile isSpace = decimal p.toNat := by
      rw [hct, List.dropWhile_cons_of_neg (by rw [hspace]; decide)]
    have hpeek : peek (decimal p.toNat) = c := by rw [hct]; rfl
    have hstr := strtoul_decimal p.toNat
    rw [min_eq_left (by omega)] at hstr
    simp only [scanInt, hdrop, hpeek, hsign.1, hsign.2, or_self, if_false, hc, if_true, hstr]
  rw [portAtEnd, if_neg (decimal_ne_nil _), scanPort, hint, Option.bind_some, if_neg (by omega)]
  simp

/-! ### Hosts -/

/-- A host comes back from the text of an address: without a closing bracket if there is a colon in
it, and else without an opening bracket at its start. -/
def CString.Readable (host : CString) : Prop :=
  if 0x3a ∈ host.octets then 0x5d ∉ host.octets else peek host.octets ≠ 0x5b

instance (host : CString) : Decidable host.Readable :=
  inferInstanceAs (Decidable (ite (0x3a ∈ host.octets) _ _))

lemma CString.ofBuffer_octets (s : CString) : ofBuffer s.octets = s := by
  apply CString.ext
  refine List.takeWhile_eq_self_iff.mpr fun c hc => ?_
  rw [decide_eq_true_eq]
  rintro rfl
  exact s.noNul hc

/-- The text of an address up to an octet that ends its host. -/
lemma takeWhile_append_stop {x : UInt8} {l : List UInt8} (hl : x ∉ l) (t : List UInt8) :
    (l ++ x :: t).takeWhile (· ≠ x) = l ∧ (l ++ x :: t).dropWhile (· ≠ x) = x :: t := by
  have hall : ∀ c ∈ l, decide (c ≠ x) = true := by
    intro c hc
    rw [decide_eq_true_eq]
    rintro rfl
    exact hl hc
  rw [List.takeWhile_append_of_pos hall, List.dropWhile_append_of_pos hall]
  simp

variable {a : Address}

/-- The text of an address with a readable host gives the address. -/
lemma extractHostPort_of_readable (h : a.host.Readable) :
    extractHostPort (uriHost a.host.octets ++ 0x3a :: decimal a.port.toNat) = some a := by
  have hport := portAtEnd_decimal a.port
  have hhost := a.host.ofBuffer_octets
  rw [CString.Readable] at h
  split_ifs at h with hcolon
  · have hbrackets : uriHost a.host.octets = 0x5b :: (a.host.octets ++ [0x5d]) := by
      rw [uriHost, if_pos ⟨hcolon, fun hb => h (List.mem_of_getLast? hb.2)⟩]
      rfl
    have hsplit := takeWhile_append_stop h (0x3a :: decimal a.port.toNat)
    have hne : a.host.octets ≠ [] := List.ne_nil_of_mem hcolon
    have htext : uriHost a.host.octets ++ 0x3a :: decimal a.port.toNat =
        0x5b :: (a.host.octets ++ 0x5d :: 0x3a :: decimal a.port.toNat) := by
      simp [hbrackets]
    have hpeek : peek (0x5b :: (a.host.octets ++ 0x5d :: 0x3a :: decimal a.port.toNat)) = 0x5b := rfl
    rw [htext, extractHostPort, if_pos hpeek, List.drop_one, List.tail_cons, hsplit.1, hsplit.2]
    simp [hne, peek, hport, hhost]
  · have hplain : uriHost a.host.octets = a.host.octets := by
      rw [uriHost, if_neg (fun hb => hcolon hb.1)]
    have hsplit := takeWhile_append_stop hcolon (decimal a.port.toNat)
    have hpeek : peek (a.host.octets ++ 0x3a :: decimal a.port.toNat) ≠ 0x5b := by
      cases ho : a.host.octets with
      | nil => exact (by decide : (0x3a : UInt8) ≠ 0x5b)
      | cons c t => rwa [ho] at h
    rw [hplain, extractHostPort, if_neg hpeek, hsplit.1, hsplit.2]
    simp [hport, hhost]

/-- The host that is taken from brackets has no closing bracket in it. -/
lemma notMem_of_extractHostPort {t : List UInt8} (h : extractHostPort (0x5b :: t) = some a) :
    0x5d ∈ t ∧ 0x5d ∉ a.host.octets := by
  have hpeek : peek (0x5b :: t) = 0x5b := rfl
  rw [extractHostPort, if_pos hpeek] at h
  simp only [List.drop_one, List.tail_cons] at h
  split_ifs at h with hnil hend
  obtain ⟨port, -, rfl⟩ := Option.map_eq_some_iff.mp h
  constructor
  · by_contra hclose
    refine hnil (Or.inl (List.dropWhile_eq_nil_iff.mpr fun c hc => ?_))
    rw [decide_eq_true_eq]
    rintro rfl
    exact hclose hc
  · intro hmem
    have hhost := (List.takeWhile_sublist _).subset hmem
    exact absurd (List.mem_takeWhile_imp hhost) (by decide)

/-- A host that is not readable does not come back. -/
lemma readable_of_extractHostPort
    (h : extractHostPort (uriHost a.host.octets ++ 0x3a :: decimal a.port.toNat) = some a) :
    a.host.Readable := by
  have hclose : (0x5d : UInt8) ∉ 0x3a :: decimal a.port.toNat := by
    rw [List.mem_cons, not_or]
    exact ⟨by decide, notMem_decimal (by decide)⟩
  rw [CString.Readable]
  split_ifs with hcolon
  · -- the text starts with a bracket, the host's own or one put around it
    by_cases hb : peek a.host.octets = 0x5b ∧ a.host.octets.getLast? = some 0x5d
    · obtain ⟨c, t, hct⟩ := List.exists_cons_of_ne_nil (List.ne_nil_of_mem hcolon)
      have hc : c = 0x5b := by rw [← hb.1, hct]; rfl
      rw [uriHost, if_neg (fun hn => hn.2 hb)] at h
      nth_rewrite 1 [hct] at h
      rw [hc, List.cons_append] at h
      exact (notMem_of_extractHostPort h).2
    · rw [uriHost, if_pos ⟨hcolon, hb⟩] at h
      exact (notMem_of_extractHostPort h).2
  · intro hpeek
    rw [uriHost, if_neg (fun hn => hcolon hn.1)] at h
    cases ho : a.host.octets with
    | nil => rw [ho] at hpeek; exact absurd hpeek (by decide)
    | cons c t =>
      rw [ho] at hpeek
      obtain rfl : c = 0x5b := hpeek
      nth_rewrite 1 [ho] at h
      obtain ⟨hmem, hnot⟩ := notMem_of_extractHostPort h
      rw [ho, List.mem_cons, not_or] at hnot
      exact (List.mem_append.mp hmem).elim hnot.2 hclose

/-! ### The port comes back, whatever the host is -/

lemma mem_dropWhile_of_mem {x : UInt8} {f : UInt8 → Bool} (hf : f x = false) {l : List UInt8}
    (h : x ∈ l) : x ∈ l.dropWhile f := by
  rw [← List.takeWhile_append_dropWhile (p := f) (l := l), List.mem_append] at h
  refine h.resolve_left fun htake => ?_
  have hx := List.mem_takeWhile_imp htake
  rw [hf] at hx
  cases hx

/-- A number that ends a text has no colon in it. -/
lemma colon_notMem_of_scanInt {p : List UInt8} {v : ℤ} (h : scanInt p = some (v, [])) :
    0x3a ∉ p := by
  intro hmem
  have hspace := mem_dropWhile_of_mem (f := isSpace) (by decide) hmem
  rw [scanInt] at h
  generalize p.dropWhile isSpace = q at hspace h
  have hdigits : (0x3a : UInt8) ∈ if peek q = 0x2d ∨ peek q = 0x2b then q.drop 1 else q := by
    split_ifs with hsign
    · cases q with
      | nil => cases hspace
      | cons c t =>
        rcases List.mem_cons.mp hspace with rfl | ht
        · exact absurd hsign (by decide : ¬((0x3a : UInt8) = 0x2d ∨ (0x3a : UInt8) = 0x2b))
        · exact ht
    · exact hspace
  generalize (if peek q = 0x2d ∨ peek q = 0x2b then q.drop 1 else q) = digits at hdigits h
  split_ifs at h
  all_goals
    rw [Option.some.injEq, Prod.mk.injEq] at h
    have hnil : digits.dropWhile isDigit = [] := h.2
    have hrest := mem_dropWhile_of_mem (f := isDigit) (by decide) hdigits
    rw [hnil] at hrest
    cases hrest

lemma colon_notMem_of_portAtEnd {p : List UInt8} {port : UInt16} (h : portAtEnd p = some port) :
    0x3a ∉ p := by
  rw [portAtEnd] at h
  split_ifs at h with hnil
  · rw [hnil]
    exact List.not_mem_nil
  · obtain ⟨v, hv, h⟩ := Option.bind_eq_some_iff.mp h
    split_ifs at h with hrest
    obtain ⟨w, hw, hv⟩ := Option.bind_eq_some_iff.mp hv
    split_ifs at hv
    obtain rfl := Option.some.inj hv
    apply colon_notMem_of_scanInt (v := w.1)
    rw [hw, ← hrest]

/-- The text behind the last colon. -/
lemma eq_of_last_colon {s t u v : List UInt8} (h : u ++ 0x3a :: s = v ++ 0x3a :: t)
    (hs : 0x3a ∉ s) (ht : 0x3a ∉ t) : s = t := by
  rcases List.append_eq_append_iff.mp h with ⟨c, -, hc⟩ | ⟨c, -, hc⟩
  · cases c with
    | nil => exact (List.cons.inj hc).2
    | cons x c => exact absurd (by rw [(List.cons.inj hc).2]; simp) hs
  · cases c with
    | nil => exact (List.cons.inj hc).2.symm
    | cons x c => exact absurd (by rw [(List.cons.inj hc).2]; simp) ht

/-- The text of an address from an octet that is searched for and found. -/
lemma dropWhile_eq_cons {x : UInt8} {l : List UInt8} (h : l.dropWhile (· ≠ x) ≠ []) :
    l.dropWhile (· ≠ x) = x :: (l.dropWhile (· ≠ x)).drop 1 := by
  have hhead := List.head_dropWhile_not (fun c => decide (c ≠ x)) h
  rw [decide_eq_false_iff_not, not_not] at hhead
  nth_rewrite 1 [← List.cons_head_tail h]
  rw [hhead, List.drop_one]

/-- The port of an address is behind the last colon of its text. -/
lemma exists_of_extractHostPort {addr : List UInt8} (h : extractHostPort addr = some a) :
    ∃ u t, addr = u ++ 0x3a :: t ∧ portAtEnd t = some a.port := by
  rw [extractHostPort] at h
  split_ifs at h with hbracket
  · generalize hp : (addr.drop 1).dropWhile (· ≠ 0x5d) = p at h
    dsimp only at h
    split_ifs at h with hnil hend
    obtain ⟨port, hport, rfl⟩ := Option.map_eq_some_iff.mp h
    rw [not_or] at hnil
    rw [not_not] at hend
    obtain ⟨c, t, hct⟩ : ∃ c t, p.drop 1 = c :: t :=
      List.exists_cons_of_ne_nil (fun hn => by rw [hn] at hend; exact absurd hend (by decide))
    rw [hct] at hend
    obtain rfl : c = 0x3a := hend
    have haddr : addr = addr.take 1 ++ ((addr.drop 1).takeWhile (· ≠ 0x5d) ++ p) := by
      rw [← hp, List.takeWhile_append_dropWhile, List.take_append_drop]
    have ht : p.drop 2 = t := by
      rw [← List.drop_drop (i := 1) (j := 1), hct]
      rfl
    rw [ht] at hport
    have hsplit : p = p.take 1 ++ 0x3a :: t := by rw [← hct, List.take_append_drop]
    rw [hsplit, ← List.append_assoc, ← List.append_assoc] at haddr
    exact ⟨_, t, haddr, hport⟩
  · dsimp only at h
    split_ifs at h with hnil
    obtain ⟨port, hport, rfl⟩ := Option.map_eq_some_iff.mp h
    refine ⟨addr.takeWhile (· ≠ 0x3a), _, ?_, hport⟩
    rw [← dropWhile_eq_cons hnil, List.takeWhile_append_dropWhile]

lemma port_of_extractHostPort {b : Address}
    (h : extractHostPort (uriHost a.host.octets ++ 0x3a :: decimal a.port.toNat) = some b) :
    b.port = a.port := by
  obtain ⟨u, t, htext, hport⟩ := exists_of_extractHostPort h
  have ht := eq_of_last_colon htext (notMem_decimal (by decide)) (colon_notMem_of_portAtEnd hport)
  rw [← ht, portAtEnd_decimal, Option.some.injEq] at hport
  exact hport.symm

end OmniORB
