import OmniORB.Uri.HostPort

/-!
# URLs and their parts

Which URLs `extractURL` takes apart into what `buildURI` put together. A host that is not in brackets
ends at the first colon of all that follows it, not only at that of a port.
-/

namespace OmniORB

open Library

/-- `omniURI::buildURI` -/
def buildURIPath (pre host : List UInt8) (port : UInt16) (path : Option (List UInt8))
    (alwaysPort : Bool) : List UInt8 :=
  pre ++ (if pre ≠ [] ∧ pre.getLast? ≠ some 0x2f then [0x3a] else []) ++ (uriHost host ++
    ((if port ≠ 0 ∨ alwaysPort then 0x3a :: decimal port.toNat else []) ++
      path.elim [] fun p => 0x2f :: p))

/-- By default there is a port, and no path. -/
lemma buildURI_eq (pre : List UInt8) (a : Address) :
    buildURI pre a = buildURIPath pre a.host.octets a.port none true := by
  have hport : a.port ≠ 0 ∨ true = true := .inr rfl
  rw [buildURI, buildURIPath, if_pos hport, Option.elim_none, List.append_nil]

/-- The parts of a URL. No part contains what ends it: a scheme a colon, a host brackets, a `/` or a
`#`, and a path a `#`. A host with a colon is an IPv6 literal. -/
structure URLParts where
  scheme : CString
  host : CString
  port : UInt16
  path : Option CString
  fragment : Option CString
  scheme_legal : 0x3a ∉ scheme.octets
  host_legal : ∀ c ∈ ([0x5b, 0x5d, 0x2f, 0x23] : List UInt8), c ∉ host.octets
  path_legal : ∀ p ∈ path, 0x23 ∉ p.octets

namespace URLParts

variable (u : URLParts) (alwaysPort : Bool)

/-- The fragment, behind its `#`. -/
def fragmentText : List UInt8 := u.fragment.elim [] fun f => 0x23 :: f.octets

/-- The path behind its `/`, and the fragment. -/
def pathText : List UInt8 := (u.path.elim [] fun p => 0x2f :: p.octets) ++ u.fragmentText

/-- All that follows the host. -/
def tailText : List UInt8 :=
  (if u.port ≠ 0 ∨ alwaysPort then 0x3a :: decimal u.port.toNat else []) ++ u.pathText

/-- A URL of the parts: the URI that is built from all of them but the fragment, and the fragment. -/
def text : List UInt8 :=
  buildURIPath (u.scheme.octets ++ ascii "://") u.host.octets u.port (u.path.map CString.octets)
    alwaysPort ++ u.fragmentText

/-- What `extractURL` gives for the parts: a path or fragment that there is not is empty. -/
def toURL : URL where
  scheme := u.scheme
  address := ⟨u.host, u.port⟩
  path := u.path.getD .empty
  fragment := u.fragment.getD .empty

lemma text_eq : u.text alwaysPort =
    u.scheme.octets ++ 0x3a :: 0x2f :: 0x2f :: (uriHost u.host.octets ++ u.tailText alwaysPort) := by
  have hslash : (u.scheme.octets ++ ascii "://").getLast? = some 0x2f := by
    rw [List.getLast?_append]
    rfl
  have hno : ¬(u.scheme.octets ++ ascii "://" ≠ [] ∧
      (u.scheme.octets ++ ascii "://").getLast? ≠ some 0x2f) := fun h => h.2 hslash
  have hpath : ((u.path.map CString.octets).elim [] fun p => 0x2f :: p) =
      u.path.elim [] fun p => 0x2f :: p.octets := by
    cases u.path with
    | none => rfl
    | some p => rfl
  rw [text, buildURIPath, if_neg hno, hpath, tailText, pathText, List.append_nil]
  simp only [List.append_assoc]
  rfl

/-! ### What follows the host -/

lemma scanPort_decimal (p : UInt16) {r : List UInt8} (hr : isDigit (peek r) = false) :
    scanPort (decimal p.toNat ++ r) = some (p, r) := by
  have hp := p.toNat_lt
  obtain ⟨c, t, hct⟩ := List.exists_cons_of_ne_nil (decimal_ne_nil p.toNat)
  have hc : isDigit c = true := isDigit_of_mem_decimal (by rw [hct]; exact List.mem_cons_self)
  have hspace := isSpace_of_isDigit hc
  have hsign : c ≠ 0x2d ∧ c ≠ 0x2b := by
    constructor <;> (rintro rfl; exact absurd hc (by decide))
  have hstr : strtoul (decimal p.toNat ++ r) = (p.toNat, r) := by
    have halone := strtoul_decimal p.toNat
    rw [min_eq_left (by omega), strtoul, Prod.mk.injEq] at halone
    have hall : ∀ c ∈ decimal p.toNat, isDigit c = true := fun c => isDigit_of_mem_decimal
    have hstop : r.takeWhile isDigit = [] ∧ r.dropWhile isDigit = r := by
      cases r with
      | nil => exact ⟨rfl, rfl⟩
      | cons d r =>
        have hd : isDigit d ≠ true := by
          change isDigit d = false at hr
          rw [hr]
          exact Bool.false_ne_true
        exact ⟨List.takeWhile_cons_of_neg hd, List.dropWhile_cons_of_neg hd⟩
    have htake : (decimal p.toNat).takeWhile isDigit = decimal p.toNat :=
      List.takeWhile_eq_self_iff.mpr hall
    rw [htake] at halone
    rw [strtoul, List.takeWhile_append_of_pos hall, List.dropWhile_append_of_pos hall, hstop.1,
      hstop.2, List.append_nil, halone.1]
  have hdrop : (decimal p.toNat ++ r).dropWhile isSpace = decimal p.toNat ++ r := by
    rw [hct, List.cons_append, List.dropWhile_cons_of_neg (by rw [hspace]; decide)]
  have hpeek : peek (decimal p.toNat ++ r) = c := by
    rw [hct]
    rfl
  have hint : scanInt (decimal p.toNat ++ r) = some ((p.toNat : ℤ), r) := by
    simp only [scanInt, hdrop, hpeek, hsign.1, hsign.2, or_self, if_false, hc, if_true, hstr]
  rw [scanPort, hint, Option.bind_some, if_neg (by omega)]
  simp

/-- The octet that a path or fragment begins with. -/
lemma peek_pathText : peek u.pathText = 0x2f ∧ u.path.isSome ∨
    u.path = none ∧ (peek u.pathText = 0x23 ∧ u.fragment.isSome ∨
      u.fragment = none ∧ u.pathText = []) := by
  unfold pathText fragmentText
  cases u.path with
  | some p => exact .inl ⟨rfl, rfl⟩
  | none =>
    cases u.fragment with
    | some f => exact .inr ⟨rfl, .inl ⟨rfl, rfl⟩⟩
    | none => exact .inr ⟨rfl, .inr ⟨rfl, rfl⟩⟩

lemma isDigit_peek_pathText : isDigit (peek u.pathText) = false := by
  rcases u.peek_pathText with ⟨h, -⟩ | ⟨-, ⟨h, -⟩ | ⟨-, h⟩⟩
  · rw [h]
    decide
  · rw [h]
    decide
  · rw [h]
    decide

/-- The port and what is left behind it. -/
lemma port_tailText : (if peek (u.tailText alwaysPort) = 0x3a then
      scanPort ((u.tailText alwaysPort).drop 1) else some (0, u.tailText alwaysPort)) =
    some (u.port, u.pathText) := by
  unfold tailText
  by_cases hport : u.port ≠ 0 ∨ alwaysPort = true
  · rw [if_pos hport, List.cons_append, List.drop_one, List.tail_cons,
      scanPort_decimal u.port u.isDigit_peek_pathText]
    exact if_pos rfl
  · have hzero : u.port = 0 := by
      by_contra h
      exact hport (.inl h)
    have hno : peek u.pathText ≠ 0x3a := by
      rcases u.peek_pathText with ⟨h, -⟩ | ⟨-, ⟨h, -⟩ | ⟨-, h⟩⟩
      · rw [h]
        decide
      · rw [h]
        decide
      · rw [h]
        decide
    rw [if_neg hport, List.nil_append, if_neg hno, hzero]

/-- The path and the fragment. -/
lemma path_pathText :
    CString.ofBuffer (if peek u.pathText = 0x2f then (u.pathText.drop 1).takeWhile (· ≠ 0x23)
      else []) = u.path.getD .empty ∧
    (if peek u.pathText = 0x2f then (u.pathText.drop 1).dropWhile (· ≠ 0x23) else u.pathText) =
      u.fragmentText := by
  unfold pathText
  rcases hp : u.path with - | p
  · have hno : peek u.fragmentText ≠ 0x2f := by
      unfold fragmentText
      cases u.fragment with
      | none => exact (by decide : (0 : UInt8) ≠ 0x2f)
      | some f => exact (by decide : (0x23 : UInt8) ≠ 0x2f)
    rw [Option.elim_none, List.nil_append, if_neg hno, if_neg hno]
    exact ⟨rfl, rfl⟩
  · have hpath := u.path_legal p hp
    have hsplit : (p.octets ++ u.fragmentText).takeWhile (· ≠ 0x23) = p.octets ∧
        (p.octets ++ u.fragmentText).dropWhile (· ≠ 0x23) = u.fragmentText := by
      unfold fragmentText
      cases u.fragment with
      | none =>
        have hall : ∀ c ∈ p.octets, decide (c ≠ 0x23) = true := by
          intro c hc
          refine decide_eq_true ?_
          rintro rfl
          exact hpath hc
        rw [Option.elim_none, List.append_nil]
        exact ⟨List.takeWhile_eq_self_iff.mpr hall, List.dropWhile_eq_nil_iff.mpr hall⟩
      | some f => exact takeWhile_append_stop hpath f.octets
    have hslash : peek (0x2f :: (p.octets ++ u.fragmentText)) = 0x2f := rfl
    rw [Option.elim_some, List.cons_append, if_pos hslash, if_pos hslash, List.drop_one,
      List.tail_cons, hsplit.1, hsplit.2]
    exact ⟨p.ofBuffer_octets, rfl⟩

lemma fragment_fragmentText :
    CString.ofBuffer (if peek u.fragmentText = 0x23 then u.fragmentText.drop 1 else []) =
      u.fragment.getD .empty := by
  unfold fragmentText
  cases u.fragment with
  | none => rfl
  | some f => exact f.ofBuffer_octets

/-! ### Taking a URL apart -/

variable {u alwaysPort}

/-- From the host on everything comes back. -/
lemma extractURL_of_host (hhost : extractURLHost (uriHost u.host.octets ++ u.tailText alwaysPort) =
    some (u.host.octets, u.tailText alwaysPort)) :
    extractURL (u.text alwaysPort) = some u.toURL := by
  obtain ⟨hscheme, hrest⟩ := takeWhile_append_stop u.scheme_legal
    (0x2f :: 0x2f :: (uriHost u.host.octets ++ u.tailText alwaysPort))
  obtain ⟨hpath, hfragment⟩ := u.path_pathText
  have hstart : startsWith (ascii "://")
      (0x3a :: 0x2f :: 0x2f :: (uriHost u.host.octets ++ u.tailText alwaysPort)) = true := rfl
  have hdrop : (0x3a :: 0x2f :: 0x2f :: (uriHost u.host.octets ++ u.tailText alwaysPort)).drop 3 =
      uriHost u.host.octets ++ u.tailText alwaysPort := rfl
  rw [extractURL, u.text_eq alwaysPort, hscheme, hrest]
  dsimp only
  rw [if_pos hstart, hdrop, hhost, Option.bind_some, u.port_tailText alwaysPort, Option.bind_some]
  simp only
  rw [hpath, hfragment, u.fragment_fragmentText, CString.ofBuffer_octets, CString.ofBuffer_octets]
  rfl

/-- Whatever is taken apart has the host that was read first. -/
lemma host_of_extractURL {v : URL} (h : extractURL (u.text alwaysPort) = some v) :
    ∃ host rest, extractURLHost (uriHost u.host.octets ++ u.tailText alwaysPort) =
      some (host, rest) ∧ v.address.host = .ofBuffer host := by
  obtain ⟨hscheme, hrest⟩ := takeWhile_append_stop u.scheme_legal
    (0x2f :: 0x2f :: (uriHost u.host.octets ++ u.tailText alwaysPort))
  have hstart : startsWith (ascii "://")
      (0x3a :: 0x2f :: 0x2f :: (uriHost u.host.octets ++ u.tailText alwaysPort)) = true := rfl
  have hdrop : (0x3a :: 0x2f :: 0x2f :: (uriHost u.host.octets ++ u.tailText alwaysPort)).drop 3 =
      uriHost u.host.octets ++ u.tailText alwaysPort := rfl
  rw [extractURL, u.text_eq alwaysPort, hscheme, hrest] at h
  dsimp only at h
  rw [if_pos hstart, hdrop] at h
  obtain ⟨⟨host, rest⟩, hhost, h⟩ := Option.bind_eq_some_iff.mp h
  obtain ⟨port, -, h⟩ := Option.bind_eq_some_iff.mp h
  rw [Option.some.injEq] at h
  exact ⟨host, rest, hhost, by rw [← h]⟩

/-- An octet at which a host ends does not begin it. -/
lemma peek_host_ne (hne : 0x5b ∉ u.host.octets) {t : List UInt8} (ht : peek t ≠ 0x5b) :
    peek (u.host.octets ++ t) ≠ 0x5b := by
  rcases ho : u.host.octets with - | ⟨c, l⟩
  · exact ht
  · rintro rfl
    rw [ho] at hne
    exact hne List.mem_cons_self

/-- A host in brackets. -/
lemma extractURLHost_bracketed (hcolon : 0x3a ∈ u.host.octets) :
    extractURLHost (uriHost u.host.octets ++ u.tailText alwaysPort) =
      some (u.host.octets, u.tailText alwaysPort) := by
  have hopen : 0x5b ∉ u.host.octets := u.host_legal _ (by decide)
  have hclose : 0x5d ∉ u.host.octets := u.host_legal _ (by decide)
  have hbare : ¬(peek u.host.octets = 0x5b ∧ u.host.octets.getLast? = some 0x5d) :=
    fun h => hclose (List.mem_of_getLast? h.2)
  have htext : uriHost u.host.octets ++ u.tailText alwaysPort =
      0x5b :: (u.host.octets ++ 0x5d :: u.tailText alwaysPort) := by
    rw [uriHost, if_pos ⟨hcolon, hbare⟩]
    simp
  have hsplit := takeWhile_append_stop hclose (u.tailText alwaysPort)
  have hpeek : peek (0x5b :: (u.host.octets ++ 0x5d :: u.tailText alwaysPort)) = 0x5b := rfl
  have hsome : ¬(0x5d :: u.tailText alwaysPort = [] ∨ u.host.octets = []) := by
    rintro (h | h)
    · cases h
    · rw [h] at hcolon
      cases hcolon
  rw [htext, extractURLHost, if_pos hpeek, List.drop_one, List.tail_cons, hsplit.1, hsplit.2]
  exact if_neg hsome

/-- A host in front of a port. -/
lemma extractURLHost_port (hcolon : 0x3a ∉ u.host.octets) (hport : u.port ≠ 0 ∨ alwaysPort = true) :
    extractURLHost (uriHost u.host.octets ++ u.tailText alwaysPort) =
      some (u.host.octets, u.tailText alwaysPort) := by
  have hplain : uriHost u.host.octets = u.host.octets := if_neg fun h => hcolon h.1
  have htail : u.tailText alwaysPort = 0x3a :: (decimal u.port.toNat ++ u.pathText) := by
    rw [tailText, if_pos hport, List.cons_append]
  have hpeek : peek (u.host.octets ++ 0x3a :: (decimal u.port.toNat ++ u.pathText)) ≠ 0x5b :=
    peek_host_ne (u.host_legal _ (by decide)) (by decide : (0x3a : UInt8) ≠ 0x5b)
  have hmem : 0x3a ∈ u.host.octets ++ 0x3a :: (decimal u.port.toNat ++ u.pathText) := by simp
  have hsplit := takeWhile_append_stop hcolon (decimal u.port.toNat ++ u.pathText)
  rw [hplain, htail, extractURLHost, if_neg hpeek, if_pos hmem]
  dsimp only
  rw [hsplit.1, hsplit.2]

/-- A host that is too long is another one. -/
lemma ofBuffer_append_ne (host : CString) {c : UInt8} (hc : c ≠ 0) (l : List UInt8) :
    CString.ofBuffer (host.octets ++ c :: l) ≠ host := by
  intro h
  have hoctets : (host.octets ++ c :: l).takeWhile (· ≠ 0) = host.octets :=
    congrArg CString.octets h
  have hall : ∀ d ∈ host.octets, decide (d ≠ 0) = true := by
    intro d hd
    refine decide_eq_true ?_
    rintro rfl
    exact host.noNul hd
  rw [List.takeWhile_append_of_pos hall, List.append_right_eq_self,
    List.takeWhile_cons_of_pos (p := fun d => decide (d ≠ 0)) (decide_eq_true hc)] at hoctets
  cases hoctets

/-- What is read of a host without brackets. -/
lemma takeWhile_plain {stop : UInt8} (hstop : stop ∉ u.host.octets) :
    (u.host.octets ++ u.pathText).takeWhile (· ≠ stop) =
      u.host.octets ++ u.pathText.takeWhile (· ≠ stop) := by
  refine List.takeWhile_append_of_pos fun c hc => decide_eq_true ?_
  rintro rfl
  exact hstop hc

/-- Without a port the host ends right only if no colon follows, and a path does or nothing. -/
lemma ofBuffer_plain_iff (hcolon : 0x3a ∉ u.host.octets) :
    CString.ofBuffer ((u.host.octets ++ u.pathText).takeWhile
        (· ≠ if 0x3a ∈ u.pathText then 0x3a else 0x2f)) = u.host ↔
      0x3a ∉ u.pathText ∧ (u.path.isSome ∨ u.fragment = none) := by
  have hslash : 0x2f ∉ u.host.octets := u.host_legal _ (by decide)
  have hstop : (if 0x3a ∈ u.pathText then 0x3a else 0x2f : UInt8) ∉ u.host.octets := by
    split_ifs
    · exact hcolon
    · exact hslash
  rw [takeWhile_plain hstop]
  rcases u.peek_pathText with ⟨hpeek, hpath⟩ | ⟨hpath, ⟨hpeek, hfragment⟩ | ⟨hfragment, hnil⟩⟩
  · obtain ⟨l, hl⟩ : ∃ l, u.pathText = 0x2f :: l := by
      rcases ht : u.pathText with - | ⟨c, l⟩
      · rw [ht] at hpeek
        exact absurd hpeek (by decide)
      · rw [ht] at hpeek
        obtain rfl : c = 0x2f := hpeek
        exact ⟨l, rfl⟩
    by_cases hmem : 0x3a ∈ u.pathText
    · rw [if_pos hmem, hl, List.takeWhile_cons_of_pos (by decide)]
      exact iff_of_false (ofBuffer_append_ne u.host (by decide) _) fun h => h.1 (hl ▸ hmem)
    · rw [if_neg hmem, hl, List.takeWhile_cons_of_neg (by decide), List.append_nil,
        u.host.ofBuffer_octets]
      exact iff_of_true rfl ⟨hl ▸ hmem, .inl hpath⟩
  · obtain ⟨l, hl⟩ : ∃ l, u.pathText = 0x23 :: l := by
      rcases ht : u.pathText with - | ⟨c, l⟩
      · rw [ht] at hpeek
        exact absurd hpeek (by decide)
      · rw [ht] at hpeek
        obtain rfl : c = 0x23 := hpeek
        exact ⟨l, rfl⟩
    have hno : ¬(u.path.isSome ∨ u.fragment = none) := by
      rintro (h | h)
      · rw [hpath] at h
        cases h
      · rw [h] at hfragment
        cases hfragment
    have hhash : decide ((0x23 : UInt8) ≠ if 0x3a ∈ u.pathText then 0x3a else 0x2f) = true := by
      split_ifs
      · decide
      · decide
    have htake : u.pathText.takeWhile (· ≠ if 0x3a ∈ u.pathText then 0x3a else 0x2f) =
        0x23 :: l.takeWhile (· ≠ if 0x3a ∈ u.pathText then 0x3a else 0x2f) := by
      generalize (if 0x3a ∈ u.pathText then 0x3a else 0x2f : UInt8) = stop at hhash ⊢
      rw [hl, List.takeWhile_cons_of_pos (p := fun d => decide (d ≠ stop)) hhash]
    rw [htake]
    exact iff_of_false (ofBuffer_append_ne u.host (by decide) _) fun h => hno h.2
  · rw [hnil, List.takeWhile_nil, List.append_nil, u.host.ofBuffer_octets]
    exact iff_of_true rfl ⟨List.not_mem_nil, .inr hfragment⟩

lemma dropWhile_plain (hpath : u.path.isSome ∨ u.fragment = none) :
    (u.host.octets ++ u.pathText).dropWhile (· ≠ 0x2f) = u.pathText := by
  have hslash : 0x2f ∉ u.host.octets := u.host_legal _ (by decide)
  rcases hp : u.path with - | p
  · rw [hp] at hpath
    have hnil : u.pathText = [] := by
      rw [pathText, fragmentText, hp, hpath.resolve_left Bool.false_ne_true]
      rfl
    rw [hnil, List.append_nil, List.dropWhile_eq_nil_iff]
    intro c hc
    refine decide_eq_true ?_
    rintro rfl
    exact hslash hc
  · have hl : u.pathText = 0x2f :: (p.octets ++ u.fragmentText) := by
      rw [pathText, hp]
      rfl
    rw [hl]
    exact (takeWhile_append_stop hslash _).2

lemma extractURLHost_plain (hcolon : 0x3a ∉ u.host.octets)
    (hport : ¬(u.port ≠ 0 ∨ alwaysPort = true)) :
    extractURLHost (uriHost u.host.octets ++ u.tailText alwaysPort) =
      some ((u.host.octets ++ u.pathText).takeWhile
          (· ≠ if 0x3a ∈ u.pathText then 0x3a else 0x2f),
        (u.host.octets ++ u.pathText).dropWhile
          (· ≠ if 0x3a ∈ u.pathText then 0x3a else 0x2f)) := by
  have hplain : uriHost u.host.octets = u.host.octets := if_neg fun h => hcolon h.1
  have htail : u.tailText alwaysPort = u.pathText := by
    rw [tailText, if_neg hport, List.nil_append]
  have hpath : peek u.pathText ≠ 0x5b := by
    rcases u.peek_pathText with ⟨h, -⟩ | ⟨-, ⟨h, -⟩ | ⟨-, h⟩⟩
    · rw [h]
      decide
    · rw [h]
      decide
    · rw [h]
      decide
  have hpeek : peek (u.host.octets ++ u.pathText) ≠ 0x5b :=
    peek_host_ne (u.host_legal _ (by decide)) hpath
  have hmem : 0x3a ∈ u.host.octets ++ u.pathText ↔ 0x3a ∈ u.pathText := by
    rw [List.mem_append, or_iff_right hcolon]
  rw [hplain, htail, extractURLHost, if_neg hpeek]
  simp only [hmem]

/-- When a URL comes back: the host is in brackets, or there is a port, or else there is no colon
behind the host and no fragment without a path. -/
def Splits (u : URLParts) (alwaysPort : Bool) : Prop :=
  0x3a ∈ u.host.octets ∨ (u.port ≠ 0 ∨ alwaysPort = true) ∨
    0x3a ∉ u.pathText ∧ (u.path.isSome ∨ u.fragment = none)

end URLParts

open URLParts in
/-- A URL of legal parts comes back as they are if and only if its host is in brackets, or it has a
port, or else no colon follows its host and a path comes before the fragment. -/
theorem url_split_iff (u : URLParts) (alwaysPort : Bool) :
    extractURL (u.text alwaysPort) = some u.toURL ↔ u.Splits alwaysPort := by
  by_cases hcolon : 0x3a ∈ u.host.octets
  · exact iff_of_true (extractURL_of_host (extractURLHost_bracketed hcolon)) (.inl hcolon)
  by_cases hport : u.port ≠ 0 ∨ alwaysPort = true
  · exact iff_of_true (extractURL_of_host (extractURLHost_port hcolon hport)) (.inr (.inl hport))
  rw [Splits, or_iff_right hcolon, or_iff_right hport]
  have hhost := extractURLHost_plain hcolon hport
  constructor
  · intro h
    obtain ⟨host, rest, hread, hname⟩ := host_of_extractURL h
    rw [hhost, Option.some.injEq, Prod.mk.injEq] at hread
    rw [← hread.1] at hname
    exact (ofBuffer_plain_iff hcolon).mp hname.symm
  · intro h
    have htail : u.tailText alwaysPort = u.pathText := by
      rw [tailText, if_neg hport, List.nil_append]
    have hdrop := dropWhile_plain h.2
    have htake : (u.host.octets ++ u.pathText).takeWhile (· ≠ 0x2f) = u.host.octets := by
      have hsplit := List.takeWhile_append_dropWhile (p := fun c => decide (c ≠ 0x2f))
        (l := u.host.octets ++ u.pathText)
      rw [hdrop] at hsplit
      exact List.append_cancel_right hsplit
    refine extractURL_of_host ?_
    rw [hhost, if_neg h.1, htake, hdrop, htail]

/-- `http`, `host` and `a:b` -/
def colonInPath : URLParts where
  scheme := ⟨[0x68, 0x74, 0x74, 0x70], by decide⟩
  host := ⟨[0x68, 0x6f, 0x73, 0x74], by decide⟩
  port := 0
  path := some ⟨[0x61, 0x3a, 0x62], by decide⟩
  fragment := none
  scheme_legal := by decide
  host_legal := by simp
  path_legal := by
    intro p hp
    obtain rfl := Option.some.inj hp
    decide

/-- Without a port the colon of the path is taken for that of a port. -/
theorem url_split_colon : colonInPath.text false = ascii "http://host/a:b" ∧
    extractURL (colonInPath.text false) = none := by
  constructor
  · decide
  · rfl

end OmniORB
