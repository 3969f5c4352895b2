import OmniORB.Library.Scan
import OmniORB.Uri.Names

/-!
# Names and their strings

`nameToString` and `stringToName` are inverse to each other as long as the sizes fit in an `int`.
-/

namespace OmniORB

open Library

/-! ### The text of a name -/

/-- The number of octets of a name as a string, with the terminator. -/
def Name.size (name : Name) : ℕ := (name.map NameComponent.space).sum

/-- A name as a string: the components with a `/` between them. -/
def Name.text (name : Name) : List UInt8 := (nameWritten name).dropLast

@[simp] lemma escaped_nil : escaped [] = [] := rfl

@[simp] lemma escaped_cons (c : UInt8) (b : List UInt8) :
    escaped (c :: b) = (if isSpecial c then [0x5c, c] else [c]) ++ escaped b := rfl

@[simp] lemma escaped_append (a b : List UInt8) : escaped (a ++ b) = escaped a ++ escaped b :=
  List.flatMap_append

lemma length_escaped (s : CString) : (escaped s.octets).length = escapedSize s := by
  rw [escaped, List.length_flatMap, escapedSize]
  congr 1
  apply List.map_congr_left
  intro c _
  split_ifs <;> rfl

lemma NameComponent.length_text (n : NameComponent) : n.text.length + 1 = n.space := by
  simp only [text, space, List.length_append, length_escaped]
  split_ifs <;> rfl

/-- The first pass counts what the second writes. -/
lemma length_nameWritten (name : Name) : (nameWritten name).length = name.size := by
  rw [nameWritten, List.length_flatMap, Name.size]
  congr 1
  apply List.map_congr_left
  intro n _
  rw [List.length_append, List.length_singleton, n.length_text]

@[simp] lemma nameWritten_append (m n : Name) :
    nameWritten (m ++ n) = nameWritten m ++ nameWritten n :=
  List.flatMap_append

@[simp] lemma nameWritten_singleton (n : NameComponent) : nameWritten [n] = n.text ++ [0x2f] :=
  List.flatMap_singleton _ _

lemma nameWritten_cons (n : NameComponent) (name : Name) :
    nameWritten (n :: name) = n.text ++ 0x2f :: nameWritten name := by
  simp [nameWritten]

lemma Name.written_eq {name : Name} (h : name ≠ []) : nameWritten name = name.text ++ [0x2f] := by
  obtain ⟨m, n, rfl⟩ := (List.eq_nil_or_concat name).resolve_left h
  rw [Name.text, List.concat_eq_append, nameWritten_append, nameWritten_singleton,
    ← List.append_assoc, List.dropLast_concat]

lemma Name.length_text {name : Name} (h : name ≠ []) : name.text.length + 1 = name.size := by
  rw [← length_nameWritten, Name.written_eq h, List.length_append, List.length_singleton]

lemma zero_notMem_escaped {b : List UInt8} (h : 0 ∉ b) : 0 ∉ escaped b := by
  rw [escaped, List.mem_flatMap]
  rintro ⟨c, hc, h0⟩
  split_ifs at h0
  · rw [List.mem_cons, List.mem_singleton] at h0
    rcases h0 with h0 | rfl
    · exact absurd h0 (by decide)
    · exact h hc
  · rw [List.mem_singleton] at h0
    subst h0
    exact h hc

lemma NameComponent.zero_notMem_text (n : NameComponent) : 0 ∉ n.text := by
  simp only [text, List.mem_append, not_or]
  refine ⟨⟨zero_notMem_escaped n.id.noNul, ?_⟩, zero_notMem_escaped n.kind.noNul⟩
  split_ifs <;> decide

lemma zero_notMem_nameWritten (name : Name) : 0 ∉ nameWritten name := by
  rw [nameWritten, List.mem_flatMap]
  rintro ⟨n, -, h⟩
  rw [List.mem_append] at h
  rcases h with h | h
  · exact n.zero_notMem_text h
  · exact absurd h (by decide)

lemma Name.zero_notMem_text (name : Name) : 0 ∉ name.text := by
  intro h
  exact zero_notMem_nameWritten name (List.mem_of_mem_dropLast h)

lemma NameComponent.text_ne_nil (n : NameComponent) : n.text ≠ [] := by
  intro h
  have hlen := n.length_text
  cases hd : n.hasDot with
  | true => simp [text, hd] at h
  | false =>
    simp only [hasDot, Bool.or_eq_false_iff, decide_eq_false_iff_not] at hd
    rw [text, List.append_assoc, List.append_eq_nil_iff] at h
    obtain ⟨c, b, hid⟩ := List.exists_cons_of_ne_nil hd.1
    have h1 := h.1
    rw [hid, escaped_cons] at h1
    split_ifs at h1
    · exact List.cons_ne_nil _ _ h1
    · exact List.cons_ne_nil _ _ h1

lemma Name.text_ne_nil {name : Name} (h : name ≠ []) : name.text ≠ [] := by
  intro h0
  obtain ⟨n, rest, rfl⟩ := List.exists_cons_of_ne_nil h
  have hw := Name.written_eq h
  have hlen := congrArg List.length hw
  have hn : 0 < n.text.length := List.length_pos_iff.mpr n.text_ne_nil
  rw [h0, nameWritten_cons] at hlen
  simp only [List.length_append, List.length_cons, List.length_nil] at hlen
  omega

/-- A name as a C string. -/
def Name.toCString (name : Name) : CString := ⟨name.text, name.zero_notMem_text⟩

/-! ### What `nameToString` writes -/

lemma nameToString_of_lt {name : Name} (hne : name ≠ []) (h : name.size < 2 ^ 31 - 1) :
    nameToString name = .ok name.toCString := by
  have hlen := Name.length_text hne
  have hs : nameSpace name = name.size := ulong_of_lt (by change name.size < _; omega)
  have hlast : ulong (name.size + (2 ^ 32 - 1)) = name.text.length := by
    rw [ulong]
    omega
  have hset : (nameWritten name).set name.text.length 0 = name.text ++ [0] := by
    rw [Name.written_eq hne, List.set_append_right _ _ le_rfl, Nat.sub_self, List.set_cons_zero]
  have hfits : (nameWritten name).length ≤ name.size + 1 ∧ name.text.length < name.size + 1 := by
    rw [length_nameWritten]
    omega
  have hbuf : CString.ofBuffer (name.text ++ [0]) = name.toCString := by
    ext1
    exact CString.ofBuffer_append_nul name.zero_notMem_text []
  rw [nameToString, if_neg hne]
  simp only [hs, stringAlloc_of_lt h, hlast, bind, Except.bind, hset, hbuf]
  rw [if_pos hfits]

/-- No room is made for a name that does not fit. -/
lemma lt_of_nameToString {name : Name} {s : CString} (h : nameToString name = .ok s) :
    name ≠ [] ∧ name.size < 2 ^ 31 - 1 := by
  unfold nameToString at h
  split_ifs at h with hne
  refine ⟨hne, ?_⟩
  cases ha : stringAlloc (nameSpace name) with
  | error e => exact absurd h (by simp [ha, bind, Except.bind])
  | ok cap =>
    obtain ⟨hcap, hlt⟩ := stringAlloc_ok ha
    simp only [ha, bind, Except.bind] at h
    split_ifs at h with hw
    have hspace : nameSpace name = name.size % 2 ^ 32 := rfl
    have hw := hw.1
    rw [length_nameWritten, hcap, ulong, hspace] at hw
    rw [ulong, hspace] at hlt
    omega

/-- `nameToString` returns exactly where the size stays below that of the largest buffer. -/
lemma nameToString_eq_ok_iff {name : Name} {s : CString} (hne : name ≠ []) :
    nameToString name = .ok s ↔ name.size < 2 ^ 31 - 1 ∧ s = name.toCString := by
  constructor
  · intro h
    have hlt := (lt_of_nameToString h).2
    rw [nameToString_of_lt hne hlt] at h
    exact ⟨hlt, (Except.ok.inj h).symm⟩
  · rintro ⟨hlt, rfl⟩
    exact nameToString_of_lt hne hlt

/-! ### Steps of the loop -/

/-- What stays true in the loop of `stringToName` while its sizes fit: `rest` are the octets from
`i` to the terminator, and what is written so far is shorter than what was read. -/
structure Room (len cap : ℕ) (rest : List UInt8) (i : ℕ) (sc : NameScan) : Prop where
  position : i + rest.length = len + 1
  lt_cap : len + 1 < cap
  lt_ulong : len + 1 < 2 ^ 32
  buf_le : sc.buf.length ≤ i
  noNul : 0 ∉ sc.buf

section Steps

variable {len cap i : ℕ} {c c' : UInt8} {rest : List UInt8} {sc sc' : NameScan}

lemma not_isSpecial (h : isSpecial c = false) : c ≠ 0x2f ∧ c ≠ 0x2e ∧ c ≠ 0x5c := by
  simpa [isSpecial, and_assoc] using h

namespace Room

lemma index_le (h : Room len cap (c :: rest) i sc) : i ≤ len := by
  have := h.position
  rw [List.length_cons] at this
  omega

lemma ulong_succ (h : Room len cap (c :: rest) i sc) : ulong (i + 1) = i + 1 := by
  have := h.lt_ulong
  have := h.index_le
  exact ulong_of_lt (by omega)

lemma store (h : Room len cap (c :: rest) i sc) (x : UInt8) :
    OmniORB.store cap sc.buf x = .ok (sc.buf ++ [x]) := by
  have := h.buf_le
  have := h.lt_cap
  have := h.index_le
  exact store_of_lt (by omega)

/-- One octet of the source is stored. -/
lemma push (h : Room len cap (c :: rest) i sc) (hc : c ≠ 0) :
    Room len cap rest (i + 1) { sc with buf := sc.buf ++ [c] } where
  position := by
    have := h.position
    rw [List.length_cons] at this
    omega
  lt_cap := h.lt_cap
  lt_ulong := h.lt_ulong
  buf_le := by
    have := h.buf_le
    rw [List.length_append, List.length_singleton]
    omega
  noNul := by
    rw [List.mem_append, List.mem_singleton, not_or]
    exact ⟨h.noNul, hc.symm⟩

/-- One octet of the source is passed over. -/
lemma skip (h : Room len cap (c :: rest) i sc) : Room len cap rest (i + 1) sc where
  position := by
    have := h.position
    rw [List.length_cons] at this
    omega
  lt_cap := h.lt_cap
  lt_ulong := h.lt_ulong
  buf_le := h.buf_le.trans (Nat.le_succ i)
  noNul := h.noNul

/-- The buffer is started again. -/
lemma restart (h : Room len cap rest i sc) (hb : sc'.buf = []) : Room len cap rest i sc' where
  position := h.position
  lt_cap := h.lt_cap
  lt_ulong := h.lt_ulong
  buf_le := by simp [hb]
  noNul := by simp [hb]

end Room

lemma scanName_plain (h : Room len cap (c :: rest) i sc) (hs : isSpecial c = false) (hc : c ≠ 0) :
    scanName len cap (c :: rest) i sc =
      scanName len cap rest (i + 1) { sc with buf := sc.buf ++ [c] } := by
  obtain ⟨h1, h2, h3⟩ := not_isSpecial hs
  conv_lhs => unfold scanName
  rw [if_neg (not_lt.mpr h.index_le), if_neg h3, if_neg h2, if_neg (by simp [h1, hc]), h.store c,
    h.ulong_succ]
  rfl

lemma scanName_escape (h : Room len cap (0x5c :: c' :: rest) i sc) (hs : isSpecial c' = true) :
    scanName len cap (0x5c :: c' :: rest) i sc =
      scanName len cap rest (i + 2) { sc with buf := sc.buf ++ [c'] } := by
  have hs' : ¬(c' ≠ 0x5c ∧ c' ≠ 0x2f ∧ c' ≠ 0x2e) := by
    rintro ⟨h1, h2, h3⟩
    simp [isSpecial, h1, h2, h3] at hs
  have hi : ulong (i + 2) = i + 2 := h.skip.ulong_succ
  conv_lhs => unfold scanName
  rw [if_neg (not_lt.mpr h.index_le), if_pos rfl]
  change (if _ then _ else _) = _
  rw [if_neg hs', h.store c', hi]
  rfl

lemma scanName_dot (h : Room len cap (0x2e :: rest) i sc) :
    scanName len cap (0x2e :: rest) i sc =
      (scanDot cap sc >>= fun sc => scanName len cap rest (i + 1) sc) := by
  conv_lhs => unfold scanName
  rw [if_neg (not_lt.mpr h.index_le), if_neg (by decide), if_pos rfl, h.ulong_succ]

lemma scanName_slash (h : Room len cap (0x2f :: rest) i sc) :
    scanName len cap (0x2f :: rest) i sc =
      (scanEnd cap sc >>= fun sc => scanName len cap rest (i + 1) sc.nextComponent) := by
  conv_lhs => unfold scanName
  rw [if_neg (not_lt.mpr h.index_le), if_neg (by decide), if_neg (by decide), if_pos (.inl rfl),
    h.ulong_succ]
  rfl

lemma scanName_nul (h : Room len cap [0] i sc) :
    scanName len cap [0] i sc = (scanEnd cap sc >>= fun sc => .ok sc.name) := by
  have hi : i = len := by
    have := h.position
    rw [List.length_singleton] at this
    omega
  conv_lhs => unfold scanName
  rw [if_neg (not_lt.mpr h.index_le), if_neg (by decide), if_neg (by decide), if_pos (.inr rfl),
    h.ulong_succ]
  congr 1
  funext t
  rw [if_neg (by decide), scanName, if_pos (by omega)]

/-- The loop reads back what the second pass writes for one string. -/
lemma scanName_escaped (b : List UInt8) (hb : 0 ∉ b) (h : Room len cap (escaped b ++ rest) i sc) :
    scanName len cap (escaped b ++ rest) i sc =
        scanName len cap rest (i + (escaped b).length) { sc with buf := sc.buf ++ b } ∧
      Room len cap rest (i + (escaped b).length) { sc with buf := sc.buf ++ b } := by
  induction b generalizing i sc with
  | nil => simpa using h
  | cons c b ih =>
    rw [List.mem_cons, not_or] at hb
    have hc : c ≠ 0 := Ne.symm hb.1
    cases hs : isSpecial c with
    | true =>
      have h' : Room len cap (0x5c :: c :: (escaped b ++ rest)) i sc := by simpa [hs] using h
      obtain ⟨heq, hroom⟩ := ih hb.2 (h'.skip.push hc)
      have hlen : i + (escaped (c :: b)).length = i + 1 + 1 + (escaped b).length := by
        simp only [escaped_cons, hs, if_true, List.length_append, List.length_cons,
          List.length_nil]
        omega
      rw [hlen]
      simp only [List.append_assoc, List.singleton_append] at heq hroom
      refine ⟨?_, hroom⟩
      rw [← heq]
      simpa [hs] using scanName_escape h' hs
    | false =>
      have h' : Room len cap (c :: (escaped b ++ rest)) i sc := by simpa [hs] using h
      obtain ⟨heq, hroom⟩ := ih hb.2 (h'.push hc)
      have hlen : i + (escaped (c :: b)).length = i + 1 + (escaped b).length := by
        simp only [escaped_cons, hs, Bool.false_eq_true, if_false, List.length_append,
          List.length_singleton]
        omega
      rw [hlen]
      simp only [List.append_assoc, List.singleton_append] at heq hroom
      refine ⟨?_, hroom⟩
      rw [← heq]
      simpa [hs] using scanName_plain h' hs hc

/-! ### Reading back a name -/

lemma ofBuffer_terminated (s : CString) : CString.ofBuffer (s.octets ++ [0]) = s := by
  ext1
  exact CString.ofBuffer_append_nul s.noNul []

/-- The loop reads back what the second pass writes for one component. -/
lemma scanName_text (n : NameComponent) (hbuf : sc.buf = []) (hst : sc.state = .id)
    (h : Room len cap (n.text ++ c :: rest) i sc) :
    ∃ sc', scanName len cap (n.text ++ c :: rest) i sc =
        scanName len cap (c :: rest) (i + n.text.length) sc' ∧
      Room len cap (c :: rest) (i + n.text.length) sc' ∧
      scanEnd cap sc' = .ok { sc with current := n } := by
  cases hd : n.hasDot with
  | false =>
    have htext : n.text = escaped n.id.octets ++ escaped n.kind.octets := by
      simp [NameComponent.text, hd]
    simp only [NameComponent.hasDot, Bool.or_eq_false_iff, decide_eq_false_iff_not, not_not] at hd
    obtain ⟨hid, hkind⟩ := hd
    rw [hkind, escaped_nil, List.append_nil] at htext
    rw [htext] at h ⊢
    obtain ⟨heq, hroom⟩ := scanName_escaped n.id.octets n.id.noNul h
    refine ⟨_, heq, hroom, ?_⟩
    have hlen : ¬(n.id.octets.length = 0) := fun h0 => hid (List.length_eq_zero_iff.mp h0)
    have hk : CString.empty = n.kind := by
      ext1
      exact hkind.symm
    simp only [hbuf, List.nil_append] at hroom ⊢
    simp only [scanEnd, hst, if_neg hlen, hroom.store 0, bind, Except.bind, ofBuffer_terminated, hk]
  | true =>
    have htext : n.text ++ c :: rest =
        escaped n.id.octets ++ 0x2e :: (escaped n.kind.octets ++ c :: rest) := by
      simp [NameComponent.text, hd]
    have hlen : i + n.text.length =
        i + (escaped n.id.octets).length + 1 + (escaped n.kind.octets).length := by
      simp only [NameComponent.text, hd, if_true, List.length_append, List.length_singleton]
      omega
    rw [htext] at h ⊢
    rw [hlen]
    obtain ⟨heq, hroom⟩ := scanName_escaped n.id.octets n.id.noNul h
    simp only [hbuf, List.nil_append] at heq hroom
    have hdot : scanDot cap { sc with buf := n.id.octets } =
        .ok { sc with current := { sc.current with id := n.id }, buf := [], state := .kind } := by
      simp only [scanDot, hst, hroom.store 0, bind, Except.bind, ofBuffer_terminated]
    have hroom' : Room len cap (escaped n.kind.octets ++ c :: rest)
        (i + (escaped n.id.octets).length + 1)
        { sc with current := { sc.current with id := n.id }, buf := [], state := .kind } :=
      hroom.skip.restart rfl
    obtain ⟨heq', hroom''⟩ := scanName_escaped n.kind.octets n.kind.noNul hroom'
    simp only [List.nil_append] at heq' hroom''
    refine ⟨_, ?_, hroom'', ?_⟩
    · rw [heq, scanName_dot hroom, hdot]
      exact heq'
    · have hk : ¬(n.kind.octets.length = 0 ∧ n.id.octets ≠ []) := by
        rintro ⟨h1, h2⟩
        have h1 := List.length_eq_zero_iff.mp h1
        simp [NameComponent.hasDot, h1, h2] at hd
      simp only [scanEnd, if_neg hk, hroom''.store 0, bind, Except.bind, ofBuffer_terminated]
      rw [← hbuf, ← hst]

@[simp] lemma Name.text_singleton (n : NameComponent) : Name.text [n] = n.text := by
  rw [Name.text, nameWritten_singleton, List.dropLast_concat]

lemma Name.text_cons (n : NameComponent) {name : Name} (h : name ≠ []) :
    Name.text (n :: name) = n.text ++ 0x2f :: name.text := by
  rw [Name.text, nameWritten_cons, Name.written_eq h, ← List.cons_append, ← List.append_assoc,
    List.dropLast_concat]

/-- The loop reads back a name. -/
lemma scanName_name (name : Name) (hne : name ≠ []) (hbuf : sc.buf = []) (hst : sc.state = .id)
    (h : Room len cap (name.text ++ [0]) i sc) :
    scanName len cap (name.text ++ [0]) i sc = .ok (sc.before ++ name) := by
  induction name generalizing i sc with
  | nil => exact absurd rfl hne
  | cons n name ih =>
    rcases eq_or_ne name [] with rfl | hname
    · rw [Name.text_singleton] at h ⊢
      obtain ⟨sc', heq, hroom, hend⟩ := scanName_text n hbuf hst h
      rw [heq, scanName_nul hroom, hend]
      rfl
    · rw [Name.text_cons n hname, List.append_assoc, List.cons_append] at h ⊢
      obtain ⟨sc', heq, hroom, hend⟩ := scanName_text n hbuf hst h
      rw [heq, scanName_slash hroom, hend]
      have hrest : Room len cap (Name.text name ++ [0]) (i + n.text.length + 1)
          ({ sc with current := n } : NameScan).nextComponent := hroom.skip.restart hbuf
      have hscan := @ih _ ({ sc with current := n } : NameScan).nextComponent hname hbuf hst hrest
      rw [NameScan.nextComponent, List.append_assoc] at hscan
      exact hscan

/-! ### Writing back a string -/

/-- The octets that the loop has read. -/
def NameScan.text (sc : NameScan) : List UInt8 :=
  nameWritten sc.before ++
    match sc.state with
    | .id => escaped sc.buf
    | .kind => escaped sc.current.id.octets ++ 0x2e :: escaped sc.buf

lemma escaped_push (b : List UInt8) (hs : isSpecial c = false) :
    escaped (b ++ [c]) = escaped b ++ [c] := by
  simp [hs]

lemma escaped_push_special (b : List UInt8) (hs : isSpecial c = true) :
    escaped (b ++ [c]) = escaped b ++ [0x5c, c] := by
  simp [hs]

lemma NameScan.text_push (sc : NameScan) (hs : isSpecial c = false) :
    ({ sc with buf := sc.buf ++ [c] } : NameScan).text = sc.text ++ [c] := by
  cases hst : sc.state with
  | id => simp only [text, hst, escaped_push _ hs, List.append_assoc]
  | kind => simp only [text, hst, escaped_push _ hs, List.append_assoc, List.cons_append]

lemma NameScan.text_push_special (sc : NameScan) (hs : isSpecial c = true) :
    ({ sc with buf := sc.buf ++ [c] } : NameScan).text = sc.text ++ [0x5c, c] := by
  cases hst : sc.state with
  | id => simp only [text, hst, escaped_push_special _ hs, List.append_assoc]
  | kind => simp only [text, hst, escaped_push_special _ hs, List.append_assoc, List.cons_append]

/-- After a `.` the buffer is empty and the text is one longer. -/
lemma scanDot_ok (h : Room len cap (0x2e :: rest) i sc) (hd : scanDot cap sc = .ok sc') :
    sc'.buf = [] ∧ sc'.text = sc.text ++ [0x2e] := by
  cases hst : sc.state with
  | kind => exact absurd hd (by simp [scanDot, hst])
  | id =>
    simp only [scanDot, hst, h.store 0, bind, Except.bind, Except.ok.injEq] at hd
    subst hd
    refine ⟨rfl, ?_⟩
    have hid := CString.ofBuffer_append_nul h.noNul []
    simp only [NameScan.text, hst, hid, escaped_nil, List.append_assoc]

/-- After the end of a component the buffer is empty, and the component's text is what was read. -/
lemma scanEnd_ok (h : Room len cap (c :: rest) i sc) (hd : scanEnd cap sc = .ok sc') :
    sc'.buf = [] ∧ sc'.state = .id ∧ sc'.before = sc.before ∧
      sc.text = nameWritten sc.before ++ sc'.current.text := by
  have hid := CString.ofBuffer_append_nul h.noNul []
  cases hst : sc.state with
  | id =>
    simp only [scanEnd, hst] at hd
    split_ifs at hd with hlen
    simp only [h.store 0, bind, Except.bind, Except.ok.injEq] at hd
    subst hd
    have hne : sc.buf ≠ [] := fun h0 => hlen (by simp [h0])
    refine ⟨rfl, rfl, rfl, ?_⟩
    simp [NameScan.text, NameComponent.text, NameComponent.hasDot, hst, hid, hne, CString.empty]
  | kind =>
    simp only [scanEnd, hst] at hd
    split_ifs at hd with hlen
    simp only [h.store 0, bind, Except.bind, Except.ok.injEq] at hd
    subst hd
    refine ⟨rfl, rfl, rfl, ?_⟩
    have hdot : sc.current.id.octets = [] ∨ sc.buf ≠ [] := by
      by_contra hno
      rw [not_or, not_not] at hno
      exact hlen ⟨by simp [hno.2], hno.1⟩
    simp [NameScan.text, NameComponent.text, NameComponent.hasDot, hst, hid, hdot]

/-- A backslash is followed by a special character. -/
lemma scanName_escape_ok {name : Name} (h : Room len cap (0x5c :: c :: rest) i sc)
    (hok : scanName len cap (0x5c :: c :: rest) i sc = .ok name) : isSpecial c = true := by
  by_contra hs
  rw [Bool.not_eq_true] at hs
  obtain ⟨h1, h2, h3⟩ := not_isSpecial hs
  unfold scanName at hok
  rw [if_neg (not_lt.mpr h.index_le), if_pos rfl] at hok
  simp [h1, h2, h3] at hok

/-- The name that the loop ends with is written as what it had read and what it reads on. -/
lemma scanName_written {name : Name} (r : List UInt8) (hr : 0 ∉ r)
    (h : Room len cap (r ++ [0]) i sc) (hok : scanName len cap (r ++ [0]) i sc = .ok name) :
    name ≠ [] ∧ nameWritten name = sc.text ++ r ++ [0x2f] := by
  induction hn : r.length using Nat.strong_induction_on generalizing r i sc with
  | _ n ih =>
  subst hn
  cases r with
  | nil =>
    rw [List.nil_append] at h hok
    rw [scanName_nul h] at hok
    cases hd : scanEnd cap sc with
    | error e => exact absurd hok (by simp [hd, bind, Except.bind])
    | ok sc' =>
      obtain ⟨-, -, hbefore, htext⟩ := scanEnd_ok h hd
      simp only [hd, bind, Except.bind, Except.ok.injEq] at hok
      subst hok
      refine ⟨by simp [NameScan.name], ?_⟩
      rw [NameScan.name, nameWritten_append, nameWritten_singleton, hbefore, htext]
      simp
  | cons c r =>
    rw [List.mem_cons, not_or] at hr
    rw [List.cons_append] at h hok
    have hshort : r.length < (c :: r).length := Nat.lt_succ_self _
    by_cases hback : c = 0x5c
    · subst hback
      cases r with
      | nil =>
        have hs := scanName_escape_ok h hok
        exact absurd hs (by decide)
      | cons c' r =>
        rw [List.cons_append] at h hok
        have hs := scanName_escape_ok h hok
        rw [List.mem_cons, not_or] at hr
        rw [scanName_escape h hs] at hok
        obtain ⟨hne, hw⟩ := ih r.length (Nat.lt_of_succ_lt hshort) r hr.2.2
          (h.skip.push (Ne.symm hr.2.1)) hok rfl
        refine ⟨hne, ?_⟩
        rw [hw, NameScan.text_push_special sc hs]
        simp
    · by_cases hdot : c = 0x2e
      · subst hdot
        rw [scanName_dot h] at hok
        cases hd : scanDot cap sc with
        | error e => exact absurd hok (by simp [hd, bind, Except.bind])
        | ok sc' =>
          obtain ⟨hbuf, htext⟩ := scanDot_ok h hd
          rw [hd] at hok
          obtain ⟨hne, hw⟩ := ih r.length hshort r hr.2 (h.skip.restart hbuf) hok rfl
          refine ⟨hne, ?_⟩
          rw [hw, htext]
          simp
      · by_cases hslash : c = 0x2f
        · subst hslash
          rw [scanName_slash h] at hok
          cases hd : scanEnd cap sc with
          | error e => exact absurd hok (by simp [hd, bind, Except.bind])
          | ok sc' =>
            obtain ⟨hbuf, hst, hbefore, htext⟩ := scanEnd_ok h hd
            rw [hd] at hok
            have hroom : Room len cap (r ++ [0]) (i + 1) sc'.nextComponent := h.skip.restart hbuf
            obtain ⟨hne, hw⟩ := ih r.length hshort r hr.2 hroom hok rfl
            refine ⟨hne, ?_⟩
            have hnext : sc'.nextComponent.text = sc.text ++ [0x2f] := by
              rw [htext]
              simp [NameScan.text, NameScan.nextComponent, hst, hbuf, hbefore]
            rw [hw, hnext]
            simp
        · have hs : isSpecial c = false := by simp [isSpecial, hback, hdot, hslash]
          rw [scanName_plain h hs (Ne.symm hr.1)] at hok
          obtain ⟨hne, hw⟩ := ih r.length hshort r hr.2 (h.push (Ne.symm hr.1)) hok rfl
          refine ⟨hne, ?_⟩
          rw [hw, NameScan.text_push sc hs]
          simp

end Steps

/-! ### Both directions -/

/-- The buffer that `stringToName` works in has room for what it stores. -/
lemma Room.initial {s : CString} (h : s.octets.length < 2 ^ 31 - 2) :
    Room s.octets.length (s.octets.length + 2) s.terminated 0 .initial where
  position := by
    rw [CString.terminated, List.length_append, List.length_singleton]
    omega
  lt_cap := by omega
  lt_ulong := by omega
  buf_le := by simp [NameScan.initial]
  noNul := by simp [NameScan.initial]

lemma stringToName_of_lt {s : CString} (hne : s.octets ≠ []) (h : s.octets.length < 2 ^ 31 - 2) :
    stringToName (some s) =
      scanName s.octets.length (s.octets.length + 2) s.terminated 0 .initial := by
  have hl : ulong s.octets.length = s.octets.length := ulong_of_lt (by omega)
  have hl' : ulong (s.octets.length + 1) = s.octets.length + 1 := ulong_of_lt (by omega)
  have ha : stringAlloc (s.octets.length + 1) = .ok (s.octets.length + 2) :=
    stringAlloc_of_lt (by omega)
  simp only [stringToName, if_neg hne, hl, hl', ha, bind, Except.bind]

/-- The loop does not end if every `unsigned int` is at most `len`. -/
lemma scanName_ne_ok (cap : ℕ) (rest : List UInt8) (i : ℕ) (sc : NameScan) (name : Name)
    (hi : i < 2 ^ 32) : scanName (2 ^ 32 - 1) cap rest i sc ≠ .ok name := by
  fun_induction scanName (2 ^ 32 - 1) cap rest i sc with
  | case1 i sc hlt => exact absurd hlt (by omega)
  | case2 => simp
  | case3 c rest i sc hlt => exact absurd hlt (by omega)
  | case4 => simp
  | case5 => simp
  | case6 i sc _ c' rest' _ ih =>
    intro hok
    obtain ⟨b, -, hb⟩ := bind_eq_ok.mp hok
    exact ih b (ulong_lt _) hb
  | case7 rest i sc _ _ ih =>
    intro hok
    obtain ⟨sc', -, hb⟩ := bind_eq_ok.mp hok
    exact ih sc' (ulong_lt _) hb
  | case8 c rest i sc _ _ _ _ ih =>
    intro hok
    obtain ⟨sc', -, hb⟩ := bind_eq_ok.mp hok
    exact ih sc' (ulong_lt _) hb
  | case9 c rest i sc _ _ _ _ ih =>
    intro hok
    obtain ⟨b, -, hb⟩ := bind_eq_ok.mp hok
    exact ih b (ulong_lt _) hb

/-- A string that is accepted fits in a buffer, unless its length went round. -/
lemma lt_of_stringToName {s : CString} {name : Name} (h : stringToName (some s) = .ok name)
    (hlt : s.octets.length < 2 ^ 32) : s.octets ≠ [] ∧ s.octets.length < 2 ^ 31 - 2 := by
  have hl : ulong s.octets.length = s.octets.length := ulong_of_lt hlt
  simp only [stringToName] at h
  split_ifs at h with hne
  refine ⟨hne, ?_⟩
  rw [hl] at h
  cases ha : stringAlloc (ulong (s.octets.length + 1)) with
  | error e => exact absurd h (by simp [ha, bind, Except.bind])
  | ok cap =>
    obtain ⟨-, hsize⟩ := stringAlloc_ok ha
    rw [ulong_of_lt (ulong_lt _), ulong] at hsize
    by_contra hno
    have hlen : s.octets.length = 2 ^ 32 - 1 := by omega
    rw [ha, hlen] at h
    exact scanName_ne_ok cap s.terminated 0 .initial name (by decide) h

/-- A name that fits is read back from the string that it is written as. -/
lemma stringToName_toCString {name : Name} (hne : name ≠ []) (h : name.size < 2 ^ 31 - 1) :
    stringToName (some name.toCString) = .ok name := by
  have hlen := Name.length_text hne
  have hlt : name.toCString.octets.length < 2 ^ 31 - 2 := by
    change name.text.length < _
    omega
  have hnil : name.toCString.octets ≠ [] := Name.text_ne_nil hne
  rw [stringToName_of_lt hnil hlt]
  exact scanName_name name hne rfl rfl (Room.initial hlt)

/-- A string that is accepted and fits is written back. -/
lemma nameToString_of_stringToName {s : CString} {name : Name}
    (h : stringToName (some s) = .ok name) (hlt : s.octets.length < 2 ^ 32) :
    nameToString name = .ok s := by
  obtain ⟨hnil, hsize⟩ := lt_of_stringToName h hlt
  rw [stringToName_of_lt hnil hsize] at h
  obtain ⟨hne, hw⟩ := scanName_written s.octets s.noNul (Room.initial hsize) h
  have htext : name.text = s.octets := by
    rw [Name.text, hw, List.dropLast_concat]
    rfl
  have hlen := Name.length_text hne
  rw [htext] at hlen
  rw [nameToString_eq_ok_iff hne]
  refine ⟨by omega, ?_⟩
  ext1
  exact htext.symm

/-- Names and their strings are in bijection exactly as far as the sizes go: a name of at least one
component is read back from its string if and only if that fits in a buffer, a string that is
accepted is written back if and only if its length is an `unsigned int`, and so it is with what the
first pass counts and the second writes. -/
theorem name_string_bijection (name : Name) (s : CString) :
    (name ≠ [] → ((nameToString name >>= fun s => stringToName (some s)) = .ok name ↔
      name.size < 2 ^ 31 - 1)) ∧
    (∀ accepted : Name, stringToName (some s) = .ok accepted →
      (nameToString accepted = .ok s ↔ s.octets.length < 2 ^ 32)) ∧
    (nameSpace name = (nameWritten name).length ↔ name.size < 2 ^ 32) := by
  refine ⟨?_, ?_, ?_⟩
  · intro hne
    constructor
    · intro h
      obtain ⟨t, ht, -⟩ := bind_eq_ok.mp h
      exact (lt_of_nameToString ht).2
    · intro hlt
      rw [nameToString_of_lt hne hlt]
      exact stringToName_toCString hne hlt
  · intro accepted h
    constructor
    · intro hs
      obtain ⟨hne, hlt⟩ := lt_of_nameToString hs
      have hlen := Name.length_text hne
      rw [nameToString_of_lt hne hlt, Except.ok.injEq] at hs
      rw [← hs]
      change (Name.text accepted).length < _
      omega
    · exact nameToString_of_stringToName h
  · rw [length_nameWritten]
    change name.size % 2 ^ 32 = name.size ↔ _
    omega

/-- A string of dots. -/
def dots (n : ℕ) : CString := .replicate n 0x2e (by decide)

/-- A name of an id and a kind of dots. -/
def dottedName (m n : ℕ) : Name := [⟨dots m, dots n⟩]

lemma size_dottedName (m : ℕ) {n : ℕ} (hn : 0 < n) : (dottedName m n).size = 2 * m + 2 * n + 2 := by
  have hd : ∀ k, escapedSize (dots k) = 2 * k := by
    intro k
    simp [escapedSize, dots, CString.replicate, isSpecial, Nat.mul_comm]
  have hdot : NameComponent.hasDot ⟨dots m, dots n⟩ = true := by
    have hne : (dots n).octets ≠ [] := by
      intro h
      exact hn.ne' (by simpa [dots, CString.replicate] using h)
    simp [NameComponent.hasDot, hne]
  simp only [dottedName, Name.size, List.map_cons, List.map_nil, List.sum_cons, List.sum_nil,
    NameComponent.space, hd, hdot, if_true]
  omega

/-- An id of the largest size that has a buffer, and a kind of two octets. -/
def longName : Name := dottedName (2 ^ 31 - 2) 2

lemma size_longName : longName.size = 2 ^ 32 + 2 :=
  size_dottedName (2 ^ 31 - 2) (by decide)

lemma nameSpace_eq (name : Name) : nameSpace name = name.size % 2 ^ 32 := rfl

/-- The first pass counts two octets, and the second writes far past the buffer. -/
lemma nameToString_overrun {name : Name} (hne : name ≠ []) (h : name.size = 2 ^ 32 + 2) :
    nameSpace name = 2 ∧ nameToString name = .error .overrun := by
  have hspace : nameSpace name = 2 := by
    rw [nameSpace_eq, h]
    decide
  have hfull : ¬((nameWritten name).length ≤ 2 + 1 ∧ ulong (2 + (2 ^ 32 - 1)) < 2 + 1) := by
    rw [length_nameWritten, h]
    omega
  have halloc : stringAlloc 2 = .ok (2 + 1) := stringAlloc_of_lt (by decide)
  refine ⟨hspace, ?_⟩
  rw [nameToString, if_neg hne]
  simp only [hspace, halloc, bind, Except.bind]
  rw [if_neg hfull]

theorem longName_overruns :
    nameSpace longName = 2 ∧ nameToString longName = .error .overrun ∧
      ¬ (∀ name : Name, name ≠ [] →
        (nameToString name >>= fun s => stringToName (some s)) = .ok name) := by
  have hne : longName ≠ [] := List.cons_ne_nil _ _
  obtain ⟨hspace, hrun⟩ := nameToString_overrun hne size_longName
  refine ⟨hspace, hrun, ?_⟩
  intro hall
  have h := hall longName hne
  rw [hrun] at h
  exact nomatch h

end OmniORB
