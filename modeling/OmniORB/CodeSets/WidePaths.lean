import OmniORB.CodeSets.SixteenBit

/-!
# The fast paths for wide strings

When the wide 16-bit functions do on their fast paths what they do through UTF-16, refuse what they
cannot represent, and read back what they write. The fast path for strings has no check of the
range, and the one for a single character raises its exception for the size with a status of its
own.
-/

namespace OmniORB

open Library

/-- The tables of a native and of a transmission code set undo each other. -/
structure MutuallyInverse (ncs tcs : CodeSet16bit) : Prop where
  toU_zero : ncs.toU 0 = 0 ∧ tcs.toU 0 = 0
  fromU_zero : ncs.fromU 0 = 0 ∧ tcs.fromU 0 = 0
  marshalled : ∀ c, ncs.toU c ≠ 0 → tcs.fromU (ncs.toU c) = c
  unmarshalled : ∀ c, tcs.toU c ≠ 0 → ncs.fromU (tcs.toU c) = c

/-- The unit is mapped to Unicode. -/
def CodeSet16bit.Mapped (cs : CodeSet16bit) (c : UInt16) : Prop := c = 0 ∨ cs.toU c ≠ 0

/-- The units that so many reads get, as far as the stream reaches. -/
def unitsAhead (host : ByteOrder) : ℕ → CdrIn → List UInt16
  | 0, _ => []
  | n + 1, s =>
    match s.unmarshalWord host .align2 with
    | .error _ => []
    | .ok (tc, s) => UInt16.ofNat tc :: unitsAhead host n s

/-- What the four functions are called with: the host, the byte order and the status of the stream,
a character and a string to write, a bound, and streams to read a character and a string from. -/
structure WideCalls where
  host : ByteOrder
  order : ByteOrder
  completion : Completion
  wc : ℤ
  ws : List ℤ
  bound : ℕ
  out : CdrOut
  charIn : CdrIn
  stringIn : CdrIn

namespace WideCalls

variable (i : WideCalls)

/-- All characters in the 16-bit range are mapped, and so are the units in the streams, as far as
they are read. -/
structure Mapped (ncs tcs : CodeSet16bit) : Prop where
  chars : ∀ wc ∈ i.wc :: i.ws, 0 ≤ wc → wc ≤ 0xffff → ncs.Mapped (lowUnit wc)
  unit : ∀ completion tc s,
    TCS_W_16bit.unmarshalUnit i.host completion i.charIn = .ok (tc, s) → tcs.Mapped tc
  units : ∀ len s,
    TCS_W_16bit.unmarshalWLength i.host i.completion i.bound i.stringIn = .ok (len, s) →
      ∀ tc ∈ unitsAhead i.host len s, tcs.Mapped tc

open NCS_W_16bit in
/-- The functions do what they do behind their fast paths, a character over 0xffff is refused, and
what is written reads back on a host of any byte order. -/
structure Agree (ncs tcs : CodeSet16bit) : Prop where
  marshalWChar : marshalWChar ncs tcs i.host i.order i.completion i.wc i.out =
    genericMarshalWChar ncs tcs i.host i.order i.completion i.wc i.out
  marshalWString : marshalWString ncs tcs i.order i.completion i.bound i.ws i.out =
    genericMarshalWString ncs tcs i.order i.completion i.bound i.ws i.out
  unmarshalWChar : unmarshalWChar ncs tcs i.host i.completion i.charIn =
    genericUnmarshalWChar ncs tcs i.host i.completion i.charIn
  unmarshalWString : unmarshalWString ncs tcs i.host i.completion i.bound i.stringIn =
    genericUnmarshalWString ncs tcs i.host i.completion i.bound i.stringIn
  refused : (∃ wc ∈ i.ws, 0xffff < wc) → ∀ after,
    NCS_W_16bit.marshalWString ncs tcs i.order i.completion i.bound i.ws i.out ≠ .ok after
  charBack : ∀ after,
    NCS_W_16bit.marshalWChar ncs tcs i.host i.order i.completion i.wc i.out = .ok after →
      ∀ reader completion rest,
        NCS_W_16bit.unmarshalWChar ncs tcs reader completion
            (TCS_W_UTF_16.readOn reader i.order i.out after rest) =
          .ok (i.wc, TCS_W_UTF_16.readTo reader i.order after rest)
  stringBack : ∀ after,
    NCS_W_16bit.marshalWString ncs tcs i.order i.completion i.bound i.ws i.out = .ok after →
      ∀ reader completion rest,
        NCS_W_16bit.unmarshalWString ncs tcs reader completion i.bound
            (TCS_W_UTF_16.readOn reader i.order i.out after rest) =
          .ok ((i.ws.length, i.ws ++ [0]), TCS_W_UTF_16.readTo reader i.order after rest)

/-- The condition under which they do. -/
structure Plain : Prop where
  char : 0 ≤ i.wc
  string : i.bound ≠ 0 ∧ i.bound < i.ws.length ∨
    i.ws.length < 2 ^ 31 ∧ ∀ wc ∈ i.ws, 0 ≤ wc ∧ wc ≤ 0xffff
  size : i.completion = .no ∨ ∀ o ∈ i.charIn.unread.head?, o ≤ 2

end WideCalls

/-! ### Units and characters -/

lemma toNat_lowUnit {wc : ℤ} (hlo : 0 ≤ wc) (hhi : wc ≤ 0xffff) : ((lowUnit wc).toNat : ℤ) = wc := by
  obtain ⟨n, rfl⟩ := Int.eq_ofNat_of_zero_le hlo
  have hn : n < 65536 := by omega
  have hmod : ((n : ℤ) % 2 ^ 16).toNat = n := by omega
  rw [lowUnit, hmod, UInt16.toNat_ofNat', Nat.mod_eq_of_lt hn]

lemma lowUnit_ne_zero {wc : ℤ} (hlo : 0 ≤ wc) (hhi : wc ≤ 0xffff) (h : wc ≠ 0) :
    lowUnit wc ≠ 0 := by
  intro hzero
  have hback := toNat_lowUnit hlo hhi
  rw [hzero] at hback
  exact h hback.symm

@[simp]
lemma lowUnit_zero : lowUnit 0 = 0 := rfl

lemma mapM_eq_ok {α β ε : Type} {f : α → Except ε β} {g : α → β} {l : List α}
    (h : ∀ a ∈ l, f a = .ok (g a)) : l.mapM f = .ok (l.map g) := by
  induction l with
  | nil => rfl
  | cons a l ih =>
    rw [List.mapM_cons, h a List.mem_cons_self, ih fun b hb => h b (List.mem_cons_of_mem _ hb)]
    rfl

namespace CodeSet16bit

variable {cs cs' : CodeSet16bit} {completion : Completion}

lemma mapToU_of_mapped {c : UInt16} (h : cs.Mapped c) : cs.mapToU completion c = .ok (cs.toU c) := by
  rw [mapToU, if_neg]
  rintro ⟨hne, hzero⟩
  exact h.elim hne fun hmapped => hmapped hzero

/-- From Unicode, a mapped unit comes back. -/
lemma mapFromU_toU (htoU : cs'.toU 0 = 0) (hfromU : cs.fromU 0 = 0)
    (hback : ∀ c, cs'.toU c ≠ 0 → cs.fromU (cs'.toU c) = c) {c : UInt16} (h : cs'.Mapped c) :
    cs.mapFromU completion (cs'.toU c) = .ok c := by
  by_cases hc : cs'.toU c = 0
  · have hzero : c = 0 := h.resolve_right fun hne => hne hc
    rw [hzero, htoU, mapFromU, if_neg fun hne => hne.1 rfl, hfromU]
  · rw [mapFromU, hback c hc, if_neg]
    rintro ⟨-, rfl⟩
    exact hc htoU

lemma mapWChar_of_mapped {wc : ℤ} (hlo : 0 ≤ wc) (hhi : wc ≤ 0xffff)
    (h : cs.Mapped (lowUnit wc)) : cs.mapWChar completion wc = .ok (cs.toU (lowUnit wc)) := by
  rw [mapWChar, if_neg (not_lt.mpr hhi), if_neg]
  rintro ⟨hne, hzero⟩
  exact h.elim (lowUnit_ne_zero hlo hhi hne) fun hmapped => hmapped hzero

end CodeSet16bit

namespace TCS_W_16bit

variable {host order : ByteOrder} {completion : Completion} {tcs : CodeSet16bit}

/-- A unit stands in the stream in the order of the stream. -/
lemma marshalUnit_eq (tc : UInt16) (out : CdrOut) :
    marshalUnit host order tc out = out.putOctetArray (order.octets 2 tc.toNat) := by
  rw [marshalUnit]
  rcases host.eq_or_opposite order with rfl | rfl
  · simp
  · have hne : host.opposite ≠ host := by cases host <;> decide
    rw [if_pos hne, ByteOrder.octets_opposite]

/-! ### Reading units -/

/-- Reading a string through the table of the code set gets the same units, if they are mapped. -/
lemma unmarshalLoop_mapToU (n : ℕ) {s : CdrIn} (h : ∀ tc ∈ unitsAhead host n s, tcs.Mapped tc) :
    unmarshalLoop host (tcs.mapToU completion) n s =
      (unmarshalLoop host (fun tc => .ok (tcs.toU tc)) n s) := by
  induction n generalizing s with
  | zero => rfl
  | succ n ih =>
    rw [unmarshalLoop, unmarshalLoop]
    rw [unitsAhead] at h
    generalize s.unmarshalWord host .align2 = word at h ⊢
    rcases word with e | ⟨tc, s'⟩
    · rfl
    · have hunit : tcs.mapToU completion (UInt16.ofNat tc) = .ok (tcs.toU (UInt16.ofNat tc)) :=
        CodeSet16bit.mapToU_of_mapped (h _ List.mem_cons_self)
      simp only [hunit, ih fun tc htc => h tc (List.mem_cons_of_mem _ htc)]

/-- The loop turns each unit on its own. -/
lemma unmarshalLoop_map {α : Type} (g : UInt16 → α) (n : ℕ) (s : CdrIn) :
    unmarshalLoop host (fun tc => .ok (g tc)) n s =
      match unmarshalLoop host (fun tc => .ok tc) n s with
      | .error e => .error e
      | .ok (l, s) => .ok (l.map g, s) := by
  induction n generalizing s with
  | zero => rfl
  | succ n ih =>
    rw [unmarshalLoop, unmarshalLoop]
    rcases s.unmarshalWord host .align2 with e | ⟨tc, s'⟩
    · rfl
    · simp only [ih s']
      rcases unmarshalLoop host (fun tc => .ok tc) n s' with e | ⟨l, t⟩
      · rfl
      · rfl

/-- What the loop gets is what lies ahead. -/
lemma unmarshalLoop_units {n : ℕ} {s t : CdrIn} {l : List UInt16}
    (h : unmarshalLoop host (fun tc => .ok tc) n s = .ok (l, t)) : l = unitsAhead host n s := by
  induction n generalizing s l with
  | zero =>
    cases h
    rfl
  | succ n ih =>
    rw [unmarshalLoop] at h
    rw [unitsAhead]
    generalize s.unmarshalWord host .align2 = word at h ⊢
    rcases word with e | ⟨tc, s'⟩
    · cases h
    · simp only at h ⊢
      cases hloop : unmarshalLoop host (fun tc => Except.ok tc) n s' with
      | error e =>
        rw [hloop] at h
        cases h
      | ok p =>
        rw [hloop] at h
        cases h
        rw [ih hloop]

/-- The length of a string is less than 2^31. -/
lemma unmarshalWLength_lt {bound len : ℕ} {s t : CdrIn}
    (h : unmarshalWLength host completion bound s = .ok (len, t)) : len < 2 ^ 31 := by
  rw [unmarshalWLength] at h
  cases hword : s.unmarshalWord host .align4 with
  | error e =>
    rw [hword] at h
    cases h
  | ok p =>
    obtain ⟨mlen, s'⟩ := p
    have hlt : mlen < 2 ^ 32 := CdrIn.unmarshalWord_lt hword
    rw [hword] at h
    simp only at h
    split_ifs at h
    cases h
    omega

/-! ### What is written -/

/-- The octets of the characters of a string. -/
def charOctets (order : ByteOrder) (ws : List ℤ) : List UInt8 :=
  ws.flatMap fun wc => order.octets 2 (lowUnit wc).toNat

lemma charOctets_cons (wc : ℤ) (ws : List ℤ) :
    charOctets order (wc :: ws) = order.octets 2 (lowUnit wc).toNat ++ charOctets order ws := rfl

lemma length_charOctets (ws : List ℤ) : (charOctets order ws).length = ws.length * 2 := by
  induction ws with
  | nil => rfl
  | cons wc ws ih =>
    rw [charOctets_cons, List.length_append, ih, ByteOrder.length_octets, List.length_cons]
    omega

lemma fastMarshalLoop_eq {ws : List ℤ} {out : CdrOut} (h : 2 ∣ out.mkr) :
    fastMarshalLoop order ws out = out.putOctetArray (charOctets order ws) := by
  induction ws generalizing out with
  | nil => exact out.putOctetArray_nil.symm
  | cons wc ws ih =>
    have hword : out.marshalWord order .align2 (lowUnit wc).toNat =
        out.putOctetArray (order.octets 2 (lowUnit wc).toNat) := by
      rw [CdrOut.marshalWord, CdrOut.alignOutput_of_dvd h]
      rfl
    have hmkr : 2 ∣ (out.putOctetArray (order.octets 2 (lowUnit wc).toNat)).mkr := by
      rw [CdrOut.mkr, CdrOut.octets_putOctetArray, List.length_append, ByteOrder.length_octets]
      exact Dvd.dvd.add h (dvd_refl 2)
    rw [fastMarshalLoop, hword, ih hmkr, CdrOut.putOctetArray_putOctetArray, charOctets_cons]

/-- What the fast path writes for a string: its length in octets, and its characters. -/
lemma fastMarshalWString_octets (order : ByteOrder) (ws : List ℤ) (out : CdrOut) :
    ∃ pad : List UInt8, pad.length = alignTo out.mkr 4 - out.mkr ∧
      (fastMarshalLoop order ws (out.marshalWord order .align4 (ws.length * 2 % 2 ^ 32))).octets =
        out.octets ++ (pad ++
          (order.octets 4 (ws.length * 2 % 2 ^ 32) ++ charOctets order ws)) := by
  obtain ⟨pad, hpad, hout⟩ := out.marshalWord_octets order .align4 (ws.length * 2 % 2 ^ 32)
  refine ⟨pad, hpad, ?_⟩
  have hle := le_alignTo out.mkr (show 0 < 4 by decide)
  have hmkr : (out.marshalWord order .align4 (ws.length * 2 % 2 ^ 32)).mkr =
      alignTo out.mkr 4 + 4 := by
    change pad.length = alignTo out.mkr 4 - out.mkr at hpad
    rw [hout]
    simp only [CdrOut.mkr, List.length_append, ByteOrder.length_octets, Alignment.size] at hle hpad ⊢
    omega
  rw [fastMarshalLoop_eq, CdrOut.octets_putOctetArray, hout]
  · simp [Alignment.size]
  · rw [hmkr]
    exact Dvd.dvd.add (Dvd.dvd.trans (by decide) (dvd_alignTo out.mkr 4)) (by decide)

/-! ### Reading back -/

/-- The characters of a string are read from where they were written. -/
lemma unmarshalLoop_written (reader order : ByteOrder) (ws : List ℤ) (rest : List UInt8) {mkr : ℕ}
    (h : 2 ∣ mkr) :
    unmarshalLoop reader (fun tc => .ok tc) ws.length
        ⟨mkr, charOctets order ws ++ rest, decide (order ≠ reader)⟩ =
      .ok (ws.map lowUnit, ⟨mkr + ws.length * 2, rest, decide (order ≠ reader)⟩) := by
  induction ws generalizing mkr with
  | nil => rfl
  | cons wc ws ih =>
    have hpad : ([] : List UInt8).length = alignTo mkr Alignment.align2.size - mkr := by
      rw [Alignment.size, alignTo_of_dvd (by decide) h, Nat.sub_self, List.length_nil]
    have hword := TCS_W_UTF_16.unmarshalWord_mk reader order .align2 hpad
      (lowUnit wc).toNat_lt (charOctets order ws ++ rest)
    have hlater := ih (Dvd.dvd.add h (dvd_refl 2))
    change CdrIn.unmarshalWord ⟨mkr, order.octets 2 _ ++ _, _⟩ reader .align2 =
      .ok (_, ⟨mkr + 2, _, _⟩) at hword
    rw [List.length_cons, unmarshalLoop, charOctets_cons, List.append_assoc, hword]
    simp only [hlater, UInt16.ofNat_toNat, List.map_cons]
    rw [Nat.add_mul, Nat.add_assoc, Nat.add_comm (1 * 2), Nat.one_mul]

/-- A single character is read from where it was written. -/
lemma unmarshalUnit_written (reader order : ByteOrder) (sizeCompletion : Completion) (tc : UInt16)
    (mkr : ℕ) (rest : List UInt8) :
    unmarshalUnit reader sizeCompletion
        ⟨mkr, 2 :: (order.octets 2 tc.toNat ++ rest), decide (order ≠ reader)⟩ =
      .ok (tc, ⟨mkr + 3, rest, decide (order ≠ reader)⟩) := by
  obtain ⟨a, b, hab⟩ := TCS_W_UTF_16.exists_octets order tc.toNat
  have hval : order.value [a, b] = tc.toNat := by
    rw [← hab]
    exact order.value_octets_of_lt tc.toNat_lt
  have hread : (if decide (order ≠ reader) then reader.value [b, a] else reader.value [a, b]) =
      tc.toNat := by
    rcases reader.eq_or_opposite order with rfl | rfl
    · simpa using hval
    · have hne : reader.opposite ≠ reader := by cases reader <;> decide
      rw [ByteOrder.value_opposite] at hval
      simpa [hne] using hval
  rw [hab, unmarshalUnit, CdrIn.unmarshalOctet_cons rfl]
  simp only [CdrIn.advance, List.drop_one, List.tail_cons, List.cons_append, List.nil_append]
  rw [if_neg (by decide), if_neg (by decide), if_pos trivial]
  simp only [CdrIn.unmarshalOctet, CdrIn.advance, List.drop_one, List.tail_cons, hread,
    UInt16.ofNat_toNat]

/-- The status for the size counts only where the size is not known. -/
lemma unmarshalUnit_congr {s : CdrIn} {completion' : Completion}
    (h : completion = completion' ∨ ∀ o ∈ s.unread.head?, o ≤ 2) :
    unmarshalUnit host completion s = unmarshalUnit host completion' s := by
  rcases h with rfl | h
  · rfl
  rw [unmarshalUnit, unmarshalUnit, CdrIn.unmarshalOctet]
  cases hs : s.unread with
  | nil => rfl
  | cons o rest =>
    rw [hs] at h
    have hle : o.toNat ≤ 2 := h o rfl
    simp only
    by_cases h0 : o = 0
    · rw [if_pos h0, if_pos h0]
    by_cases h1 : o = 1
    · rw [if_neg h0, if_neg h0, if_pos h1, if_pos h1]
    have h2 : o = 2 := by
      rw [← UInt8.toNat_inj] at h0 h1 ⊢
      simp only [UInt8.reduceToNat] at h0 h1 ⊢
      omega
    rw [if_neg h0, if_neg h0, if_neg h1, if_neg h1, if_pos h2, if_pos h2]

lemma unmarshalUnit_size {s : CdrIn} {o : UInt8} {rest : List UInt8} (hs : s.unread = o :: rest)
    (ho : ¬o ≤ 2) :
    unmarshalUnit host completion s = .error (.invalidWCharSize completion, s.advance 1) := by
  have hlt : 2 < o.toNat := not_le.mp ho
  have hne {k : UInt8} (hk : k.toNat ≤ 2) : o ≠ k := by
    rintro rfl
    omega
  rw [unmarshalUnit, CdrIn.unmarshalOctet_cons hs]
  simp only
  rw [if_neg (hne (by decide)), if_neg (hne (by decide)), if_neg (hne (by decide))]

end TCS_W_16bit

/-! ### The four functions -/

section

open TCS_W_16bit

variable {ncs tcs : CodeSet16bit} {host order : ByteOrder} {completion : Completion}

lemma genericMarshalWChar_eq (hinv : MutuallyInverse ncs tcs) {wc : ℤ} (hlo : 0 ≤ wc)
    (hmapped : wc ≤ 0xffff → ncs.Mapped (lowUnit wc)) (out : CdrOut) :
    NCS_W_16bit.genericMarshalWChar ncs tcs host order completion wc out =
      fastMarshalWChar host order completion wc out := by
  rw [NCS_W_16bit.genericMarshalWChar, fastMarshalWChar]
  by_cases hwide : 0xffff < wc
  · rw [CodeSet16bit.mapWChar, if_pos hwide, if_pos hwide]
  · have hhi := not_lt.mp hwide
    have hunit : tcs.mapFromU completion (ncs.toU (lowUnit wc)) = .ok (lowUnit wc) :=
      CodeSet16bit.mapFromU_toU hinv.toU_zero.1 hinv.fromU_zero.2 hinv.marshalled (hmapped hhi)
    rw [CodeSet16bit.mapWChar_of_mapped hlo hhi (hmapped hhi), if_neg hwide]
    simp only [TCS_W_16bit.marshalWChar, hunit]

lemma marshalLoop_eq (hinv : MutuallyInverse ncs tcs) {ws : List ℤ}
    (hmapped : ∀ wc ∈ ws, ncs.Mapped (lowUnit wc)) (out : CdrOut) :
    marshalLoop order completion tcs (ws.map fun wc => ncs.toU (lowUnit wc)) out =
      .ok (fastMarshalLoop order ws out) := by
  induction ws generalizing out with
  | nil => rfl
  | cons wc ws ih =>
    have hunit : tcs.mapFromU completion (ncs.toU (lowUnit wc)) = .ok (lowUnit wc) :=
      CodeSet16bit.mapFromU_toU hinv.toU_zero.1 hinv.fromU_zero.2 hinv.marshalled
        (hmapped wc List.mem_cons_self)
    rw [List.map_cons, marshalLoop, hunit, fastMarshalLoop]
    exact ih (fun wc hwc => hmapped wc (List.mem_cons_of_mem _ hwc)) _

lemma genericMarshalWString_eq (hinv : MutuallyInverse ncs tcs) {bound : ℕ} {ws : List ℤ}
    (hrange : bound ≠ 0 ∧ bound < ws.length ∨ ∀ wc ∈ ws, 0 ≤ wc ∧ wc ≤ 0xffff)
    (hmapped : ∀ wc ∈ ws, 0 ≤ wc → wc ≤ 0xffff → ncs.Mapped (lowUnit wc)) (out : CdrOut) :
    NCS_W_16bit.genericMarshalWString ncs tcs order completion bound ws out =
      fastMarshalWString order completion bound ws out := by
  rw [NCS_W_16bit.genericMarshalWString, fastMarshalWString]
  by_cases hbound : bound ≠ 0 ∧ bound < ws.length
  · rw [if_pos hbound, if_pos hbound]
  · have hchars := hrange.resolve_left hbound
    have hall : ∀ wc ∈ ws, ncs.Mapped (lowUnit wc) := fun wc hwc =>
      hmapped wc hwc (hchars wc hwc).1 (hchars wc hwc).2
    have hunits : (ws ++ [0]).mapM (ncs.mapWChar completion) =
        .ok ((ws ++ [0]).map fun wc => ncs.toU (lowUnit wc)) := by
      apply mapM_eq_ok
      intro wc hwc
      rcases List.mem_append.mp hwc with hwc | hwc
      · exact CodeSet16bit.mapWChar_of_mapped (hchars wc hwc).1 (hchars wc hwc).2 (hall wc hwc)
      · obtain rfl := List.mem_singleton.mp hwc
        exact CodeSet16bit.mapWChar_of_mapped le_rfl (by decide) (.inl rfl)
    have htake : ((ws ++ [0]).map fun wc => ncs.toU (lowUnit wc)).take ws.length =
        ws.map fun wc => ncs.toU (lowUnit wc) := by
      rw [List.map_append]
      exact List.take_left' (List.length_map _)
    rw [if_neg hbound, if_neg hbound, hunits]
    simp only [TCS_W_16bit.marshalWString, htake, marshalLoop_eq hinv hall]

lemma genericUnmarshalWChar_eq (hinv : MutuallyInverse ncs tcs) {s : CdrIn}
    (hsize : completion = .no ∨ ∀ o ∈ s.unread.head?, o ≤ 2)
    (hmapped : ∀ completion tc t, unmarshalUnit host completion s = .ok (tc, t) → tcs.Mapped tc) :
    NCS_W_16bit.genericUnmarshalWChar ncs tcs host completion s = fastUnmarshalWChar host s := by
  rw [NCS_W_16bit.genericUnmarshalWChar, TCS_W_16bit.unmarshalWChar, fastUnmarshalWChar,
    unmarshalUnit_congr hsize]
  cases hunit : unmarshalUnit host .no s with
  | error e => rfl
  | ok p =>
    obtain ⟨tc, t⟩ := p
    have htc := hmapped .no tc t hunit
    have hback : ncs.mapFromU completion (tcs.toU tc) = .ok tc :=
      CodeSet16bit.mapFromU_toU hinv.toU_zero.2 hinv.fromU_zero.1 hinv.unmarshalled htc
    simp only [CodeSet16bit.mapToU_of_mapped htc, hback]

lemma genericUnmarshalWString_eq (hinv : MutuallyInverse ncs tcs) {bound : ℕ} {s : CdrIn}
    (hmapped : ∀ len t, TCS_W_16bit.unmarshalWLength host completion bound s = .ok (len, t) →
      ∀ tc ∈ unitsAhead host len t, tcs.Mapped tc) :
    NCS_W_16bit.genericUnmarshalWString ncs tcs host completion bound s =
      fastUnmarshalWString host completion bound s := by
  rw [NCS_W_16bit.genericUnmarshalWString, TCS_W_16bit.unmarshalWString, fastUnmarshalWString]
  cases hlen : TCS_W_16bit.unmarshalWLength host completion bound s with
  | error e => rfl
  | ok p =>
    obtain ⟨len, t⟩ := p
    have hall := hmapped len t hlen
    simp only [unmarshalLoop_mapToU len hall, unmarshalLoop_map (fun tc => tcs.toU tc),
      unmarshalLoop_map (fun tc => (tc.toNat : ℤ))]
    cases hloop : unmarshalLoop host (fun tc => Except.ok tc) len t with
    | error e => rfl
    | ok q =>
      obtain ⟨l, u⟩ := q
      have hl := unmarshalLoop_units hloop
      have hback : (l.map tcs.toU ++ [0]).mapM (ncs.mapFromU completion) = .ok (l ++ [0]) := by
        have hzero : l.map tcs.toU ++ [0] = (l ++ [0]).map tcs.toU := by
          rw [List.map_append, List.map_singleton, hinv.toU_zero.2]
        rw [hzero, List.mapM_map]
        have hunits := mapM_eq_ok (f := fun c => ncs.mapFromU completion (tcs.toU c)) (g := id)
          (l := l ++ [0]) ?_
        · rwa [List.map_id] at hunits
        · intro c hc
          refine CodeSet16bit.mapFromU_toU hinv.toU_zero.2 hinv.fromU_zero.1 hinv.unmarshalled ?_
          rcases List.mem_append.mp hc with hc | hc
          · exact hall c (hl ▸ hc)
          · exact .inl (List.mem_singleton.mp hc)
      simp only [hback, List.map_append, List.map_singleton]
      rfl

/-- The characters that are read are in the 16-bit range. -/
lemma nonneg_of_fastUnmarshalWString {bound len : ℕ} {s t : CdrIn} {ws : List ℤ}
    (h : fastUnmarshalWString host completion bound s = .ok ((len, ws), t)) :
    len < 2 ^ 31 ∧ ∀ wc ∈ ws, 0 ≤ wc := by
  rw [fastUnmarshalWString] at h
  cases hlen : TCS_W_16bit.unmarshalWLength host completion bound s with
  | error e =>
    rw [hlen] at h
    cases h
  | ok p =>
    obtain ⟨n, s'⟩ := p
    rw [hlen] at h
    simp only [unmarshalLoop_map (fun tc => (tc.toNat : ℤ))] at h
    cases hloop : unmarshalLoop host (fun tc => Except.ok tc) n s' with
    | error e =>
      rw [hloop] at h
      cases h
    | ok q =>
      rw [hloop] at h
      cases h
      refine ⟨unmarshalWLength_lt hlen, fun wc hwc => ?_⟩
      rcases List.mem_append.mp hwc with hwc | hwc
      · obtain ⟨tc, -, rfl⟩ := List.mem_map.mp hwc
        exact Int.natCast_nonneg _
      · rw [List.mem_singleton.mp hwc]

lemma fastUnmarshalWChar_written (reader order : ByteOrder) {wc : ℤ} (hlo : 0 ≤ wc)
    (hhi : wc ≤ 0xffff) (host : ByteOrder) (out : CdrOut) (rest : List UInt8) :
    fastUnmarshalWChar reader (TCS_W_UTF_16.readOn reader order out
        (putWChar host order (lowUnit wc) out) rest) =
      .ok (wc, TCS_W_UTF_16.readTo reader order (putWChar host order (lowUnit wc) out) rest) := by
  have hput : putWChar host order (lowUnit wc) out =
      out.putOctetArray (2 :: order.octets 2 (lowUnit wc).toNat) := by
    rw [putWChar, marshalUnit_eq, CdrOut.marshalOctet, CdrOut.putOctetArray_putOctetArray]
    rfl
  have hmkr : (out.putOctetArray (2 :: order.octets 2 (lowUnit wc).toNat)).mkr = out.mkr + 3 := by
    rw [CdrOut.mkr, CdrOut.octets_putOctetArray, List.length_append, List.length_cons,
      ByteOrder.length_octets]
    rfl
  rw [hput, TCS_W_UTF_16.readOn_mk reader order (CdrOut.octets_putOctetArray _ _),
    fastUnmarshalWChar, List.cons_append, unmarshalUnit_written, TCS_W_UTF_16.readTo, hmkr]
  simp only [toNat_lowUnit hlo hhi]

lemma fastUnmarshalWString_written (reader order : ByteOrder) {bound : ℕ} {ws : List ℤ}
    (hbound : ¬(bound ≠ 0 ∧ bound < ws.length)) (hlen : ws.length < 2 ^ 31)
    (hrange : ∀ wc ∈ ws, 0 ≤ wc ∧ wc ≤ 0xffff) (out : CdrOut) (rest : List UInt8)
    {after : CdrOut}
    (hafter : after =
      fastMarshalLoop order ws (out.marshalWord order .align4 (ws.length * 2 % 2 ^ 32))) :
    fastUnmarshalWString reader completion bound
        (TCS_W_UTF_16.readOn reader order out after rest) =
      .ok ((ws.length, ws ++ [0]), TCS_W_UTF_16.readTo reader order after rest) := by
  obtain ⟨pad, hpad, hout⟩ := fastMarshalWString_octets order ws out
  rw [← hafter] at hout
  have hmlen : ws.length * 2 % 2 ^ 32 = ws.length * 2 := Nat.mod_eq_of_lt (by omega)
  have hle := le_alignTo out.mkr (show 0 < 4 by decide)
  have hword := TCS_W_UTF_16.unmarshalWord_mk reader order .align4 hpad
    (show ws.length * 2 < 256 ^ 4 by omega) (charOctets order ws ++ rest)
  have hmkr : out.mkr + pad.length + Alignment.align4.size = alignTo out.mkr 4 + 4 := by
    rw [hpad]
    simp only [Alignment.size]
    omega
  have hdvd : 2 ∣ alignTo out.mkr 4 + 4 :=
    Dvd.dvd.add (Dvd.dvd.trans (by decide) (dvd_alignTo out.mkr 4)) (by decide)
  have hroom : (CdrIn.mk (alignTo out.mkr 4 + 4) (charOctets order ws ++ rest)
      (decide (order ≠ reader))).checkInputOverrun (ws.length * 2) = true := by
    rw [CdrIn.checkInputOverrun]
    simp only [decide_eq_true_eq, List.length_append, length_charOctets]
    omega
  have hlength : unmarshalWLength reader completion bound
      ⟨out.mkr, pad ++ (order.octets 4 (ws.length * 2) ++ (charOctets order ws ++ rest)),
        decide (order ≠ reader)⟩ =
      .ok (ws.length, ⟨alignTo out.mkr 4 + 4, charOctets order ws ++ rest,
        decide (order ≠ reader)⟩) := by
    change CdrIn.unmarshalWord ⟨_, pad ++ (order.octets 4 _ ++ _), _⟩ reader .align4 = _ at hword
    rw [unmarshalWLength, hword, hmkr]
    simp only [hroom]
    rw [if_neg (by omega), if_neg (by omega), if_neg (by simp), Nat.mul_div_cancel _ (by decide)]
  have hend : after.mkr = alignTo out.mkr 4 + 4 + ws.length * 2 := by
    rw [← hmkr, CdrOut.mkr, hout]
    simp only [List.length_append, ByteOrder.length_octets, length_charOctets, CdrOut.mkr,
      Alignment.size]
    omega
  have hchars : (ws.map lowUnit).map (fun tc => (tc.toNat : ℤ)) = ws := by
    rw [List.map_map]
    conv_rhs => rw [← List.map_id ws]
    apply List.map_congr_left
    exact fun wc hwc => toNat_lowUnit (hrange wc hwc).1 (hrange wc hwc).2
  rw [hmlen] at hout
  rw [TCS_W_UTF_16.readOn_mk reader order hout, List.append_assoc, List.append_assoc,
    fastUnmarshalWString, hlength]
  simp only [unmarshalLoop_map (fun tc => (tc.toNat : ℤ)),
    unmarshalLoop_written reader order ws rest hdvd, hchars]
  rw [TCS_W_UTF_16.readTo, hend]

/-! ### The condition -/

variable {i : WideCalls}

lemma marshalWChar_eq_fast (hid : ncs.id = tcs.id) (wc : ℤ) (out : CdrOut) :
    NCS_W_16bit.marshalWChar ncs tcs host order completion wc out =
      fastMarshalWChar host order completion wc out := if_pos hid

lemma marshalWString_eq_fast (hid : ncs.id = tcs.id) (bound : ℕ) (ws : List ℤ) (out : CdrOut) :
    NCS_W_16bit.marshalWString ncs tcs order completion bound ws out =
      fastMarshalWString order completion bound ws out := if_pos hid

lemma unmarshalWChar_eq_fast (hid : ncs.id = tcs.id) (s : CdrIn) :
    NCS_W_16bit.unmarshalWChar ncs tcs host completion s = fastUnmarshalWChar host s := if_pos hid

lemma unmarshalWString_eq_fast (hid : ncs.id = tcs.id) (bound : ℕ) (s : CdrIn) :
    NCS_W_16bit.unmarshalWString ncs tcs host completion bound s =
      fastUnmarshalWString host completion bound s := if_pos hid

lemma WideCalls.Plain.agree (hid : ncs.id = tcs.id) (hinv : MutuallyInverse ncs tcs)
    (hmapped : i.Mapped ncs tcs) (h : i.Plain) : i.Agree ncs tcs where
  marshalWChar := by
    rw [marshalWChar_eq_fast hid, genericMarshalWChar_eq hinv h.char fun hhi =>
      hmapped.chars i.wc List.mem_cons_self h.char hhi]
  marshalWString := by
    rw [marshalWString_eq_fast hid, genericMarshalWString_eq hinv (h.string.imp_right And.right)
      fun wc hwc => hmapped.chars wc (List.mem_cons_of_mem _ hwc)]
  unmarshalWChar := by
    rw [unmarshalWChar_eq_fast hid, genericUnmarshalWChar_eq hinv h.size hmapped.unit]
  unmarshalWString := by
    rw [unmarshalWString_eq_fast hid, genericUnmarshalWString_eq hinv hmapped.units]
  refused := by
    rintro ⟨wc, hwc, hwide⟩ after hafter
    rw [marshalWString_eq_fast hid, fastMarshalWString] at hafter
    rcases h.string with hbound | ⟨-, hrange⟩
    · rw [if_pos hbound] at hafter
      cases hafter
    · exact absurd hwide (not_lt.mpr (hrange wc hwc).2)
  charBack := by
    intro after hafter reader completion rest
    rw [marshalWChar_eq_fast hid, fastMarshalWChar] at hafter
    split_ifs at hafter with hwide
    cases hafter
    rw [unmarshalWChar_eq_fast hid]
    exact fastUnmarshalWChar_written reader i.order h.char (not_lt.mp hwide) i.host i.out rest
  stringBack := by
    intro after hafter reader completion rest
    rw [marshalWString_eq_fast hid, fastMarshalWString] at hafter
    split_ifs at hafter with hbound
    obtain ⟨hlen, hrange⟩ := h.string.resolve_left hbound
    rw [unmarshalWString_eq_fast hid]
    exact fastUnmarshalWString_written reader i.order hbound hlen hrange i.out rest
      (Except.ok.inj hafter).symm

lemma WideCalls.Agree.char (hid : ncs.id = tcs.id) (h : i.Agree ncs tcs) : 0 ≤ i.wc := by
  by_contra hneg
  have hback := h.charBack (putWChar i.host i.order (lowUnit i.wc) i.out) (by
    rw [marshalWChar_eq_fast hid, fastMarshalWChar, if_neg (by omega)]) i.order .no []
  rw [unmarshalWChar_eq_fast hid, fastUnmarshalWChar] at hback
  split at hback
  · cases hback
  · simp only [Except.ok.injEq, Prod.mk.injEq] at hback
    exact hneg (hback.1 ▸ Int.natCast_nonneg _)

lemma WideCalls.Agree.string (hid : ncs.id = tcs.id) (h : i.Agree ncs tcs) :
    i.bound ≠ 0 ∧ i.bound < i.ws.length ∨
      i.ws.length < 2 ^ 31 ∧ ∀ wc ∈ i.ws, 0 ≤ wc ∧ wc ≤ 0xffff := by
  by_cases hbound : i.bound ≠ 0 ∧ i.bound < i.ws.length
  · exact .inl hbound
  -- the string is written, and so it is read as it was
  obtain ⟨after, hafter⟩ : ∃ after,
      NCS_W_16bit.marshalWString ncs tcs i.order i.completion i.bound i.ws i.out = .ok after := by
    rw [marshalWString_eq_fast hid, fastMarshalWString, if_neg hbound]
    exact ⟨_, rfl⟩
  have hback := h.stringBack after hafter i.order .no []
  rw [unmarshalWString_eq_fast hid] at hback
  obtain ⟨hlen, hnonneg⟩ := nonneg_of_fastUnmarshalWString hback
  refine .inr ⟨hlen, fun wc hwc => ⟨hnonneg wc (List.mem_append_left _ hwc), ?_⟩⟩
  by_contra hwide
  exact h.refused ⟨wc, hwc, not_le.mp hwide⟩ after hafter

lemma WideCalls.Agree.size (hid : ncs.id = tcs.id) (h : i.Agree ncs tcs) :
    i.completion = .no ∨ ∀ o ∈ i.charIn.unread.head?, o ≤ 2 := by
  by_contra hnot
  obtain ⟨hcompletion, hsize⟩ := not_or.mp hnot
  obtain ⟨o, ho, hlarge⟩ : ∃ o, i.charIn.unread.head? = some o ∧ ¬o ≤ 2 := by
    simpa using hsize
  obtain ⟨rest, hs⟩ := List.head?_eq_some_iff.mp ho
  have hsame := h.unmarshalWChar
  rw [unmarshalWChar_eq_fast hid, fastUnmarshalWChar, NCS_W_16bit.genericUnmarshalWChar,
    TCS_W_16bit.unmarshalWChar, unmarshalUnit_size hs hlarge, unmarshalUnit_size hs hlarge] at hsame
  simp only [Except.error.injEq, Prod.mk.injEq, WideExn.invalidWCharSize.injEq] at hsame
  exact hcompletion hsame.1.symm

end

/-- The wide 16-bit functions do on their fast paths what they do through UTF-16, refuse what they
cannot represent and read back what they write if and only if no character is negative, a string
that is not over its bound has fewer than 2^31 characters, all in the 16-bit range, and the size of
a character that is read is known or the exception would say `COMPLETED_NO` anyway. -/
theorem wide_paths_agree_iff {ncs tcs : CodeSet16bit} (hid : ncs.id = tcs.id)
    (hinv : MutuallyInverse ncs tcs) (i : WideCalls) (hmapped : i.Mapped ncs tcs) :
    i.Agree ncs tcs ↔ i.Plain := by
  constructor
  · exact fun h => ⟨h.char hid, h.string hid, h.size hid⟩
  · exact fun h => h.agree hid hinv hmapped

/-- A code set whose characters are those of Unicode. -/
def plainCodeSet : CodeSet16bit := ⟨0x00010100, id, id⟩

lemma plainCodeSet_inverse : MutuallyInverse plainCodeSet plainCodeSet :=
  ⟨⟨rfl, rfl⟩, ⟨rfl, rfl⟩, fun _ _ => rfl, fun _ _ => rfl⟩

lemma plainCodeSet_mapped (i : WideCalls) : i.Mapped plainCodeSet plainCodeSet :=
  ⟨fun _ _ _ _ => Classical.em _, fun _ _ _ _ => Classical.em _, fun _ _ _ _ _ => Classical.em _⟩

/-- A call for each function, of which only the string differs. -/
def callsFor (ws : List ℤ) : WideCalls where
  host := .littleEndian
  order := .bigEndian
  completion := .yes
  wc := 0x41
  ws
  bound := 0
  out := ⟨[], fun _ => 0⟩
  charIn := ⟨0, [2, 0, 0x41], true⟩
  stringIn := ⟨0, [0, 0, 0, 2, 0, 0x41], true⟩

theorem wide_paths_agree_iff_plain :
    (callsFor [0x41, 0x20ac]).Plain ∧ (callsFor [0x41, 0x20ac]).Agree plainCodeSet plainCodeSet := by
  have hplain : (callsFor [0x41, 0x20ac]).Plain := by
    refine ⟨by decide, .inr ⟨by decide, by decide⟩, .inr ?_⟩
    rintro _ ⟨⟩
    decide
  exact ⟨hplain, (wide_paths_agree_iff rfl plainCodeSet_inverse _ (plainCodeSet_mapped _)).mpr hplain⟩

/-- The fast path writes 0x10041 as 0x41. -/
theorem wide_character_truncated :
    ¬∀ ncs tcs : CodeSet16bit, ncs.id = tcs.id → MutuallyInverse ncs tcs →
      ∀ i : WideCalls, i.Mapped ncs tcs → i.Agree ncs tcs := by
  intro h
  have hagree := h plainCodeSet plainCodeSet rfl plainCodeSet_inverse (callsFor [0x10041])
    (plainCodeSet_mapped _)
  exact hagree.refused ⟨0x10041, List.mem_cons_self, by decide⟩ _ rfl

end OmniORB
