import OmniORB.CodeSets.Utf8Character
import OmniORB.Uri.Names

/-!
# Validating UTF-8 strings

`TCS_C_UTF_8::validateString`. A pointer into a string is the list of the octets from it to the end
of the memory that may be read.
-/

namespace OmniORB

open Library

/-! ### Shortest forms -/

/-- The number of octets that a code point takes in UTF-8. -/
def width (cp : ℕ) : ℕ := if cp ≤ 0x7f then 1 else if cp ≤ 0x7ff then 2 else if cp ≤ 0xffff then 3 else 4

/-- A code point that is a character, and that a sequence of a lead octet and `bytes` others has the
right length for. -/
structure Shortest (cp bytes : ℕ) : Prop where
  le : cp ≤ 0x10ffff
  not_surrogate : ¬(0xd800 ≤ cp ∧ cp ≤ 0xdfff)
  width_eq : width cp = bytes + 1

instance (cp bytes : ℕ) : Decidable (Shortest cp bytes) :=
  decidable_of_iff (cp ≤ 0x10ffff ∧ ¬(0xd800 ≤ cp ∧ cp ≤ 0xdfff) ∧ width cp = bytes + 1)
    ⟨fun h => ⟨h.1, h.2.1, h.2.2⟩, fun h => ⟨h.le, h.not_surrogate, h.width_eq⟩⟩

/-- The check of `validateString`. -/
lemma not_shortest_iff (cp bytes : ℕ) :
    (0x10ffff < cp ∨ (0xd800 ≤ cp ∧ cp ≤ 0xdfff) ∨ width cp ≠ bytes + 1) ↔ ¬Shortest cp bytes := by
  constructor
  · rintro (h | h | h) hshort
    · exact absurd hshort.le (Nat.not_le.mpr h)
    · exact hshort.not_surrogate h
    · exact h hshort.width_eq
  · intro hshort
    by_contra h
    rw [not_or, not_or] at h
    exact hshort ⟨Nat.not_lt.mp h.1, h.2.1, not_not.mp h.2.2⟩

lemma length_utf8EncodeChar (c : Char) : (String.utf8EncodeChar c).length = width c.toNat := by
  rw [utf8EncodeChar_eq, width]
  split_ifs <;> rfl

lemma length_le_utf8Encode (cs : List Char) : cs.length ≤ (utf8Encode cs).length := by
  induction cs with
  | nil => exact le_rfl
  | cons c cs ih =>
    have hpos := List.length_pos_of_ne_nil (utf8EncodeChar_ne_nil c)
    rw [utf8Encode_cons, List.length_append, List.length_cons]
    omega

lemma shortest_char {c : Char} {lead : UInt8} {exts : List UInt8}
    (h : String.utf8EncodeChar c = lead :: exts) : Shortest c.toNat exts.length where
  le := by
    have hc := char_toNat_cases c
    omega
  not_surrogate := by
    have hc := char_toNat_cases c
    omega
  width_eq := by rw [← length_utf8EncodeChar, h, List.length_cons]

/-- The lead octet has its form above the bits that it carries. -/
lemma IsLead.toNat_eq {lead : UInt8} {bytes bits : ℕ} (h : IsLead lead bytes bits) (h3 : bytes ≤ 3) :
    (bytes = 0 ∧ lead.toNat = bits ∧ bits < 0x80) ∨
    (bytes = 1 ∧ lead.toNat = bits + 192 ∧ bits < 32) ∨
    (bytes = 2 ∧ lead.toNat = bits + 224 ∧ bits < 16) ∨
    (bytes = 3 ∧ lead.toNat = bits + 240 ∧ bits < 8) := by
  obtain ⟨hcount, hmask⟩ := h
  have h7 : lead.toNat &&& 0x7f = lead.toNat % 2 ^ 7 := and_mask _ 7
  have h5 : lead.toNat &&& 0x1f = lead.toNat % 2 ^ 5 := and_mask _ 5
  have h4 : lead.toNat &&& 0x0f = lead.toNat % 2 ^ 4 := and_mask _ 4
  have h3' : lead.toNat &&& 0x07 = lead.toNat % 2 ^ 3 := and_mask _ 3
  unfold utf8Count at hcount
  unfold utf8Mask at hmask
  split_ifs at hcount hmask <;> omega

/-- A lead octet and extension characters with the value of a character are its UTF-8 form, if they
are as many as it takes. -/
lemma exists_char {lead : UInt8} {exts : List UInt8} {bits : ℕ} (hlead : IsLead lead exts.length bits)
    (h3 : exts.length ≤ 3) (hext : ∀ b ∈ exts, IsExt b)
    (hshort : Shortest (extValue bits exts) exts.length) :
    ∃ c : Char, c.toNat = extValue bits exts ∧ String.utf8EncodeChar c = lead :: exts := by
  obtain ⟨hle, hsur, hwidth⟩ := hshort
  have hvalid : (extValue bits exts).isValidChar := by
    rw [Nat.isValidChar]
    omega
  have hc : (Char.ofNatAux (extValue bits exts) hvalid).toNat = extValue bits exts := rfl
  refine ⟨Char.ofNatAux (extValue bits exts) hvalid, hc, ?_⟩
  have hform := hlead.toNat_eq h3
  rw [utf8EncodeChar_eq, hc]
  clear hc hvalid hlead
  generalize hv : extValue bits exts = v at hwidth hle hsur ⊢
  unfold width at hwidth
  match exts with
  | [] =>
    simp only [extValue, List.foldl_nil, List.length_nil] at hv hwidth hform
    rw [if_pos (by split_ifs at hwidth <;> omega)]
    simp only [List.cons.injEq, and_true, ← UInt8.toNat_inj, UInt8.toNat_ofNat']
    omega
  | [e₁] =>
    have h1 : IsExt e₁ := hext e₁ (by simp)
    simp only [extValue, List.foldl_cons, List.foldl_nil, List.length_cons, List.length_nil,
      IsExt] at hv hwidth hform h1
    rw [if_neg (by split_ifs at hwidth <;> omega), if_pos (by split_ifs at hwidth <;> omega)]
    simp only [List.cons.injEq, and_true, ← UInt8.toNat_inj, UInt8.toNat_ofNat']
    omega
  | [e₁, e₂] =>
    have h1 : IsExt e₁ := hext e₁ (by simp)
    have h2 : IsExt e₂ := hext e₂ (by simp)
    simp only [extValue, List.foldl_cons, List.foldl_nil, List.length_cons, List.length_nil,
      IsExt] at hv hwidth hform h1 h2
    rw [if_neg (by split_ifs at hwidth <;> omega), if_neg (by split_ifs at hwidth <;> omega),
      if_pos (by split_ifs at hwidth <;> omega)]
    simp only [List.cons.injEq, and_true, ← UInt8.toNat_inj, UInt8.toNat_ofNat']
    omega
  | [e₁, e₂, e₃] =>
    have h1 : IsExt e₁ := hext e₁ (by simp)
    have h2 : IsExt e₂ := hext e₂ (by simp)
    have h3 : IsExt e₃ := hext e₃ (by simp)
    simp only [extValue, List.foldl_cons, List.foldl_nil, List.length_cons, List.length_nil,
      IsExt] at hv hwidth hform h1 h2 h3
    rw [if_neg (by split_ifs at hwidth <;> omega), if_neg (by split_ifs at hwidth <;> omega),
      if_neg (by split_ifs at hwidth <;> omega)]
    simp only [List.cons.injEq, and_true, ← UInt8.toNat_inj, UInt8.toNat_ofNat']
    omega
  | _ :: _ :: _ :: _ :: _ =>
    simp only [List.length_cons] at h3
    omega

/-! ### `validateString` -/

/-- What ends the validation of a string, other than its return: an exception, or an access behind
the memory that may be read. -/
inductive ReadExn where
  | cdr (e : Exn)
  | pastEnd
  deriving DecidableEq, Repr

namespace TCS_C_UTF_8

/-- The cases 3, 2 and 1 of the switch in `validateString`, which fall through. -/
def validateTrailing : ℕ → ℕ → List UInt8 → Except ReadExn (ℕ × List UInt8)
  | 0, cp, s => .ok (cp, s)
  | _ + 1, _, [] => .error .pastEnd
  | n + 1, cp, c :: s =>
    match validateExt c with
    | .error e => .error (.cdr e)
    | .ok () => validateTrailing n ((cp <<< 6) ||| (c.toNat &&& 0x3f)) s

/-- The loop of `validateString`, at most `n` times round. -/
def validateLoop : ℕ → List UInt8 → Except ReadExn Unit
  | 0, _ => .error (.cdr .outOfFuel)
  | _ + 1, [] => .error .pastEnd
  | n + 1, c :: s =>
    if c = 0 then .ok ()
    else
      let bytes := utf8Count c
      if bytes = 0 then validateLoop n s
      else
        let cp := c.toNat &&& (1 <<< (6 - bytes) - 1)
        if 4 ≤ bytes then .error (.cdr .dataConversionBadInput)
        else
          match validateTrailing bytes cp s with
          | .error e => .error e
          | .ok (cp, s) =>
            if 0x10ffff < cp ∨ (0xd800 ≤ cp ∧ cp ≤ 0xdfff) ∨ width cp ≠ bytes + 1 then
              .error (.cdr .dataConversionBadInput)
            else validateLoop n s

/-- `validateString` on a pointer; each time round takes an octet. -/
def validateString (cs : List UInt8) : Except ReadExn Unit := validateLoop (cs.length + 1) cs

lemma validateTrailing_succ (n cp : ℕ) (c : UInt8) (s : List UInt8) :
    validateTrailing (n + 1) cp (c :: s) =
      if IsExt c then validateTrailing n (cp * 64 + c.toNat % 64) s
      else .error (.cdr .dataConversionBadInput) := by
  have hval : (cp <<< 6) ||| (c.toNat &&& 0x3f) = cp * 64 + c.toNat % 64 := by
    rw [show (0x3f : ℕ) = 2 ^ 6 - 1 by rfl, and_mask, shiftLeft_or _ _ _ (Nat.mod_lt _ (by decide))]
    rfl
  rw [validateTrailing, validateExt_eq, hval]
  split_ifs <;> rfl

lemma validateTrailing_of_ext {exts : List UInt8} (hext : ∀ b ∈ exts, IsExt b) (cp : ℕ)
    (t : List UInt8) : validateTrailing exts.length cp (exts ++ t) = .ok (extValue cp exts, t) := by
  induction exts generalizing cp with
  | nil => rfl
  | cons b exts ih =>
    rw [List.forall_mem_cons] at hext
    rw [List.length_cons, List.cons_append, validateTrailing_succ, if_pos hext.1, ih hext.2]
    rfl

/-- The trailing octets of a sequence are in the string, or something in the string or its NUL is no
trailing octet; what is behind the NUL is not read. -/
lemma validateTrailing_cases (n cp : ℕ) (s : List UInt8) :
    (∃ exts t, s = exts ++ t ∧ exts.length = n ∧ (∀ b ∈ exts, IsExt b) ∧
      ∀ rest, validateTrailing n cp (s ++ 0 :: rest) = .ok (extValue cp exts, t ++ 0 :: rest)) ∨
    ∀ rest, validateTrailing n cp (s ++ 0 :: rest) = .error (.cdr .dataConversionBadInput) := by
  induction n generalizing cp s with
  | zero => exact .inl ⟨[], s, rfl, rfl, by simp, fun rest => rfl⟩
  | succ n ih =>
    match s with
    | [] =>
      right
      intro rest
      rw [List.nil_append, validateTrailing_succ, if_neg (by decide)]
    | c :: s =>
      by_cases hc : IsExt c
      · obtain ⟨exts, t, rfl, hlen, hext, hok⟩ | hbad := ih (cp * 64 + c.toNat % 64) s
        · refine .inl ⟨c :: exts, t, rfl, by rw [List.length_cons, hlen], ?_, fun rest => ?_⟩
          · exact List.forall_mem_cons.mpr ⟨hc, hext⟩
          · rw [List.cons_append, validateTrailing_succ, if_pos hc, hok]
            rfl
        · right
          intro rest
          rw [List.cons_append, validateTrailing_succ, if_pos hc, hbad]
      · right
        intro rest
        rw [List.cons_append, validateTrailing_succ, if_neg hc]

/-- The mask of `validateString` leaves the same bits as the table `utf8Mask`. -/
lemma and_leadMask {c : UInt8} {bytes : ℕ} (h : utf8Count c = bytes) (h0 : bytes ≠ 0)
    (h3 : bytes ≤ 3) : c.toNat &&& (1 <<< (6 - bytes) - 1) = c.toNat &&& utf8Mask c := by
  unfold utf8Count at h
  unfold utf8Mask
  split_ifs at h ⊢ with h1 h2 h3 h4 h5 h6 h7
  all_goals first | omega | subst h; rfl

/-- A character in front, and the loop goes on behind it. -/
lemma validateLoop_char {c : Char} (hc : c ≠ '\x00') (n : ℕ) (t : List UInt8) :
    validateLoop (n + 1) (String.utf8EncodeChar c ++ t) = validateLoop n t := by
  obtain ⟨lead, exts, bits, hshape, hlead, h3, hext, hval⟩ := utf8EncodeChar_shape c
  have hshort := shortest_char hshape
  have hform := hlead.toNat_eq h3
  have hne := char_toNat_ne_zero hc
  have hlead0 : lead ≠ 0 := by
    rintro rfl
    match exts with
    | [] =>
      rw [← hval] at hne
      simp only [extValue, List.foldl_nil, UInt8.toNat_zero, List.length_nil] at hne hform
      omega
    | e :: exts =>
      simp only [UInt8.toNat_zero, List.length_cons] at hform
      omega
  rw [hshape, List.cons_append, validateLoop, if_neg hlead0]
  simp only [hlead.count]
  split_ifs with hzero hfour
  · rw [List.length_eq_zero_iff.mp hzero, List.nil_append]
  · omega
  · rw [and_leadMask hlead.count hzero h3, hlead.masked, validateTrailing_of_ext hext]
    simp only [hval]
    rw [if_neg (by rw [not_shortest_iff]; exact not_not_intro hshort)]

lemma validateLoop_utf8Encode {cs : List Char} (hcs : '\x00' ∉ cs) (rest : List UInt8) {n : ℕ}
    (hn : cs.length < n) : validateLoop n (utf8Encode cs ++ 0 :: rest) = .ok () := by
  induction cs generalizing n with
  | nil =>
    obtain ⟨n, rfl⟩ := Nat.exists_eq_succ_of_ne_zero (Nat.pos_iff_ne_zero.mp hn)
    rfl
  | cons c cs ih =>
    obtain ⟨n, rfl⟩ := Nat.exists_eq_succ_of_ne_zero (Nat.ne_zero_of_lt hn)
    rw [List.mem_cons, not_or] at hcs
    rw [utf8Encode_cons, List.append_assoc, validateLoop_char (Ne.symm hcs.1)]
    exact ih hcs.2 (Nat.lt_of_succ_lt_succ hn)

/-- The string is well-formed and accepted, or it is refused; what is behind the NUL is not read. -/
lemma validateLoop_cases (n : ℕ) (s : List UInt8) (hs : 0 ∉ s) (hn : s.length < n) :
    (∃ cs, s = utf8Encode cs) ∨
    ∀ rest, validateLoop n (s ++ 0 :: rest) = .error (.cdr .dataConversionBadInput) := by
  induction n generalizing s with
  | zero => omega
  | succ n ih =>
    match s with
    | [] => exact .inl ⟨[], rfl⟩
    | c :: s =>
      rw [List.mem_cons, not_or] at hs
      have hc : c ≠ 0 := Ne.symm hs.1
      rw [List.length_cons] at hn
      -- one more sequence in front of what the rest of the loop sees
      have hcons : ∀ exts t bits, s = exts ++ t → IsLead c exts.length bits → exts.length ≤ 3 →
          (∀ b ∈ exts, IsExt b) → Shortest (extValue bits exts) exts.length →
          (∃ cs, t = utf8Encode cs) → ∃ cs, c :: s = utf8Encode cs := by
        rintro exts t bits rfl hlead h3 hext hshort ⟨cs, rfl⟩
        obtain ⟨ch, -, hch⟩ := exists_char hlead h3 hext hshort
        exact ⟨ch :: cs, by rw [utf8Encode_cons, hch, List.cons_append]⟩
      simp only [List.cons_append, validateLoop, if_neg hc]
      split_ifs with hzero hfour
      · obtain hok | hbad := ih s hs.2 (by omega)
        · refine .inl (hcons [] s (c.toNat &&& utf8Mask c) rfl ⟨hzero, rfl⟩ (by simp) (by simp) ?_ hok)
          have hform := (IsLead.mk hzero rfl).toNat_eq (Nat.zero_le 3)
          refine ⟨?_, ?_, ?_⟩
          · simp only [extValue, List.foldl_nil]
            omega
          · simp only [extValue, List.foldl_nil]
            omega
          · rw [width, if_pos]
            · rfl
            · simp only [extValue, List.foldl_nil]
              omega
        · exact .inr hbad
      · exact .inr fun rest => rfl
      · have h3 : utf8Count c ≤ 3 := by omega
        rw [and_leadMask rfl hzero h3]
        obtain ⟨exts, t, rfl, hlen, hext, hok⟩ | hbad :=
          validateTrailing_cases (utf8Count c) (c.toNat &&& utf8Mask c) s
        · have ht : 0 ∉ t := fun h0 => hs.2 (List.mem_append_right exts h0)
          rw [List.length_append] at hn
          simp only [hok, not_shortest_iff]
          by_cases hshort : Shortest (extValue (c.toNat &&& utf8Mask c) exts) (utf8Count c)
          · simp only [hshort, not_true_eq_false, if_false]
            obtain hcs | hbad := ih t ht (by omega)
            · rw [← hlen] at hshort h3
              exact .inl (hcons exts t _ rfl ⟨hlen.symm, rfl⟩ h3 hext hshort hcs)
            · exact .inr hbad
          · right
            intro rest
            rw [if_pos hshort]
        · right
          intro rest
          simp only [hbad]

end TCS_C_UTF_8

/-- Exactly the concatenations of shortest forms of characters are accepted, whatever is in the
memory behind the NUL; and the octets behind it are not read, also where the string is refused. -/
theorem TCS_C_UTF_8.validateString_iff (s : CString) :
    (∀ rest, validateString (s.octets ++ 0 :: rest) = .ok () ↔ ∃ cs, s.octets = utf8Encode cs) ∧
    (∀ rest, validateString (s.octets ++ 0 :: rest) = validateString (s.octets ++ [0])) ∧
    validateString (s.octets ++ [0]) ≠ .error .pastEnd := by
  have hfuel : ∀ rest : List UInt8, s.octets.length < (s.octets ++ 0 :: rest).length + 1 := by
    intro rest
    rw [List.length_append]
    omega
  by_cases hcs : ∃ cs, s.octets = utf8Encode cs
  · have hok : ∀ rest, validateString (s.octets ++ 0 :: rest) = .ok () := by
      obtain ⟨cs, hcs⟩ := hcs
      intro rest
      have hnul : '\x00' ∉ cs := by
        intro h0
        refine s.noNul ?_
        rw [hcs]
        exact List.mem_flatMap.mpr ⟨_, h0, by decide⟩
      have hlen := length_le_utf8Encode cs
      have hn := hfuel rest
      rw [hcs] at hn ⊢
      exact validateLoop_utf8Encode hnul rest (by omega)
    refine ⟨fun rest => iff_of_true (hok rest) hcs, fun rest => ?_, ?_⟩
    · rw [hok, hok]
    · rw [hok]
      simp
  · have hbad : ∀ rest, validateString (s.octets ++ 0 :: rest) =
        .error (.cdr .dataConversionBadInput) := by
      intro rest
      exact ((validateLoop_cases _ s.octets s.noNul (hfuel rest)).resolve_left hcs) rest
    refine ⟨fun rest => iff_of_false ?_ hcs, fun rest => ?_, ?_⟩
    · rw [hbad]
      simp
    · rw [hbad, hbad]
    · rw [hbad]
      simp

end OmniORB
