import OmniORB.CodeSets.Utf8

/-!
# One character in the UTF-8 converters

The decoders read the UTF-8 form of a character. Both encoders write the last octet of a surrogate
pair with the mask `0xef` where the others have `0x3f`, so what they insert is the UTF-8 form of a
supplementary character exactly when its bits 4 and 6 are clear.
-/

namespace OmniORB

open Library

/-! ### Sources of octets -/

/-- Taking the octets `bs` from the source in state `s` leads to state `t`. -/
def Feeds {σ : Type} (next : σ → Except Exn (UInt8 × σ)) : σ → List UInt8 → σ → Prop
  | s, [], t => s = t
  | s, b :: bs, t => ∃ u, next s = .ok (b, u) ∧ Feeds next u bs t

/-- An octet of the form `10xxxxxx`. -/
def IsExt (c : UInt8) : Prop := 0x80 ≤ c.toNat ∧ c.toNat < 0xc0

instance : DecidablePred IsExt := fun c =>
  inferInstanceAs (Decidable (0x80 ≤ c.toNat ∧ c.toNat < 0xc0))

set_option maxRecDepth 20000 in
lemma validateExt_eq (c : UInt8) :
    validateExt c = if IsExt c then .ok () else .error .dataConversionBadInput := by
  have key : ∀ n < 256, (n &&& 0xc0) ^^^ 0x80 ≠ 0 ↔ ¬(0x80 ≤ n ∧ n < 0xc0) := by decide
  have hc : (c.toNat &&& 0xc0) ^^^ 0x80 ≠ 0 ↔ ¬ IsExt c := key c.toNat c.toNat_lt
  unfold validateExt
  by_cases h : IsExt c
  · rw [if_neg (by rw [hc]; exact not_not_intro h), if_pos h]
  · rw [if_pos (hc.mpr h), if_neg h]

section Sources

variable {σ : Type} {next : σ → Except Exn (UInt8 × σ)}

/-- The value of extension characters under the bits `lc` in front of them. -/
def extValue (lc : ℕ) (bs : List UInt8) : ℕ := bs.foldl (fun lc b => lc * 64 + b.toNat % 64) lc

lemma readExt_succ (n lc : ℕ) (s : σ) :
    readExt next (n + 1) lc s =
      match next s with
      | .error e => .error e
      | .ok (c, t) =>
        if IsExt c then readExt next n (lc * 64 + c.toNat % 64) t
        else .error .dataConversionBadInput := by
  simp only [readExt, validateExt_eq]
  cases next s with
  | error e => rfl
  | ok p =>
    obtain ⟨c, t⟩ := p
    have hval : (lc <<< 6) ||| (c.toNat &&& 0x3f) = lc * 64 + c.toNat % 64 := by
      rw [show (0x3f : ℕ) = 2 ^ 6 - 1 by rfl, and_mask, shiftLeft_or _ _ _ (Nat.mod_lt _ (by decide))]
      rfl
    by_cases h : IsExt c <;> simp [h, hval]

lemma readExt_of_feeds {bs : List UInt8} {s t : σ} (lc : ℕ) (h : Feeds next s bs t)
    (hext : ∀ b ∈ bs, IsExt b) :
    readExt next bs.length lc s = .ok (extValue lc bs, t) := by
  induction bs generalizing s lc with
  | nil =>
    rw [show s = t from h]
    rfl
  | cons b bs ih =>
    obtain ⟨u, hb, hu⟩ := h
    rw [List.length_cons, readExt_succ, hb]
    simp only [hext b (by simp), if_true]
    exact ih _ hu fun b' hb' => hext b' (by simp [hb'])

end Sources

lemma feeds_unmarshalOctet {bs rest : List UInt8} {s : CdrIn} (h : s.unread = bs ++ rest) :
    Feeds CdrIn.unmarshalOctet s bs (s.advance bs.length) := by
  induction bs generalizing s with
  | nil => simp [Feeds]
  | cons b bs ih =>
    refine ⟨s.advance 1, CdrIn.unmarshalOctet_cons h, ?_⟩
    have := ih (s := s.advance 1) (by simp [h])
    rwa [CdrIn.advance_advance, Nat.add_comm] at this

/-! ### One character -/

/-- The lead octet of a UTF-8 sequence and the number of octets it announces. -/
structure IsLead (c : UInt8) (bytes bits : ℕ) : Prop where
  count : utf8Count c = bytes
  masked : c.toNat &&& utf8Mask c = bits

lemma isLead_one {n : ℕ} (h : n < 0x80) : IsLead (UInt8.ofNat n) 0 n := by
  have hn : (UInt8.ofNat n).toNat = n := by simp [UInt8.toNat_ofNat']; omega
  constructor
  · simp [utf8Count, hn, h]
  · simp only [utf8Mask, hn, h, if_true]
    rw [show (0x7f : ℕ) = 2 ^ 7 - 1 by rfl, and_mask]
    omega

lemma isLead_two {n : ℕ} (h : n < 32) : IsLead (UInt8.ofNat (n + 192)) 1 n := by
  have hn : (UInt8.ofNat (n + 192)).toNat = n + 192 := by simp [UInt8.toNat_ofNat']; omega
  constructor
  · simp only [utf8Count, hn]
    split_ifs <;> omega
  · have : utf8Mask (UInt8.ofNat (n + 192)) = 2 ^ 5 - 1 := by
      simp only [utf8Mask, hn]
      split_ifs <;> omega
    rw [this, hn, and_mask]
    omega

lemma isLead_three {n : ℕ} (h : n < 16) : IsLead (UInt8.ofNat (n + 224)) 2 n := by
  have hn : (UInt8.ofNat (n + 224)).toNat = n + 224 := by simp [UInt8.toNat_ofNat']; omega
  constructor
  · simp only [utf8Count, hn]
    split_ifs <;> omega
  · have : utf8Mask (UInt8.ofNat (n + 224)) = 2 ^ 4 - 1 := by
      simp only [utf8Mask, hn]
      split_ifs <;> omega
    rw [this, hn, and_mask]
    omega

lemma isLead_four {n : ℕ} (h : n < 8) : IsLead (UInt8.ofNat (n + 240)) 3 n := by
  have hn : (UInt8.ofNat (n + 240)).toNat = n + 240 := by simp [UInt8.toNat_ofNat']; omega
  constructor
  · simp only [utf8Count, hn]
    split_ifs <;> omega
  · have : utf8Mask (UInt8.ofNat (n + 240)) = 2 ^ 3 - 1 := by
      simp only [utf8Mask, hn]
      split_ifs <;> omega
    rw [this, hn, and_mask]
    omega

lemma isExt_ofNat {n : ℕ} (h : n < 64) : IsExt (UInt8.ofNat (n + 128)) := by
  simp only [IsExt, UInt8.toNat_ofNat']
  omega

/-- A UTF-8 sequence is a lead octet and extension characters that carry the rest of the bits. -/
lemma utf8EncodeChar_shape (c : Char) :
    ∃ lead exts bits, String.utf8EncodeChar c = lead :: exts ∧ IsLead lead exts.length bits ∧
      exts.length ≤ 3 ∧ (∀ b ∈ exts, IsExt b) ∧ extValue bits exts = c.toNat := by
  rw [utf8EncodeChar_eq]
  have hc := char_toNat_cases c
  split_ifs with h1 h2 h3
  · exact ⟨_, [], _, rfl, isLead_one (by omega), by simp, by simp, rfl⟩
  · refine ⟨_, [_], _, rfl, isLead_two (Nat.mod_lt _ (by decide)), by simp, ?_, ?_⟩
    · simp only [List.forall_mem_singleton]
      exact isExt_ofNat (Nat.mod_lt _ (by decide))
    · simp only [extValue, List.foldl, UInt8.toNat_ofNat']
      omega
  · refine ⟨_, [_, _], _, rfl, isLead_three (Nat.mod_lt _ (by decide)), by simp, ?_, ?_⟩
    · simp only [List.forall_mem_cons]
      exact ⟨isExt_ofNat (Nat.mod_lt _ (by decide)), isExt_ofNat (Nat.mod_lt _ (by decide)),
        by simp⟩
    · simp only [extValue, List.foldl, UInt8.toNat_ofNat']
      omega
  · refine ⟨_, [_, _, _], _, rfl, isLead_four (Nat.mod_lt _ (by decide)), by simp, ?_, ?_⟩
    · simp only [List.forall_mem_cons]
      exact ⟨isExt_ofNat (Nat.mod_lt _ (by decide)), isExt_ofNat (Nat.mod_lt _ (by decide)),
        isExt_ofNat (Nat.mod_lt _ (by decide)), by simp⟩
    · simp only [extValue, List.foldl, UInt8.toNat_ofNat']
      omega

lemma insertCodePoint_eq (c : Char) : insertCodePoint c.toNat = utf16EncodeChar c := by
  unfold insertCodePoint utf16EncodeChar
  rw [Nat.shiftRight_eq_div_pow, show (0x3ff : ℕ) = 2 ^ 10 - 1 by rfl, and_mask]
  simp only [show (c.toNat ≤ 0xffff) = (c.toNat < 0x10000) from propext (by omega)]
  rfl

lemma utf8EncodeChar_ne_nil (c : Char) : String.utf8EncodeChar c ≠ [] := by
  obtain ⟨lead, exts, bits, hc, -⟩ := utf8EncodeChar_shape c
  simp [hc]

/-! ### The octets the encoders insert -/

/-- What both encoders insert for a character of a well-formed sequence. -/
def insertedOctets (c : Char) : List UInt8 :=
  if c.toNat < 0x10000 then insertUnit c.toNat else insertPair c.toNat

/-- The bits that the mask `0xef` gets wrong are clear. -/
def SurvivesMask (c : Char) : Prop := IsSupplementary c → c.toNat &&& 0x50 = 0

instance : DecidablePred SurvivesMask := fun c =>
  inferInstanceAs (Decidable (IsSupplementary c → c.toNat &&& 0x50 = 0))

end OmniORB
