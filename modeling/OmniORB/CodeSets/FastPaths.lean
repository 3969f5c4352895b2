import OmniORB.CodeSets.EightBit
import OmniORB.CodeSets.Utf8RoundTrip

/-!
# Fast paths and generic paths

When a fast path of a transmission code set gives what the conversion through UTF-16 would. The
UTF-8 fast paths leave out the check for unmapped characters when marshalling and treat four-octet
sequences as unmappable when unmarshalling; the null transformation looks at no table at all; and
all of them answer a zero length after they have consumed it.
-/

namespace OmniORB

open Library

/-! ### Tables -/

/-- `mapM` of a partial function that fails in one way only. -/
lemma mapM_partial {α β : Type} (p : α → Prop) [DecidablePred p] (g : α → β) (e : Exn) (l : List α) :
    (l.mapM fun a => if p a then Except.error e else Except.ok (g a)) =
      if ∃ a ∈ l, p a then .error e else .ok (l.map g) := by
  induction l with
  | nil => rfl
  | cons a l ih =>
    rw [List.mapM_cons, ih]
    by_cases ha : p a
    · simp [ha, bind, Except.bind]
    · by_cases hl : ∃ b ∈ l, p b
      · simp [ha, hl, bind, Except.bind]
      · simp [ha, hl, bind, Except.bind, pure, Except.pure]

lemma map_eq_self_iff {α : Type} (f : α → α) (l : List α) : l.map f = l ↔ ∀ a ∈ l, f a = a := by
  conv_lhs => rw [← List.map_id l, List.map_map, List.map_inj_left]
  rfl

namespace CodeSet8bit

variable (cs : CodeSet8bit)

/-- The character has no mapping to Unicode. -/
def UnmappedToU (c : UInt8) : Prop := c ≠ 0 ∧ cs.toU c = 0

/-- The unit has no mapping from Unicode. -/
def UnmappedFromU (uc : UniChar) : Prop := uc ≠ 0 ∧ cs.fromU uc = 0

instance : DecidablePred cs.UnmappedToU := fun c =>
  inferInstanceAs (Decidable (c ≠ 0 ∧ cs.toU c = 0))

instance : DecidablePred cs.UnmappedFromU := fun uc =>
  inferInstanceAs (Decidable (uc ≠ 0 ∧ cs.fromU uc = 0))

lemma mapM_mapToU (s : List UInt8) :
    s.mapM cs.mapToU =
      if ∃ c ∈ s, cs.UnmappedToU c then .error .dataConversionCannotMapChar
      else .ok (s.map cs.toU) :=
  mapM_partial cs.UnmappedToU cs.toU _ s

lemma mapM_mapFromU (us : List UniChar) :
    us.mapM cs.mapFromU =
      if ∃ uc ∈ us, cs.UnmappedFromU uc then .error .dataConversionCannotMapChar
      else .ok (us.map cs.fromU) :=
  mapM_partial cs.UnmappedFromU cs.fromU _ us

lemma not_unmappedToU_zero : ¬ cs.UnmappedToU 0 := fun h => h.1 rfl

/-- The terminator is always mapped. -/
lemma exists_unmappedToU_append_zero (s : List UInt8) :
    (∃ c ∈ s ++ [0], cs.UnmappedToU c) ↔ ∃ c ∈ s, cs.UnmappedToU c := by
  simp [or_and_right, exists_or, cs.not_unmappedToU_zero]

end CodeSet8bit

/-! ### UTF-8: marshalling -/

lemma encodeUnits_error {us : List UniChar} {e : Exn} (h : encodeUnits us = .error e) :
    e = .dataConversionBadInput := by
  fun_induction encodeUnits us <;> simp_all

/-- Without surrogates every unit is inserted on its own. -/
lemma encodeUnits_of_not_surrogate {us : List UniChar} (h : ∀ u ∈ us, ¬ IsSurrogate u) :
    encodeUnits us = .ok (us.flatMap fun u => insertUnit u.toNat) := by
  induction us with
  | nil => rfl
  | cons u us ih =>
    rw [List.forall_mem_cons] at h
    obtain ⟨hu, hus⟩ := h
    unfold IsSurrogate at hu
    unfold encodeUnits
    rw [ih hus]
    split_ifs <;> first | rfl | omega

lemma exists_char_of_not_surrogate {u : UniChar} (h : ¬ IsSurrogate u) :
    ∃ c : Char, utf16EncodeChar c = [u] := by
  have hlt := u.toNat_lt
  unfold IsSurrogate at h
  have hv : u.toNat.isValidChar := by
    simp only [Nat.isValidChar]
    omega
  have hc : (Char.ofNatAux u.toNat hv).toNat = u.toNat := rfl
  refine ⟨Char.ofNatAux u.toNat hv, ?_⟩
  rw [utf16EncodeChar, hc, if_pos (by omega), UInt16.ofNat_toNat]

lemma exists_char_of_pair {hi lo : UniChar} (hhi : 0xd800 ≤ hi.toNat ∧ hi.toNat < 0xdc00)
    (hlo : 0xdc00 ≤ lo.toNat ∧ lo.toNat ≤ 0xdfff) : ∃ c : Char, utf16EncodeChar c = [hi, lo] := by
  have hv : ((hi.toNat - 0xd800) * 0x400 + (lo.toNat - 0xdc00) + 0x10000).isValidChar := by
    simp only [Nat.isValidChar]
    omega
  have hc : (Char.ofNatAux _ hv).toNat =
    (hi.toNat - 0xd800) * 0x400 + (lo.toNat - 0xdc00) + 0x10000 := rfl
  refine ⟨Char.ofNatAux _ hv, ?_⟩
  rw [utf16EncodeChar, hc, if_neg (by omega)]
  simp only [List.cons.injEq, and_true, ← UInt16.toNat_inj, UInt16.toNat_ofNat']
  omega

/-- The encoder accepts well-formed UTF-16 and nothing else. -/
lemma wellFormed_of_encodeUnits : ∀ (us : List UniChar) {b : List UInt8},
    encodeUnits (us ++ [0]) = .ok b → ∃ cs, us = utf16Encode cs
  | [], _, _ => ⟨[], rfl⟩
  | u :: us, b, h => by
    rw [List.cons_append] at h
    unfold encodeUnits at h
    split_ifs at h with h1 h2 h3
    · split at h
      · simp at h
      rename_i b' heq
      obtain ⟨cs, rfl⟩ := wellFormed_of_encodeUnits us heq
      obtain ⟨c, hc⟩ := exists_char_of_not_surrogate (show ¬ IsSurrogate u by unfold IsSurrogate; omega)
      exact ⟨c :: cs, by rw [utf16Encode_cons, hc]; rfl⟩
    · split at h
      · rename_i lo next rest heq
        split_ifs at h with hlo
        split at h
        · simp at h
        rename_i b' henc
        obtain _ | ⟨lo', us⟩ := us
        · simp at heq
        · rw [List.cons_append, List.cons.injEq] at heq
          obtain ⟨rfl, heq⟩ := heq
          rw [← heq] at henc
          obtain ⟨cs, rfl⟩ := wellFormed_of_encodeUnits us henc
          have hhi : 0xd800 ≤ u.toNat ∧ u.toNat < 0xdc00 := by omega
          have hlo' : 0xdc00 ≤ lo'.toNat ∧ lo'.toNat ≤ 0xdfff := by omega
          obtain ⟨c, hc⟩ := exists_char_of_pair hhi hlo'
          exact ⟨c :: cs, by rw [utf16Encode_cons, hc]; rfl⟩
      · simp at h
    · split at h
      · simp at h
      rename_i b' heq
      obtain ⟨cs, rfl⟩ := wellFormed_of_encodeUnits us heq
      obtain ⟨c, hc⟩ := exists_char_of_not_surrogate (show ¬ IsSurrogate u by unfold IsSurrogate; omega)
      exact ⟨c :: cs, by rw [utf16Encode_cons, hc]; rfl⟩

namespace TCS_C_UTF_8

variable (ncs : CodeSet8bit)

lemma marshalBuffer_error {bound : ℕ} {b : List UInt8} {out : CdrOut} {e : Exn}
    (h : marshalBuffer bound b out = .error e) : e = .marshalStringIsTooLong := by
  simp only [marshalBuffer] at h
  split_ifs at h
  exact (Except.error.inj h).symm

lemma fastMarshalLoop_eq (s : List UInt8) :
    fastMarshalLoop ncs s =
      if ∃ c ∈ s, IsSurrogate (ncs.toU c) then .error .dataConversionBadInput
      else .ok ((s.map ncs.toU ++ [0]).flatMap fun u : UniChar => insertUnit u.toNat) := by
  induction s with
  | nil => rfl
  | cons c s ih =>
    rw [fastMarshalLoop, ih]
    by_cases hc : IsSurrogate (ncs.toU c)
    · have hc' : 0xd800 ≤ (ncs.toU c).toNat ∧ (ncs.toU c).toNat < 0xe000 := hc
      simp [hc, hc']
    · have hc' : ¬(0xd800 ≤ (ncs.toU c).toNat ∧ (ncs.toU c).toNat < 0xe000) := hc
      by_cases hs : ∃ c ∈ s, IsSurrogate (ncs.toU c)
      · simp [hs]
      · simp [if_neg hc', hc, hs]

/-- Marshalling an 8-bit string as UTF-8: the fast path agrees with the way through UTF-16 if every
character is mapped and the units it is mapped to do not make up surrogate pairs. -/
lemma marshalString_eq_generic_iff (strictIIOP : Bool) (bound : ℕ) (s : List UInt8) (out : CdrOut) :
    NCS_C_8bit.marshalString ncs (toTCS_C strictIIOP) bound s out =
        NCS_C_8bit.genericMarshalString ncs (toTCS_C strictIIOP) bound s out ↔
      (∀ c ∈ s, ¬ ncs.UnmappedToU c) ∧
        ((∃ c ∈ s, IsSurrogate (ncs.toU c)) → ¬ ∃ cs, s.map ncs.toU = utf16Encode cs) := by
  have hfast : NCS_C_8bit.marshalString ncs (toTCS_C strictIIOP) bound s out =
      if ∃ c ∈ s, IsSurrogate (ncs.toU c) then .error .dataConversionBadInput
      else marshalBuffer bound
        ((s.map ncs.toU ++ [0]).flatMap fun u : UniChar => insertUnit u.toNat) out := by
    simp only [NCS_C_8bit.marshalString, toTCS_C, fastMarshalString, fastMarshalLoop_eq]
    split_ifs
    · rfl
    · dsimp only
      cases marshalBuffer bound _ out <;> rfl
  have hgeneric : NCS_C_8bit.genericMarshalString ncs (toTCS_C strictIIOP) bound s out =
      if ∃ c ∈ s, ncs.UnmappedToU c then .error .dataConversionCannotMapChar
      else marshalString bound (s.map ncs.toU ++ [0]) out := by
    simp only [NCS_C_8bit.genericMarshalString, ncs.mapM_mapToU,
      ncs.exists_unmappedToU_append_zero]
    split_ifs
    · rfl
    · simp [toTCS_C, ncs.toU_zero]
  rw [hfast, hgeneric]
  by_cases hunmapped : ∃ c ∈ s, ncs.UnmappedToU c
  · -- the fast path never raises CannotMapChar
    rw [if_pos hunmapped]
    refine iff_of_false ?_ fun h => ?_
    · split_ifs
      · simp
      · intro h
        exact absurd (marshalBuffer_error h) (by decide)
    · obtain ⟨c, hc, hu⟩ := hunmapped
      exact h.1 c hc hu
  have hmapped : ∀ c ∈ s, ¬ ncs.UnmappedToU c := fun c hc hu => hunmapped ⟨c, hc, hu⟩
  rw [if_neg hunmapped, and_iff_right hmapped]
  by_cases hsur : ∃ c ∈ s, IsSurrogate (ncs.toU c)
  · rw [if_pos hsur, marshalString]
    simp only [hsur, true_implies]
    constructor
    · rintro h ⟨cs, hcs⟩
      rw [hcs, encodeUnits_utf16Encode] at h
      exact absurd (marshalBuffer_error h.symm) (by decide)
    · intro hill
      cases henc : encodeUnits (s.map ncs.toU ++ [0]) with
      | error e => simp [encodeUnits_error henc]
      | ok b => exact absurd (wellFormed_of_encodeUnits _ henc) hill
  · rw [if_neg hsur, marshalString, encodeUnits_of_not_surrogate]
    · simp [hsur]
    · intro u hu
      rw [List.mem_append, List.mem_map, List.mem_singleton] at hu
      obtain ⟨c, hc, rfl⟩ | rfl := hu
      · exact fun h => hsur ⟨c, hc, h⟩
      · decide

end TCS_C_UTF_8

/-! ### UTF-8: unmarshalling

Both decoding loops see the same sequences in a string. -/

/-- A sequence of a lead octet and `bytes` extension characters. -/
structure Utf8Seq where
  bytes : ℕ
  value : ℕ

/-- How the sequences of a string end. -/
inductive ScanEnd where
  | complete
  | malformed (bytes : ℕ) (e : Exn)
  | tooLong

/-- The sequences in the next `left` octets of a stream, at most `fuel` of them, up to one that is
malformed or announced as longer than four octets. -/
def scan : ℕ → ℕ → CdrIn → List Utf8Seq × ScanEnd × CdrIn
  | 0, _, s => ([], .complete, s)
  | _ + 1, 0, s => ([], .complete, s)
  | fuel + 1, left + 1, s =>
    match s.unmarshalOctet with
    | .error e => ([], .malformed 0 e, s)
    | .ok (c, s) =>
      if utf8Count c = 6 then ([], .malformed 0 .dataConversionBadInput, s)
      else if 4 ≤ utf8Count c then ([], .tooLong, s)
      else
        match readExt CdrIn.unmarshalOctet (utf8Count c) (c.toNat &&& utf8Mask c) s with
        | .error e => ([], .malformed (utf8Count c) e, s)
        | .ok (value, s) =>
          let r := scan fuel (left - utf8Count c) s
          (⟨utf8Count c, value⟩ :: r.1, r.2)

namespace Utf8Seq

def units (q : Utf8Seq) : List UniChar := insertCodePoint q.value

/-- The value of the last sequence, `lc` if there is none. -/
def lastValue (lc : ℕ) : List Utf8Seq → ℕ
  | [] => lc
  | q :: qs => lastValue q.value qs

end Utf8Seq

/-- Four octets. -/
def ScanEnd.IsFour : ScanEnd → Prop
  | .malformed bytes _ => bytes = 3
  | _ => False

lemma unmarshalOctet_error {s : CdrIn} {e : Exn} (h : s.unmarshalOctet = .error e) :
    e = .marshalPassEndOfMessage := by
  unfold CdrIn.unmarshalOctet at h
  split at h
  · exact (Except.error.inj h).symm
  · simp at h

lemma readExt_error {n lc : ℕ} {s : CdrIn} {e : Exn}
    (h : readExt CdrIn.unmarshalOctet n lc s = .error e) :
    e ≠ .dataConversionCannotMapChar := by
  induction n generalizing lc s with
  | zero => simp [readExt] at h
  | succ n ih =>
    rw [readExt_succ] at h
    split at h
    · rename_i e' heq
      rw [← Except.error.inj h, unmarshalOctet_error heq]
      decide
    · split at h
      · exact ih h
      · rw [← Except.error.inj h]
        decide

/-- A malformed end is not an unmappable character. -/
lemma scan_malformed {fuel left : ℕ} {s : CdrIn} {bytes : ℕ} {e : Exn}
    (h : (scan fuel left s).2.1 = .malformed bytes e) : e ≠ .dataConversionCannotMapChar := by
  fun_induction scan fuel left s with
  | case1 | case2 => simp at h
  | case3 fuel left s e' heq =>
    obtain ⟨-, rfl⟩ := ScanEnd.malformed.inj h
    rw [unmarshalOctet_error heq]
    decide
  | case4 =>
    obtain ⟨-, rfl⟩ := ScanEnd.malformed.inj h
    decide
  | case5 => simp at h
  | case6 fuel left s c t hc h6 h4 e' heq =>
    obtain ⟨-, rfl⟩ := ScanEnd.malformed.inj h
    exact readExt_error heq
  | case7 fuel left s c t hc h6 h4 value u heq r ih => exact ih h

namespace TCS_C_UTF_8

variable (ncs : CodeSet8bit)

/-- The generic loop converts every sequence. -/
lemma unmarshalLoop_eq_scan (fuel left lc : ℕ) (s : CdrIn) :
    unmarshalLoop fuel left lc s =
      match (scan fuel left s).2.1 with
      | .complete => .ok ((scan fuel left s).1.flatMap Utf8Seq.units,
          Utf8Seq.lastValue lc (scan fuel left s).1, (scan fuel left s).2.2)
      | .malformed _ e => .error e
      | .tooLong => .error .dataConversionCannotMapChar := by
  induction fuel generalizing left lc s with
  | zero => rfl
  | succ fuel ih =>
    cases left with
    | zero => rfl
    | succ left =>
      rw [unmarshalLoop, scan]
      cases s.unmarshalOctet with
      | error e => rfl
      | ok p =>
        obtain ⟨c, s⟩ := p
        dsimp only
        split_ifs
        · rfl
        · rfl
        · cases readExt CdrIn.unmarshalOctet (utf8Count c) (c.toNat &&& utf8Mask c) s with
          | error e => rfl
          | ok q =>
            obtain ⟨value, s⟩ := q
            dsimp only
            rw [ih]
            cases (scan fuel (left - utf8Count c) s).2.1 <;> rfl

/-- The sequence is one that the fast path converts. -/
def Direct (q : Utf8Seq) : Prop := q.bytes < 3 ∧ ∀ u ∈ q.units, ¬ ncs.UnmappedFromU u

instance : DecidablePred (Direct ncs) := fun q =>
  inferInstanceAs (Decidable (q.bytes < 3 ∧ ∀ u ∈ q.units, ¬ ncs.UnmappedFromU u))

/-- Up to three octets encode a single unit. -/
lemma insertCodePoint_single {c : UInt8} {value : ℕ} {s t : CdrIn} (hc : utf8Count c < 3)
    (h : readExt CdrIn.unmarshalOctet (utf8Count c) (c.toNat &&& utf8Mask c) s = .ok (value, t)) :
    insertCodePoint value = [UInt16.ofNat value] := by
  have hrange := readExt_masked_lt (by omega) h
  rw [insertCodePoint, if_pos]
  generalize utf8Count c = n at hrange hc
  interval_cases n <;> simp only at hrange <;> omega

lemma units_of_scan {fuel left : ℕ} {s : CdrIn} {q : Utf8Seq} (hq : q ∈ (scan fuel left s).1)
    (hbytes : q.bytes < 3) : q.units = [UInt16.ofNat q.value] := by
  fun_induction scan fuel left s with
  | case1 | case2 | case3 | case4 | case5 | case6 => simp at hq
  | case7 fuel left s c t hc h6 h4 value u heq r ih =>
    rw [List.mem_cons] at hq
    obtain rfl | hq := hq
    · exact insertCodePoint_single hbytes heq
    · exact ih hq

/-- What the fast loop makes of the sequences of a string: it converts them as long as they are
direct. -/
def fastOutcome (uc : ℕ) (r : List Utf8Seq × ScanEnd × CdrIn) : Except Exn (List UInt8 × ℕ × CdrIn) :=
  if ∀ q ∈ r.1, Direct ncs q then
    match r.2.1 with
    | .complete => .ok (r.1.map fun q => ncs.fromU (UInt16.ofNat q.value),
        Utf8Seq.lastValue uc r.1, r.2.2)
    | .malformed bytes e => if bytes = 3 then .error .dataConversionCannotMapChar else .error e
    | .tooLong => .error .dataConversionCannotMapChar
  else .error .dataConversionCannotMapChar

lemma fastUnmarshalLoop_eq_scan (fuel left uc : ℕ) (s : CdrIn) :
    fastUnmarshalLoop ncs fuel left uc s = fastOutcome ncs uc (scan fuel left s) := by
  induction fuel generalizing left uc s with
  | zero => simp [fastUnmarshalLoop, scan, fastOutcome, Utf8Seq.lastValue]
  | succ fuel ih =>
    cases left with
    | zero => simp [fastUnmarshalLoop, scan, fastOutcome, Utf8Seq.lastValue]
    | succ left =>
      rw [fastUnmarshalLoop, scan]
      cases s.unmarshalOctet with
      | error e => simp [fastOutcome]
      | ok p =>
        obtain ⟨c, s⟩ := p
        dsimp only
        by_cases h6 : utf8Count c = 6
        · simp [fastOutcome, h6]
        by_cases h4 : 4 ≤ utf8Count c
        · simp [fastOutcome, h6, h4, show 3 ≤ utf8Count c by omega]
        rw [if_neg h6, if_neg h6, if_neg h4]
        by_cases h3 : 3 ≤ utf8Count c
        · have hcount : utf8Count c = 3 := by omega
          rw [if_pos h3]
          cases readExt CdrIn.unmarshalOctet (utf8Count c) (c.toNat &&& utf8Mask c) s with
          | error e => simp [fastOutcome, hcount]
          | ok q => simp [fastOutcome, Direct, hcount]
        · rw [if_neg h3]
          cases hread : readExt CdrIn.unmarshalOctet (utf8Count c) (c.toNat &&& utf8Mask c) s with
          | error e => simp [fastOutcome, show utf8Count c ≠ 3 by omega]
          | ok q =>
            obtain ⟨value, s⟩ := q
            have hunits := insertCodePoint_single (by omega) hread
            have hdirect : Direct ncs ⟨utf8Count c, value⟩ ↔
                ¬ ncs.UnmappedFromU (UInt16.ofNat value) := by
              simp only [Direct, Utf8Seq.units, hunits, List.forall_mem_singleton,
                and_iff_right_iff_imp]
              omega
            dsimp only
            rw [CodeSet8bit.mapFromU, ih]
            by_cases hmap : ncs.UnmappedFromU (UInt16.ofNat value)
            · have hmap' : UInt16.ofNat value ≠ 0 ∧ ncs.fromU (UInt16.ofNat value) = 0 := hmap
              simp [fastOutcome, if_pos hmap', hdirect, hmap]
            · have hmap' : ¬(UInt16.ofNat value ≠ 0 ∧ ncs.fromU (UInt16.ofNat value) = 0) := hmap
              simp only [fastOutcome, if_neg hmap', List.forall_mem_cons, hdirect, hmap, not_false_eq_true,
                true_and]
              split_ifs
              · cases (scan fuel (left - utf8Count c) s).2.1 with
                | complete => rfl
                | malformed bytes e => by_cases hb : bytes = 3 <;> simp [hb]
                | tooLong => rfl
              · rfl

/-- The string is decoded to the end, and some unit has no mapping. -/
def EndsUnmapped (qs : List Utf8Seq) (e : ScanEnd) : Prop :=
  e = .complete ∧ Utf8Seq.lastValue 0 qs = 0 ∧ ∃ q ∈ qs, ∃ u ∈ q.units, ncs.UnmappedFromU u

/-- The sequences of a string give the same result on both ways: all of them are direct, or both
ways find an unmappable character. -/
def ScanAgrees (qs : List Utf8Seq) (e : ScanEnd) : Prop :=
  ((∀ q ∈ qs, Direct ncs q) ∧ ¬ e.IsFour) ∨ e = .tooLong ∨ EndsUnmapped ncs qs e

/-- Direct sequences give the same octets on both ways. -/
lemma map_fromU_of_direct {qs : List Utf8Seq}
    (hunits : ∀ q ∈ qs, q.bytes < 3 → q.units = [UInt16.ofNat q.value])
    (h : ∀ q ∈ qs, Direct ncs q) :
    (qs.flatMap Utf8Seq.units).map ncs.fromU =
      qs.map fun q => ncs.fromU (UInt16.ofNat q.value) := by
  have hflat : qs.flatMap Utf8Seq.units = qs.map fun q => UInt16.ofNat q.value := by
    rw [List.map_eq_flatMap]
    exact List.flatMap_congr fun q hq => hunits q hq (h q hq).1
  rw [hflat, List.map_map]
  rfl

/-- The string that the fast path makes of the sequences, as the caller sees it. -/
def fastString (r : List Utf8Seq × ScanEnd × CdrIn) : Except Exn ((ℕ × List UInt8) × CdrIn) :=
  match fastOutcome ncs 0 r with
  | .error e => .error e
  | .ok (b, uc, s) =>
    if uc ≠ 0 then .error .marshalStringNotEndWithNull else .ok ((b.length - 1, b), s)

/-- The string that the generic path makes of the sequences. -/
def genericString (r : List Utf8Seq × ScanEnd × CdrIn) : Except Exn ((ℕ × List UInt8) × CdrIn) :=
  match r.2.1 with
  | .complete =>
    if Utf8Seq.lastValue 0 r.1 ≠ 0 then .error .marshalStringNotEndWithNull
    else if ∃ u ∈ r.1.flatMap Utf8Seq.units, ncs.UnmappedFromU u then
      .error .dataConversionCannotMapChar
    else
      .ok (((r.1.flatMap Utf8Seq.units).length - 1, (r.1.flatMap Utf8Seq.units).map ncs.fromU),
        r.2.2)
  | .malformed _ e => .error e
  | .tooLong => .error .dataConversionCannotMapChar

lemma fastString_eq_iff {r : List Utf8Seq × ScanEnd × CdrIn}
    (hunits : ∀ q ∈ r.1, q.bytes < 3 → q.units = [UInt16.ofNat q.value])
    (hmal : ∀ bytes e, r.2.1 = .malformed bytes e → e ≠ .dataConversionCannotMapChar) :
    fastString ncs r = genericString ncs r ↔ ScanAgrees ncs r.1 r.2.1 := by
  obtain ⟨qs, e, s⟩ := r
  dsimp only at hunits hmal ⊢
  by_cases hdirect : ∀ q ∈ qs, Direct ncs q
  · have hmapped : ¬ ∃ u ∈ qs.flatMap Utf8Seq.units, ncs.UnmappedFromU u := by
      rintro ⟨u, hu, hun⟩
      obtain ⟨q, hq, hqu⟩ := List.mem_flatMap.mp hu
      exact (hdirect q hq).2 u hqu hun
    cases e with
    | complete =>
      refine iff_of_true ?_ (.inl ⟨hdirect, id⟩)
      simp only [fastString, fastOutcome, if_pos hdirect, genericString, if_neg hmapped]
      rw [← map_fromU_of_direct ncs hunits hdirect, List.length_map]
    | malformed bytes e =>
      by_cases hfour : bytes = 3
      · subst hfour
        simp [fastString, fastOutcome, genericString, ScanAgrees, ScanEnd.IsFour, EndsUnmapped,
          (hmal _ _ rfl).symm]
      · refine iff_of_true ?_ (.inl ⟨hdirect, hfour⟩)
        simp [fastString, fastOutcome, if_pos hdirect, genericString, hfour]
    | tooLong =>
      refine iff_of_true ?_ (.inr (.inl rfl))
      simp [fastString, fastOutcome, genericString]
  · have hfast : fastString ncs (qs, e, s) = .error .dataConversionCannotMapChar := by
      simp only [fastString, fastOutcome, if_neg hdirect]
    rw [hfast, ScanAgrees, EndsUnmapped]
    simp only [hdirect, false_and, false_or]
    cases e with
    | complete =>
      by_cases hlast : Utf8Seq.lastValue 0 qs = 0
      · by_cases hun : ∃ q ∈ qs, ∃ u ∈ q.units, ncs.UnmappedFromU u
        · have hun' : ∃ u ∈ qs.flatMap Utf8Seq.units, ncs.UnmappedFromU u := by
            obtain ⟨q, hq, u, hu, hn⟩ := hun
            exact ⟨u, List.mem_flatMap.mpr ⟨q, hq, hu⟩, hn⟩
          simp only [genericString, hlast, if_pos hun', hun]
          simp
        · have hun' : ¬ ∃ u ∈ qs.flatMap Utf8Seq.units, ncs.UnmappedFromU u := by
            rintro ⟨u, hu, hn⟩
            obtain ⟨q, hq, hqu⟩ := List.mem_flatMap.mp hu
            exact hun ⟨q, hq, u, hqu, hn⟩
          simp only [genericString, hlast, if_neg hun', hun]
          simp
      · simp [genericString, hlast]
    | malformed bytes e => simp [genericString, (hmal _ _ rfl).symm]
    | tooLong => simp [genericString]

end TCS_C_UTF_8

/-! ### The stream behind a string -/

/-- Reading leaves no more than there was. -/
lemma length_unmarshalOctet {s t : CdrIn} {c : UInt8} (h : s.unmarshalOctet = .ok (c, t)) :
    t.unread.length ≤ s.unread.length := by
  unfold CdrIn.unmarshalOctet at h
  split at h
  · simp at h
  · simp only [Except.ok.injEq, Prod.mk.injEq] at h
    rw [← h.2, CdrIn.unread_advance, List.length_drop]
    omega

lemma length_readExt {n lc value : ℕ} {s t : CdrIn}
    (h : readExt CdrIn.unmarshalOctet n lc s = .ok (value, t)) :
    t.unread.length ≤ s.unread.length := by
  induction n generalizing lc s with
  | zero =>
    simp only [readExt, Except.ok.injEq, Prod.mk.injEq] at h
    rw [h.2]
  | succ n ih =>
    rw [readExt_succ] at h
    split at h
    · simp at h
    · rename_i c u heq
      split_ifs at h
      exact (ih h).trans (length_unmarshalOctet heq)

lemma length_scan (fuel left : ℕ) (s : CdrIn) :
    (scan fuel left s).2.2.unread.length ≤ s.unread.length := by
  fun_induction scan fuel left s with
  | case1 | case2 | case3 => exact le_rfl
  | case4 fuel left s c t hc | case5 fuel left s c t hc | case6 fuel left s c t hc =>
    exact length_unmarshalOctet hc
  | case7 fuel left s c t hc h6 h4 value u heq r ih =>
    exact ih.trans ((length_readExt heq).trans (length_unmarshalOctet hc))

lemma unmarshalLength_consumes {strictIIOP : Bool} {bound : ℕ} {s t : CdrIn} {len : Option ℕ}
    (h : unmarshalLength strictIIOP bound s = .ok (len, t)) :
    t.unread.length + 4 ≤ s.unread.length := by
  unfold unmarshalLength at h
  split at h
  · simp at h
  · rename_i n u heq
    have hu := CdrIn.unmarshalULong_consumes heq
    split_ifs at h <;> simp_all

namespace TCS_C_UTF_8

variable (ncs : CodeSet8bit)

lemma genericUnmarshalString_eq (strictIIOP : Bool) (bound : ℕ) (s : CdrIn) :
    NCS_C_8bit.genericUnmarshalString ncs (toTCS_C strictIIOP) bound s =
      match unmarshalLength strictIIOP bound s with
      | .error e => .error e
      | .ok (none, t) => .ok ((0, [0]), t)
      | .ok (some len, t) => genericString ncs (scan len len t) := by
  simp only [NCS_C_8bit.genericUnmarshalString, toTCS_C, unmarshalString]
  cases unmarshalLength strictIIOP bound s with
  | error e => rfl
  | ok p =>
    obtain ⟨_ | len, t⟩ := p
    · simp [ncs.mapM_mapFromU, CodeSet8bit.UnmappedFromU, ncs.fromU_zero]
    · simp only [unmarshalLoop_eq_scan, genericString]
      cases (scan len len t).2.1 with
      | complete =>
        by_cases hlast : Utf8Seq.lastValue 0 (scan len len t).1 = 0
        · simp only [hlast, ne_eq, not_true_eq_false, if_false, ncs.mapM_mapFromU]
          split_ifs <;> rfl
        · simp [hlast]
      | malformed bytes e => rfl
      | tooLong => rfl

lemma unmarshalString_eq (strictIIOP : Bool) (bound : ℕ) (s : CdrIn) :
    NCS_C_8bit.unmarshalString ncs (toTCS_C strictIIOP) bound s =
      match unmarshalLength strictIIOP bound s with
      | .error e => .error e
      | .ok (none, t) => NCS_C_8bit.genericUnmarshalString ncs (toTCS_C strictIIOP) bound t
      | .ok (some len, t) => fastString ncs (scan len len t) := by
  simp only [NCS_C_8bit.unmarshalString, toTCS_C, fastUnmarshalString]
  cases unmarshalLength strictIIOP bound s with
  | error e => rfl
  | ok p =>
    obtain ⟨_ | len, t⟩ := p
    · rfl
    · simp only [fastUnmarshalLoop_eq_scan, fastString]
      cases fastOutcome ncs 0 (scan len len t) with
      | error e => rfl
      | ok q =>
        obtain ⟨b, uc, t⟩ := q
        by_cases huc : uc = 0 <;> simp [huc]

/-- Whatever string comes out, its length field is consumed. -/
lemma genericUnmarshalString_consumes {strictIIOP : Bool} {bound : ℕ} {s t : CdrIn}
    {r : ℕ × List UInt8}
    (h : NCS_C_8bit.genericUnmarshalString ncs (toTCS_C strictIIOP) bound s = .ok (r, t)) :
    t.unread.length < s.unread.length := by
  rw [genericUnmarshalString_eq] at h
  split at h
  · simp at h
  · rename_i u heq
    have hu := unmarshalLength_consumes heq
    simp only [Except.ok.injEq, Prod.mk.injEq] at h
    rw [← h.2]
    omega
  · rename_i len u heq
    have hu := unmarshalLength_consumes heq
    have hscan := length_scan len len u
    unfold genericString at h
    split at h
    · split_ifs at h
      simp only [Except.ok.injEq, Prod.mk.injEq] at h
      rw [← h.2]
      omega
    · simp at h
    · simp at h

/-- Unmarshalling a UTF-8 string into an 8-bit code set: the fast path agrees with the way through
UTF-16 unless a zero length is let pass or the sequences of the string tell them apart. -/
lemma unmarshalString_eq_generic_iff (strictIIOP : Bool) (bound : ℕ) (s : CdrIn) :
    NCS_C_8bit.unmarshalString ncs (toTCS_C strictIIOP) bound s =
        NCS_C_8bit.genericUnmarshalString ncs (toTCS_C strictIIOP) bound s ↔
      (∀ t, unmarshalLength strictIIOP bound s ≠ .ok (none, t)) ∧
        ∀ len t, unmarshalLength strictIIOP bound s = .ok (some len, t) →
          ScanAgrees ncs (scan len len t).1 (scan len len t).2.1 := by
  rw [unmarshalString_eq, genericUnmarshalString_eq]
  cases hlen : unmarshalLength strictIIOP bound s with
  | error e => simp
  | ok p =>
    obtain ⟨_ | len, t⟩ := p
    · -- the second length field is read from what is behind the first
      refine iff_of_false (fun h => ?_) fun h => h.1 t rfl
      exact absurd (genericUnmarshalString_consumes ncs h) (lt_irrefl _)
    · have hiff := fastString_eq_iff ncs (r := scan len len t)
        (fun q hq => units_of_scan hq) fun bytes e he => scan_malformed he
      simp [hiff]

end TCS_C_UTF_8

/-! ### 8-bit transmission code sets -/

namespace TCS_C_8bit

variable (ncs tcs : CodeSet8bit)

/-- Marshalling with a null transformation: the fast path agrees with the tables if every character
is mapped and, unless the string is too long, mapped back to itself. -/
lemma marshalString_eq_generic_iff (strictIIOP : Bool) (bound : ℕ) (s : List UInt8) (out : CdrOut) :
    NCS_C_8bit.marshalString ncs (toTCS_C tcs strictIIOP) bound s out =
        NCS_C_8bit.genericMarshalString ncs (toTCS_C tcs strictIIOP) bound s out ↔
      (ncs.id = tcs.id → (∀ c ∈ s, ¬ ncs.UnmappedToU c) ∧
        ((bound ≠ 0 ∧ bound < s.length) ∨ ∀ c ∈ s, tcs.fromU (ncs.toU c) = c)) := by
  have hgeneric : NCS_C_8bit.genericMarshalString ncs (toTCS_C tcs strictIIOP) bound s out =
      if ∃ c ∈ s, ncs.UnmappedToU c then .error .dataConversionCannotMapChar
      else marshalString tcs bound (s.map ncs.toU ++ [0]) out := by
    simp only [NCS_C_8bit.genericMarshalString, ncs.mapM_mapToU,
      ncs.exists_unmappedToU_append_zero]
    split_ifs
    · rfl
    · simp [toTCS_C, ncs.toU_zero]
  by_cases hid : ncs.id = tcs.id
  swap
  · simp [NCS_C_8bit.marshalString, toTCS_C, fastMarshalString, hid]
  have hfast : NCS_C_8bit.marshalString ncs (toTCS_C tcs strictIIOP) bound s out =
      if bound ≠ 0 ∧ bound < s.length then .error .marshalStringIsTooLong
      else .ok (out.marshalRawString s).1 := by
    simp only [NCS_C_8bit.marshalString, toTCS_C, fastMarshalString, if_pos hid]
    split_ifs <;> rfl
  rw [hfast, hgeneric]
  simp only [hid, true_implies]
  by_cases hunmapped : ∃ c ∈ s, ncs.UnmappedToU c
  · rw [if_pos hunmapped]
    refine iff_of_false ?_ fun h => ?_
    · split_ifs <;> simp
    · obtain ⟨c, hc, hu⟩ := hunmapped
      exact h.1 c hc hu
  have hmapped : ∀ c ∈ s, ¬ ncs.UnmappedToU c := fun c hc hu => hunmapped ⟨c, hc, hu⟩
  rw [if_neg hunmapped, and_iff_right hmapped, marshalString]
  by_cases hlong : bound ≠ 0 ∧ bound < s.length
  · simp [hlong]
  simp only [List.length_append, List.length_map, List.length_singleton, Nat.add_sub_cancel,
    hlong, if_false, false_or, tcs.mapM_mapFromU]
  by_cases hback : ∃ uc ∈ s.map ncs.toU ++ [0], tcs.UnmappedFromU uc
  · rw [if_pos hback]
    refine iff_of_false (by simp) fun h => ?_
    obtain ⟨uc, huc, hne, hzero⟩ := hback
    rw [List.mem_append, List.mem_map, List.mem_singleton] at huc
    obtain ⟨c, hc, rfl⟩ | rfl := huc
    · rw [h c hc] at hzero
      exact hne (by rw [hzero, ncs.toU_zero])
    · exact hne rfl
  · have hraw : (out.marshalRawString s).1 =
        (out.marshalULong (s.length + 1)).putOctetArray (s ++ [0]) := rfl
    have hmap : (s.map ncs.toU ++ [0]).map tcs.fromU =
        s.map (fun c => tcs.fromU (ncs.toU c)) ++ [0] := by
      simp [tcs.fromU_zero]
    rw [if_neg hback, hraw, hmap, Except.ok.injEq, CdrOut.putOctetArray_inj, List.append_left_inj,
      eq_comm, map_eq_self_iff]

/-- The loop maps the octets that it takes. -/
lemma unmarshalLoop_eq {mlen : ℕ} {s : CdrIn} (h : mlen ≤ s.unread.length) :
    unmarshalLoop tcs mlen s =
      if ∃ c ∈ s.unread.take mlen, tcs.UnmappedToU c then .error .dataConversionCannotMapChar
      else .ok ((s.unread.take mlen).map tcs.toU, s.advance mlen) := by
  induction mlen generalizing s with
  | zero => simp [unmarshalLoop]
  | succ mlen ih =>
    obtain ⟨c, rest, hs⟩ := List.exists_cons_of_length_pos (show 0 < s.unread.length by omega)
    have hle : mlen ≤ (s.advance 1).unread.length := by
      rw [CdrIn.unread_advance, List.length_drop]
      omega
    rw [unmarshalLoop, CdrIn.unmarshalOctet_cons hs]
    simp only [CodeSet8bit.mapToU, ih hle, CdrIn.unread_advance, hs, List.drop_succ_cons,
      List.drop_zero, List.take_succ_cons, List.exists_mem_cons_iff, CdrIn.advance_advance]
    by_cases hc : tcs.UnmappedToU c
    · have hc' : c ≠ 0 ∧ tcs.toU c = 0 := hc
      simp [hc, hc']
    · have hc' : ¬(c ≠ 0 ∧ tcs.toU c = 0) := hc
      simp only [if_neg hc', hc, false_or]
      split_ifs <;> simp [Nat.add_comm]

/-- What the tables make of the octets of a string with its terminator. -/
def tableString (cs : List UInt8) (s : CdrIn) : Except Exn ((ℕ × List UInt8) × CdrIn) :=
  if ∃ c ∈ cs, tcs.UnmappedToU c then .error .dataConversionCannotMapChar
  else if cs.getLast? ≠ some 0 then .error .marshalStringNotEndWithNull
  else if ∃ c ∈ cs, ncs.UnmappedFromU (tcs.toU c) then .error .dataConversionCannotMapChar
  else .ok ((cs.length - 1, cs.map fun c => ncs.fromU (tcs.toU c)), s)

/-- What the null transformation makes of them. -/
def nullString (cs : List UInt8) (s : CdrIn) : Except Exn ((ℕ × List UInt8) × CdrIn) :=
  if cs.getLast? ≠ some 0 then .error .marshalStringNotEndWithNull
  else .ok ((cs.length - 1, cs), s)

/-- The octets give the same result on both ways. -/
def TablesAgree (cs : List UInt8) : Prop :=
  (∀ c ∈ cs, ¬ tcs.UnmappedToU c) ∧
    (cs.getLast? ≠ some 0 ∨ ∀ c ∈ cs, ncs.fromU (tcs.toU c) = c)

lemma nullString_eq_iff (cs : List UInt8) (s : CdrIn) :
    nullString cs s = tableString ncs tcs cs s ↔ TablesAgree ncs tcs cs := by
  unfold nullString tableString TablesAgree
  by_cases hunmapped : ∃ c ∈ cs, tcs.UnmappedToU c
  · rw [if_pos hunmapped]
    refine iff_of_false ?_ fun h => ?_
    · split_ifs <;> simp
    · obtain ⟨c, hc, hu⟩ := hunmapped
      exact h.1 c hc hu
  have hmapped : ∀ c ∈ cs, ¬ tcs.UnmappedToU c := fun c hc hu => hunmapped ⟨c, hc, hu⟩
  rw [if_neg hunmapped, and_iff_right hmapped]
  by_cases hlast : cs.getLast? ≠ some 0
  · rw [if_pos hlast, if_pos hlast]
    exact iff_of_true rfl (.inl hlast)
  rw [if_neg hlast, if_neg hlast, or_iff_right hlast]
  by_cases hback : ∃ c ∈ cs, ncs.UnmappedFromU (tcs.toU c)
  · rw [if_pos hback]
    refine iff_of_false (by simp) fun h => ?_
    obtain ⟨c, hc, hne, hzero⟩ := hback
    rw [h c hc] at hzero
    exact hne (by rw [hzero, tcs.toU_zero])
  · rw [if_neg hback, Except.ok.injEq, Prod.mk.injEq, Prod.mk.injEq, and_iff_left rfl,
      and_iff_right rfl, eq_comm, map_eq_self_iff]

lemma getLast?_map_toU {cs : List UInt8} (hmapped : ∀ c ∈ cs, ¬ tcs.UnmappedToU c) :
    (cs.map tcs.toU).getLast? = some 0 ↔ cs.getLast? = some 0 := by
  rw [List.getLast?_map]
  cases hl : cs.getLast? with
  | none => simp
  | some c =>
    have hc := hmapped c (List.mem_of_getLast? hl)
    simp only [Option.map_some, Option.some.injEq]
    constructor
    · intro h
      by_contra hne
      exact hc ⟨hne, h⟩
    · rintro rfl
      exact tcs.toU_zero

lemma unmarshalLength_le {strictIIOP : Bool} {bound len : ℕ} {s t : CdrIn}
    (h : unmarshalLength strictIIOP bound s = .ok (some len, t)) : len ≤ t.unread.length := by
  unfold unmarshalLength at h
  split at h
  · simp at h
  · split_ifs at h with h1 h2 h3 h4
    · simp at h
    · simp only [Except.ok.injEq, Prod.mk.injEq, Option.some.injEq] at h
      obtain ⟨rfl, rfl⟩ := h
      simpa [CdrIn.checkInputOverrun] using h4

lemma genericUnmarshalString_eq (strictIIOP : Bool) (bound : ℕ) (s : CdrIn) :
    NCS_C_8bit.genericUnmarshalString ncs (toTCS_C tcs strictIIOP) bound s =
      match unmarshalLength strictIIOP bound s with
      | .error e => .error e
      | .ok (none, t) => .ok ((0, [0]), t)
      | .ok (some len, t) => tableString ncs tcs (t.unread.take len) (t.advance len) := by
  simp only [NCS_C_8bit.genericUnmarshalString, toTCS_C, unmarshalString]
  cases hlen : unmarshalLength strictIIOP bound s with
  | error e => rfl
  | ok p =>
    obtain ⟨_ | len, t⟩ := p
    · simp [ncs.mapM_mapFromU, CodeSet8bit.UnmappedFromU, ncs.fromU_zero]
    · have hle := unmarshalLength_le hlen
      simp only [unmarshalLoop_eq tcs hle, tableString]
      by_cases hunmapped : ∃ c ∈ t.unread.take len, tcs.UnmappedToU c
      · simp [hunmapped]
      have hmapped : ∀ c ∈ t.unread.take len, ¬ tcs.UnmappedToU c :=
        fun c hc hu => hunmapped ⟨c, hc, hu⟩
      simp only [if_neg hunmapped, ne_eq, getLast?_map_toU tcs hmapped]
      by_cases hlast : (t.unread.take len).getLast? = some 0
      · simp only [hlast, not_true_eq_false, if_false, ncs.mapM_mapFromU, List.mem_map,
          exists_exists_and_eq_and, List.map_map, List.length_take, Nat.min_eq_left hle]
        split_ifs <;> rfl
      · simp [hlast]

lemma unmarshalString_eq (hid : ncs.id = tcs.id) (strictIIOP : Bool) (bound : ℕ) (s : CdrIn) :
    NCS_C_8bit.unmarshalString ncs (toTCS_C tcs strictIIOP) bound s =
      match unmarshalLength strictIIOP bound s with
      | .error e => .error e
      | .ok (none, t) => NCS_C_8bit.genericUnmarshalString ncs (toTCS_C tcs strictIIOP) bound t
      | .ok (some len, t) => nullString (t.unread.take len) (t.advance len) := by
  simp only [NCS_C_8bit.unmarshalString, toTCS_C, fastUnmarshalString, if_pos hid]
  cases hlen : unmarshalLength strictIIOP bound s with
  | error e => rfl
  | ok p =>
    obtain ⟨_ | len, t⟩ := p
    · rfl
    · have hle := unmarshalLength_le hlen
      simp only [CdrIn.getOctetArray, if_neg (Nat.not_lt.mpr hle), nullString, List.length_take,
        Nat.min_eq_left hle]
      by_cases hlast : (t.unread.take len).getLast? = some 0 <;> simp [hlast]

lemma genericUnmarshalString_consumes {strictIIOP : Bool} {bound : ℕ} {s t : CdrIn}
    {r : ℕ × List UInt8}
    (h : NCS_C_8bit.genericUnmarshalString ncs (toTCS_C tcs strictIIOP) bound s = .ok (r, t)) :
    t.unread.length < s.unread.length := by
  rw [genericUnmarshalString_eq] at h
  split at h
  · simp at h
  · rename_i u heq
    have hu := unmarshalLength_consumes heq
    simp only [Except.ok.injEq, Prod.mk.injEq] at h
    rw [← h.2]
    omega
  · rename_i len u heq
    have hu := unmarshalLength_consumes heq
    unfold tableString at h
    split_ifs at h
    simp only [Except.ok.injEq, Prod.mk.injEq] at h
    rw [← h.2, CdrIn.unread_advance, List.length_drop]
    omega

/-- Unmarshalling with a null transformation: the fast path agrees with the tables unless a zero
length is let pass or the tables do not map the octets back to themselves. -/
lemma unmarshalString_eq_generic_iff (strictIIOP : Bool) (bound : ℕ) (s : CdrIn) :
    NCS_C_8bit.unmarshalString ncs (toTCS_C tcs strictIIOP) bound s =
        NCS_C_8bit.genericUnmarshalString ncs (toTCS_C tcs strictIIOP) bound s ↔
      (ncs.id = tcs.id →
        (∀ t, unmarshalLength strictIIOP bound s ≠ .ok (none, t)) ∧
          ∀ len t, unmarshalLength strictIIOP bound s = .ok (some len, t) →
            TablesAgree ncs tcs (t.unread.take len)) := by
  by_cases hid : ncs.id = tcs.id
  swap
  · simp [NCS_C_8bit.unmarshalString, toTCS_C, fastUnmarshalString, hid]
  rw [unmarshalString_eq ncs tcs hid, genericUnmarshalString_eq]
  simp only [hid, true_implies]
  cases hlen : unmarshalLength strictIIOP bound s with
  | error e => simp
  | ok p =>
    obtain ⟨_ | len, t⟩ := p
    · refine iff_of_false (fun h => ?_) fun h => h.1 t rfl
      exact absurd (genericUnmarshalString_consumes ncs tcs h) (lt_irrefl _)
    · simp [nullString_eq_iff]

end TCS_C_8bit

/-! ### Results -/

/-- When the way through the fast path and the way through UTF-16 agree, for the UTF-8 and for an
8-bit transmission code set, in marshalling and in unmarshalling. -/
theorem fast_paths_agree_iff (ncs tcs : CodeSet8bit) (strictIIOP : Bool) (bound : ℕ) :
    (∀ s out,
      NCS_C_8bit.marshalString ncs (TCS_C_UTF_8.toTCS_C strictIIOP) bound s out =
          NCS_C_8bit.genericMarshalString ncs (TCS_C_UTF_8.toTCS_C strictIIOP) bound s out ↔
        (∀ c ∈ s, ¬ ncs.UnmappedToU c) ∧
          ((∃ c ∈ s, IsSurrogate (ncs.toU c)) → ¬ ∃ cs, s.map ncs.toU = utf16Encode cs)) ∧
    (∀ s,
      NCS_C_8bit.unmarshalString ncs (TCS_C_UTF_8.toTCS_C strictIIOP) bound s =
          NCS_C_8bit.genericUnmarshalString ncs (TCS_C_UTF_8.toTCS_C strictIIOP) bound s ↔
        (∀ t, unmarshalLength strictIIOP bound s ≠ .ok (none, t)) ∧
          ∀ len t, unmarshalLength strictIIOP bound s = .ok (some len, t) →
            TCS_C_UTF_8.ScanAgrees ncs (scan len len t).1 (scan len len t).2.1) ∧
    (∀ s out,
      NCS_C_8bit.marshalString ncs (TCS_C_8bit.toTCS_C tcs strictIIOP) bound s out =
          NCS_C_8bit.genericMarshalString ncs (TCS_C_8bit.toTCS_C tcs strictIIOP) bound s out ↔
        (ncs.id = tcs.id → (∀ c ∈ s, ¬ ncs.UnmappedToU c) ∧
          ((bound ≠ 0 ∧ bound < s.length) ∨ ∀ c ∈ s, tcs.fromU (ncs.toU c) = c))) ∧
    ∀ s,
      NCS_C_8bit.unmarshalString ncs (TCS_C_8bit.toTCS_C tcs strictIIOP) bound s =
          NCS_C_8bit.genericUnmarshalString ncs (TCS_C_8bit.toTCS_C tcs strictIIOP) bound s ↔
        (ncs.id = tcs.id →
          (∀ t, unmarshalLength strictIIOP bound s ≠ .ok (none, t)) ∧
            ∀ len t, unmarshalLength strictIIOP bound s = .ok (some len, t) →
              TCS_C_8bit.TablesAgree ncs tcs (t.unread.take len)) :=
  ⟨TCS_C_UTF_8.marshalString_eq_generic_iff ncs strictIIOP bound,
    TCS_C_UTF_8.unmarshalString_eq_generic_iff ncs strictIIOP bound,
    TCS_C_8bit.marshalString_eq_generic_iff ncs tcs strictIIOP bound,
    TCS_C_8bit.unmarshalString_eq_generic_iff ncs tcs strictIIOP bound⟩

/-- `_NCS_C_8859_1`, whose tables map every octet to the unit of the same value. -/
def NCS_C_8859_1 : CodeSet8bit where
  id := 0x00010001
  toU := fun c => c.toUInt16
  fromU := fun uc => if uc.toNat < 0x100 then uc.toUInt8 else 0
  toU_zero := rfl
  fromU_zero := rfl

/-- Of two strings of which the first has a zero length field, the generic paths return the empty
one and the fast paths the other. -/
theorem fast_paths_skip_zero_length :
    let s : CdrIn := ⟨0, [0, 0, 0, 0, 2, 0, 0, 0, 0x41, 0], false⟩
    let utf8 := TCS_C_UTF_8.toTCS_C false
    let latin := TCS_C_8bit.toTCS_C NCS_C_8859_1 false
    NCS_C_8bit.genericUnmarshalString NCS_C_8859_1 utf8 0 s = .ok ((0, [0]), s.advance 4) ∧
    NCS_C_8bit.genericUnmarshalString NCS_C_8859_1 latin 0 s = .ok ((0, [0]), s.advance 4) ∧
    NCS_C_8bit.unmarshalString NCS_C_8859_1 utf8 0 s = .ok ((1, [0x41, 0]), s.advance 10) ∧
    NCS_C_8bit.unmarshalString NCS_C_8859_1 latin 0 s = .ok ((1, [0x41, 0]), s.advance 10) := by
  decide

end OmniORB
