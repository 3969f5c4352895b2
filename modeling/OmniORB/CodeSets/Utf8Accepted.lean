import OmniORB.CodeSets.FastPaths
import OmniORB.CodeSets.Utf8Validation

/-!
# What the UTF-8 decoders accept

`NCS_C_UTF_8::marshalString` and `TCS_C_UTF_8::unmarshalString` take what a lead octet and extension
characters make, without the checks of `validateString`, and the second does not compare the
extension characters with the length of the string. What they accept is well-formed exactly if the
sequences that they find in it are.
-/

namespace OmniORB

open Library

/-! ### Sequences -/

/-- The octets of a sequence. -/
def Utf8Seq.Spells (q : Utf8Seq) (b : List UInt8) : Prop :=
  ∃ lead exts bits, b = lead :: exts ∧ IsLead lead exts.length bits ∧ exts.length = q.bytes ∧
    exts.length ≤ 3 ∧ (∀ e ∈ exts, IsExt e) ∧ extValue bits exts = q.value

/-- The sequence of a character. -/
def seqOf (c : Char) : Utf8Seq := ⟨(String.utf8EncodeChar c).length - 1, c.toNat⟩

lemma Utf8Seq.Spells.length {q : Utf8Seq} {b : List UInt8} (h : q.Spells b) :
    b.length = q.bytes + 1 := by
  obtain ⟨lead, exts, bits, rfl, -, hlen, -⟩ := h
  rw [List.length_cons, hlen]

/-- A sequence in shortest form is a character. -/
lemma Utf8Seq.Spells.exists_char {q : Utf8Seq} {b : List UInt8} (h : q.Spells b)
    (hq : Shortest q.value q.bytes) : ∃ c : Char, c.toNat = q.value ∧ String.utf8EncodeChar c = b := by
  obtain ⟨lead, exts, bits, rfl, hlead, hlen, h3, hext, hval⟩ := h
  rw [← hval, ← hlen] at hq
  obtain ⟨c, hc, hform⟩ := OmniORB.exists_char hlead h3 hext hq
  exact ⟨c, hc.trans hval, hform⟩

lemma shortest_seqOf (c : Char) : Shortest (seqOf c).value (seqOf c).bytes := by
  obtain ⟨lead, exts, bits, hshape, -⟩ := utf8EncodeChar_shape c
  have hshort := shortest_char hshape
  rwa [seqOf, hshape]

/-- Extension characters that were read stood in front of what is left. -/
lemma readExt_unmarshalOctet_ok {n lc value : ℕ} {s t : CdrIn}
    (h : readExt CdrIn.unmarshalOctet n lc s = .ok (value, t)) :
    ∃ exts, exts.length = n ∧ (∀ e ∈ exts, IsExt e) ∧ extValue lc exts = value ∧
      s.unread = exts ++ t.unread ∧ t = s.advance n := by
  induction n generalizing lc s with
  | zero =>
    simp only [readExt, Except.ok.injEq, Prod.mk.injEq] at h
    obtain ⟨rfl, rfl⟩ := h
    exact ⟨[], rfl, by simp, rfl, rfl, s.advance_zero.symm⟩
  | succ n ih =>
    rw [readExt_succ] at h
    cases hs : s.unread with
    | nil => simp [CdrIn.unmarshalOctet, hs] at h
    | cons c rest =>
      rw [CdrIn.unmarshalOctet_cons hs] at h
      simp only at h
      split_ifs at h with hc
      obtain ⟨exts, hlen, hext, hval, hunread, ht⟩ := ih h
      refine ⟨c :: exts, ?_, ?_, ?_, ?_, ?_⟩
      · rw [List.length_cons, hlen]
      · exact List.forall_mem_cons.mpr ⟨hc, hext⟩
      · exact hval
      · rw [CdrIn.unread_advance, hs, List.drop_one, List.tail_cons] at hunread
        rw [hunread, List.cons_append]
      · rw [ht, CdrIn.advance_advance, Nat.add_comm]

/-- A string that is scanned to its end consists of the sequences found. -/
lemma scan_spells {fuel left : ℕ} {s : CdrIn} (h : (scan fuel left s).2.1 = .complete) :
    ∃ bs, List.Forall₂ Utf8Seq.Spells (scan fuel left s).1 bs ∧
      s.unread = bs.flatten ++ (scan fuel left s).2.2.unread ∧
      (scan fuel left s).2.2 = s.advance bs.flatten.length := by
  fun_induction scan fuel left s with
  | case1 | case2 => exact ⟨[], .nil, rfl, (CdrIn.advance_zero _).symm⟩
  | case3 | case4 | case5 | case6 => simp at h
  | case7 fuel left s c t hc h6 h4 value u heq r ih =>
    obtain ⟨bs, hall, hunread, hadvance⟩ := ih h
    obtain ⟨exts, hlen, hext, hval, hu, rfl⟩ := readExt_unmarshalOctet_ok heq
    cases hs : s.unread with
    | nil => simp [CdrIn.unmarshalOctet, hs] at hc
    | cons c' rest =>
      rw [CdrIn.unmarshalOctet_cons hs, Except.ok.injEq, Prod.mk.injEq] at hc
      obtain ⟨rfl, rfl⟩ := hc
      refine ⟨(c' :: exts) :: bs, .cons ⟨c', exts, _, rfl, ⟨hlen.symm, rfl⟩, hlen, ?_, hext, hval⟩ hall,
        ?_, ?_⟩
      · omega
      · rw [CdrIn.unread_advance, hs, List.drop_one, List.tail_cons] at hu
        rw [hu, hunread, List.flatten_cons, List.cons_append, List.cons_append, List.append_assoc]
      · change r.2.2 = _
        rw [hadvance, CdrIn.advance_advance, CdrIn.advance_advance, List.flatten_cons,
          List.length_append, List.length_cons, hlen]
        congr 1
        omega

/-- The UTF-8 form of characters is scanned character by character. -/
lemma scan_utf8Encode (cs : List Char) {fuel : ℕ} {s : CdrIn} {rest : List UInt8}
    (hfuel : (utf8Encode cs).length ≤ fuel) (hs : s.unread = utf8Encode cs ++ rest) :
    (scan fuel (utf8Encode cs).length s).1 = cs.map seqOf := by
  induction cs generalizing fuel s with
  | nil => cases fuel <;> rfl
  | cons c cs ih =>
    obtain ⟨lead, exts, bits, hshape, hlead, h3, hext, hval⟩ := utf8EncodeChar_shape c
    simp only [utf8Encode_cons, hshape, List.cons_append, List.length_cons, List.length_append,
      List.append_assoc] at hfuel hs ⊢
    obtain ⟨fuel, rfl⟩ := Nat.exists_eq_succ_of_ne_zero (Nat.ne_zero_of_lt hfuel)
    have htail : (s.advance 1).unread = exts ++ (utf8Encode cs ++ rest) := by simp [hs]
    have hread := readExt_of_feeds bits (feeds_unmarshalOctet htail) hext
    rw [scan, CdrIn.unmarshalOctet_cons hs]
    simp only [hlead.count, hlead.masked, hread]
    rw [if_neg (by omega), if_neg (by omega), Nat.add_sub_cancel_left, hval, List.map_cons]
    have hrest := @ih fuel ((s.advance 1).advance exts.length) (by omega)
      (by rw [CdrIn.unread_advance, htail, List.drop_left])
    rw [hrest, seqOf, hshape, List.length_cons, Nat.add_sub_cancel]

/-! ### What is in a string -/

/-- Sequences in shortest form are characters, and their units those of the characters. -/
lemma exists_chars {qs : List Utf8Seq} {bs : List (List UInt8)} (h : List.Forall₂ Utf8Seq.Spells qs bs)
    (hq : ∀ q ∈ qs, Shortest q.value q.bytes) :
    ∃ cs : List Char, cs.map Char.toNat = qs.map Utf8Seq.value ∧ utf8Encode cs = bs.flatten ∧
      utf16Encode cs = qs.flatMap Utf8Seq.units := by
  induction h with
  | nil => exact ⟨[], rfl, rfl, rfl⟩
  | cons hspells _ ih =>
    rw [List.forall_mem_cons] at hq
    obtain ⟨c, hc, hform⟩ := hspells.exists_char hq.1
    obtain ⟨cs, hval, h8, h16⟩ := ih hq.2
    refine ⟨c :: cs, ?_, ?_, ?_⟩
    · rw [List.map_cons, List.map_cons, hc, hval]
    · rw [utf8Encode_cons, hform, h8, List.flatten_cons]
    · rw [utf16Encode_cons, h16, List.flatMap_cons, Utf8Seq.units, ← hc, insertCodePoint_eq]

lemma length_flatten_of_spells {qs : List Utf8Seq} {bs : List (List UInt8)}
    (h : List.Forall₂ Utf8Seq.Spells qs bs) :
    bs.flatten.length = (qs.map fun q => q.bytes + 1).sum := by
  induction h with
  | nil => rfl
  | cons hspells _ ih =>
    rw [List.flatten_cons, List.length_append, hspells.length, ih, List.map_cons, List.sum_cons]

/-- Only the character NUL has the unit 0. -/
lemma zero_mem_utf16Encode {cs : List Char} : (0 : UniChar) ∈ utf16Encode cs ↔ '\x00' ∈ cs := by
  constructor
  · intro h
    obtain ⟨c, hc, h0⟩ := List.mem_flatMap.mp h
    have hchar := char_toNat_cases c
    have hzero : c.toNat = 0 := by
      rw [utf16EncodeChar] at h0
      split_ifs at h0 with hlt
      · rw [List.mem_singleton, ← UInt16.toNat_inj, UInt16.toNat_ofNat', UInt16.toNat_zero] at h0
        omega
      · rw [List.mem_pair, ← UInt16.toNat_inj, ← UInt16.toNat_inj, UInt16.toNat_ofNat',
          UInt16.toNat_ofNat', UInt16.toNat_zero] at h0
        omega
    have hnul : c = '\x00' := Char.ext (UInt32.toNat_inj.mp hzero)
    rwa [← hnul]
  · intro h
    exact List.mem_flatMap.mpr ⟨_, h, by decide⟩

lemma utf16EncodeChar_ne_nil (c : Char) : utf16EncodeChar c ≠ [] := by
  unfold utf16EncodeChar
  split_ifs <;> simp

/-- The units of characters have their only NUL at the end if the characters have. -/
lemma terminated_iff (cs : List Char) :
    (∃ v, utf16Encode cs = v ++ [0] ∧ (0 : UniChar) ∉ v) ↔
      ∃ ds, cs = ds ++ ['\x00'] ∧ '\x00' ∉ ds := by
  constructor
  · rintro ⟨v, hv, h0⟩
    obtain rfl | ⟨ds, c, rfl⟩ := List.eq_nil_or_concat cs
    · simp at hv
    rw [List.concat_eq_append] at hv ⊢
    rw [utf16Encode, List.flatMap_append, List.flatMap_singleton] at hv
    change utf16Encode ds ++ utf16EncodeChar c = v ++ [0] at hv
    obtain ⟨w, u, hc⟩ : ∃ w u, utf16EncodeChar c = w ++ [u] :=
      ⟨_, _, (List.dropLast_append_getLast (utf16EncodeChar_ne_nil c)).symm⟩
    rw [hc, ← List.append_assoc] at hv
    obtain ⟨rfl, hu⟩ := List.append_inj' hv rfl
    rw [List.mem_append, not_or] at h0
    have hmem : (0 : UniChar) ∈ utf16Encode [c] := by
      rw [utf16Encode_cons, hc, List.singleton_inj.mp hu]
      simp
    have hnul := zero_mem_utf16Encode.mp hmem
    rw [List.mem_singleton] at hnul
    refine ⟨ds, by rw [← hnul], fun hd => h0.1 (zero_mem_utf16Encode.mpr hd)⟩
  · rintro ⟨ds, rfl, hd⟩
    refine ⟨utf16Encode ds, ?_, fun h0 => hd (zero_mem_utf16Encode.mp h0)⟩
    rw [utf16Encode, List.flatMap_append]
    rfl

/-! ### Strings in a stream -/

/-- What is promised of a string of `len` octets in the stream `s`, when it is accepted with the
units `us` and the stream `t` is left behind. -/
structure Decoded (len : ℕ) (s t : CdrIn) (us : List UniChar) : Prop where
  wellFormed : ∃ cs, s.unread.take len = utf8Encode cs
  consumed : t = s.advance len
  paired : ∃ cs, us = utf16Encode cs
  terminated : ∃ v, us = v ++ [0] ∧ 0 ∉ v

/-- The sequences are in shortest form, end where the string ends, and no NUL is among them but the
last. -/
structure SoundSequences (len : ℕ) (qs : List Utf8Seq) : Prop where
  shortest : ∀ q ∈ qs, Shortest q.value q.bytes
  within : (qs.map fun q => q.bytes + 1).sum = len
  nul : ∀ q ∈ qs.dropLast, q.value ≠ 0

lemma lastValue_concat (lc : ℕ) (qs : List Utf8Seq) (q : Utf8Seq) :
    Utf8Seq.lastValue lc (qs ++ [q]) = q.value := by
  induction qs generalizing lc with
  | nil => rfl
  | cons _ qs ih => exact ih _

/-- The characters of sequences, of which only the last is NUL. -/
lemma only_last_nul {cs : List Char} {qs : List Utf8Seq}
    (hval : cs.map Char.toNat = qs.map Utf8Seq.value) :
    (∃ ds, cs = ds ++ ['\x00'] ∧ '\x00' ∉ ds) ↔
      qs ≠ [] ∧ Utf8Seq.lastValue 0 qs = 0 ∧ ∀ q ∈ qs.dropLast, q.value ≠ 0 := by
  obtain rfl | ⟨qs, q, rfl⟩ := List.eq_nil_or_concat qs
  · have hnil := List.map_eq_nil_iff.mp hval
    simp [hnil]
  rw [List.concat_eq_append] at hval ⊢
  rw [List.map_append] at hval
  obtain ⟨ds, es, rfl, hds, hes⟩ := List.map_eq_append_iff.mp hval
  obtain ⟨c, rfl⟩ : ∃ c, es = [c] := by
    have hlen := congrArg List.length hes
    rw [List.length_map, List.length_map] at hlen
    exact List.length_eq_one_iff.mp hlen
  have hc : c.toNat = q.value := List.singleton_inj.mp hes
  have hnul : ∀ d : Char, d.toNat = 0 ↔ d = '\x00' := by
    intro d
    refine ⟨fun h => Char.ext (UInt32.toNat_inj.mp h), ?_⟩
    rintro rfl
    rfl
  rw [lastValue_concat, List.dropLast_concat]
  constructor
  · rintro ⟨ds', hsplit, hd⟩
    obtain ⟨rfl, hlast⟩ := List.append_inj' hsplit rfl
    refine ⟨by simp, ?_, fun q' hq' h0 => ?_⟩
    · rw [← hc]
      exact (hnul c).mpr (List.singleton_inj.mp hlast)
    · have hmem : q'.value ∈ ds.map Char.toNat := by
        rw [hds]
        exact List.mem_map_of_mem hq'
      obtain ⟨d, hmd, hd'⟩ := List.mem_map.mp hmem
      rw [h0] at hd'
      rw [(hnul d).mp hd'] at hmd
      exact hd hmd
  · rintro ⟨-, hlast, hall⟩
    rw [← hc] at hlast
    refine ⟨ds, by rw [(hnul c).mp hlast], fun hmem => ?_⟩
    have hval0 : (0 : ℕ) ∈ qs.map Utf8Seq.value := by
      rw [← hds]
      exact List.mem_map.mpr ⟨_, hmem, rfl⟩
    obtain ⟨q', hq', h0⟩ := List.mem_map.mp hval0
    exact hall q' hq' h0

namespace TCS_C_UTF_8

/-- What the loop accepts, and what it leaves. -/
lemma decoded_iff {len lc : ℕ} (hlen : 0 < len) {s t : CdrIn} {us : List UniChar}
    (h : unmarshalLoop len len 0 s = .ok (us, lc, t)) (hlc : lc = 0) :
    Decoded len s t us ↔ SoundSequences len (scan len len s).1 := by
  rw [unmarshalLoop_eq_scan] at h
  cases hend : (scan len len s).2.1 with
  | malformed bytes e => simp [hend] at h
  | tooLong => simp [hend] at h
  | complete =>
    simp only [hend, Except.ok.injEq, Prod.mk.injEq] at h
    obtain ⟨rfl, hlast, rfl⟩ := h
    obtain ⟨bs, hall, hunread, hadvance⟩ := scan_spells hend
    have hsum := length_flatten_of_spells hall
    rw [hlc] at hlast
    constructor
    · rintro ⟨⟨cs, hcs⟩, hconsumed, -, hterm⟩
      have hflat : bs.flatten.length = len := by
        have hmkr := congrArg CdrIn.mkr (hadvance.symm.trans hconsumed)
        rw [CdrIn.mkr_advance, CdrIn.mkr_advance] at hmkr
        exact Nat.add_left_cancel hmkr
      have hoctets : utf8Encode cs = bs.flatten := by
        rw [← hcs, hunread, List.take_left' hflat]
      have hlength : (utf8Encode cs).length = len := by rw [hoctets, hflat]
      have hscan := scan_utf8Encode cs (Nat.le_of_eq hlength)
        (show s.unread = _ ++ s.unread.drop len by rw [← hcs, List.take_append_drop])
      rw [hlength] at hscan
      have hval : cs.map Char.toNat = (scan len len s).1.map Utf8Seq.value := by
        rw [hscan, List.map_map]
        rfl
      have hunits : (scan len len s).1.flatMap Utf8Seq.units = utf16Encode cs := by
        rw [hscan, List.flatMap_map]
        exact List.flatMap_congr fun c _ => insertCodePoint_eq c
      refine ⟨fun q hq => ?_, hsum.symm.trans hflat, ?_⟩
      · rw [hscan] at hq
        obtain ⟨c, -, rfl⟩ := List.mem_map.mp hq
        exact shortest_seqOf c
      · rw [hunits] at hterm
        exact ((only_last_nul hval).mp ((terminated_iff cs).mp hterm)).2.2
    · rintro ⟨hshort, hwithin, hnul⟩
      obtain ⟨cs, hval, h8, h16⟩ := exists_chars hall hshort
      have hne : (scan len len s).1 ≠ [] := by
        intro hnil
        rw [hnil] at hwithin
        exact absurd hwithin (Nat.ne_of_lt hlen)
      have hlength : bs.flatten.length = len := hsum.trans hwithin
      refine ⟨⟨cs, ?_⟩, ?_, ⟨cs, h16.symm⟩, ?_⟩
      · rw [h8, hunread, List.take_left' hlength]
      · rw [hadvance, hlength]
      · rw [← h16]
        exact (terminated_iff cs).mpr ((only_last_nul hval).mpr ⟨hne, hlast, hnul⟩)

end TCS_C_UTF_8

/-! ### Native strings -/

namespace NCS_C_UTF_8

/-- Extension characters that were read stood in the string: the NUL is none. -/
lemma readExt_next_ok {n lc value : ℕ} {s t : List UInt8}
    (h : readExt next n lc s = .ok (value, t)) :
    ∃ exts, exts.length = n ∧ (∀ e ∈ exts, IsExt e) ∧ extValue lc exts = value ∧ s = exts ++ t := by
  induction n generalizing lc s with
  | zero =>
    simp only [readExt, Except.ok.injEq, Prod.mk.injEq] at h
    obtain ⟨rfl, rfl⟩ := h
    exact ⟨[], rfl, by simp, rfl, rfl⟩
  | succ n ih =>
    rw [readExt_succ] at h
    cases s with
    | nil => simp [next, IsExt] at h
    | cons c s =>
      simp only [next] at h
      split_ifs at h with hc
      obtain ⟨exts, hlen, hext, hval, rfl⟩ := ih h
      refine ⟨c :: exts, ?_, List.forall_mem_cons.mpr ⟨hc, hext⟩, hval, rfl⟩
      rw [List.length_cons, hlen]

/-- The loop over an accepted string converts the sequences that a scan of its octets finds. -/
lemma marshalLoop_scan {n : ℕ} {l : List UInt8} {us : List UniChar} (hn : l.length ≤ n)
    (h : marshalLoop n l = .ok us) {s : CdrIn} (hs : s.unread = l) :
    (scan n l.length s).2.1 = .complete ∧ (scan n l.length s).2.2.unread = [] ∧
      us = (scan n l.length s).1.flatMap Utf8Seq.units := by
  induction n generalizing l us s with
  | zero =>
    obtain rfl := List.length_eq_zero_iff.mp (Nat.le_zero.mp hn)
    simp only [marshalLoop, Except.ok.injEq] at h
    exact ⟨rfl, hs, h.symm⟩
  | succ n ih =>
    cases l with
    | nil =>
      simp only [marshalLoop, Except.ok.injEq] at h
      exact ⟨rfl, hs, h.symm⟩
    | cons c l =>
      rw [marshalLoop] at h
      split_ifs at h with h4
      cases hread : readExt next (utf8Count c) (c.toNat &&& utf8Mask c) l with
      | error e => simp [hread] at h
      | ok p =>
        obtain ⟨value, t⟩ := p
        obtain ⟨exts, hlen, hext, hval, rfl⟩ := readExt_next_ok hread
        cases hloop : marshalLoop n t with
        | error e => simp [hread, hloop] at h
        | ok vs =>
          simp only [hread, hloop, Except.ok.injEq] at h
          rw [List.length_cons, List.length_append] at hn
          have htail : (s.advance 1).unread = exts ++ t := by
            rw [CdrIn.unread_advance, hs, List.drop_one, List.tail_cons]
          have hin := readExt_of_feeds (c.toNat &&& utf8Mask c) (feeds_unmarshalOctet htail) hext
          have hleft : ((s.advance 1).advance exts.length).unread = t := by
            rw [CdrIn.unread_advance, htail, List.drop_left]
          have hrest := ih (by omega) hloop hleft
          rw [List.length_cons, List.length_append, scan, CdrIn.unmarshalOctet_cons hs]
          rw [hlen] at hin
          simp only [hin]
          rw [if_neg (by omega), if_neg (by omega), ← hlen, Nat.add_sub_cancel_left]
          refine ⟨hrest.1, hrest.2.1, ?_⟩
          rw [← h, hrest.2.2, List.flatMap_cons, Utf8Seq.units, hval]

/-- What is promised of a string that is accepted with the units `us`. -/
structure Converted (s : CString) (us : List UniChar) : Prop where
  wellFormed : ∃ cs, s.octets = utf8Encode cs
  paired : ∃ cs, us = utf16Encode cs
  terminated : ∃ v, us = v ++ [0] ∧ 0 ∉ v

/-- The sequences of a string. -/
def sequences (s : CString) : List Utf8Seq :=
  (scan s.octets.length s.octets.length ⟨0, s.octets, false⟩).1

lemma converted_iff {s : CString} {us : List UniChar} (h : toUniChars s.octets = .ok us) :
    Converted s us ↔ ∀ q ∈ sequences s, Shortest q.value q.bytes := by
  cases hloop : marshalLoop s.octets.length s.octets with
  | error e => simp [toUniChars, hloop] at h
  | ok vs =>
    simp only [toUniChars, hloop, Except.ok.injEq] at h
    obtain ⟨hend, hleft, hvs⟩ := marshalLoop_scan le_rfl hloop (s := ⟨0, s.octets, false⟩) rfl
    constructor
    · rintro ⟨⟨cs, hcs⟩, -, -⟩ q hq
      have hscan := scan_utf8Encode cs le_rfl
        (show (CdrIn.mk 0 s.octets false).unread = utf8Encode cs ++ [] by
          rw [List.append_nil, ← hcs])
      rw [← hcs] at hscan
      rw [sequences, hscan] at hq
      obtain ⟨c, -, rfl⟩ := List.mem_map.mp hq
      exact shortest_seqOf c
    · intro hshort
      obtain ⟨bs, hall, hunread, -⟩ := scan_spells hend
      obtain ⟨cs, -, h8, h16⟩ := exists_chars hall hshort
      rw [hleft, List.append_nil, ← h8] at hunread
      have hus : us = utf16Encode (cs ++ ['\x00']) := by
        rw [utf16Encode, List.flatMap_append, ← h, hvs, ← h16]
        rfl
      refine ⟨⟨cs, hunread⟩, ⟨_, hus⟩, ?_⟩
      rw [hus]
      refine (terminated_iff _).mpr ⟨cs, rfl, fun h0 => s.noNul ?_⟩
      rw [show s.octets = utf8Encode cs from hunread]
      exact List.mem_flatMap.mpr ⟨_, h0, by decide⟩

end NCS_C_UTF_8

/-! ### Results -/

/-- Where `TCS_C_UTF_8::unmarshalString` accepts a string, or substitutes an empty one for a zero
length, and where `NCS_C_UTF_8::marshalString` accepts one. -/
theorem utf8_accepted_iff (strictIIOP : Bool) (bound : ℕ) (s : CdrIn) (str : CString) :
    (∀ (u t : CdrIn) (len n : ℕ) (us : List UniChar),
      unmarshalLength strictIIOP bound s = .ok (some len, u) →
      TCS_C_UTF_8.unmarshalString strictIIOP bound s = .ok (n, us, t) →
      (Decoded len u t us ↔ SoundSequences len (scan len len u).1)) ∧
    (∀ u, unmarshalLength strictIIOP bound s = .ok (none, u) →
      TCS_C_UTF_8.unmarshalString strictIIOP bound s = .ok (0, [0], u)) ∧
    ∀ us, NCS_C_UTF_8.toUniChars str.octets = .ok us →
      (NCS_C_UTF_8.Converted str us ↔
        ∀ q ∈ NCS_C_UTF_8.sequences str, Shortest q.value q.bytes) := by
  refine ⟨fun u t len n us hlen h => ?_, fun u hlen => ?_, fun us h => NCS_C_UTF_8.converted_iff h⟩
  · have hpos : 0 < len := by
      unfold unmarshalLength at hlen
      split at hlen
      · cases hlen
      · split_ifs at hlen with h0
        · cases hlen
        · simp only [Except.ok.injEq, Prod.mk.injEq, Option.some.injEq] at hlen
          omega
    rw [TCS_C_UTF_8.unmarshalString, hlen] at h
    cases hloop : TCS_C_UTF_8.unmarshalLoop len len 0 u with
    | error e => simp [hloop] at h
    | ok p =>
      obtain ⟨vs, lc, w⟩ := p
      simp only [hloop] at h
      split_ifs at h with hlc
      simp only [Except.ok.injEq, Prod.mk.injEq] at h
      obtain ⟨-, rfl, rfl⟩ := h
      exact TCS_C_UTF_8.decoded_iff hpos hloop (not_not.mp hlc)
  · rw [TCS_C_UTF_8.unmarshalString, hlen]

/-- The letter A. -/
theorem utf8_accepted_letter :
    Decoded 2 ⟨4, [0x41, 0], false⟩ ⟨6, [], false⟩ [0x41, 0] :=
  ((utf8_accepted_iff true 0 ⟨0, [2, 0, 0, 0, 0x41, 0], false⟩ ⟨[], by decide⟩).1
    ⟨4, [0x41, 0], false⟩ ⟨6, [], false⟩ 2 1 [0x41, 0] rfl rfl).mpr
    { shortest := by decide
      within := rfl
      nul := by decide }

/-- A string of one octet, which announces an extension character: that of the next item is taken,
and the overlong NUL is accepted. -/
theorem utf8_accepts_overlong_end :
    ¬∀ (strictIIOP : Bool) (bound : ℕ) (s u t : CdrIn) (len n : ℕ) (us : List UniChar),
      unmarshalLength strictIIOP bound s = .ok (some len, u) →
      TCS_C_UTF_8.unmarshalString strictIIOP bound s = .ok (n, us, t) → Decoded len u t us := by
  intro h
  have hconsumed := (h true 0 ⟨0, [1, 0, 0, 0, 0xc0, 0x80], false⟩ ⟨4, [0xc0, 0x80], false⟩
    ⟨6, [], false⟩ 1 0 [0] rfl rfl).consumed
  exact absurd hconsumed (by decide)

end OmniORB
