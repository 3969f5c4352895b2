import OmniORB.Fixed.Quotient

/-!
# Packed decimals

`operator>>=` writes two digits to an octet, `operator<<=` reads them. The buffer of 16 octets is not
initialised, and holds anything before it is written.
-/

namespace OmniORB

open Library

namespace Fixed

/-! ### Writing -/

/-- Write to `buffer[bi / 2]`. -/
def modifyOctet (buffer : List UInt8) (bi : ℤ) (g : UInt8 → UInt8) : Except FixedExn (List UInt8) :=
  if bi.tdiv 2 < 0 ∨ 16 ≤ bi.tdiv 2 then .error .overrun
  else .ok (buffer.modify (bi.tdiv 2).toNat g)

/-- `n` rounds of a loop that writes zero octets and adds two to `bi`. -/
def clearOctets : ℕ → ℤ → List UInt8 → Except FixedExn (List UInt8)
  | 0, _, buffer => .ok buffer
  | n + 1, bi, buffer => do
    let buffer ← modifyOctet buffer bi fun _ => 0
    clearOctets n (bi + 2) buffer

/-- Write the digits, from the most significant on. -/
def writeDigits : List ℕ → ℤ → List UInt8 → Except FixedExn (List UInt8)
  | [], _, buffer => .ok buffer
  | d :: l, bi, buffer => do
    let buffer ← modifyOctet buffer bi fun o =>
      if bi.tmod 2 ≠ 0 then o ||| UInt8.ofNat d else UInt8.ofNat d <<< 4
    writeDigits l (bi + 1) buffer

/-- `operator>>=`: the octets that are put to the stream. -/
def marshal (f : Fixed) (buffer : List UInt8) : Except FixedExn (List UInt8) :=
  if f.idlDigits = 0 ∨ f.idlDigits < f.digits ∨ f.idlScale < f.scale then .error .assertionFailure
  else do
    let n := digitsToRead f.idlDigits
    let lead : ℤ := ((n : ℤ) - f.idlScale) - ((f.digits : ℤ) - f.scale)
    -- leading zeros
    let buffer ← clearOctets ((lead + 1) / 2).toNat 0 buffer
    let buffer ← writeDigits f.val.reverse lead buffer
    -- trailing zeros
    let bi := lead + f.digits
    let bi := if bi.tmod 2 ≠ 0 then bi + 1 else bi
    let buffer ← clearOctets ((n - bi + 1) / 2).toNat bi buffer
    -- sign indicator
    let buffer ← modifyOctet buffer n fun o => o ||| (if f.negative then 0xd else 0xc)
    .ok (buffer.take (n / 2 + 1))

/-! ### Nibbles -/

lemma nibble_modify_ne {buffer : List UInt8} {i bi : ℕ} (g : UInt8 → UInt8) (h : bi / 2 ≠ i) :
    nibble (buffer.modify i g) bi = nibble buffer bi := by
  simp only [nibble, List.getD_eq_getElem?_getD, List.getElem?_modify_ne g _ h.symm]

lemma getD_modify {buffer : List UInt8} {i : ℕ} (g : UInt8 → UInt8) (h : i < buffer.length) :
    (buffer.modify i g).getD i 0 = g (buffer.getD i 0) := by
  simp [List.getD_eq_getElem?_getD, List.getElem?_eq_getElem h]

/-- A low half is put beside a high half. -/
lemma toNat_or {o : UInt8} {d : ℕ} (ho : o.toNat % 16 = 0) (hd : d < 16) :
    (o ||| UInt8.ofNat d).toNat = o.toNat + d := by
  have hhigh : o.toNat = 2 ^ 4 * (o.toNat / 16) := by omega
  rw [UInt8.toNat_or, UInt8.toNat_ofNat_of_lt' (by unfold UInt8.size; omega), hhigh,
    ← Nat.two_pow_add_eq_or_of_lt (by omega)]

lemma toNat_shift {d : ℕ} (hd : d < 16) : (UInt8.ofNat d <<< 4).toNat = 16 * d := by
  interval_cases d <;> rfl

/-- The digits are the first of the buffer. After an odd number of them the other half of the last
octet is zero. -/
structure Wrote (buffer : List UInt8) (l : List ℕ) : Prop where
  length : buffer.length = 16
  digits : ∀ j, j < l.length → nibble buffer j = l.getD j 0
  half : l.length % 2 = 1 → nibble buffer l.length = 0

/-- Half of the last octet is a zero already. -/
lemma Wrote.half_iff {buffer : List UInt8} {l : List ℕ} (hl : l.length % 2 = 1) :
    Wrote buffer l ↔ Wrote buffer (l ++ [0]) := by
  have hlast : (l ++ [0]).getD l.length 0 = 0 := by simp [List.getD_eq_getElem?_getD]
  have hfirst : ∀ j, j < l.length → (l ++ [0]).getD j 0 = l.getD j 0 := by
    intro j hj
    simp [List.getD_eq_getElem?_getD, List.getElem?_append_left hj]
  constructor
  · intro h
    refine ⟨h.length, fun j hj => ?_, fun hodd => ?_⟩
    · rw [List.length_append, List.length_singleton] at hj
      rcases (Nat.le_of_lt_succ hj).eq_or_lt with rfl | hlt
      · rw [h.half hl, hlast]
      · rw [h.digits j hlt, hfirst j hlt]
    · rw [List.length_append, List.length_singleton] at hodd
      omega
  · intro h
    have hlen : (l ++ [0]).length = l.length + 1 := by simp
    refine ⟨h.length, fun j hj => ?_, fun _ => ?_⟩
    · rw [h.digits j (by omega), hfirst j hj]
    · rw [h.digits l.length (by omega), hlast]

lemma modifyOctet_eq {bi : ℕ} (h : bi < 32) (buffer : List UInt8) (g : UInt8 → UInt8) :
    modifyOctet buffer bi g = .ok (buffer.modify (bi / 2) g) := by
  have hdiv : (bi : ℤ).tdiv 2 = ((bi / 2 : ℕ) : ℤ) := Int.tdiv_eq_ediv_of_nonneg (by omega)
  rw [modifyOctet, hdiv, if_neg (by omega), Int.toNat_natCast]

/-- The nibbles of the octet that is written. -/
lemma nibble_modify_eq {buffer : List UInt8} {i bi : ℕ} (g : UInt8 → UInt8) (hlen : buffer.length = 16)
    (hi : i < 16) (h : bi / 2 = i) : nibble (buffer.modify i g) bi =
      if bi % 2 = 1 then (g (buffer.getD i 0)).toNat % 16 else (g (buffer.getD i 0)).toNat / 16 := by
  rw [nibble, h, getD_modify g (by omega)]

lemma getD_append_lt {l k : List ℕ} {j : ℕ} (hj : j < l.length) : (l ++ k).getD j 0 = l.getD j 0 := by
  simp [List.getD_eq_getElem?_getD, List.getElem?_append_left hj]

lemma getD_append_length (l k : List ℕ) (j : ℕ) : (l ++ k).getD (l.length + j) 0 = k.getD j 0 := by
  simp [List.getD_eq_getElem?_getD, List.getElem?_append_right]

/-- Both halves of an octet. -/
lemma Wrote.clear {buffer : List UInt8} {l : List ℕ} (h : Wrote buffer l) (hl : l.length % 2 = 0)
    (hroom : l.length < 32) :
    ∃ b, modifyOctet buffer l.length (fun _ => 0) = .ok b ∧ Wrote b (l ++ [0, 0]) := by
  refine ⟨_, modifyOctet_eq hroom _ _, ?_, fun j hj => ?_, fun hodd => ?_⟩
  · rw [List.length_modify, h.length]
  · rw [List.length_append, List.length_cons, List.length_singleton] at hj
    rcases Nat.lt_or_ge j l.length with hlt | hge
    · rw [nibble_modify_ne _ (by omega), h.digits j hlt, getD_append_lt hlt]
    · obtain ⟨k, rfl⟩ := Nat.exists_eq_add_of_le hge
      rw [nibble_modify_eq _ h.length (by omega) (by omega), getD_append_length]
      obtain rfl | rfl : k = 0 ∨ k = 1 := by omega
      · simp
      · simp
  · rw [List.length_append, List.length_cons, List.length_singleton] at hodd
    omega

/-- One half of an octet: the high one is set, and the low one added. -/
lemma Wrote.digit {buffer : List UInt8} {l : List ℕ} (h : Wrote buffer l) {d : ℕ} (hd : d < 16)
    (hroom : l.length < 32) :
    ∃ b, modifyOctet buffer l.length (fun o =>
      if (l.length : ℤ).tmod 2 ≠ 0 then o ||| UInt8.ofNat d else UInt8.ofNat d <<< 4) = .ok b ∧
      Wrote b (l ++ [d]) := by
  have hmod : (l.length : ℤ).tmod 2 = ((l.length % 2 : ℕ) : ℤ) :=
    Int.tmod_eq_emod_of_nonneg (by omega)
  rw [hmod]
  refine ⟨_, modifyOctet_eq hroom _ _, ?_, fun j hj => ?_, fun hodd => ?_⟩
  · rw [List.length_modify, h.length]
  · rw [List.length_append, List.length_singleton] at hj
    rcases (Nat.le_of_lt_succ hj).eq_or_lt with rfl | hlt
    · rw [nibble_modify_eq _ h.length (by omega) rfl, ← Nat.add_zero l.length, getD_append_length,
        Nat.add_zero, List.getD_cons_zero]
      split_ifs with hodd heven heven
      · have hzero := h.half hodd
        rw [nibble, if_pos hodd] at hzero
        rw [toNat_or hzero hd]
        omega
      · omega
      · omega
      · rw [toNat_shift hd]
        omega
    · rw [getD_append_lt hlt, ← h.digits j hlt]
      by_cases hsame : j / 2 = l.length / 2
      · -- the high half stays when the low one is added
        have hodd : l.length % 2 = 1 := by omega
        have hzero := h.half hodd
        rw [nibble, if_pos hodd] at hzero
        rw [nibble_modify_eq _ h.length (by omega) hsame, if_neg (by omega), if_pos (by omega),
          toNat_or hzero hd, nibble, if_neg (by omega), hsame]
        omega
      · rw [nibble_modify_ne _ hsame]
  · rw [List.length_append, List.length_singleton] at hodd ⊢
    rw [nibble_modify_eq _ h.length (by omega) (by omega), if_pos hodd, if_neg (by omega),
      toNat_shift hd]
    omega

lemma clearOctets_wrote (n : ℕ) {buffer : List UInt8} {l : List ℕ} (h : Wrote buffer l)
    (hl : l.length % 2 = 0) (hroom : l.length + 2 * n ≤ 32) :
    ∃ b, clearOctets n l.length buffer = .ok b ∧ Wrote b (l ++ List.replicate (2 * n) 0) := by
  induction n generalizing buffer l with
  | zero => exact ⟨buffer, rfl, by simpa using h⟩
  | succ n ih =>
    obtain ⟨b, hb, hwrote⟩ := h.clear hl (by omega)
    have hlen : (l ++ [0, 0]).length = l.length + 2 := by simp
    obtain ⟨b', hb', hwrote'⟩ := ih hwrote (by omega) (by omega)
    refine ⟨b', bind_eq_ok.mpr ⟨b, hb, ?_⟩, ?_⟩
    · rw [hlen] at hb'
      exact hb'
    · rw [List.append_assoc] at hwrote'
      exact hwrote'

lemma writeDigits_wrote {k : List ℕ} (hk : Digits k) {buffer : List UInt8} {l : List ℕ}
    (h : Wrote buffer l) (hroom : l.length + k.length ≤ 32) :
    ∃ b, writeDigits k l.length buffer = .ok b ∧ Wrote b (l ++ k) := by
  induction k generalizing buffer l with
  | nil => exact ⟨buffer, rfl, by simpa using h⟩
  | cons d k ih =>
    obtain ⟨hd, hk⟩ := digits_cons.mp hk
    rw [List.length_cons] at hroom
    obtain ⟨b, hb, hwrote⟩ := h.digit (d := d) (by omega) (by omega)
    have hlen : (l ++ [d]).length = l.length + 1 := by simp
    obtain ⟨b', hb', hwrote'⟩ := ih hk hwrote (by omega)
    refine ⟨b', bind_eq_ok.mpr ⟨b, hb, ?_⟩, ?_⟩
    · rw [hlen] at hb'
      exact hb'
    · rw [List.append_assoc] at hwrote'
      exact hwrote'

lemma digitsToRead_odd (d : ℕ) : digitsToRead d % 2 = 1 := by
  unfold digitsToRead
  split_ifs <;> omega

lemma le_digitsToRead (d : ℕ) : d ≤ digitsToRead d ∧ digitsToRead d ≤ d + 1 := by
  unfold digitsToRead
  split_ifs <;> omega

/-- There are no more digits than the largest IDL type has. -/
lemma digitsToRead_le {d : ℕ} (h : d ≤ fixedDigits) : digitsToRead d ≤ fixedDigits := by
  unfold digitsToRead fixedDigits at *
  split_ifs <;> omega

/-- The value of an IDL type `fixed<d,s>`. -/
structure Limited (f : Fixed) : Prop where
  idlDigits_pos : 0 < f.idlDigits
  idlDigits_le : f.idlDigits ≤ fixedDigits
  idlScale_le : f.idlScale ≤ f.idlDigits
  scale_le : f.scale ≤ f.idlScale
  unscale_le : f.digits - f.scale ≤ f.idlDigits - f.idlScale

/-- The leading zeros of the digits that are written. -/
def leadingZeros (f : Fixed) : ℕ := digitsToRead f.idlDigits - f.idlScale - (f.digits - f.scale)

/-- The digits that are written, the least significant first. -/
def padded (f : Fixed) : List ℕ :=
  List.replicate (f.idlScale - f.scale) 0 ++ f.val ++ List.replicate f.leadingZeros 0

def signNibble (negative : Bool) : ℕ := if negative then 0xd else 0xc

/-- The octets of a number. -/
structure Encodes (e : List UInt8) (f : Fixed) : Prop where
  length : e.length = digitsToRead f.idlDigits / 2 + 1
  digits : bufferDigits e (digitsToRead f.idlDigits) = f.padded
  sign : nibble e (digitsToRead f.idlDigits) = signNibble f.negative

@[simp] lemma length_bufferDigits (e : List UInt8) (n : ℕ) : (bufferDigits e n).length = n := by
  rw [bufferDigits, List.length_map, List.length_range]

lemma length_padded {f : Fixed} (hf : f.Canonical) (h : Limited f) :
    f.padded.length = digitsToRead f.idlDigits := by
  have hscale := hf.scale_le
  have h1 := h.scale_le
  have h2 := h.unscale_le
  have h3 := h.idlScale_le
  have hn := le_digitsToRead f.idlDigits
  rw [padded, leadingZeros, List.length_append, List.length_append, List.length_replicate,
    List.length_replicate, ← digits]
  omega

/-- All nibbles but the last. -/
lemma bufferDigits_eq_iff {e : List UInt8} {n : ℕ} {l : List ℕ} (hl : l.length = n) :
    bufferDigits e n = l ↔ ∀ j, j < n → nibble e j = l.reverse.getD j 0 := by
  have hat : ∀ j, j < n → l.reverse.getD j 0 = l.getD (n - 1 - j) 0 := by
    intro j hj
    rw [List.getD_eq_getElem?_getD, List.getD_eq_getElem?_getD,
      List.getElem?_reverse (by omega), hl]
  have hdigit : ∀ k, k < n → (bufferDigits e n).getD k 0 = nibble e (n - 1 - k) := by
    intro k hk
    simp [bufferDigits, List.getD_eq_getElem?_getD, hk]
  constructor
  · rintro rfl j hj
    rw [hat j hj, hdigit _ (by omega)]
    congr 1
    omega
  · intro hall
    refine List.ext_getElem (by rw [length_bufferDigits, hl]) fun k hk hk' => ?_
    have h1 := hdigit k (by rwa [length_bufferDigits] at hk)
    rw [hall _ (by omega), hat _ (by omega), show n - 1 - (n - 1 - k) = k by omega] at h1
    rwa [List.getD_eq_getElem?_getD, List.getD_eq_getElem?_getD, List.getElem?_eq_getElem hk,
      List.getElem?_eq_getElem hk'] at h1

lemma nibble_take {e : List UInt8} {j m : ℕ} (h : j / 2 < m) : nibble (e.take m) j = nibble e j := by
  simp only [nibble, List.getD_eq_getElem?_getD, List.getElem?_take_of_lt h]

/-- The zeros before the first digit. One more may be written, and is the half of an octet. -/
lemma clearLeading {buffer : List UInt8} (hbuffer : buffer.length = 16) {lead : ℕ} (h : lead < 32) :
    ∃ b, clearOctets (((lead : ℤ) + 1) / 2).toNat 0 buffer = .ok b ∧
      Wrote b (List.replicate lead 0) := by
  have hstart : Wrote buffer [] := ⟨hbuffer, by simp, by simp⟩
  have hcount : (((lead : ℤ) + 1) / 2).toNat = (lead + 1) / 2 := by omega
  have hroom : ([] : List ℕ).length + 2 * ((lead + 1) / 2) ≤ 32 := by
    rw [List.length_nil]
    omega
  obtain ⟨b, hb, hwrote⟩ := clearOctets_wrote ((lead + 1) / 2) hstart rfl hroom
  rw [List.nil_append] at hwrote
  refine ⟨b, by rw [hcount]; exact hb, ?_⟩
  rcases Nat.mod_two_eq_zero_or_one lead with heven | hodd
  · rwa [show 2 * ((lead + 1) / 2) = lead by omega] at hwrote
  · rw [show 2 * ((lead + 1) / 2) = lead + 1 by omega, List.replicate_succ'] at hwrote
    exact (Wrote.half_iff (by rw [List.length_replicate]; exact hodd)).mpr hwrote

/-- The zeros after the last digit, up to the end of the octet that takes the sign. -/
lemma clearTrailing {buffer : List UInt8} {l : List ℕ} (h : Wrote buffer l) {n : ℕ}
    (hn : n % 2 = 1) (hl : l.length ≤ n) (hroom : n < 32) :
    ∃ b, clearOctets
        (((n : ℤ) - (if (l.length : ℤ).tmod 2 ≠ 0 then (l.length : ℤ) + 1 else l.length) + 1) / 2).toNat
        (if (l.length : ℤ).tmod 2 ≠ 0 then (l.length : ℤ) + 1 else l.length) buffer = .ok b ∧
      Wrote b (l ++ List.replicate (n + 1 - l.length) 0) := by
  have hmod : (l.length : ℤ).tmod 2 = ((l.length % 2 : ℕ) : ℤ) :=
    Int.tmod_eq_emod_of_nonneg (by omega)
  rw [hmod]
  split_ifs with hodd
  · have hodd : l.length % 2 = 1 := by omega
    have hlen : (l ++ [0]).length = l.length + 1 := by simp
    have hcount : (((n : ℤ) - ((l.length : ℤ) + 1) + 1) / 2).toNat = (n - l.length) / 2 := by omega
    obtain ⟨b, hb, hwrote⟩ := clearOctets_wrote ((n - l.length) / 2) ((Wrote.half_iff hodd).mp h)
      (by omega) (by omega)
    rw [hlen] at hb
    refine ⟨b, by rw [hcount]; exact_mod_cast hb, ?_⟩
    rw [List.append_assoc, List.singleton_append, ← List.replicate_succ] at hwrote
    rwa [show n + 1 - l.length = 2 * ((n - l.length) / 2) + 1 by omega]
  · have hcount : (((n : ℤ) - (l.length : ℤ) + 1) / 2).toNat = (n + 1 - l.length) / 2 := by omega
    obtain ⟨b, hb, hwrote⟩ := clearOctets_wrote ((n + 1 - l.length) / 2) h (by omega) (by omega)
    refine ⟨b, by rw [hcount]; exact hb, ?_⟩
    rwa [show 2 * ((n + 1 - l.length) / 2) = n + 1 - l.length by omega] at hwrote

lemma signNibble_lt (negative : Bool) : signNibble negative < 16 := by
  cases negative <;> decide

/-- The sign goes beside the last digit. -/
lemma writeSign {buffer : List UInt8} {l : List ℕ} (h : Wrote buffer (l ++ [0]))
    (hl : l.length % 2 = 1) (hroom : l.length < 32) (negative : Bool) :
    ∃ b, modifyOctet buffer l.length (fun o => o ||| (if negative then 0xd else 0xc)) = .ok b ∧
      Wrote b (l ++ [signNibble negative]) := by
  have hmod : (l.length : ℤ).tmod 2 = ((l.length % 2 : ℕ) : ℤ) :=
    Int.tmod_eq_emod_of_nonneg (by omega)
  have hsign : (if negative then 0xd else 0xc : UInt8) = UInt8.ofNat (signNibble negative) := by
    cases negative <;> rfl
  obtain ⟨b, hb, hwrote⟩ := ((Wrote.half_iff hl).mpr h).digit (signNibble_lt negative) hroom
  refine ⟨b, ?_, hwrote⟩
  rw [hmod, hl] at hb
  rw [hsign]
  exact hb

/-- The octets of a number that is within the limits. -/
lemma marshal_encodes {f : Fixed} (hf : f.Canonical) (h : Limited f) {buffer : List UInt8}
    (hbuffer : buffer.length = 16) : ∃ e, f.marshal buffer = .ok e ∧ Encodes e f := by
  have hscale : f.scale ≤ f.digits := hf.scale_le
  have hlimit := h.scale_le
  have hunscale := h.unscale_le
  have hidl := h.idlScale_le
  have hn := le_digitsToRead f.idlDigits
  have hn31 := digitsToRead_le h.idlDigits_le
  have hodd := digitsToRead_odd f.idlDigits
  have hpadded := length_padded hf h
  unfold fixedDigits at hn31
  have hlead : ((digitsToRead f.idlDigits : ℤ) - f.idlScale) - ((f.digits : ℤ) - f.scale) =
      (f.leadingZeros : ℤ) := by
    unfold leadingZeros
    omega
  have htotal : f.leadingZeros + f.digits + (f.idlScale - f.scale) = digitsToRead f.idlDigits := by
    unfold leadingZeros
    omega
  obtain ⟨b1, hb1, hw1⟩ := @clearLeading buffer hbuffer f.leadingZeros (by omega)
  have hreverse : f.val.reverse.length = f.digits := List.length_reverse
  obtain ⟨b2, hb2, hw2⟩ := writeDigits_wrote (digits_reverse.mpr hf.digits_val) hw1
    (by rw [List.length_replicate, hreverse]; omega)
  have hlen2 : (List.replicate f.leadingZeros 0 ++ f.val.reverse).length =
      f.leadingZeros + f.digits := by
    rw [List.length_append, List.length_replicate, hreverse]
  obtain ⟨b3, hb3, hw3⟩ := clearTrailing hw2 hodd (by omega) (by omega)
  have hdigits : List.replicate f.leadingZeros 0 ++ f.val.reverse ++
      List.replicate (digitsToRead f.idlDigits + 1 -
        (List.replicate f.leadingZeros 0 ++ f.val.reverse).length) 0 =
      f.padded.reverse ++ [0] := by
    rw [padded, List.reverse_append, List.reverse_append, List.reverse_replicate,
      List.reverse_replicate, hlen2, show digitsToRead f.idlDigits + 1 -
        (f.leadingZeros + f.digits) = f.idlScale - f.scale + 1 by omega, List.replicate_succ',
      List.append_assoc, List.append_assoc, List.append_assoc]
  rw [hdigits] at hw3
  have hlen : f.padded.reverse.length = digitsToRead f.idlDigits := by
    rw [List.length_reverse, hpadded]
  obtain ⟨b4, hb4, hw4⟩ := writeSign hw3 (by omega) (by omega) f.negative
  refine ⟨b4.take (digitsToRead f.idlDigits / 2 + 1), ?_, ?_, ?_, ?_⟩
  · rw [List.length_replicate] at hb2
    rw [hlen2] at hb3
    rw [hlen] at hb4
    have hassert : ¬(f.idlDigits = 0 ∨ f.idlDigits < f.digits ∨ f.idlScale < f.scale) := by
      have := h.idlDigits_pos
      omega
    rw [marshal, if_neg hassert]
    dsimp only
    rw [hlead, hb1]
    refine bind_eq_ok.mpr ⟨b1, rfl, bind_eq_ok.mpr ⟨b2, hb2, bind_eq_ok.mpr ⟨b3, ?_, ?_⟩⟩⟩
    · exact_mod_cast hb3
    · exact bind_eq_ok.mpr ⟨b4, hb4, rfl⟩
  · rw [List.length_take, hw4.length]
    omega
  · rw [bufferDigits_eq_iff hpadded]
    intro j hj
    rw [nibble_take (by omega), hw4.digits j (by simp; omega), getD_append_lt (by omega)]
  · have hsign := hw4.digits f.padded.reverse.length (by simp)
    rw [nibble_take (by omega), ← hlen, hsign]
    have hlast := getD_append_length f.padded.reverse [signNibble f.negative] 0
    exact hlast

/-- Two nibbles are an octet. -/
lemma eq_of_nibbles {e e' : List UInt8} {n : ℕ} (hn : n % 2 = 1) (h : e.length = n / 2 + 1)
    (h' : e'.length = n / 2 + 1) (hall : ∀ j, j ≤ n → nibble e j = nibble e' j) : e = e' := by
  refine List.ext_getElem (by rw [h, h']) fun i hi hi' => ?_
  have hhigh := hall (2 * i) (by omega)
  have hlow := hall (2 * i + 1) (by omega)
  rw [nibble, nibble, if_neg (by omega), if_neg (by omega), Nat.mul_div_cancel_left i (by norm_num)]
    at hhigh
  rw [nibble, nibble, if_pos (by omega), if_pos (by omega), show (2 * i + 1) / 2 = i by omega] at hlow
  rw [List.getD_eq_getElem?_getD, List.getD_eq_getElem?_getD, List.getElem?_eq_getElem hi,
    List.getElem?_eq_getElem hi'] at hhigh hlow
  refine UInt8.toNat_inj.mp ?_
  rw [← Nat.div_add_mod e[i].toNat 16, ← Nat.div_add_mod e'[i].toNat 16]
  exact congrArg₂ (fun a b => 16 * a + b) hhigh hlow

lemma Encodes.unique {e e' : List UInt8} {f : Fixed} (hf : f.Canonical) (hlimit : Limited f)
    (h : Encodes e f) (h' : Encodes e' f) : e = e' := by
  have hpadded := length_padded hf hlimit
  refine eq_of_nibbles (digitsToRead_odd f.idlDigits) h.length h'.length fun j hj => ?_
  rcases hj.eq_or_lt with rfl | hlt
  · rw [h.sign, h'.sign]
  · rw [(bufferDigits_eq_iff hpadded).mp h.digits j hlt,
      (bufferDigits_eq_iff hpadded).mp h'.digits j hlt]

/-! ### Reading -/

/-- Zeros at the end go as far as the decimal point. -/
lemma stripFraction_zeros (k : ℕ) {w : List ℕ} {scale : ℕ} (h : 0 < scale → w.head? ≠ some 0) :
    stripFraction (List.replicate k 0 ++ w) (k + scale) = (w, scale) :=
  stripFraction_replicate k scale ((Nat.eq_zero_or_pos scale).imp_right h)

lemma rdropWhile_zeros (k : List ℕ) (m : ℕ) :
    (k ++ List.replicate m 0).rdropWhile (· = 0) = k.rdropWhile (· = 0) := by
  induction m with
  | zero => rw [List.replicate_zero, List.append_nil]
  | succ m ih => rw [List.replicate_succ', ← List.append_assoc, List.rdropWhile_concat_pos _ _ _ rfl, ih]

/-- Zeros in front go as far as the decimal point. -/
lemma stripLeading_zeros {w : List ℕ} {scale : ℕ} (hscale : scale ≤ w.length)
    (h : NoLeadingZero scale w) (m : ℕ) : stripLeading scale (w ++ List.replicate m 0) = w := by
  have hself : (w.drop scale).rdropWhile (· = 0) = w.drop scale := by
    rw [List.rdropWhile_eq_self_iff]
    intro hne hlast
    have hlt : scale < w.length := by simpa using hne
    refine h hlt ?_
    rw [List.getLast_drop] at hlast
    rw [List.getLast?_eq_some_getLast (List.ne_nil_of_length_pos (Nat.zero_lt_of_lt hlt))]
    exact congrArg some (of_decide_eq_true hlast)
  rw [stripLeading, List.take_append_of_le_length hscale, List.drop_append_of_le_length hscale,
    rdropWhile_zeros, hself, List.take_append_drop]

/-- What is left out are zeros. -/
lemma exists_stripLeading_append (scale : ℕ) (w : List ℕ) :
    ∃ m, w = stripLeading scale w ++ List.replicate m 0 := by
  refine ⟨((w.drop scale).rtakeWhile (· = 0)).length, ?_⟩
  have hzeros : (w.drop scale).rtakeWhile (· = 0) =
      List.replicate ((w.drop scale).rtakeWhile (· = 0)).length 0 :=
    List.eq_replicate_iff.mpr ⟨rfl, fun d hd => of_decide_eq_true
      (List.mem_rtakeWhile_imp (p := fun d => decide (d = 0)) hd)⟩
  rw [← hzeros, stripLeading, List.append_assoc, List.rdropWhile_append_rtakeWhile,
    List.take_append_drop]

/-- `operator<<=` from the octets that the stream gives. -/
def decode (f : Fixed) (buffer : List UInt8) : Except FixedExn Fixed := do
  let n := digitsToRead f.idlDigits
  let negative ← signOf (nibble buffer n)
  let r := stripFraction (bufferDigits buffer n) f.idlScale
  if r.1.any (9 < ·) then .error .invalidFixedValue
  else
    let val := stripLeading r.2 r.1
    if (val.length : ℤ) - r.2 = (f.idlDigits : ℤ) - f.idlScale + 1 then .error .invalidFixedValue
    else if f.idlDigits < val.length ∨ f.idlScale < r.2 ∨ val.length < r.2 then
      .error .assertionFailure
    else .ok { f with val, scale := r.2, negative }

lemma unmarshal_eq {f : Fixed} {s u : CdrIn} {buffer : List UInt8} (h0 : 0 < f.idlDigits)
    (hs : s.getOctetArray (digitsToRead f.idlDigits / 2 + 1) = .ok (buffer, u)) :
    f.unmarshal s = (f.decode buffer).map fun g => (g, u) := by
  rw [unmarshal, if_neg (by omega), decode]
  dsimp only
  rw [hs]
  dsimp only
  rcases signOf (nibble buffer (digitsToRead f.idlDigits)) with e | negative
  · rfl
  · simp only [bind, Except.bind]
    split_ifs <;> rfl

/-- The octets of a number give it back. -/
lemma decode_encodes {e : List UInt8} {f g : Fixed} (hf : f.Canonical) (hlimit : Limited f)
    (h : Encodes e f) (hd : g.idlDigits = f.idlDigits) (hs : g.idlScale = f.idlScale) :
    g.decode e = .ok f := by
  have hscale : f.scale ≤ f.val.length := hf.scale_le
  have hle := hlimit.scale_le
  have hunscale := hlimit.unscale_le
  have hidl := hlimit.idlScale_le
  unfold digits at hunscale
  have hsign : signOf (signNibble f.negative) = .ok f.negative := by
    cases f.negative <;> rfl
  have hstrip : stripFraction f.padded f.idlScale =
      (f.val ++ List.replicate f.leadingZeros 0, f.scale) := by
    rw [padded, List.append_assoc]
    conv_lhs => rw [show f.idlScale = f.idlScale - f.scale + f.scale by omega]
    rw [Nat.add_sub_cancel]
    refine stripFraction_zeros _ fun hpos => ?_
    rw [List.head?_append_of_ne_nil _ (List.ne_nil_of_length_pos (by omega))]
    exact hf.trailing hpos
  have hdigits : ¬(f.val ++ List.replicate f.leadingZeros 0).any (9 < ·) = true := by
    rw [List.any_eq_true]
    rintro ⟨d, hmem, hgt⟩
    have hle9 := (digits_append.mpr ⟨hf.digits_val, digits_replicate_zero _⟩) d hmem
    exact absurd (of_decide_eq_true hgt) (not_lt.mpr hle9)
  rw [decode, hd, hs, h.sign, hsign, h.digits, hstrip]
  simp only [bind, Except.bind]
  rw [if_neg hdigits, stripLeading_zeros hscale hf.leading, if_neg (by omega), if_neg (by omega)]

/-- What is accepted is within the limits, and its octets are the number's. The limits are those of
an IDL type. -/
lemma decode_ok {e : List UInt8} {g f : Fixed} (hd : 0 < g.idlDigits) (hd31 : g.idlDigits ≤ fixedDigits)
    (hs : g.idlScale ≤ g.idlDigits) (hlen : e.length = digitsToRead g.idlDigits / 2 + 1)
    (h : g.decode e = .ok f) :
    Limited f ∧ Encodes e f ∧ f.idlDigits = g.idlDigits ∧ f.idlScale = g.idlScale := by
  have hn := le_digitsToRead g.idlDigits
  obtain ⟨negative, hsign, h⟩ := bind_eq_ok.mp h
  obtain ⟨k, hks, hkw, heq, hzeros, hhead⟩ :=
    stripFraction_spec (bufferDigits e (digitsToRead g.idlDigits)) g.idlScale
  obtain ⟨m, hm⟩ := exists_stripLeading_append (g.idlScale - k)
    ((bufferDigits e (digitsToRead g.idlDigits)).drop k)
  rw [length_bufferDigits] at hkw
  have hlenw := congrArg List.length hm
  rw [List.length_drop, length_bufferDigits, List.length_append, List.length_replicate] at hlenw
  rw [heq] at h
  dsimp only at h
  split_ifs at h with h1 h2 h3
  rw [Except.ok.injEq] at h
  subst h
  push Not at h3
  refine ⟨⟨hd, hd31, hs, Nat.sub_le _ _, ?_⟩, ⟨hlen, ?_, ?_⟩, rfl, rfl⟩
  · change (stripLeading (g.idlScale - k) _).length - (g.idlScale - k) ≤ g.idlDigits - g.idlScale
    omega
  · have hpad : (bufferDigits e (digitsToRead g.idlDigits)).take k =
        List.replicate (g.idlScale - (g.idlScale - k)) 0 := by
      rw [List.eq_replicate_iff, List.length_take, length_bufferDigits]
      exact ⟨by omega, hzeros⟩
    have hlead : digitsToRead g.idlDigits - g.idlScale -
        ((stripLeading (g.idlScale - k)
          ((bufferDigits e (digitsToRead g.idlDigits)).drop k)).length - (g.idlScale - k)) = m := by
      omega
    change bufferDigits e (digitsToRead g.idlDigits) = _
    conv_lhs => rw [← List.take_append_drop k (bufferDigits e _), hpad, hm]
    rw [padded, leadingZeros, digits, hlead, List.append_assoc]
  · change nibble e (digitsToRead g.idlDigits) = signNibble negative
    unfold signOf at hsign
    split_ifs at hsign with hc hdneg
    · rw [Except.ok.injEq] at hsign
      rw [hc, ← hsign]
      rfl
    · rw [Except.ok.injEq] at hsign
      rw [hdneg, ← hsign]
      rfl

/-- No assertion fails. -/
lemma decode_error {e : List UInt8} {g : Fixed} (hs : g.idlScale ≤ g.idlDigits) {err : FixedExn}
    (h : g.decode e = .error err) : err = .invalidFixedValue := by
  have hn := le_digitsToRead g.idlDigits
  obtain ⟨k, hks, hkw, heq, hzeros, hhead⟩ :=
    stripFraction_spec (bufferDigits e (digitsToRead g.idlDigits)) g.idlScale
  rw [length_bufferDigits] at hkw
  have hw := stripLeading_length_le (g.idlScale - k)
    ((bufferDigits e (digitsToRead g.idlDigits)).drop k)
  rw [List.length_drop, length_bufferDigits] at hw
  rw [decode, heq] at h
  dsimp only at h
  rcases hsign : signOf (nibble e (digitsToRead g.idlDigits)) with e' | negative
  · rw [hsign] at h
    unfold signOf at hsign
    split_ifs at hsign
    rw [Except.error.injEq] at hsign
    exact (Except.error.inj h).symm.trans hsign.symm
  · rw [hsign] at h
    simp only [bind, Except.bind] at h
    split_ifs at h with h1 h2 h3
    · exact (Except.error.inj h).symm
    · exact (Except.error.inj h).symm
    · -- the digits after the point stay
      have hlow : g.idlScale - k ≤ (stripLeading (g.idlScale - k)
          ((bufferDigits e (digitsToRead g.idlDigits)).drop k)).length := by
        rw [stripLeading, List.length_append, List.length_take_of_le]
        · exact Nat.le_add_right _ _
        · rw [List.length_drop, length_bufferDigits]
          omega
      omega

/-- A negative zero is accepted. -/
lemma decode_negativeZero {e : List UInt8} {g : Fixed} (hs : g.idlScale ≤ g.idlDigits)
    (h : NegativeZero e (digitsToRead g.idlDigits)) :
    ∃ f, g.decode e = .ok f ∧ f.val = [] ∧ f.negative = true := by
  have hn := le_digitsToRead g.idlDigits
  have hzero : bufferDigits e (digitsToRead g.idlDigits) =
      List.replicate g.idlScale 0 ++ List.replicate (digitsToRead g.idlDigits - g.idlScale) 0 := by
    rw [List.replicate_append_replicate, Nat.add_sub_cancel' (by omega)]
    exact List.eq_replicate_iff.mpr ⟨length_bufferDigits _ _, h.2⟩
  have hstrip : stripFraction (bufferDigits e (digitsToRead g.idlDigits)) g.idlScale =
      (List.replicate (digitsToRead g.idlDigits - g.idlScale) 0, 0) := by
    rw [hzero]
    exact stripFraction_zeros g.idlScale fun hpos => absurd hpos (lt_irrefl 0)
  have hleading : stripLeading 0 (List.replicate (digitsToRead g.idlDigits - g.idlScale) 0) = [] :=
    stripLeading_zeros (w := []) (Nat.zero_le _) NoLeadingZero.nil _
  have hdigits : ¬(List.replicate (digitsToRead g.idlDigits - g.idlScale) 0).any (9 < ·) = true := by
    simp
  refine ⟨{ g with val := [], scale := 0, negative := true }, ?_, rfl, rfl⟩
  rw [decode, h.1, hstrip]
  simp only [bind, Except.bind]
  rw [if_neg hdigits, hleading, if_neg (by simp; omega), if_neg (by simp)]

/-- The object to be read to has the same IDL type. -/
structure SameType (f g : Fixed) : Prop where
  idlDigits : g.idlDigits = f.idlDigits
  idlScale : g.idlScale = f.idlScale

/-- Writing and reading values of the IDL type of `f`: the value `f` comes back, and of the octets
`e` those are accepted that some value has. -/
structure Exchanges (f : Fixed) (e : List UInt8) : Prop where
  room : digitsToRead f.idlDigits ≤ fixedDigits
  roundTrip : ∀ buffer, buffer.length = 16 → ∃ o, f.marshal buffer = .ok o ∧
    o.length = digitsToRead f.idlDigits / 2 + 1 ∧
    (∀ bi, bi < digitsToRead f.idlDigits → nibble o bi ≤ 9) ∧
    nibble o (digitsToRead f.idlDigits) = signNibble f.negative ∧
    ∀ g s u, SameType f g →
      s.getOctetArray (digitsToRead f.idlDigits / 2 + 1) = .ok (o, u) → g.unmarshal s = .ok (f, u)
  accepts : ∀ g s u, SameType f g →
    s.getOctetArray (digitsToRead f.idlDigits / 2 + 1) = .ok (e, u) →
    ((∃ x, g.unmarshal s = .ok (x, u)) ↔ ∃ x, x.Canonical ∧ Limited x ∧ SameType f x ∧
      ∀ buffer, buffer.length = 16 → x.marshal buffer = .ok e) ∧
    (∀ x, g.unmarshal s = .ok (x, u) → x.Canonical) ∧
    ∀ err, g.unmarshal s = .error err → err = .invalidFixedValue

lemma map_eq_ok {α β : Type} {x : Except FixedExn α} {h : α → β} {b : β} :
    x.map h = .ok b ↔ ∃ a, x = .ok a ∧ h a = b := by
  cases x <;> simp [Except.map]

lemma map_eq_error {α β : Type} {x : Except FixedExn α} {h : α → β} {err : FixedExn} :
    x.map h = .error err ↔ x = .error err := by
  cases x <;> simp [Except.map]

lemma Encodes.nibble_le {e : List UInt8} {f : Fixed} (hf : f.Canonical) (hlimit : Limited f)
    (h : Encodes e f) {bi : ℕ} (hbi : bi < digitsToRead f.idlDigits) : nibble e bi ≤ 9 := by
  have hpadded := length_padded hf hlimit
  rw [(bufferDigits_eq_iff hpadded).mp h.digits bi hbi]
  refine Digits.getD (digits_reverse.mpr ?_) bi
  exact digits_append.mpr ⟨digits_append.mpr ⟨digits_replicate_zero _, hf.digits_val⟩,
    digits_replicate_zero _⟩

/-- The array that a stream gives is as long as was asked for. -/
lemma length_of_getOctetArray {s u : CdrIn} {n : ℕ} {e : List UInt8}
    (h : s.getOctetArray n = .ok (e, u)) : e.length = n := by
  unfold CdrIn.getOctetArray at h
  split_ifs at h with hlen
  rw [Except.ok.injEq, Prod.mk.injEq] at h
  rw [← h.1, List.length_take]
  omega

end Fixed

open Fixed in
/-- Packed decimals are exact, but for a zero that is marked as negative. -/
theorem fixed_marshal_iff {f : Fixed} (hf : f.Canonical) (hlimit : Limited f) {e : List UInt8}
    (he : e.length = digitsToRead f.idlDigits / 2 + 1) :
    Exchanges f e ↔ ¬NegativeZero e (digitsToRead f.idlDigits) := by
  have hpos := hlimit.idlDigits_pos
  constructor
  · intro h hnegative
    -- a stream with these octets
    have hs : (⟨0, e, false⟩ : CdrIn).getOctetArray (digitsToRead f.idlDigits / 2 + 1) =
        .ok (e, (⟨0, e, false⟩ : CdrIn).advance (digitsToRead f.idlDigits / 2 + 1)) := by
      rw [CdrIn.getOctetArray, if_neg (by simp [he]), List.take_of_length_le (by simp [he])]
    obtain ⟨x, hx, hnil, hneg⟩ := decode_negativeZero hlimit.idlScale_le hnegative
    have hread := unmarshal_eq hpos hs
    rw [hx] at hread
    have hcanonical := (h.accepts f _ _ ⟨rfl, rfl⟩ hs).2.1 x hread
    rw [hcanonical.zero_positive hnil] at hneg
    cases hneg
  · intro hpositive
    refine ⟨digitsToRead_le hlimit.idlDigits_le, fun buffer hbuffer => ?_, fun g s u hsame hs => ?_⟩
    · obtain ⟨o, ho, hencodes⟩ := marshal_encodes hf hlimit hbuffer
      refine ⟨o, ho, hencodes.length, fun bi => hencodes.nibble_le hf hlimit, hencodes.sign, ?_⟩
      intro g s u hsame hs
      rw [← hsame.idlDigits] at hs hpos
      rw [unmarshal_eq hpos hs, decode_encodes hf hlimit hencodes hsame.idlDigits hsame.idlScale]
      rfl
    · have hposg := hpos
      have he' := he
      have hs' := hs
      rw [← hsame.idlDigits] at hposg hs' he'
      have hd31 := hlimit.idlDigits_le
      rw [← hsame.idlDigits] at hd31
      have hidl := hlimit.idlScale_le
      rw [← hsame.idlDigits, ← hsame.idlScale] at hidl
      have hread := unmarshal_eq hposg hs'
      have hcanonical : ∀ x, g.unmarshal s = .ok (x, u) → x.Canonical := by
        intro x hx
        refine unmarshal_canonical hd31 (fun buffer v hbuffer => ?_) hx
        rw [hs', Except.ok.injEq, Prod.mk.injEq] at hbuffer
        rw [← hbuffer.1, hsame.idlDigits]
        exact hpositive
      refine ⟨⟨?_, ?_⟩, hcanonical, ?_⟩
      · rintro ⟨x, hx⟩
        have hxc := hcanonical x hx
        rw [hread] at hx
        obtain ⟨x', hdecode, hx'⟩ := map_eq_ok.mp hx
        rw [Prod.mk.injEq] at hx'
        obtain ⟨rfl, -⟩ := hx'
        obtain ⟨hlimitx, hencodes, h1, h2⟩ := decode_ok hposg hd31 hidl he' hdecode
        refine ⟨x', hxc, hlimitx, ⟨by rw [h1, hsame.idlDigits], by rw [h2, hsame.idlScale]⟩, ?_⟩
        intro buffer hbuffer
        obtain ⟨o, ho, hencodes'⟩ := marshal_encodes hxc hlimitx hbuffer
        rw [ho, hencodes'.unique hxc hlimitx hencodes]
      · rintro ⟨x, hxc, hlimitx, hsamex, hmarshal⟩
        obtain ⟨o, ho, hencodes⟩ := marshal_encodes hxc hlimitx
          (List.length_replicate (a := (0 : UInt8)))
        rw [hmarshal _ List.length_replicate, Except.ok.injEq] at ho
        subst ho
        refine ⟨x, ?_⟩
        rw [hread, decode_encodes hxc hlimitx hencodes (by rw [hsame.idlDigits, hsamex.idlDigits])
          (by rw [hsame.idlScale, hsamex.idlScale])]
        rfl
      · intro err herr
        rw [hread] at herr
        exact decode_error hidl (map_eq_error.mp herr)

open Fixed in
/-- The octets of 1.5 as a `fixed<3,2>`. -/
theorem fixed_marshal_oneAndHalf :
    Exchanges ⟨[5, 1], 1, false, 3, 2⟩ [0x15, 0x0c] :=
  (fixed_marshal_iff ⟨by decide, by decide, by decide, by decide, by decide, by decide, by decide⟩
    ⟨by decide, by decide, by decide, by decide, by decide⟩ rfl).mpr
    fun h => absurd h.1 (by decide)

open Fixed in
/-- A zero of type `fixed<3,2>` that is marked as negative. -/
theorem fixed_marshal_negativeZero : ¬Exchanges ⟨[], 0, false, 3, 2⟩ [0x00, 0x0d] := by
  intro h
  have hread := (h.accepts ⟨[], 0, false, 3, 2⟩ ⟨0, [0x00, 0x0d], false⟩ ⟨2, [], false⟩ ⟨rfl, rfl⟩
    rfl).2.1 ⟨[], 0, true, 3, 2⟩ rfl
  exact absurd (hread.zero_positive rfl) (by decide)

end OmniORB
