import OmniORB.CodeSets.Utf8
import OmniORB.Cdr.Words
import OmniORB.Library.Scan

/-!
# The UTF-16 transmission code set

`marshalWString` and `unmarshalWString` of `TCS_W_UTF_16` on hosts of either byte order. A string is
written as it stands in memory, behind a byte order mark.
-/

namespace OmniORB

open Library

/-- What ends `marshalWString` and `unmarshalWString`, other than their return. The last is none of
the source's: an array size that is negative as an `int`. -/
inductive WStringExn where
  | cdr (e : Exn)
  | invalidWCharSize
  | wstringIsTooLong
  | negativeSize
  deriving DecidableEq, Repr

namespace TCS_W_UTF_16

/-! ### Units in memory -/

/-- The octets of units in memory. -/
def unitOctets (host : ByteOrder) (us : List UniChar) : List UInt8 :=
  us.flatMap fun u => host.octets 2 u.toNat

/-- The units in memory. -/
def unitsIn (host : ByteOrder) : List UInt8 → List UniChar
  | a :: b :: l => UInt16.ofNat (host.value [a, b]) :: unitsIn host l
  | _ => []

/-- The swap of `unmarshalWString`. -/
def byteSwap (uc : UniChar) : UniChar := ((uc &&& 0xff00) >>> 8) ||| ((uc &&& 0x00ff) <<< 8)

/-! ### The functions -/

/-- `put_octet_array` of an array of units, aligned to 2; the size is an `int`. -/
def putUnits (host : ByteOrder) (us : List UniChar) (size : ℕ) (out : CdrOut) :
    Except WStringExn CdrOut :=
  if 2 ^ 31 ≤ size then .error .negativeSize
  else .ok ((out.alignOutput .align2).putOctetArray ((unitOctets host us).take size))

/-- `marshalWString` on a host, to a stream of a byte order. `len` and `mlen` are
`_CORBA_ULong`s. -/
def marshalWString (host order : ByteOrder) (us : List UniChar) (out : CdrOut) :
    Except WStringExn CdrOut :=
  let len := us.length % 2 ^ 32
  if len = 0 then .ok (out.marshalWord order .align4 0)
  else
    let mlen := (len + 1) * 2 % 2 ^ 32
    let out := out.marshalWord order .align4 mlen
    -- `marshal_byte_swap`
    let tc := if order ≠ host then 0xfffe else 0xfeff
    let out := out.marshalWord order .align2 tc
    putUnits host us ((mlen + 2 ^ 32 - 2) % 2 ^ 32) out

/-- `get_octet_array` of an array of `len` units, aligned to 2; a negative size is a large number of
octets to fetch. -/
def getUnits (host : ByteOrder) (len : ℕ) (s : CdrIn) : Except WStringExn (List UniChar × CdrIn) :=
  let size := len * 2 % 2 ^ 32
  let t := s.advance (alignTo s.mkr 2 - s.mkr)
  if 2 ^ 31 ≤ size ∨ t.unread.length < size then .error (.cdr .marshalPassEndOfMessage)
  else .ok (unitsIn host (t.unread.take size), t.advance size)

/-- The check of the bound, once the length without a byte order mark is known. -/
def checkBound (bound len : ℕ) : Except WStringExn Unit :=
  if bound ≠ 0 ∧ bound < len then .error .wstringIsTooLong else .ok ()

/-- `unmarshalWString`: the length, and the units with their terminator. -/
def unmarshalWString (host : ByteOrder) (bound : ℕ) (s : CdrIn) :
    Except WStringExn ((ℕ × List UniChar) × CdrIn) := do
  let (mlen, s) ← (s.unmarshalWord host .align4).mapError .cdr
  if mlen % 2 ≠ 0 then .error .invalidWCharSize
  else
    let len := mlen / 2
    if ¬s.checkInputOverrun mlen then .error (.cdr .marshalPassEndOfMessage)
    else if len = 0 then .ok ((0, [0]), s)
    else do
      let (uc, s) ← (s.unmarshalWord host .align2).mapError .cdr
      if uc = 0xfeff then
        -- the mark is in stream endian
        checkBound bound (len - 1)
        let (us, t) ← getUnits host (len - 1) s
        .ok ((len - 1, (if s.byteSwap then us.map byteSwap else us) ++ [0]), t)
      else if uc = 0xfffe then
        checkBound bound (len - 1)
        let (us, t) ← getUnits host (len - 1) s
        .ok ((len - 1, (if s.byteSwap then us else us.map byteSwap) ++ [0]), t)
      else
        -- no mark at all, so big endian; the first unit is swapped back
        checkBound bound len
        let first := if s.byteSwap then byteSwap (UInt16.ofNat uc) else UInt16.ofNat uc
        let (us, t) ← getUnits host (len - 1) s
        let us := first :: us
        .ok ((len, (if host = .littleEndian then us.map byteSwap else us) ++ [0]), t)

/-! ### Units -/

lemma length_unitOctets (host : ByteOrder) (us : List UniChar) :
    (unitOctets host us).length = us.length * 2 := by
  induction us with
  | nil => rfl
  | cons u us ih =>
    rw [unitOctets, List.flatMap_cons, List.length_append, ByteOrder.length_octets]
    rw [unitOctets] at ih
    rw [ih, List.length_cons]
    omega

lemma exists_octets (host : ByteOrder) (n : ℕ) : ∃ a b, host.octets 2 n = [a, b] :=
  List.length_eq_two.mp (host.length_octets 2 n)

lemma unitsIn_unitOctets (host : ByteOrder) (us : List UniChar) :
    unitsIn host (unitOctets host us) = us := by
  induction us with
  | nil => rfl
  | cons u us ih =>
    obtain ⟨a, b, hab⟩ := exists_octets host u.toNat
    have hval := host.value_octets_of_lt (k := 2) u.toNat_lt
    rw [hab] at hval
    rw [unitOctets, List.flatMap_cons, hab, List.cons_append, List.cons_append, List.nil_append,
      unitsIn, hval]
    rw [unitOctets] at ih
    rw [ih, UInt16.ofNat_toNat]

/-- The two octets of a unit, the other way round. -/
lemma toNat_byteSwap (u : UniChar) : (byteSwap u).toNat = u.toNat % 256 * 256 + u.toNat / 256 := by
  have hu : u.toNat < 65536 := u.toNat_lt
  have hhi : (u.toNat &&& 0xff00) >>> 8 = u.toNat / 256 % 256 := shiftRight_and_field u.toNat 8 8
  have hlo : u.toNat &&& 0xff = u.toNat % 256 := and_mask u.toNat 8
  have hor := shiftLeft_or (u.toNat % 256) 8 (u.toNat / 256 % 256) (Nat.mod_lt _ (by decide))
  have hshift : (byteSwap u).toNat =
      (u.toNat &&& 0xff00) >>> 8 ||| (u.toNat &&& 0xff) <<< 8 % 2 ^ 16 := by
    simp only [byteSwap, UInt16.toNat_or, UInt16.toNat_shiftRight, UInt16.toNat_shiftLeft,
      UInt16.toNat_and]
    rfl
  have hsmall : (u.toNat % 256) <<< 8 % 2 ^ 16 = (u.toNat % 256) <<< 8 := by
    rw [Nat.shiftLeft_eq]
    omega
  rw [hshift, hhi, hlo, hsmall, Nat.or_comm, hor]
  omega

lemma byteSwap_byteSwap (u : UniChar) : byteSwap (byteSwap u) = u := by
  have hu : u.toNat < 65536 := u.toNat_lt
  apply UInt16.toNat_inj.mp
  rw [toNat_byteSwap, toNat_byteSwap]
  omega

/-- A unit as a host of the other byte order sees it. -/
lemma value_octets_opposite (host : ByteOrder) (u : UniChar) :
    host.value (host.opposite.octets 2 u.toNat) = (byteSwap u).toNat := by
  have hu : u.toNat < 65536 := u.toNat_lt
  have hlist : wordOctets 2 u.toNat = [UInt8.ofNat u.toNat, UInt8.ofNat (u.toNat / 256)] := rfl
  rw [toNat_byteSwap, ByteOrder.octets_opposite]
  cases host with
  | bigEndian =>
    simp only [ByteOrder.octets, ByteOrder.value, hlist, wordValue, List.reverse_cons, List.reverse_nil, List.nil_append, List.cons_append, UInt8.toNat_ofNat']
    omega
  | littleEndian =>
    simp only [ByteOrder.octets, ByteOrder.value, hlist, wordValue,
      List.reverse_cons, List.reverse_nil, List.nil_append, List.cons_append, UInt8.toNat_ofNat']
    omega

lemma unitsIn_opposite (host : ByteOrder) (us : List UniChar) :
    unitsIn host (unitOctets host.opposite us) = us.map byteSwap := by
  induction us with
  | nil => rfl
  | cons u us ih =>
    obtain ⟨a, b, hab⟩ := exists_octets host.opposite u.toNat
    have hval := value_octets_opposite host u
    rw [hab] at hval
    rw [unitOctets, List.flatMap_cons, hab, List.cons_append, List.cons_append, List.nil_append,
      unitsIn, hval]
    rw [unitOctets] at ih
    rw [ih, UInt16.ofNat_toNat, List.map_cons]

/-! ### Round trips -/

/-- What is written between two states of a stream, to be read on a host, with more behind it. -/
def readOn (reader order : ByteOrder) (out after : CdrOut) (rest : List UInt8) : CdrIn :=
  ⟨out.mkr, after.octets.drop out.mkr ++ rest, decide (order ≠ reader)⟩

/-- Behind what was written. -/
def readTo (reader order : ByteOrder) (after : CdrOut) (rest : List UInt8) : CdrIn :=
  ⟨after.mkr, rest, decide (order ≠ reader)⟩

/-- A string comes back whatever it stands between, unless it is over the bound. -/
def RoundTrips (host order reader : ByteOrder) (us : List UniChar) : Prop :=
  ∀ (bound : ℕ) (out : CdrOut) (rest : List UInt8), ∃ after,
    marshalWString host order us out = .ok after ∧
    unmarshalWString reader bound (readOn reader order out after rest) =
      if bound ≠ 0 ∧ bound < us.length then .error .wstringIsTooLong
      else .ok ((us.length, us ++ [0]), readTo reader order after rest)

lemma order_mk (reader order : ByteOrder) (mkr : ℕ) (unread : List UInt8) :
    (CdrIn.mk mkr unread (decide (order ≠ reader))).order reader = order := by
  obtain rfl | rfl := reader.eq_or_opposite order
  · simp [CdrIn.order]
  · cases reader <;> rfl

/-- An integer that was written in the order of the stream. -/
lemma unmarshalWord_mk (reader order : ByteOrder) (al : Alignment) {mkr n : ℕ} {pad : List UInt8}
    (hpad : pad.length = alignTo mkr al.size - mkr) (hn : n < 256 ^ al.size) (rest : List UInt8) :
    (CdrIn.mk mkr (pad ++ (order.octets al.size n ++ rest))
        (decide (order ≠ reader))).unmarshalWord reader al =
      .ok (n, ⟨mkr + pad.length + al.size, rest, decide (order ≠ reader)⟩) := by
  have hlen : (pad ++ order.octets al.size n).length = pad.length + al.size := by
    rw [List.length_append, ByteOrder.length_octets]
  rw [← List.append_assoc, CdrIn.unmarshalWord_of_written hpad hn (by rw [order_mk]), order_mk,
    CdrIn.advance, hlen, ← Nat.add_assoc]
  simp only
  rw [List.drop_left' hlen]

/-- The mark that says that the units are in the order of the host. -/
def byteOrderMark (host order : ByteOrder) : ℕ := if order ≠ host then 0xfffe else 0xfeff

/-- What is written for a string that is neither empty nor too long. -/
lemma marshalWString_octets (host order : ByteOrder) {us : List UniChar} (out : CdrOut)
    (hpos : 0 < us.length) (hlen : us.length < 2 ^ 30) :
    ∃ pad : List UInt8, pad.length = alignTo out.mkr 4 - out.mkr ∧
      marshalWString host order us out =
        .ok ⟨out.octets ++ (pad ++ order.octets 4 ((us.length + 1) * 2) ++
          (order.octets 2 (byteOrderMark host order) ++ unitOctets host us)), out.stale⟩ := by
  obtain ⟨pad, hpad, hout⟩ := out.marshalWord_octets order .align4 ((us.length + 1) * 2)
  refine ⟨pad, hpad, ?_⟩
  have hmod : us.length % 2 ^ 32 = us.length := Nat.mod_eq_of_lt (by omega)
  have hmlen : (us.length + 1) * 2 % 2 ^ 32 = (us.length + 1) * 2 := Nat.mod_eq_of_lt (by omega)
  have hsize : ((us.length + 1) * 2 + 2 ^ 32 - 2) % 2 ^ 32 = us.length * 2 := by omega
  have hmkr : (out.marshalWord order .align4 ((us.length + 1) * 2)).mkr = alignTo out.mkr 4 + 4 := by
    have hle := le_alignTo out.mkr (show 0 < 4 by decide)
    change pad.length = alignTo out.mkr 4 - out.mkr at hpad
    rw [hout]
    simp only [CdrOut.mkr, List.length_append, ByteOrder.length_octets, Alignment.size] at hle hpad ⊢
    omega
  have hdvd : 2 ∣ alignTo out.mkr 4 + 4 :=
    Dvd.dvd.add (Dvd.dvd.trans (by decide) (dvd_alignTo out.mkr 4)) (by decide)
  have hmark : (out.marshalWord order .align4 ((us.length + 1) * 2)).marshalWord order .align2
      (byteOrderMark host order) =
        (out.marshalWord order .align4 ((us.length + 1) * 2)).putOctetArray
          (order.octets 2 (byteOrderMark host order)) := by
    have haligned := CdrOut.alignOutput_of_dvd
      (show Alignment.align2.size ∣ (out.marshalWord order .align4 ((us.length + 1) * 2)).mkr by
        rw [hmkr]
        exact hdvd)
    rw [CdrOut.marshalWord, haligned]
    rfl
  rw [marshalWString]
  simp only [hmod, hmlen, hsize]
  rw [if_neg (by omega)]
  change putUnits host us (us.length * 2) (CdrOut.marshalWord _ order .align2
    (byteOrderMark host order)) = _
  rw [hmark, putUnits, if_neg (by omega), CdrOut.alignOutput_of_dvd, List.take_of_length_le, hout]
  · simp [CdrOut.putOctetArray, Alignment.size]
  · rw [length_unitOctets]
  · have hmark2 : ((out.marshalWord order .align4 ((us.length + 1) * 2)).putOctetArray
        (order.octets 2 (byteOrderMark host order))).mkr = alignTo out.mkr 4 + 4 + 2 := by
      rw [← hmkr]
      simp only [CdrOut.mkr, CdrOut.octets_putOctetArray, List.length_append,
        ByteOrder.length_octets]
    rw [hmark2]
    exact Dvd.dvd.add hdvd (by decide)

lemma getUnits_of_written {s : CdrIn} (reader host : ByteOrder) {us : List UniChar}
    {rest : List UInt8} (hmkr : 2 ∣ s.mkr) (hlen : us.length < 2 ^ 30)
    (hs : s.unread = unitOctets host us ++ rest) :
    getUnits reader us.length s =
      .ok (unitsIn reader (unitOctets host us), s.advance (us.length * 2)) := by
  have hoctets := length_unitOctets host us
  have hsize : us.length * 2 % 2 ^ 32 = us.length * 2 := Nat.mod_eq_of_lt (by omega)
  rw [getUnits, hsize, alignTo_of_dvd (by decide) hmkr, Nat.sub_self, CdrIn.advance_zero, if_neg, hs,
    List.take_left' hoctets]
  rw [not_or, hs, List.length_append, hoctets]
  omega

/-- The units of a reader that swaps, or does not, as the mark tells it. -/
lemma unitsIn_of_mark {reader host order : ByteOrder} {us : List UniChar} (swap : Bool)
    (hswap : swap = decide (order ≠ reader)) :
    (if byteOrderMark host order = 0xfeff then
      (if swap then (unitsIn reader (unitOctets host us)).map byteSwap
        else unitsIn reader (unitOctets host us))
    else
      (if swap then unitsIn reader (unitOctets host us)
        else (unitsIn reader (unitOctets host us)).map byteSwap)) = us := by
  have hsame : unitsIn reader (unitOctets reader us) = us := unitsIn_unitOctets reader us
  have hother : (unitsIn reader (unitOctets reader.opposite us)).map byteSwap = us := by
    rw [unitsIn_opposite, List.map_map, show byteSwap ∘ byteSwap = id from funext byteSwap_byteSwap,
      List.map_id]
  subst hswap
  have hne : reader.opposite ≠ reader := by cases reader <;> decide
  rcases reader.eq_or_opposite host with rfl | rfl
  · rcases host.eq_or_opposite order with rfl | rfl
    · simpa [byteOrderMark] using hsame
    · simpa [byteOrderMark, hne] using hsame
  · rcases reader.eq_or_opposite order with rfl | rfl
    · simpa [byteOrderMark, hne, hne.symm] using hother
    · simpa [byteOrderMark, hne] using hother

lemma readOn_mk (reader order : ByteOrder) {out after : CdrOut} {b : List UInt8}
    (h : after.octets = out.octets ++ b) (rest : List UInt8) :
    readOn reader order out after rest = ⟨out.mkr, b ++ rest, decide (order ≠ reader)⟩ := by
  rw [readOn, h, CdrOut.mkr, List.drop_left]

/-- The empty string is a length of 0. -/
lemma roundTrips_nil (host order reader : ByteOrder) : RoundTrips host order reader [] := by
  intro bound out rest
  obtain ⟨pad, hpad, hout⟩ := out.marshalWord_octets order .align4 0
  refine ⟨_, rfl, ?_⟩
  have hread := unmarshalWord_mk reader order .align4 hpad (by decide : 0 < 256 ^ 4) rest
  rw [hout, readOn_mk reader order rfl, List.append_assoc, unmarshalWString, hread]
  simp only [Except.mapError, readTo, CdrOut.mkr, List.length_append, ByteOrder.length_octets]
  simp [CdrIn.checkInputOverrun, Nat.add_assoc]
  rfl

/-- Behind a mark, the units are taken as the mark says. -/
lemma unmarshalWString_of_mark {s s' t u : CdrIn} {host : ByteOrder} {len mark : ℕ}
    {us : List UniChar} (bound : ℕ) (hlen : s.unmarshalWord host .align4 = .ok ((len + 1) * 2, s'))
    (hroom : (len + 1) * 2 ≤ s'.unread.length)
    (hmark : s'.unmarshalWord host .align2 = .ok (mark, t)) (hbom : mark = 0xfeff ∨ mark = 0xfffe)
    (hunits : getUnits host len t = .ok (us, u)) :
    unmarshalWString host bound s =
      if bound ≠ 0 ∧ bound < len then .error .wstringIsTooLong
      else .ok ((len, (if mark = 0xfeff then (if t.byteSwap then us.map byteSwap else us)
        else (if t.byteSwap then us else us.map byteSwap)) ++ [0]), u) := by
  have heven : ¬(len + 1) * 2 % 2 ≠ 0 := by omega
  have hhalf : (len + 1) * 2 / 2 = len + 1 := by omega
  have hover : ¬¬s'.checkInputOverrun ((len + 1) * 2) := by
    rw [not_not, CdrIn.checkInputOverrun]
    exact decide_eq_true hroom
  rw [unmarshalWString, hlen]
  change (if (len + 1) * 2 % 2 ≠ 0 then _ else if ¬s'.checkInputOverrun _ then _ else if _ then _ else
    (s'.unmarshalWord host .align2).mapError WStringExn.cdr >>= _) = _
  rw [if_neg heven, if_neg hover, hhalf, if_neg (Nat.succ_ne_zero len), hmark]
  change (if mark = 0xfeff then _ else if mark = 0xfffe then _ else _) = _
  simp only [checkBound, Nat.add_sub_cancel, hunits]
  by_cases hbound : bound ≠ 0 ∧ bound < len
  · simp only [if_pos hbound]
    rcases hbom with rfl | rfl
    · rfl
    · rfl
  · simp only [if_neg hbound]
    rcases hbom with rfl | rfl
    · rfl
    · rfl

/-- Short strings come back. -/
lemma roundTrips_of_lt (host order reader : ByteOrder) {us : List UniChar}
    (hlen : us.length < 2 ^ 30) : RoundTrips host order reader us := by
  rcases Nat.eq_zero_or_pos us.length with hzero | hpos
  · rw [List.length_eq_zero_iff.mp hzero]
    exact roundTrips_nil host order reader
  intro bound out rest
  obtain ⟨pad, hpad, hmarshal⟩ := marshalWString_octets host order out hpos hlen
  refine ⟨_, hmarshal, ?_⟩
  have hle := le_alignTo out.mkr (show 0 < 4 by decide)
  have hread := unmarshalWord_mk reader order .align4 hpad
    (show (us.length + 1) * 2 < 256 ^ 4 by omega)
    (order.octets 2 (byteOrderMark host order) ++ (unitOctets host us ++ rest))
  -- behind the length everything is aligned
  have hmkr : out.mkr + pad.length + 4 = alignTo out.mkr 4 + 4 := by omega
  have hdvd : 2 ∣ alignTo out.mkr 4 + 4 :=
    Dvd.dvd.add (Dvd.dvd.trans (by decide) (dvd_alignTo out.mkr 4)) (by decide)
  have hmark := unmarshalWord_mk reader order .align2
    (show ([] : List UInt8).length = alignTo (alignTo out.mkr 4 + 4) 2 - (alignTo out.mkr 4 + 4) by
      rw [alignTo_of_dvd (by decide) hdvd, Nat.sub_self, List.length_nil])
    (show byteOrderMark host order < 256 ^ 2 by unfold byteOrderMark; split_ifs <;> decide)
    (unitOctets host us ++ rest)
  have hunits := getUnits_of_written (s := ⟨alignTo out.mkr 4 + 4 + 2, unitOctets host us ++ rest,
    decide (order ≠ reader)⟩) reader host (Dvd.dvd.add hdvd (by decide)) hlen rfl
  have hbom : byteOrderMark host order = 0xfeff ∨ byteOrderMark host order = 0xfffe := by
    rw [byteOrderMark]
    split_ifs
    · exact .inr rfl
    · exact .inl rfl
  have hroom : (us.length + 1) * 2 ≤
      (order.octets 2 (byteOrderMark host order) ++ (unitOctets host us ++ rest)).length := by
    rw [List.length_append, List.length_append, ByteOrder.length_octets, length_unitOctets]
    omega
  change CdrIn.unmarshalWord ⟨_, pad ++ (order.octets 4 _ ++ _), _⟩ reader .align4 =
    .ok (_, ⟨out.mkr + pad.length + 4, _, decide (order ≠ reader)⟩) at hread
  rw [hmkr] at hread
  rw [readOn_mk reader order rfl, List.append_assoc, List.append_assoc, List.append_assoc,
    unmarshalWString_of_mark bound hread hroom hmark hbom hunits,
    unitsIn_of_mark (decide (order ≠ reader)) rfl]
  have hend : (CdrOut.mk (out.octets ++ (pad ++ order.octets 4 ((us.length + 1) * 2) ++
      (order.octets 2 (byteOrderMark host order) ++ unitOctets host us))) out.stale).mkr =
        alignTo out.mkr 4 + 4 + 2 + us.length * 2 := by
    rw [← hmkr]
    simp only [CdrOut.mkr, List.length_append, ByteOrder.length_octets, length_unitOctets]
    omega
  rw [readTo, hend, CdrIn.advance, List.drop_left' (length_unitOctets host us)]

/-! ### Long strings -/

lemma eq_of_getUnits {host : ByteOrder} {bound len n k : ℕ} {us : List UniChar} {s t : CdrIn}
    (f : List UniChar → List UniChar)
    (h : (do
      checkBound bound n
      let (vs, u) ← getUnits host len s
      .ok ((n, f vs), u)) = Except.ok ((k, us), t)) : k = n := by
  obtain ⟨_, -, h⟩ := bind_eq_ok.mp h
  obtain ⟨p, -, h⟩ := bind_eq_ok.mp h
  simp only [Except.ok.injEq, Prod.mk.injEq] at h
  exact h.1.1.symm

/-- What is returned was in the stream. -/
lemma unmarshalWString_consumes {host : ByteOrder} {bound k : ℕ} {us : List UniChar} {s t : CdrIn}
    (h : unmarshalWString host bound s = .ok ((k, us), t)) : 2 * k + 4 ≤ s.unread.length := by
  rw [unmarshalWString] at h
  cases hlen : s.unmarshalWord host .align4 with
  | error e =>
    rw [hlen] at h
    cases h
  | ok p =>
    obtain ⟨mlen, s'⟩ := p
    have hread : s'.unread.length + 4 ≤ s.unread.length := CdrIn.unmarshalWord_consumes hlen
    rw [hlen] at h
    change (if mlen % 2 ≠ 0 then _ else if ¬s'.checkInputOverrun mlen then _
      else if mlen / 2 = 0 then _ else _) = _ at h
    by_cases heven : mlen % 2 ≠ 0
    · rw [if_pos heven] at h
      cases h
    by_cases hover : ¬s'.checkInputOverrun mlen
    · rw [if_neg heven, if_pos hover] at h
      cases h
    have hroom : mlen ≤ s'.unread.length := of_decide_eq_true (not_not.mp hover)
    rw [if_neg heven, if_neg hover] at h
    by_cases hzero : mlen / 2 = 0
    · rw [if_pos hzero] at h
      simp only [Except.ok.injEq, Prod.mk.injEq] at h
      omega
    rw [if_neg hzero] at h
    obtain ⟨⟨uc, u⟩, -, h⟩ := bind_eq_ok.mp h
    simp only at h
    by_cases hmark : uc = 0xfeff
    · rw [if_pos hmark] at h
      have hk := eq_of_getUnits (fun vs => (if u.byteSwap then vs.map byteSwap else vs) ++ [0]) h
      omega
    rw [if_neg hmark] at h
    by_cases hother : uc = 0xfffe
    · rw [if_pos hother] at h
      have hk := eq_of_getUnits (fun vs => (if u.byteSwap then vs else vs.map byteSwap) ++ [0]) h
      omega
    · rw [if_neg hother] at h
      have hk := eq_of_getUnits (fun vs => (if host = .littleEndian then
        List.map byteSwap ((if u.byteSwap then byteSwap (UInt16.ofNat uc) else UInt16.ofNat uc) :: vs)
        else (if u.byteSwap then byteSwap (UInt16.ofNat uc) else UInt16.ofNat uc) :: vs) ++ [0]) h
      omega

lemma putUnits_length {host : ByteOrder} {us : List UniChar} {size : ℕ} {out after : CdrOut}
    (hout : 2 ∣ out.mkr) (h : putUnits host us size out = .ok after) :
    size < 2 ^ 31 ∧ after.octets.length ≤ out.octets.length + size := by
  rw [putUnits, CdrOut.alignOutput_of_dvd hout] at h
  split_ifs at h with hsize
  simp only [Except.ok.injEq] at h
  rw [← h, CdrOut.octets_putOctetArray, List.length_append, List.length_take]
  constructor
  · exact not_le.mp hsize
  · omega

/-- What is written for a long string is less than it needs. -/
lemma marshalWString_length_lt {host order : ByteOrder} {us : List UniChar} {after : CdrOut}
    (h : marshalWString host order us ⟨[], fun _ => 0⟩ = .ok after) (hlen : 2 ^ 30 ≤ us.length) :
    after.octets.length < 2 * us.length + 4 := by
  have hword (n : ℕ) : ((⟨[], fun _ => 0⟩ : CdrOut).marshalWord order .align4 n).octets.length = 4 :=
    ByteOrder.length_octets _ _ _
  rw [marshalWString] at h
  by_cases hzero : us.length % 2 ^ 32 = 0
  · simp only [if_pos hzero, Except.ok.injEq] at h
    rw [← h, hword]
    omega
  · simp only [if_neg hzero] at h
    -- the length and the mark
    have hmark (m n : ℕ) : (((⟨[], fun _ => 0⟩ : CdrOut).marshalWord order .align4 m).marshalWord
        order .align2 n).octets.length = 6 := by
      obtain ⟨pad, hpad, hout⟩ :=
        ((⟨[], fun _ => 0⟩ : CdrOut).marshalWord order .align4 m).marshalWord_octets order .align2 n
      rw [CdrOut.mkr, hword] at hpad
      change pad.length = 0 at hpad
      rw [hout, List.length_append, List.length_append, hword, hpad, ByteOrder.length_octets]
      rfl
    obtain ⟨hsize, hafter⟩ := putUnits_length (by rw [CdrOut.mkr, hmark]; decide) h
    rw [hmark] at hafter
    omega

/-- Strings of 2^30 units and more do not. -/
lemma not_roundTrips (host order reader : ByteOrder) {us : List UniChar} (h : 2 ^ 30 ≤ us.length) :
    ¬RoundTrips host order reader us := by
  intro htrip
  obtain ⟨after, hmarshal, hread⟩ := htrip 0 ⟨[], fun _ => 0⟩ []
  rw [if_neg (fun hb => hb.1 rfl)] at hread
  have hneeds := unmarshalWString_consumes hread
  have hwritten := marshalWString_length_lt hmarshal h
  simp only [readOn, CdrOut.mkr, List.length_nil, List.drop_zero, List.append_nil] at hneeds
  omega

end TCS_W_UTF_16

open TCS_W_UTF_16 in
/-- Wide strings of fewer than 2^30 units, and no others, come back whatever the byte orders of the
writer, of its stream and of the reader. -/
theorem wstring_roundTrips_iff (host order reader : ByteOrder) (us : List UniChar) :
    RoundTrips host order reader us ↔ us.length < 2 ^ 30 := by
  constructor
  · intro h
    by_contra hlen
    exact not_roundTrips host order reader (not_lt.mp hlen) h
  · exact roundTrips_of_lt host order reader

open TCS_W_UTF_16 in
/-- The size in octets of 2^30 units is negative as an `int`. -/
theorem wstring_roundTrips_fails : ¬∀ (host order reader : ByteOrder) (us : List UniChar),
    RoundTrips host order reader us := by
  intro h
  obtain ⟨after, hmarshal, -⟩ :=
    h .littleEndian .littleEndian .littleEndian (List.replicate (2 ^ 30) 0x41) 0 ⟨[], fun _ => 0⟩ []
  have hpos : ¬2 ^ 30 % 2 ^ 32 = 0 := by decide
  have hsize : 2 ^ 31 ≤ ((2 ^ 30 % 2 ^ 32 + 1) * 2 % 2 ^ 32 + 2 ^ 32 - 2) % 2 ^ 32 := by decide
  rw [marshalWString, List.length_replicate] at hmarshal
  simp only [if_neg hpos, putUnits, if_pos hsize] at hmarshal
  cases hmarshal

end OmniORB
