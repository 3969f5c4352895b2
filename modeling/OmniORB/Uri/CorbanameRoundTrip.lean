import OmniORB.Uri.Corbaname
import OmniORB.Uri.NameRoundTrip

/-!
# corbaname URIs denote what they were built from

What `addrAndNameToURI` writes is read back by the corbaname handler, for every address and every
name that it accepts and that fit in a buffer.
-/

namespace OmniORB

open Library

/-! ### The address in front of a name -/

section Address

variable {w : List UInt8}

lemma moreAddrs_of_comma {c : List UInt8} (hc : peek c = 0x2c) :
    moreAddrs c = (ObjAddr.parse (c.drop 1) >>= fun a =>
      moreAddrs a.2 >>= fun r => .ok (a.1 :: r.1, r.2)) := by
  rw [moreAddrs, dif_pos hc]
  split
  · rename_i e h
    rw [h]
    rfl
  · rename_i a c' h
    change (moreAddrs c' >>= fun r => .ok (a :: r.1, r.2)) = _
    rw [h]
    rfl

lemma moreAddrs_of_ne {c : List UInt8} (hc : peek c ≠ 0x2c) : moreAddrs c = .ok ([], c) := by
  rw [moreAddrs, dif_neg hc]

/-- The addresses are read the same way in front of a `#`. -/
lemma moreAddrs_append {c t : List UInt8} {l : List ObjAddr} (h : moreAddrs c = .ok (l, t)) :
    moreAddrs (c ++ 0x23 :: w) = .ok (l, t ++ 0x23 :: w) := by
  induction hn : c.length using Nat.strong_induction_on generalizing c l with
  | _ n ih =>
  subst hn
  have hcomma : peek (c ++ 0x23 :: w) = 0x2c ↔ peek c = 0x2c :=
    peek_append (by decide) (by decide) c
  by_cases hc : peek c = 0x2c
  · have hpos : 1 ≤ c.length := of_peek_ne_zero (by rw [hc]; decide)
    rw [moreAddrs_of_comma hc] at h
    obtain ⟨⟨a, u⟩, hparse, h⟩ := bind_eq_ok.mp h
    obtain ⟨⟨l', u'⟩, hmore, heq⟩ := bind_eq_ok.mp h
    simp only [Except.ok.injEq, Prod.mk.injEq] at heq
    obtain ⟨rfl, rfl⟩ := heq
    have hle := (ObjAddr.parse_delimited (w := w)).length_le _ _ _ hparse
    rw [List.length_drop] at hle
    have hrest := ih u.length (by omega) hmore rfl
    have hparse' := (ObjAddr.parse_delimited (w := w)).append _ _ _ hparse
    rw [moreAddrs_of_comma (hcomma.mpr hc), List.drop_append_of_le_length hpos]
    exact bind_eq_ok.mpr ⟨_, hparse', bind_eq_ok.mpr ⟨_, hrest, rfl⟩⟩
  · rw [moreAddrs_of_ne hc] at h
    rw [moreAddrs_of_ne (fun h' => hc (hcomma.mp h'))]
    simp only [Except.ok.injEq, Prod.mk.injEq] at h ⊢
    exact ⟨h.1, by rw [h.2]⟩

lemma unescape_append {c t key : List UInt8} (h : unescape c = .ok (key, t)) :
    unescape (c ++ 0x23 :: w) = .ok (key, t ++ 0x23 :: w) := by
  have hf : (fun x : UInt8 => decide (x ≠ 0x23)) 0x23 = false := rfl
  unfold unescape at h ⊢
  rw [takeWhile_append_cons (f := fun x => decide (x ≠ 0x23)) hf,
    dropWhile_append_cons (f := fun x => decide (x ≠ 0x23)) hf]
  obtain ⟨cap, hcap, h⟩ := bind_eq_ok.mp h
  obtain ⟨key', hkey, heq⟩ := bind_eq_ok.mp h
  simp only [Except.ok.injEq, Prod.mk.injEq] at heq
  obtain ⟨rfl, rfl⟩ := heq
  exact bind_eq_ok.mpr ⟨cap, hcap, bind_eq_ok.mpr ⟨key', hkey, rfl⟩⟩

lemma parsedKey_append {defKey c t key : List UInt8}
    (h : parsedKey (some defKey) c = .ok (key, t)) :
    parsedKey (some defKey) (c ++ 0x23 :: w) = .ok (key, t ++ 0x23 :: w) := by
  have hslash : peek (c ++ 0x23 :: w) = 0x2f ↔ peek c = 0x2f :=
    peek_append (by decide) (by decide) c
  unfold parsedKey at h ⊢
  by_cases hc : peek c = 0x2f
  · have hpos : 1 ≤ c.length := of_peek_ne_zero (by rw [hc]; decide)
    rw [if_pos hc] at h
    rw [if_pos (hslash.mpr hc), List.drop_append_of_le_length hpos]
    exact unescape_append h
  · rw [if_neg hc] at h
    rw [if_neg (fun h' => hc (hslash.mp h'))]
    simp only [Except.ok.injEq, Prod.mk.injEq] at h ⊢
    exact ⟨h.1, by rw [h.2]⟩

/-- An address is read the same way in front of a `#`. -/
lemma Parsed.parse_append {defKey c t : List UInt8} {p : Parsed}
    (h : Parsed.parse (some defKey) c = .ok (p, t)) :
    Parsed.parse (some defKey) (c ++ 0x23 :: w) = .ok (p, t ++ 0x23 :: w) := by
  unfold Parsed.parse at h ⊢
  obtain ⟨⟨a, u⟩, hparse, h⟩ := bind_eq_ok.mp h
  obtain ⟨⟨l, u'⟩, hmore, h⟩ := bind_eq_ok.mp h
  refine bind_eq_ok.mpr ⟨_, ObjAddr.parse_delimited.append _ _ _ hparse, ?_⟩
  refine bind_eq_ok.mpr ⟨_, moreAddrs_append hmore, ?_⟩
  dsimp only at h ⊢
  split_ifs at h ⊢ with hrir
  obtain ⟨⟨key, u''⟩, hkey, heq⟩ := bind_eq_ok.mp h
  simp only [Except.ok.injEq, Prod.mk.injEq] at heq
  obtain ⟨rfl, rfl⟩ := heq
  exact bind_eq_ok.mpr ⟨_, parsedKey_append hkey, rfl⟩

end Address

/-! ### The name behind the `#` -/

lemma toNat_high_lt (c : UInt8) : ((c &&& 0xf0) >>> 4).toNat < 16 := by
  have hc := c.toNat_lt
  have hand : (c &&& 0xf0).toNat ≤ c.toNat := by
    rw [UInt8.toNat_and]
    exact Nat.and_le_left
  rw [UInt8.toNat_shiftRight, show (4 : UInt8).toNat % 8 = 4 from rfl, Nat.shiftRight_eq_div_pow]
  omega

lemma toNat_low_lt (c : UInt8) : (c &&& 0xf).toNat < 16 := by
  rw [UInt8.toNat_and]
  exact Nat.and_lt_two_pow _ (by decide : (0xf : UInt8).toNat < 2 ^ 4)

lemma hexDigit_hexChar {v : UInt8} (h : v.toNat < 16) : hexDigit (hexChar v) = some v := by
  have hdigits : ∀ n : Fin 16, hexDigit (hexChar (UInt8.ofNat n)) = some (UInt8.ofNat n) := by
    decide
  have hv := hdigits ⟨v.toNat, h⟩
  rwa [UInt8.ofNat_toNat] at hv

lemma hexDigit_hexChar_high (c : UInt8) :
    hexDigit (hexChar ((c &&& 0xf0) >>> 4)) = some ((c &&& 0xf0) >>> 4) :=
  hexDigit_hexChar (toNat_high_lt c)

lemma hexDigit_hexChar_low (c : UInt8) : hexDigit (hexChar (c &&& 0xf)) = some (c &&& 0xf) :=
  hexDigit_hexChar (toNat_low_lt c)

set_option maxRecDepth 20000 in
lemma high_or_low (c : UInt8) : (c &&& 0xf0) >>> 4 <<< 4 ||| (c &&& 0xf) = c := by
  have h : ∀ n : Fin 256, (UInt8.ofFin n &&& 0xf0) >>> 4 <<< 4 ||| (UInt8.ofFin n &&& 0xf) =
      UInt8.ofFin n := by decide
  exact h c.toFin

lemma notMem_escapedKeyChar {c d : UInt8} (hc : validKeyChar c = true → d ≠ c) (hpercent : d ≠ 0x25)
    (hhex : ∀ n : Fin 16, d ≠ hexChar (UInt8.ofNat n)) : d ∉ escapedKeyChar c := by
  have hdigit {v : UInt8} (h : v.toNat < 16) : d ≠ hexChar v := by
    have hv := hhex ⟨v.toNat, h⟩
    rwa [UInt8.ofNat_toNat] at hv
  rw [escapedKeyChar]
  split_ifs with hvalid
  · simpa using hc hvalid
  · simp [hpercent, hdigit (toNat_high_lt c), hdigit (toNat_low_lt c)]

lemma hash_notMem_escapedKeyChar (c : UInt8) : 0x23 ∉ escapedKeyChar c := by
  refine notMem_escapedKeyChar ?_ (by decide) (by decide)
  rintro hvalid rfl
  exact absurd hvalid (by decide)

lemma length_escapedKeyChar (c : UInt8) :
    (escapedKeyChar c).length = if validKeyChar c then 1 else 3 := by
  unfold escapedKeyChar
  split_ifs <;> rfl

/-- The name as it stands in a URI. -/
def escapedKey (b : List UInt8) : List UInt8 := b.flatMap escapedKeyChar

lemma length_escapedKey (sn : CString) : (escapedKey sn.octets).length = escapedKeySize sn := by
  rw [escapedKey, List.length_flatMap, escapedKeySize]
  congr 1
  apply List.map_congr_left
  intro c _
  exact length_escapedKeyChar c

/-- One octet of the name is read back. -/
lemma unescapeSpan_escapedKeyChar {cap : ℕ} {c : UInt8} {rest key : List UInt8}
    (h : key.length < cap) :
    unescapeSpan cap (escapedKeyChar c ++ rest) key = unescapeSpan cap rest (key ++ [c]) := by
  cases hv : validKeyChar c with
  | true =>
    have hesc : escapedKeyChar c = [c] := by simp [escapedKeyChar, hv]
    rw [hesc, List.singleton_append]
    conv_lhs => unfold unescapeSpan
    rw [if_pos hv, store_of_lt h]
    rfl
  | false =>
    have hesc : escapedKeyChar c = [0x25, hexChar ((c &&& 0xf0) >>> 4), hexChar (c &&& 0xf)] := by
      simp [escapedKeyChar, hv]
    have hpercent : ¬validKeyChar 0x25 = true := by decide
    rw [hesc]
    simp only [List.cons_append, List.nil_append]
    rw [unescapeSpan, if_neg hpercent, if_pos rfl]
    simp only [hexDigit_hexChar_high, hexDigit_hexChar_low, high_or_low, store_of_lt h]
    rfl

/-- The whole name is read back. -/
lemma unescapeSpan_escapedKey {cap : ℕ} (b key : List UInt8) (h : key.length + b.length < cap) :
    unescapeSpan cap (escapedKey b) key = .ok (key ++ b) := by
  induction b generalizing key with
  | nil =>
    have hstore : store cap key 0 = .ok (key ++ [0]) := store_of_lt (by simpa using h)
    rw [escapedKey, List.flatMap_nil, unescapeSpan, hstore, List.append_nil]
    rfl
  | cons c b ih =>
    rw [List.length_cons] at h
    have hrest : (key ++ [c]).length + b.length < cap := by
      rw [List.length_append, List.length_singleton]
      omega
    rw [escapedKey, List.flatMap_cons, unescapeSpan_escapedKeyChar (by omega)]
    rw [← escapedKey, ih (key ++ [c]) hrest, List.append_assoc, List.singleton_append]

lemma hash_notMem_escapedKey (b : List UInt8) : 0x23 ∉ escapedKey b := by
  rw [escapedKey, List.mem_flatMap]
  rintro ⟨c, -, hc⟩
  exact hash_notMem_escapedKeyChar c hc

lemma length_le_escapedKey (b : List UInt8) : b.length ≤ (escapedKey b).length := by
  induction b with
  | nil => exact Nat.zero_le _
  | cons c b ih =>
    have hpos : 1 ≤ (escapedKeyChar c).length := by
      rw [length_escapedKeyChar]
      split_ifs <;> decide
    rw [escapedKey, List.flatMap_cons, List.length_append, List.length_cons, ← escapedKey]
    omega

lemma unescape_escapedKey (sn : CString) (h : escapedKeySize sn + 1 < 2 ^ 31 - 1) :
    unescape (escapedKey sn.octets) = .ok (sn.octets, []) := by
  have hall : ∀ c ∈ escapedKey sn.octets, decide (c ≠ 0x23) = true := by
    intro c hc
    rw [decide_eq_true_eq]
    rintro rfl
    exact hash_notMem_escapedKey _ hc
  have htake := List.takeWhile_eq_self_iff.mpr hall
  have hdrop := List.dropWhile_eq_nil_iff.mpr hall
  have hlen := length_escapedKey sn
  have hle := length_le_escapedKey sn.octets
  rw [unescape, htake, hdrop]
  rw [stringAlloc_of_lt (by omega)]
  refine bind_eq_ok.mpr ⟨_, rfl, bind_eq_ok.mpr ⟨_, unescapeSpan_escapedKey _ [] ?_, rfl⟩⟩
  rw [List.length_nil]
  omega

/-! ### The whole URI -/

/-- The number of octets of the URI of an address and a name, with the terminator. -/
def uriSize (addr sn : CString) : ℕ := 10 + addr.octets.length + 1 + escapedKeySize sn + 1

/-- The URI denotes the address and the name: it is valid, its address part is read as the address
alone is, and its fragment is the name. -/
structure Denotes (uri : CString) (parsed : Parsed) (sn : CString) (name : Name) : Prop where
  isValid : corbanameSyntaxIsValid uri = true
  address : ∃ fragment,
    Parsed.parse (some nameService) (uri.octets.drop 10) = .ok (parsed, 0x23 :: fragment) ∧
      unescape fragment = .ok (sn.octets, [])
  toObject : corbanameToObject uri = .ok (parsed, some (sn, name))

section Uri

variable {addr sn : CString} {parsed : Parsed} {name : Name}

lemma addr_ne_nil (h : Parsed.parse (some nameService) addr.octets = .ok (parsed, [])) :
    addr.octets ≠ [] := by
  intro hnil
  rw [hnil] at h
  exact absurd h (by simp [Parsed.parse, ObjAddr.parse, startsWith, ascii, bind, Except.bind])

lemma sn_ne_nil (h : stringToName (some sn) = .ok name) : sn.octets ≠ [] := by
  intro hnil
  simp [stringToName, hnil] at h

lemma length_uriWritten (addr : CString) (hsn : sn.octets ≠ []) :
    (uriWritten addr sn).length + 1 = uriSize addr sn := by
  have hkey := length_escapedKey sn
  have hten : (ascii "corbaname:").length = 10 := rfl
  rw [uriWritten, if_neg hsn, ← escapedKey, uriSize]
  simp only [List.length_append, List.length_cons, hkey, hten]
  omega

lemma uriSpace_eq : uriSpace addr sn = uriSize addr sn % 2 ^ 32 := by
  simp only [uriSpace, uriSize, ulong]
  omega

/-- What `addrAndNameToURI` does with an address and a name that it accepts. -/
lemma addrAndNameToURI_eq (haddr : Parsed.parse (some nameService) addr.octets = .ok (parsed, []))
    (hsn : stringToName (some sn) = .ok name) :
    addrAndNameToURI (some addr) (some sn) =
      (stringAlloc (uriSpace addr sn) >>= fun cap =>
        if (uriWritten addr sn).length < cap then .ok (.ofBuffer (uriWritten addr sn ++ [0]))
        else .error .overrun) := by
  have hcheck : checkAddr addr = .ok () := by rw [checkAddr, haddr]
  simp only [addrAndNameToURI, if_neg (addr_ne_nil haddr), hcheck, hsn, bind, Except.bind,
    if_pos (sn_ne_nil hsn)]

lemma zero_notMem_uriWritten (addr sn : CString) : 0 ∉ uriWritten addr sn := by
  have hkey : 0 ∉ sn.octets.flatMap escapedKeyChar := by
    rw [List.mem_flatMap]
    rintro ⟨c, hc, hmem⟩
    refine notMem_escapedKeyChar ?_ (by decide) (by decide) hmem
    rintro - rfl
    exact sn.noNul hc
  have hname : 0 ∉ ascii "corbaname:" := by decide
  rw [uriWritten]
  simp only [List.mem_append, not_or]
  refine ⟨⟨hname, addr.noNul⟩, ?_⟩
  split_ifs
  · exact List.not_mem_nil
  · rw [List.mem_cons, not_or]
    exact ⟨by decide, hkey⟩

/-- A URI of a size that has a buffer is returned. -/
lemma addrAndNameToURI_of_lt
    (haddr : Parsed.parse (some nameService) addr.octets = .ok (parsed, []))
    (hsn : stringToName (some sn) = .ok name) (h : uriSize addr sn < 2 ^ 31 - 1) :
    ∃ uri, addrAndNameToURI (some addr) (some sn) = .ok uri ∧
      uri.octets.drop 10 = addr.octets ++ 0x23 :: escapedKey sn.octets := by
  have hlen := length_uriWritten addr (sn_ne_nil hsn)
  have hspace : uriSpace addr sn = uriSize addr sn := by
    rw [uriSpace_eq]
    omega
  refine ⟨.ofBuffer (uriWritten addr sn ++ [0]), ?_, ?_⟩
  · rw [addrAndNameToURI_eq haddr hsn, hspace, stringAlloc_of_lt h]
    change (if _ then _ else _) = _
    rw [if_pos (by omega)]
  · rw [CString.ofBuffer_append_nul (zero_notMem_uriWritten addr sn), uriWritten,
      if_neg (sn_ne_nil hsn), List.append_assoc]
    rfl

/-- Only a URI of a size that has a buffer is returned. -/
lemma lt_of_addrAndNameToURI {uri : CString}
    (haddr : Parsed.parse (some nameService) addr.octets = .ok (parsed, []))
    (hsn : stringToName (some sn) = .ok name)
    (h : addrAndNameToURI (some addr) (some sn) = .ok uri) : uriSize addr sn < 2 ^ 31 - 1 := by
  have hlen := length_uriWritten addr (sn_ne_nil hsn)
  rw [addrAndNameToURI_eq haddr hsn] at h
  obtain ⟨cap, halloc, h⟩ := bind_eq_ok.mp h
  obtain ⟨hcap, hlt⟩ := stringAlloc_ok halloc
  split_ifs at h with hfits
  rw [hcap, ulong, uriSpace_eq] at hfits
  rw [ulong, uriSpace_eq] at hlt
  omega

/-- The handler reads a URI as the address and the name that it is made of. -/
lemma denotes_of_drop {uri : CString}
    (haddr : Parsed.parse (some nameService) addr.octets = .ok (parsed, []))
    (hsn : stringToName (some sn) = .ok name) (h : uriSize addr sn < 2 ^ 31 - 1)
    (huri : uri.octets.drop 10 = addr.octets ++ 0x23 :: escapedKey sn.octets) :
    Denotes uri parsed sn name := by
  have hparse := Parsed.parse_append (w := escapedKey sn.octets) haddr
  rw [← huri, List.nil_append] at hparse
  have hkey : unescape (escapedKey sn.octets) = .ok (sn.octets, []) := by
    refine unescape_escapedKey sn ?_
    unfold uriSize at h
    omega
  have hsname : CString.ofBuffer (sn.octets ++ [0]) = sn := ofBuffer_terminated sn
  have hne : ¬ peek (0x23 :: escapedKey sn.octets) = 0 := by
    change ¬ (0x23 : UInt8) = 0
    decide
  have hhash : ¬ peek (0x23 :: escapedKey sn.octets) ≠ 0x23 := not_not.mpr rfl
  refine ⟨?_, ⟨_, hparse, hkey⟩, ?_⟩
  · simp only [corbanameSyntaxIsValid, hparse, if_neg hne, if_neg hhash, List.drop_one,
      List.tail_cons, hkey, hsname, hsn]
  · simp only [corbanameToObject, hparse, if_neg hne, if_neg hhash, List.drop_one,
      List.tail_cons, hkey, hsname, hsn, bind, Except.bind]

end Uri

/-- For an address that is accepted to its end and a name that is accepted, the URI is returned and
denotes them if and only if its size is one that has a buffer. -/
theorem addrAndNameToURI_denotes (addr sn : CString) (parsed : Parsed) (name : Name)
    (haddr : Parsed.parse (some nameService) addr.octets = .ok (parsed, []))
    (hsn : stringToName (some sn) = .ok name) :
    (∃ uri, addrAndNameToURI (some addr) (some sn) = .ok uri ∧ Denotes uri parsed sn name) ↔
      uriSize addr sn < 2 ^ 31 - 1 := by
  constructor
  · rintro ⟨uri, huri, -⟩
    exact lt_of_addrAndNameToURI haddr hsn huri
  · intro h
    obtain ⟨uri, huri, hdrop⟩ := addrAndNameToURI_of_lt haddr hsn h
    exact ⟨uri, huri, denotes_of_drop haddr hsn h hdrop⟩

/-- The address `:` of this host. -/
def localAddr : CString := ⟨ascii ":", by decide⟩

/-- What `localAddr` is parsed as. -/
def localParsed : Parsed where
  addrList := [.iiop ⟨1, 0, .ofBuffer (ascii "localhost"), defaultCorbalocPort⟩]
  isRir := false
  key := nameService
  keySize := 11

lemma parse_localAddr : Parsed.parse (some nameService) localAddr.octets = .ok (localParsed, []) := by
  have hmore : moreAddrs [] = .ok ([], []) := moreAddrs_of_ne (by decide)
  have haddr : ObjAddr.parse localAddr.octets =
      .ok (.iiop ⟨1, 0, .ofBuffer (ascii "localhost"), defaultCorbalocPort⟩, []) := rfl
  simp only [Parsed.parse, haddr, hmore, bind, Except.bind]
  rfl

/-- A name of one component that has an id only. -/
def plainName (id : CString) : Name := [⟨id, .empty⟩]

lemma stringToName_plain {id : CString} (hne : id.octets ≠ [])
    (hid : escaped id.octets = id.octets) (h : id.octets.length + 1 < 2 ^ 31 - 1) :
    stringToName (some id) = .ok (plainName id) := by
  have htext : (plainName id).text = id.octets := by
    simp [plainName, NameComponent.text, NameComponent.hasDot, CString.empty, hid, hne]
  have hsize : (plainName id).size = id.octets.length + 1 := by
    have hne' : plainName id ≠ [] := List.cons_ne_nil _ _
    rw [← Name.length_text hne', htext]
  have hstr : (plainName id).toCString = id := by
    ext1
    exact htext
  have hne' : plainName id ≠ [] := List.cons_ne_nil _ _
  have hname := stringToName_toCString hne' (by omega)
  rw [hstr] at hname
  exact hname

theorem addrAndNameToURI_denotes_local :
    ∃ uri, addrAndNameToURI (some localAddr) (some ⟨[0x61], by decide⟩) = .ok uri ∧
      Denotes uri localParsed ⟨[0x61], by decide⟩ (plainName ⟨[0x61], by decide⟩) :=
  (addrAndNameToURI_denotes _ _ _ _ parse_localAddr
    (stringToName_plain (by decide) (by decide) (by decide))).mpr (by decide)

/-- A string of blanks. -/
def blanks (n : ℕ) : CString := .replicate n 0x20 (by decide)

lemma length_blanks (n : ℕ) : (blanks n).octets.length = n := List.length_replicate

lemma escapedKeySize_blanks (n : ℕ) : escapedKeySize (blanks n) = 3 * n := by
  have hv : validKeyChar 0x20 = false := by decide
  simp [escapedKeySize, blanks, CString.replicate, hv, Nat.mul_comm]

lemma stringToName_blanks {n : ℕ} (hn : 0 < n) (h : n + 1 < 2 ^ 31 - 1) :
    stringToName (some (blanks n)) = .ok (plainName (blanks n)) := by
  refine stringToName_plain ?_ ?_ ?_
  · intro hnil
    have hlen := length_blanks n
    rw [hnil, List.length_nil] at hlen
    omega
  · have hs : isSpecial 0x20 = false := by decide
    simp [escaped, blanks, CString.replicate, hs, List.flatMap_replicate]
  · rw [length_blanks]
    exact h

lemma addrAndNameToURI_blanks {n : ℕ} (hn : 0 < n) (h : n + 1 < 2 ^ 31 - 1)
    (hsize : 3 * n = 2 ^ 32 + 2) :
    uriSpace localAddr (blanks n) = 15 ∧
      addrAndNameToURI (some localAddr) (some (blanks n)) = .error .overrun := by
  have hsn := stringToName_blanks hn h
  have huri : uriSize localAddr (blanks n) = 2 ^ 32 + 15 := by
    have hone : localAddr.octets.length = 1 := rfl
    rw [uriSize, escapedKeySize_blanks, hsize, hone]
    decide
  have hlen := length_uriWritten localAddr (sn_ne_nil hsn)
  have hspace : uriSpace localAddr (blanks n) = 15 := by
    rw [uriSpace_eq, huri]
    decide
  have halloc : stringAlloc 15 = .ok (15 + 1) := stringAlloc_of_lt (by decide)
  refine ⟨hspace, ?_⟩
  rw [addrAndNameToURI_eq parse_localAddr hsn, hspace, halloc]
  change (if _ then _ else _) = _
  rw [if_neg (by omega)]

/-- A name of blanks that three octets each stand for: the size goes round to 15. -/
def longBlanks : CString := blanks 1431655766

theorem longBlanks_overruns :
    stringToName (some longBlanks) = .ok (plainName longBlanks) ∧
      uriSpace localAddr longBlanks = 15 ∧
      addrAndNameToURI (some localAddr) (some longBlanks) = .error .overrun ∧
      ¬ ∃ uri, addrAndNameToURI (some localAddr) (some longBlanks) = .ok uri ∧
        Denotes uri localParsed longBlanks (plainName longBlanks) := by
  have hsn : stringToName (some longBlanks) = .ok (plainName longBlanks) :=
    stringToName_blanks (by decide) (by decide)
  obtain ⟨hspace, hrun⟩ : uriSpace localAddr longBlanks = 15 ∧
      addrAndNameToURI (some localAddr) (some longBlanks) = .error .overrun :=
    addrAndNameToURI_blanks (by decide) (by decide) (by decide)
  refine ⟨hsn, hspace, hrun, ?_⟩
  rintro ⟨uri, huri, -⟩
  rw [hrun] at huri
  exact nomatch huri

end OmniORB
