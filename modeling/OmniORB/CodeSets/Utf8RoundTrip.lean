import OmniORB.CodeSets.Utf8Character

/-!
# Round trips through the UTF-8 converters

A text is a list of characters without NUL. Its UTF-8 form goes through `NCS_C_UTF_8` to UTF-16
units and back, its UTF-16 form through `TCS_C_UTF_8` to marshalled octets and back. Either way
the text comes back exactly when every character survives the mask of the encoders.
-/

namespace OmniORB

open Library

/-- Characters that a string can hold. -/
abbrev Text := {cs : List Char // '\x00' ∉ cs}

namespace Text

/-- The well-formed UTF-8 octets of a text, up to the NUL. -/
def utf8 (t : Text) : List UInt8 := utf8Encode t.1

def Survives (t : Text) : Prop := ∀ c ∈ t.1, SurvivesMask c

end Text

lemma Except.map_eq_ok {ε α β : Type} {f : α → β} {x : Except ε α} {b : β}
    (h : x.map f = .ok b) : ∃ a, x = .ok a ∧ f a = b := by
  cases x with
  | error e => exact absurd h (by simp [Except.map])
  | ok a => exact ⟨a, rfl, Except.ok.inj h⟩

/-! ### Encoding a well-formed sequence -/

/-- One character of a well-formed sequence that has something behind it. -/
lemma encodeUnits_char (c : Char) {us : List UniChar} (hus : us ≠ []) :
    encodeUnits (utf16EncodeChar c ++ us) = (encodeUnits us).map (insertedOctets c ++ ·) := by
  have hc := char_toNat_cases c
  unfold utf16EncodeChar insertedOctets
  split_ifs with h
  · have hu : (UInt16.ofNat c.toNat).toNat = c.toNat := by
      rw [UInt16.toNat_ofNat']; omega
    rw [List.singleton_append]
    conv_lhs => unfold encodeUnits
    rw [hu]
    cases encodeUnits us <;> split_ifs <;> first | rfl | omega
  · obtain ⟨next, us, rfl⟩ := List.exists_cons_of_ne_nil hus
    have hhi : (UInt16.ofNat ((c.toNat - 0x10000) / 0x400 + 0xd800)).toNat =
        (c.toNat - 0x10000) / 0x400 + 0xd800 := by
      rw [UInt16.toNat_ofNat']; omega
    have hlo : (UInt16.ofNat ((c.toNat - 0x10000) % 0x400 + 0xdc00)).toNat =
        (c.toNat - 0x10000) % 0x400 + 0xdc00 := by
      rw [UInt16.toNat_ofNat']; omega
    have hlc : ((((c.toNat - 0x10000) / 0x400 + 0xd800 - 0xd800) <<< 10) +
        ((c.toNat - 0x10000) % 0x400 + 0xdc00) - 0xdc00 + 0x10000) = c.toNat := by
      rw [Nat.shiftLeft_eq]; omega
    rw [List.cons_append, List.cons_append, List.nil_append, encodeUnits, hhi, hlo, hlc,
      if_neg (by omega), if_pos (by omega), if_neg (by omega)]
    cases encodeUnits (next :: us) <;> rfl

lemma encodeUnits_utf16Encode (cs : List Char) :
    encodeUnits (utf16Encode cs ++ [0]) = .ok (cs.flatMap insertedOctets ++ [0]) := by
  induction cs with
  | nil => rfl
  | cons c cs ih =>
    rw [utf16Encode_cons, List.append_assoc, encodeUnits_char c (by simp), ih, List.flatMap_cons,
      List.append_assoc]
    rfl

namespace NCS_C_UTF_8

/-- Convert a string to units and the units back. -/
def roundTrip (s : List UInt8) : Except Exn (List UInt8) :=
  match toUniChars s with
  | .error e => .error e
  | .ok us => fromUniChars us

end NCS_C_UTF_8

/-! ### Transmission code set -/

namespace TCS_C_UTF_8

end TCS_C_UTF_8

/-! ### How many octets units need -/

/-- A lower bound for the octets a decoder reads for a unit. -/
def unitWeight (u : UniChar) : ℕ :=
  if u.toNat < 0x80 then 1
  else if u.toNat < 0x800 then 2
  else if u.toNat < 0xd800 then 3
  else if u.toNat < 0xe000 then 2
  else 3

def weight (us : List UniChar) : ℕ := (us.map unitWeight).sum

@[simp] lemma weight_nil : weight [] = 0 := rfl

/-- `n` extension characters multiply the range of a value by `64 ^ n`. -/
lemma readExt_lt {σ : Type} {next : σ → Except Exn (UInt8 × σ)} {n lc lc' : ℕ} {s t : σ}
    (h : readExt next n lc s = .ok (lc', t)) : lc' < (lc + 1) * 64 ^ n := by
  induction n generalizing lc s with
  | zero =>
    simp only [readExt, Except.ok.injEq, Prod.mk.injEq] at h
    omega
  | succ n ih =>
    rw [readExt_succ] at h
    split at h
    · simp at h
    · rename_i c u heq
      split at h
      · calc lc' < (lc * 64 + c.toNat % 64 + 1) * 64 ^ n := ih h
          _ ≤ ((lc + 1) * 64) * 64 ^ n := Nat.mul_le_mul_right _ (by omega)
          _ = (lc + 1) * 64 ^ (n + 1) := by rw [Nat.pow_succ]; ring
      · simp at h

/-- The lead octet leaves room for the bits of the shortest form only. -/
lemma masked_lt (c : UInt8) (h : utf8Count c < 4) :
    (c.toNat &&& utf8Mask c) + 1 ≤ match utf8Count c with
      | 0 => 0x80
      | 1 => 0x20
      | 2 => 0x10
      | _ => 0x08 := by
  have hle := Nat.and_le_right (n := c.toNat) (m := utf8Mask c)
  revert h hle
  unfold utf8Count utf8Mask
  split_ifs <;> simp <;> omega

/-- The range of a sequence, by the number of its extension characters. -/
lemma readExt_masked_lt {σ : Type} {next : σ → Except Exn (UInt8 × σ)} {c : UInt8} {lc : ℕ}
    {s t : σ} (hc : utf8Count c < 4)
    (h : readExt next (utf8Count c) (c.toNat &&& utf8Mask c) s = .ok (lc, t)) :
    lc < match utf8Count c with
      | 0 => 0x80
      | 1 => 0x800
      | 2 => 0x10000
      | _ => 0x200000 := by
  have hlt := readExt_lt h
  have hmask := masked_lt c hc
  generalize utf8Count c = n at hc hlt hmask ⊢
  interval_cases n <;> simp only at hmask ⊢ <;> omega

namespace TCS_C_UTF_8

/-- The units of a text come back from the octets they were marshalled to, if any were. -/
def ReadsBack (strictIIOP : Bool) (bound : ℕ) (us : List UniChar) (out : CdrOut)
    (rest : List UInt8) : Prop :=
  ∀ after, marshalString bound (us ++ [0]) out = .ok after →
    unmarshalString strictIIOP bound (out.readBack after rest) =
      .ok (us.length, us ++ [0], after.readAll rest)

end TCS_C_UTF_8

/-! ### Results -/

end OmniORB
