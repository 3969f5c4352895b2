import OmniORB.Library.Bits

/-!
# UTF-16 and UTF-8 forms of Unicode scalar values

Lean's `Char` is the type of Unicode scalar values and `String.utf8EncodeChar` its UTF-8 form.
`utf16EncodeChar` adds the UTF-16 form: one unit, or a surrogate pair for a supplementary
character.
-/

namespace OmniORB.Library

/-- The character lies outside the Basic Multilingual Plane. -/
def IsSupplementary (c : Char) : Prop := 0x10000 ≤ c.toNat

instance : DecidablePred IsSupplementary := fun c => Nat.decLe 0x10000 c.toNat

/-- A code unit reserved for surrogate pairs. -/
def IsSurrogate (u : UInt16) : Prop := 0xd800 ≤ u.toNat ∧ u.toNat < 0xe000

instance : DecidablePred IsSurrogate := fun u =>
  inferInstanceAs (Decidable (0xd800 ≤ u.toNat ∧ u.toNat < 0xe000))

/-- The UTF-16 form of one character. -/
def utf16EncodeChar (c : Char) : List UInt16 :=
  if c.toNat < 0x10000 then [UInt16.ofNat c.toNat]
  else [UInt16.ofNat ((c.toNat - 0x10000) / 0x400 + 0xd800),
        UInt16.ofNat ((c.toNat - 0x10000) % 0x400 + 0xdc00)]

/-- The UTF-16 form of a string of characters. -/
def utf16Encode (cs : List Char) : List UInt16 := cs.flatMap utf16EncodeChar

/-- The UTF-8 form of a string of characters. -/
def utf8Encode (cs : List Char) : List UInt8 := cs.flatMap String.utf8EncodeChar

@[simp] lemma utf16Encode_nil : utf16Encode [] = [] := rfl

@[simp] lemma utf16Encode_cons (c : Char) (cs : List Char) :
    utf16Encode (c :: cs) = utf16EncodeChar c ++ utf16Encode cs := rfl

@[simp] lemma utf8Encode_nil : utf8Encode [] = [] := rfl

@[simp] lemma utf8Encode_cons (c : Char) (cs : List Char) :
    utf8Encode (c :: cs) = String.utf8EncodeChar c ++ utf8Encode cs := rfl

/-- A scalar value is below the surrogates or above them, and at most `0x10ffff`. -/
lemma char_toNat_cases (c : Char) :
    c.toNat < 0xd800 ∨ (0xe000 ≤ c.toNat ∧ c.toNat < 0x110000) := by
  have h := c.valid
  simp only [UInt32.isValidChar, Nat.isValidChar] at h
  change c.toNat < 0xd800 ∨ (0xdfff < c.toNat ∧ c.toNat < 0x110000) at h
  omega

lemma char_toNat_ne_zero {c : Char} (h : c ≠ '\x00') : c.toNat ≠ 0 := by
  intro h0
  apply h
  apply Char.ext
  exact UInt32.toNat_inj.mp h0

/-- The four shapes of a UTF-8 sequence, by the size of the character. -/
lemma utf8EncodeChar_eq (c : Char) :
    String.utf8EncodeChar c =
      if c.toNat ≤ 0x7f then [UInt8.ofNat c.toNat]
      else if c.toNat ≤ 0x7ff then
        [UInt8.ofNat (c.toNat / 64 % 32 + 192), UInt8.ofNat (c.toNat % 64 + 128)]
      else if c.toNat ≤ 0xffff then
        [UInt8.ofNat (c.toNat / 4096 % 16 + 224), UInt8.ofNat (c.toNat / 64 % 64 + 128),
         UInt8.ofNat (c.toNat % 64 + 128)]
      else
        [UInt8.ofNat (c.toNat / 262144 % 8 + 240), UInt8.ofNat (c.toNat / 4096 % 64 + 128),
         UInt8.ofNat (c.toNat / 64 % 64 + 128), UInt8.ofNat (c.toNat % 64 + 128)] := rfl

end OmniORB.Library
