import OmniORB.Cdr.Stream
import OmniORB.Library.Unicode

/-!
# The UTF-8 native and transmission code sets

`NCS_C_UTF_8` and `TCS_C_UTF_8` of `cs-UTF-8.cc`, without their fast paths. A `char*` is the list
of its octets before the NUL; a `UniChar*` with its `len` is a list that ends in the terminator at
index `len`. `_CORBA_ULong` lengths are natural numbers, cut to 32 bits where they are marshalled.
-/

namespace OmniORB

/-- `omniCodeSet::UniChar`: a UTF-16 code unit. -/
abbrev UniChar := UInt16

/-- Table indicating how many bytes follow the first byte of a UTF-8 sequence. -/
def utf8Count (c : UInt8) : ℕ :=
  if c.toNat < 0x80 then 0
  else if c.toNat < 0xc0 then 6
  else if c.toNat < 0xe0 then 1
  else if c.toNat < 0xf0 then 2
  else if c.toNat < 0xf8 then 3
  else if c.toNat < 0xfc then 4
  else if c.toNat < 0xfe then 5
  else 6

/-- Mask to remove the prefix bits from the first byte of a UTF-8 sequence. -/
def utf8Mask (c : UInt8) : ℕ :=
  if c.toNat < 0x80 then 0x7f
  else if c.toNat < 0xc0 then 0x00
  else if c.toNat < 0xe0 then 0x1f
  else if c.toNat < 0xf0 then 0x0f
  else if c.toNat < 0xf8 then 0x07
  else if c.toNat < 0xfc then 0x03
  else if c.toNat < 0xfe then 0x01
  else 0x00

/-- Validate an extension character. -/
def validateExt (c : UInt8) : Except Exn Unit :=
  if (c.toNat &&& 0xc0) ^^^ 0x80 ≠ 0 then .error .dataConversionBadInput else .ok ()

/-- The cases 3, 2 and 1 of the decoders' switch, which fall through: take `n` extension
characters from a source of octets. -/
def readExt {σ : Type} (next : σ → Except Exn (UInt8 × σ)) :
    ℕ → ℕ → σ → Except Exn (ℕ × σ)
  | 0, lc, s => .ok (lc, s)
  | n + 1, lc, s =>
    match next s with
    | .error e => .error e
    | .ok (c, s) =>
      match validateExt c with
      | .error e => .error e
      | .ok () => readExt next n ((lc <<< 6) ||| (c.toNat &&& 0x3f)) s

/-- What the decoders insert for a code point: a single character or a surrogate pair. -/
def insertCodePoint (lc : ℕ) : List UniChar :=
  if lc ≤ 0xffff then [UInt16.ofNat lc]
  else [UInt16.ofNat (((lc - 0x10000) >>> 10) + 0xd800),
        UInt16.ofNat (((lc - 0x10000) &&& 0x3ff) + 0xdc00)]

/-- The octets inserted for a unit below `0x0800`, or for a single unit from there on. -/
def insertUnit (uc : ℕ) : List UInt8 :=
  if uc < 0x0080 then [UInt8.ofNat uc]
  else if uc < 0x0800 then
    [UInt8.ofNat (0xc0 ||| ((uc &&& 0x07c0) >>> 6)), UInt8.ofNat (0x80 ||| (uc &&& 0x003f))]
  else
    [UInt8.ofNat (0xe0 ||| ((uc &&& 0xf000) >>> 12)),
     UInt8.ofNat (0x80 ||| ((uc &&& 0x0fc0) >>> 6)),
     UInt8.ofNat (0x80 ||| (uc &&& 0x003f))]

/-- The octets inserted for a surrogate pair with code point `lc`. -/
def insertPair (lc : ℕ) : List UInt8 :=
  [UInt8.ofNat (0xf0 ||| ((lc &&& 0x001c0000) >>> 18)),
   UInt8.ofNat (0x80 ||| ((lc &&& 0x0003f000) >>> 12)),
   UInt8.ofNat (0x80 ||| ((lc &&& 0x00000fc0) >>> 6)),
   UInt8.ofNat (0x80 ||| (lc &&& 0x000000ef))]

/-- The loop over `us[0..len]` that `NCS_C_UTF_8::unmarshalString` and
`TCS_C_UTF_8::marshalString` both contain. The last element of the list is `us[len]`, so a first
half of a surrogate pair with fewer than two elements behind it has no second half. -/
def encodeUnits : List UniChar → Except Exn (List UInt8)
  | [] => .ok []
  | uc :: us =>
    if uc.toNat < 0xd800 then
      match encodeUnits us with
      | .error e => .error e
      | .ok b => .ok (insertUnit uc.toNat ++ b)
    else if uc.toNat < 0xdc00 then
      match us with
      | lo :: next :: us =>
        if lo.toNat < 0xdc00 ∨ 0xdfff < lo.toNat then .error .dataConversionBadInput
        else
          match encodeUnits (next :: us) with
          | .error e => .error e
          | .ok b =>
            .ok (insertPair (((uc.toNat - 0xd800) <<< 10) + lo.toNat - 0xdc00 + 0x10000) ++ b)
      | _ => .error .dataConversionBadInput
    else if uc.toNat < 0xe000 then .error .dataConversionBadInput
    else
      match encodeUnits us with
      | .error e => .error e
      | .ok b => .ok (insertUnit uc.toNat ++ b)

/-! ### Native code set -/

namespace NCS_C_UTF_8

/-- `c = *s++` -/
def next : List UInt8 → Except Exn (UInt8 × List UInt8)
  | [] => .ok (0, [])
  | c :: s => .ok (c, s)

/-- The loop of `marshalString`, at most `n` times round. -/
def marshalLoop : ℕ → List UInt8 → Except Exn (List UniChar)
  | 0, _ => .ok []
  | _ + 1, [] => .ok []
  | n + 1, c :: s =>
    if 4 ≤ utf8Count c then .error .dataConversionCannotMapChar
    else
      match readExt next (utf8Count c) (c.toNat &&& utf8Mask c) s with
      | .error e => .error e
      | .ok (lc, s) =>
        match marshalLoop n s with
        | .error e => .error e
        | .ok us => .ok (insertCodePoint lc ++ us)

/-- The units `marshalString` hands to the transmission code set, with their terminator. -/
def toUniChars (s : List UInt8) : Except Exn (List UniChar) :=
  match marshalLoop s.length s with
  | .error e => .error e
  | .ok us => .ok (us ++ [0])

/-- The string `unmarshalString` makes of the units the transmission code set returned. -/
def fromUniChars (us : List UniChar) : Except Exn (List UInt8) := encodeUnits us

end NCS_C_UTF_8

/-! ### Transmission code set -/

/-- The checks that every `unmarshalString` and `fastUnmarshalString` makes on the length field: the
length, or `none` for the zero that is let pass unless `strictIIOP` is set. -/
def unmarshalLength (strictIIOP : Bool) (bound : ℕ) (s : CdrIn) :
    Except Exn (Option ℕ × CdrIn) :=
  match s.unmarshalULong with
  | .error e => .error e
  | .ok (mlen, s) =>
    if mlen = 0 then
      if strictIIOP then .error .marshalStringNotEndWithNull else .ok (none, s)
    else if bound ≠ 0 ∧ bound < mlen - 1 then .error .marshalStringIsTooLong
    else if ¬ s.checkInputOverrun mlen then .error .marshalPassEndOfMessage
    else .ok (some mlen, s)

namespace TCS_C_UTF_8

/-- How `marshalString` and `fastMarshalString` write the octets they have collected. -/
def marshalBuffer (bound : ℕ) (b : List UInt8) (out : CdrOut) : Except Exn CdrOut :=
  let mlen := b.length % 2 ^ 32
  if bound ≠ 0 ∧ bound < (mlen + 0xffffffff) % 2 ^ 32 then .error .marshalStringIsTooLong
  else .ok ((out.marshalULong mlen).putOctetArray (b.take mlen))

/-- `TCS_C_UTF_8::marshalString`; `us` has its terminator at index `len`. -/
def marshalString (bound : ℕ) (us : List UniChar) (out : CdrOut) : Except Exn CdrOut :=
  match encodeUnits us with
  | .error e => .error e
  | .ok b => marshalBuffer bound b out

/-- The loop of `unmarshalString`, at most `fuel` times round with `left` octets to go. The
result holds the units, the last code point and the stream behind. -/
def unmarshalLoop : ℕ → ℕ → ℕ → CdrIn → Except Exn (List UniChar × ℕ × CdrIn)
  | 0, _, lc, s => .ok ([], lc, s)
  | _ + 1, 0, lc, s => .ok ([], lc, s)
  | fuel + 1, left + 1, _, s =>
    match s.unmarshalOctet with
    | .error e => .error e
    | .ok (c, s) =>
      if utf8Count c = 6 then .error .dataConversionBadInput
      else if 4 ≤ utf8Count c then .error .dataConversionCannotMapChar
      else
        match readExt CdrIn.unmarshalOctet (utf8Count c) (c.toNat &&& utf8Mask c) s with
        | .error e => .error e
        | .ok (lc, s) =>
          match unmarshalLoop fuel (left - utf8Count c) lc s with
          | .error e => .error e
          | .ok (us, lc', s) => .ok (insertCodePoint lc ++ us, lc', s)

/-- `TCS_C_UTF_8::unmarshalString`: the length without the terminator, and the units with it. -/
def unmarshalString (strictIIOP : Bool) (bound : ℕ) (s : CdrIn) :
    Except Exn (ℕ × List UniChar × CdrIn) :=
  match unmarshalLength strictIIOP bound s with
  | .error e => .error e
  | .ok (none, s) => .ok (0, [0], s)
  | .ok (some len, s) =>
    match unmarshalLoop len len 0 s with
    | .error e => .error e
    | .ok (us, lc, s) =>
      if lc ≠ 0 then .error .marshalStringNotEndWithNull else .ok (us.length - 1, us, s)

end TCS_C_UTF_8

end OmniORB
