import OmniORB.CodeSets.Utf8

/-!
# 8-bit code sets and the fast paths

`NCS_C_8bit` and `TCS_C_8bit` of `cs-8bit.cc`, and the fast paths that a transmission code set
offers to an 8-bit native code set. The argument `len` of the marshalling functions is 0 or the
length of the string, which is the same here. An exception abandons the stream.
-/

namespace OmniORB

/-- An 8-bit code set. Zero in any place except index zero means no mapping. -/
structure CodeSet8bit where
  id : ℕ
  toU : UInt8 → UniChar
  fromU : UniChar → UInt8
  toU_zero : toU 0 = 0
  fromU_zero : fromU 0 = 0

/-- `omniCodeSet::TCS_C`, as far as an 8-bit native code set calls it. A fast path answers `none`
where it returns false. -/
structure TCS_C where
  marshalString : ℕ → List UniChar → CdrOut → Except Exn CdrOut
  unmarshalString : ℕ → CdrIn → Except Exn (ℕ × List UniChar × CdrIn)
  fastMarshalString : CodeSet8bit → ℕ → List UInt8 → CdrOut → Except Exn (Option CdrOut)
  fastUnmarshalString : CodeSet8bit → ℕ → CdrIn → Except Exn (Option (ℕ × List UInt8) × CdrIn)

namespace CodeSet8bit

variable (cs : CodeSet8bit)

/-- `uc = toU[c]`, where an unmapped character raises an exception. -/
def mapToU (c : UInt8) : Except Exn UniChar :=
  if c ≠ 0 ∧ cs.toU c = 0 then .error .dataConversionCannotMapChar else .ok (cs.toU c)

/-- `c = fromU[uc]`, where an unmapped unit raises an exception. -/
def mapFromU (uc : UniChar) : Except Exn UInt8 :=
  if uc ≠ 0 ∧ cs.fromU uc = 0 then .error .dataConversionCannotMapChar else .ok (cs.fromU uc)

end CodeSet8bit

/-! ### Native code set -/

namespace NCS_C_8bit

variable (ncs : CodeSet8bit) (tcs : TCS_C)

/-- `NCS_C_8bit::marshalString` behind the fast path. -/
def genericMarshalString (bound : ℕ) (s : List UInt8) (out : CdrOut) : Except Exn CdrOut :=
  match (s ++ [0]).mapM ncs.mapToU with
  | .error e => .error e
  | .ok us => tcs.marshalString bound us out

def marshalString (bound : ℕ) (s : List UInt8) (out : CdrOut) : Except Exn CdrOut :=
  match tcs.fastMarshalString ncs bound s out with
  | .error e => .error e
  | .ok (some out) => .ok out
  | .ok none => genericMarshalString ncs tcs bound s out

/-- `NCS_C_8bit::unmarshalString` behind the fast path: the length and the octets with the NUL. -/
def genericUnmarshalString (bound : ℕ) (s : CdrIn) : Except Exn ((ℕ × List UInt8) × CdrIn) :=
  match tcs.unmarshalString bound s with
  | .error e => .error e
  | .ok (len, us, s) =>
    match us.mapM ncs.mapFromU with
    | .error e => .error e
    | .ok cs => .ok ((len, cs), s)

def unmarshalString (bound : ℕ) (s : CdrIn) : Except Exn ((ℕ × List UInt8) × CdrIn) :=
  match tcs.fastUnmarshalString ncs bound s with
  | .error e => .error e
  | .ok (some r, s) => .ok (r, s)
  | .ok (none, s) => genericUnmarshalString ncs tcs bound s

end NCS_C_8bit

/-! ### 8-bit transmission code set -/

namespace TCS_C_8bit

variable (tcs : CodeSet8bit)

def marshalString (bound : ℕ) (us : List UniChar) (out : CdrOut) : Except Exn CdrOut :=
  let len := us.length - 1
  if bound ≠ 0 ∧ bound < len then .error .marshalStringIsTooLong
  else
    match us.mapM tcs.mapFromU with
    | .error e => .error e
    | .ok cs => .ok ((out.marshalULong (len + 1)).putOctetArray cs)

/-- Take `mlen` octets and map them. -/
def unmarshalLoop : ℕ → CdrIn → Except Exn (List UniChar × CdrIn)
  | 0, s => .ok ([], s)
  | mlen + 1, s =>
    match s.unmarshalOctet with
    | .error e => .error e
    | .ok (c, s) =>
      match tcs.mapToU c with
      | .error e => .error e
      | .ok uc =>
        match unmarshalLoop mlen s with
        | .error e => .error e
        | .ok (us, s) => .ok (uc :: us, s)

def unmarshalString (strictIIOP : Bool) (bound : ℕ) (s : CdrIn) :
    Except Exn (ℕ × List UniChar × CdrIn) :=
  match unmarshalLength strictIIOP bound s with
  | .error e => .error e
  | .ok (none, s) => .ok (0, [0], s)
  | .ok (some mlen, s) =>
    match unmarshalLoop tcs mlen s with
    | .error e => .error e
    | .ok (us, s) =>
      if us.getLast? ≠ some 0 then .error .marshalStringNotEndWithNull
      else .ok (mlen - 1, us, s)

/-- With equal ids the transformation is null. -/
def fastMarshalString (ncs : CodeSet8bit) (bound : ℕ) (s : List UInt8) (out : CdrOut) :
    Except Exn (Option CdrOut) :=
  if ncs.id = tcs.id then
    if bound ≠ 0 ∧ bound < s.length then .error .marshalStringIsTooLong
    else .ok (some (out.marshalRawString s).1)
  else .ok none

def fastUnmarshalString (strictIIOP : Bool) (ncs : CodeSet8bit) (bound : ℕ) (s : CdrIn) :
    Except Exn (Option (ℕ × List UInt8) × CdrIn) :=
  if ncs.id = tcs.id then
    match unmarshalLength strictIIOP bound s with
    | .error e => .error e
    | .ok (none, s) => .ok (none, s)
    | .ok (some mlen, s) =>
      match s.getOctetArray mlen with
      | .error e => .error e
      | .ok (cs, s) =>
        if cs.getLast? ≠ some 0 then .error .marshalStringNotEndWithNull
        else .ok (some (mlen - 1, cs), s)
  else .ok (none, s)

/-- The transmission code set as the native code sets see it. -/
def toTCS_C (strictIIOP : Bool) : TCS_C where
  marshalString := marshalString tcs
  unmarshalString := unmarshalString tcs strictIIOP
  fastMarshalString := fastMarshalString tcs
  fastUnmarshalString := fastUnmarshalString tcs strictIIOP

end TCS_C_8bit

/-! ### UTF-8 transmission code set

The branches of its fast paths for `CS_8bit`. The id of an 8-bit code set is not that of UTF-8. -/

namespace TCS_C_UTF_8

variable (ncs : CodeSet8bit)

def fastMarshalLoop : List UInt8 → Except Exn (List UInt8)
  | [] => .ok [0]
  | c :: s =>
    let uc := (ncs.toU c).toNat
    if 0xd800 ≤ uc ∧ uc < 0xe000 then .error .dataConversionBadInput
    else
      match fastMarshalLoop s with
      | .error e => .error e
      | .ok b => .ok (insertUnit uc ++ b)

def fastMarshalString (bound : ℕ) (s : List UInt8) (out : CdrOut) : Except Exn (Option CdrOut) :=
  match fastMarshalLoop ncs s with
  | .error e => .error e
  | .ok b => (marshalBuffer bound b out).map some

/-- The loop of `fastUnmarshalString`, at most `fuel` times round with `left` octets to go. The
result holds the octets, the last unit and the stream behind. -/
def fastUnmarshalLoop : ℕ → ℕ → ℕ → CdrIn → Except Exn (List UInt8 × ℕ × CdrIn)
  | 0, _, uc, s => .ok ([], uc, s)
  | _ + 1, 0, uc, s => .ok ([], uc, s)
  | fuel + 1, left + 1, _, s =>
    match s.unmarshalOctet with
    | .error e => .error e
    | .ok (c, s) =>
      if utf8Count c = 6 then .error .dataConversionBadInput
      else if 3 ≤ utf8Count c then .error .dataConversionCannotMapChar
      else
        match readExt CdrIn.unmarshalOctet (utf8Count c) (c.toNat &&& utf8Mask c) s with
        | .error e => .error e
        | .ok (uc, s) =>
          match ncs.mapFromU (UInt16.ofNat uc) with
          | .error e => .error e
          | .ok b =>
            match fastUnmarshalLoop fuel (left - utf8Count c) uc s with
            | .error e => .error e
            | .ok (bs, uc', s) => .ok (b :: bs, uc', s)

def fastUnmarshalString (strictIIOP : Bool) (bound : ℕ) (s : CdrIn) :
    Except Exn (Option (ℕ × List UInt8) × CdrIn) :=
  match unmarshalLength strictIIOP bound s with
  | .error e => .error e
  | .ok (none, s) => .ok (none, s)
  | .ok (some mlen, s) =>
    match fastUnmarshalLoop ncs mlen mlen 0 s with
    | .error e => .error e
    | .ok (b, uc, s) =>
      if uc ≠ 0 then .error .marshalStringNotEndWithNull else .ok (some (b.length - 1, b), s)

/-- The transmission code set as the native code sets see it. -/
def toTCS_C (strictIIOP : Bool) : TCS_C where
  marshalString := marshalString
  unmarshalString := unmarshalString strictIIOP
  fastMarshalString := fastMarshalString
  fastUnmarshalString := fun ncs => fastUnmarshalString ncs strictIIOP

end TCS_C_UTF_8

end OmniORB
