import OmniORB.CodeSets.Utf16

/-!
# 16-bit wide code sets and the fast paths

`NCS_W_16bit` and `TCS_W_16bit` of `cs-16bit.cc`, where wide characters have four octets and may be
signed. An exception comes with the stream as it then stands.
-/

namespace OmniORB

open Library

/-- `CORBA::CompletionStatus` -/
inductive Completion where
  | yes | no | maybe
  deriving DecidableEq, Repr

/-- The exceptions of the wide functions, with their completion status where they set it. -/
inductive WideExn where
  | cdr (e : Exn)
  | wcharOutOfRange (completion : Completion)
  | cannotMapChar (completion : Completion)
  | wstringIsTooLong (completion : Completion)
  | invalidWCharSize (completion : Completion)
  | passEndOfMessage (completion : Completion)
  deriving DecidableEq, Repr

/-- A 16-bit code set. Both tables have one page for each high octet. Zero in any place except index
zero means no mapping. -/
structure CodeSet16bit where
  id : ℕ
  toU : UInt16 → UniChar
  fromU : UniChar → UInt16

/-- The low 16 bits of a wide character. -/
def lowUnit (wc : ℤ) : UInt16 := UInt16.ofNat (wc % 2 ^ 16).toNat

namespace CodeSet16bit

variable (cs : CodeSet16bit) (completion : Completion)

/-- `uc = pd_toU[..][..]` of a unit. -/
def mapToU (tc : UInt16) : Except WideExn UniChar :=
  if tc ≠ 0 ∧ cs.toU tc = 0 then .error (.cannotMapChar completion) else .ok (cs.toU tc)

/-- `pd_fromU[..][..]` -/
def mapFromU (uc : UniChar) : Except WideExn UInt16 :=
  if uc ≠ 0 ∧ cs.fromU uc = 0 then .error (.cannotMapChar completion) else .ok (cs.fromU uc)

/-- `uc = pd_toU[..][..]` of a wide character, behind the check of its range. -/
def mapWChar (wc : ℤ) : Except WideExn UniChar :=
  if 0xffff < wc then .error (.wcharOutOfRange completion)
  else if wc ≠ 0 ∧ cs.toU (lowUnit wc) = 0 then .error (.cannotMapChar completion)
  else .ok (cs.toU (lowUnit wc))

end CodeSet16bit

/-! ### Transmission code set -/

namespace TCS_W_16bit

variable (host order : ByteOrder) (completion : Completion)

/-- The two octets of a unit, swapped if `marshal_byte_swap` says so. -/
def marshalUnit (tc : UInt16) (out : CdrOut) : CdrOut :=
  let p := host.octets 2 tc.toNat
  out.putOctetArray (if order ≠ host then p.reverse else p)

/-- `marshalWChar`, from the unit on. -/
def putWChar (tc : UInt16) (out : CdrOut) : CdrOut := marshalUnit host order tc (out.marshalOctet 2)

/-- The switch over the size. `sizeCompletion` is the status of the exception for a size that is not
known. -/
def unmarshalUnit (sizeCompletion : Completion) (s : CdrIn) :
    Except (WideExn × CdrIn) (UInt16 × CdrIn) :=
  match s.unmarshalOctet with
  | .error e => .error (.cdr e, s)
  | .ok (len, s) =>
    if len = 0 then .ok (0, s)
    else if len = 1 then
      match s.unmarshalOctet with
      | .error e => .error (.cdr e, s)
      | .ok (o, s) => .ok (UInt16.ofNat o.toNat, s)
    else if len = 2 then
      match s.unmarshalOctet with
      | .error e => .error (.cdr e, s)
      | .ok (a, s) =>
        match s.unmarshalOctet with
        | .error e => .error (.cdr e, s)
        | .ok (b, s) =>
          .ok (UInt16.ofNat (if s.byteSwap then host.value [b, a] else host.value [a, b]), s)
    else .error (.invalidWCharSize sizeCompletion, s)

/-- The length of a string in units, and its checks. -/
def unmarshalWLength (bound : ℕ) (s : CdrIn) : Except (WideExn × CdrIn) (ℕ × CdrIn) :=
  match s.unmarshalWord host .align4 with
  | .error e => .error (.cdr e, s)
  | .ok (mlen, s) =>
    if mlen % 2 ≠ 0 then .error (.invalidWCharSize completion, s)
    else
      let len := mlen / 2
      if bound ≠ 0 ∧ bound < len then .error (.wstringIsTooLong completion, s)
      else if ¬s.checkInputOverrun mlen then .error (.passEndOfMessage completion, s)
      else .ok (len, s)

/-- The loop over the units of a string, each of which is turned into something. -/
def unmarshalLoop {α : Type} (f : UInt16 → Except WideExn α) :
    ℕ → CdrIn → Except (WideExn × CdrIn) (List α × CdrIn)
  | 0, s => .ok ([], s)
  | n + 1, s =>
    match s.unmarshalWord host .align2 with
    | .error e => .error (.cdr e, s)
    | .ok (tc, s) =>
      match f (UInt16.ofNat tc) with
      | .error e => .error (e, s)
      | .ok a =>
        match unmarshalLoop f n s with
        | .error e => .error e
        | .ok (l, s) => .ok (a :: l, s)

section Generic

variable (tcs : CodeSet16bit)

def marshalWChar (uc : UniChar) (out : CdrOut) : Except (WideExn × CdrOut) CdrOut :=
  match tcs.mapFromU completion uc with
  | .error e => .error (e, out)
  | .ok tc => .ok (putWChar host order tc out)

def marshalLoop : List UniChar → CdrOut → Except (WideExn × CdrOut) CdrOut
  | [], out => .ok out
  | uc :: us, out =>
    match tcs.mapFromU completion uc with
    | .error e => .error (e, out)
    | .ok tc => marshalLoop us (out.marshalWord order .align2 tc.toNat)

/-- The units have their terminator with them, which is not marshalled. -/
def marshalWString (len : ℕ) (us : List UniChar) (out : CdrOut) :
    Except (WideExn × CdrOut) CdrOut :=
  let mlen := len * 2 % 2 ^ 32
  marshalLoop order completion tcs (us.take len) (out.marshalWord order .align4 mlen)

def unmarshalWChar (s : CdrIn) : Except (WideExn × CdrIn) (UniChar × CdrIn) :=
  match unmarshalUnit host completion s with
  | .error e => .error e
  | .ok (tc, s) =>
    match tcs.mapToU completion tc with
    | .error e => .error (e, s)
    | .ok uc => .ok (uc, s)

/-- The length, and the units with their terminator. -/
def unmarshalWString (bound : ℕ) (s : CdrIn) :
    Except (WideExn × CdrIn) ((ℕ × List UniChar) × CdrIn) :=
  match unmarshalWLength host completion bound s with
  | .error e => .error e
  | .ok (len, s) =>
    match unmarshalLoop host (tcs.mapToU completion) len s with
    | .error e => .error e
    | .ok (us, s) => .ok ((len, us ++ [0]), s)

end Generic

/-! ### Fast paths -/

def fastMarshalWChar (wc : ℤ) (out : CdrOut) : Except (WideExn × CdrOut) CdrOut :=
  if 0xffff < wc then .error (.wcharOutOfRange completion, out)
  else .ok (putWChar host order (lowUnit wc) out)

def fastMarshalLoop : List ℤ → CdrOut → CdrOut
  | [], out => out
  | wc :: ws, out => fastMarshalLoop ws (out.marshalWord order .align2 (lowUnit wc).toNat)

/-- There is no check of the characters. -/
def fastMarshalWString (bound : ℕ) (ws : List ℤ) (out : CdrOut) :
    Except (WideExn × CdrOut) CdrOut :=
  if bound ≠ 0 ∧ bound < ws.length then .error (.wstringIsTooLong completion, out)
  else
    let mlen := ws.length * 2 % 2 ^ 32
    .ok (fastMarshalLoop order ws (out.marshalWord order .align4 mlen))

/-- The exception for the size says `COMPLETED_NO` on every stream. -/
def fastUnmarshalWChar (s : CdrIn) : Except (WideExn × CdrIn) (ℤ × CdrIn) :=
  match unmarshalUnit host .no s with
  | .error e => .error e
  | .ok (tc, s) => .ok (tc.toNat, s)

def fastUnmarshalWString (bound : ℕ) (s : CdrIn) :
    Except (WideExn × CdrIn) ((ℕ × List ℤ) × CdrIn) :=
  match unmarshalWLength host completion bound s with
  | .error e => .error e
  | .ok (len, s) =>
    match unmarshalLoop host (fun tc => .ok (tc.toNat : ℤ)) len s with
    | .error e => .error e
    | .ok (ws, s) => .ok ((len, ws ++ [0]), s)

end TCS_W_16bit

/-! ### Native code set -/

namespace NCS_W_16bit

variable (ncs tcs : CodeSet16bit) (host order : ByteOrder) (completion : Completion)

/-- `marshalWChar` behind the fast path. -/
def genericMarshalWChar (wc : ℤ) (out : CdrOut) : Except (WideExn × CdrOut) CdrOut :=
  match ncs.mapWChar completion wc with
  | .error e => .error (e, out)
  | .ok uc => TCS_W_16bit.marshalWChar host order completion tcs uc out

def marshalWChar (wc : ℤ) (out : CdrOut) : Except (WideExn × CdrOut) CdrOut :=
  if ncs.id = tcs.id then TCS_W_16bit.fastMarshalWChar host order completion wc out
  else genericMarshalWChar ncs tcs host order completion wc out

/-- `marshalWString` behind the fast path. The string is given without its terminator, which is
converted too. -/
def genericMarshalWString (bound : ℕ) (ws : List ℤ) (out : CdrOut) :
    Except (WideExn × CdrOut) CdrOut :=
  if bound ≠ 0 ∧ bound < ws.length then .error (.wstringIsTooLong completion, out)
  else
    match (ws ++ [0]).mapM (ncs.mapWChar completion) with
    | .error e => .error (e, out)
    | .ok us => TCS_W_16bit.marshalWString order completion tcs ws.length us out

def marshalWString (bound : ℕ) (ws : List ℤ) (out : CdrOut) : Except (WideExn × CdrOut) CdrOut :=
  if ncs.id = tcs.id then TCS_W_16bit.fastMarshalWString order completion bound ws out
  else genericMarshalWString ncs tcs order completion bound ws out

/-- `unmarshalWChar` behind the fast path. -/
def genericUnmarshalWChar (s : CdrIn) : Except (WideExn × CdrIn) (ℤ × CdrIn) :=
  match TCS_W_16bit.unmarshalWChar host completion tcs s with
  | .error e => .error e
  | .ok (uc, s) =>
    match ncs.mapFromU completion uc with
    | .error e => .error (e, s)
    | .ok wc => .ok (wc.toNat, s)

def unmarshalWChar (s : CdrIn) : Except (WideExn × CdrIn) (ℤ × CdrIn) :=
  if ncs.id = tcs.id then TCS_W_16bit.fastUnmarshalWChar host s
  else genericUnmarshalWChar ncs tcs host completion s

/-- `unmarshalWString` behind the fast path: the length, and the characters with their
terminator. -/
def genericUnmarshalWString (bound : ℕ) (s : CdrIn) :
    Except (WideExn × CdrIn) ((ℕ × List ℤ) × CdrIn) :=
  match TCS_W_16bit.unmarshalWString host completion tcs bound s with
  | .error e => .error e
  | .ok ((len, us), s) =>
    match us.mapM (ncs.mapFromU completion) with
    | .error e => .error (e, s)
    | .ok ws => .ok ((len, ws.map fun wc => (wc.toNat : ℤ)), s)

def unmarshalWString (bound : ℕ) (s : CdrIn) : Except (WideExn × CdrIn) ((ℕ × List ℤ) × CdrIn) :=
  if ncs.id = tcs.id then TCS_W_16bit.fastUnmarshalWString host completion bound s
  else genericUnmarshalWString ncs tcs host completion bound s

end NCS_W_16bit

end OmniORB
