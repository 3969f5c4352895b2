import OmniORB.Library.Align

/-!
# CDR memory streams

The part of `cdrStream` and `cdrMemoryStream` that the code set converters use. Positions are
offsets from the start of the stream's buffer, which is aligned to 8. The host is little-endian.
-/

namespace OmniORB

open Library

/-- The exceptions raised while marshalling and unmarshalling, by minor code; a communication
failure carries its message. The last two are none of the source's: a message of an older version
went to another implementation, and a loop was still running when the steps allowed to it ended. -/
inductive Exn where
  | dataConversionBadInput
  | dataConversionCannotMapChar
  | marshalStringIsTooLong
  | marshalStringNotEndWithNull
  | marshalPassEndOfMessage
  | marshalMessageSizeExceedLimit
  | marshalMessageSizeExceedLimitOnClient
  | marshalMessageSizeExceedLimitOnServer
  | commFailure (message : String)
  | terminateProcessing
  | assertionFailure
  | otherVersion
  | outOfFuel
  deriving DecidableEq, Repr

/-- `omni::alignment_t` -/
inductive Alignment where
  | align1 | align2 | align4 | align8
  deriving DecidableEq, Repr

def Alignment.size : Alignment → ℕ
  | .align1 => 1
  | .align2 => 2
  | .align4 => 4
  | .align8 => 8

lemma Alignment.size_pos (a : Alignment) : 0 < a.size := by cases a <;> decide

/-! ### ULong fields -/

/-- The octets of a `CORBA::ULong` in memory; the value is taken modulo `2 ^ 32`. -/
def ulongOctets (n : ℕ) : List UInt8 :=
  [UInt8.ofNat n, UInt8.ofNat (n / 0x100), UInt8.ofNat (n / 0x10000), UInt8.ofNat (n / 0x1000000)]

/-- The value of four octets, lowest first. -/
def ulongValue (a b c d : UInt8) : ℕ :=
  a.toNat + 0x100 * b.toNat + 0x10000 * c.toNat + 0x1000000 * d.toNat

@[simp] lemma length_ulongOctets (n : ℕ) : (ulongOctets n).length = 4 := rfl

lemma ulongValue_ulongOctets (n : ℕ) :
    ulongValue (UInt8.ofNat n) (UInt8.ofNat (n / 0x100)) (UInt8.ofNat (n / 0x10000))
      (UInt8.ofNat (n / 0x1000000)) = n % 2 ^ 32 := by
  simp only [ulongValue, UInt8.toNat_ofNat']
  omega

lemma ulongValue_lt (a b c d : UInt8) : ulongValue a b c d < 2 ^ 32 := by
  have ha := a.toNat_lt
  have hb := b.toNat_lt
  have hc := c.toNat_lt
  have hd := d.toNat_lt
  simp only [ulongValue]
  omega

/-! ### Output -/

/-- What has been written to a stream. Octets skipped by alignment keep what the buffer held
before, `stale`. -/
structure CdrOut where
  octets : List UInt8
  stale : ℕ → UInt8

namespace CdrOut

/-- `pd_outb_mkr` -/
def mkr (s : CdrOut) : ℕ := s.octets.length

/-- Move the marker up to an alignment. -/
def alignOutput (s : CdrOut) (a : Alignment) : CdrOut :=
  { s with octets := s.octets ++
      (List.range (alignTo s.mkr a.size - s.mkr)).map fun i => s.stale (s.mkr + i) }

def putOctetArray (s : CdrOut) (b : List UInt8) : CdrOut := { s with octets := s.octets ++ b }

def marshalOctet (s : CdrOut) (a : UInt8) : CdrOut := s.putOctetArray [a]

def marshalULong (s : CdrOut) (n : ℕ) : CdrOut := (s.alignOutput .align4).putOctetArray (ulongOctets n)

/-- Marshal a NUL-terminated string without conversion and return its length with the NUL. The
source writes into the buffer as far as it reaches and the rest through `put_octet_array`; the
octets are the same. -/
def marshalRawString (s : CdrOut) (str : List UInt8) : CdrOut × ℕ :=
  ((s.marshalULong (str.length + 1)).putOctetArray (str ++ [0]), str.length + 1)

@[simp] lemma stale_alignOutput (s : CdrOut) (a : Alignment) :
    (s.alignOutput a).stale = s.stale := rfl

@[simp] lemma stale_putOctetArray (s : CdrOut) (b : List UInt8) :
    (s.putOctetArray b).stale = s.stale := rfl

@[simp] lemma octets_putOctetArray (s : CdrOut) (b : List UInt8) :
    (s.putOctetArray b).octets = s.octets ++ b := rfl

@[simp] lemma putOctetArray_nil (s : CdrOut) : s.putOctetArray [] = s := by
  simp [putOctetArray]

@[simp] lemma putOctetArray_putOctetArray (s : CdrOut) (b c : List UInt8) :
    (s.putOctetArray b).putOctetArray c = s.putOctetArray (b ++ c) := by
  simp [putOctetArray]

lemma putOctetArray_inj {s : CdrOut} {b c : List UInt8} :
    s.putOctetArray b = s.putOctetArray c ↔ b = c := by
  simp [putOctetArray]

lemma length_alignOutput (s : CdrOut) (a : Alignment) :
    (s.alignOutput a).octets.length = alignTo s.mkr a.size := by
  have h := le_alignTo s.mkr a.size_pos
  simp only [alignOutput, List.length_append, List.length_map, List.length_range, mkr] at h ⊢
  omega

end CdrOut

/-! ### Input -/

/-- A stream to read from: the marker `pd_inb_mkr`, the octets from it to the end of the data,
and whether the sender's byte order differs. -/
structure CdrIn where
  mkr : ℕ
  unread : List UInt8
  byteSwap : Bool
  deriving DecidableEq, Repr

namespace CdrIn

/-- Move the marker over `n` octets. -/
def advance (s : CdrIn) (n : ℕ) : CdrIn :=
  { s with mkr := s.mkr + n, unread := s.unread.drop n }

def unmarshalOctet (s : CdrIn) : Except Exn (UInt8 × CdrIn) :=
  match s.unread with
  | [] => .error .marshalPassEndOfMessage
  | c :: _ => .ok (c, s.advance 1)

def unmarshalULong (s : CdrIn) : Except Exn (ℕ × CdrIn) :=
  let t := s.advance (alignTo s.mkr 4 - s.mkr)
  match t.unread with
  | a :: b :: c :: d :: _ =>
    .ok (if s.byteSwap then ulongValue d c b a else ulongValue a b c d, t.advance 4)
  | _ => .error .marshalPassEndOfMessage

/-- Whether `nItems` octets are left. -/
def checkInputOverrun (s : CdrIn) (nItems : ℕ) : Bool := nItems ≤ s.unread.length

def getOctetArray (s : CdrIn) (size : ℕ) : Except Exn (List UInt8 × CdrIn) :=
  if s.unread.length < size then .error .marshalPassEndOfMessage
  else .ok (s.unread.take size, s.advance size)

@[simp] lemma mkr_advance (s : CdrIn) (n : ℕ) : (s.advance n).mkr = s.mkr + n := rfl

@[simp] lemma unread_advance (s : CdrIn) (n : ℕ) : (s.advance n).unread = s.unread.drop n := rfl

@[simp] lemma byteSwap_advance (s : CdrIn) (n : ℕ) : (s.advance n).byteSwap = s.byteSwap := rfl

@[simp] lemma advance_zero (s : CdrIn) : s.advance 0 = s := by simp [advance]

lemma advance_advance (s : CdrIn) (m n : ℕ) : (s.advance m).advance n = s.advance (m + n) := by
  simp [advance, Nat.add_assoc]

lemma unmarshalOctet_cons {s : CdrIn} {c : UInt8} {t : List UInt8} (h : s.unread = c :: t) :
    s.unmarshalOctet = .ok (c, s.advance 1) := by
  simp [unmarshalOctet, h]

/-- Reading a length field consumes at least four octets. -/
lemma unmarshalULong_consumes {s t : CdrIn} {n : ℕ} (h : s.unmarshalULong = .ok (n, t)) :
    t.unread.length + 4 ≤ s.unread.length := by
  simp only [unmarshalULong] at h
  split at h
  · rename_i a b c d rest heq
    simp only [Except.ok.injEq, Prod.mk.injEq] at h
    obtain ⟨-, rfl⟩ := h
    have hlen := congrArg List.length heq
    simp only [unread_advance, List.length_drop, List.length_cons] at hlen ⊢
    omega
  · simp at h

end CdrIn

/-- A stream to read what was written between `out` and `after`, with `rest` behind it. -/
def CdrOut.readBack (out after : CdrOut) (rest : List UInt8) : CdrIn :=
  { mkr := out.mkr, unread := after.octets.drop out.mkr ++ rest, byteSwap := false }

/-- What is left of such a stream when all of it has been read. -/
def CdrOut.readAll (after : CdrOut) (rest : List UInt8) : CdrIn :=
  { mkr := after.mkr, unread := rest, byteSwap := false }

end OmniORB
