import OmniORB.Cdr.Stream
import OmniORB.Uri.Names

/-!
# CDR encapsulations

`cdrEncapsulationStream` with what is put in the components of an IOR: short and long integers, raw
strings and sequences. A writer is a function on the stream that it writes to, a reader a state
monad; `ReadsBack` says that the one reads what the other writes, whatever stands around it. The
streams of this module clear their memory, so that alignment leaves zeros.
-/

namespace OmniORB

open Library

/-- What ends a function that reads or fills an IOR, other than its return. -/
inductive IorExn where
  | cdr (e : Exn)
  | badParamInvalidInitialSize
  | marshalSequenceIsTooLong
  | marshalInvalidIOR
  deriving DecidableEq, Repr

/-! ### UShort fields -/

/-- The octets of a `CORBA::UShort` in memory. -/
def ushortOctets (n : UInt16) : List UInt8 := [UInt8.ofNat n.toNat, UInt8.ofNat (n.toNat / 0x100)]

/-- The value of two octets, the lower one first. -/
def ushortValue (a b : UInt8) : UInt16 := UInt16.ofNat (a.toNat + 0x100 * b.toNat)

lemma ushortValue_ushortOctets (n : UInt16) :
    ushortValue (UInt8.ofNat n.toNat) (UInt8.ofNat (n.toNat / 0x100)) = n := by
  have hn := n.toNat_lt
  apply UInt16.toNat_inj.mp
  rw [ushortValue, UInt16.toNat_ofNat', UInt8.toNat_ofNat', UInt8.toNat_ofNat']
  omega

/-! ### Writing -/

namespace CdrOut

def marshalBoolean (s : CdrOut) (b : Bool) : CdrOut := s.marshalOctet (if b then 1 else 0)

def marshalUShort (s : CdrOut) (n : UInt16) : CdrOut :=
  (s.alignOutput .align2).putOctetArray (ushortOctets n)

/-- `_CORBA_Sequence_Octet::operator>>=` -/
def marshalOctetSeq (s : CdrOut) (b : List UInt8) : CdrOut :=
  (s.marshalULong b.length).putOctetArray b

/-- `_CORBA_Unbounded_Sequence<T>::operator>>=` -/
def marshalSequence {α : Type} (item : CdrOut → α → CdrOut) (s : CdrOut) (l : List α) : CdrOut :=
  l.foldl item (s.marshalULong l.length)

/-- A new `cdrEncapsulationStream`, with `omni::myByteOrder`. -/
def encapsulation : CdrOut := (CdrOut.mk [] fun _ => 0).marshalOctet 1

@[simp] lemma mkr_encapsulation : encapsulation.mkr = 1 := rfl

@[simp] lemma mkr_alignOutput (s : CdrOut) (a : Alignment) :
    (s.alignOutput a).mkr = alignTo s.mkr a.size := s.length_alignOutput a

@[simp] lemma mkr_putOctetArray (s : CdrOut) (b : List UInt8) :
    (s.putOctetArray b).mkr = s.mkr + b.length := List.length_append

@[simp] lemma mkr_marshalUShort (s : CdrOut) (n : UInt16) :
    (s.marshalUShort n).mkr = alignTo s.mkr 2 + 2 := by
  simp [marshalUShort, Alignment.size, ushortOctets]

@[simp] lemma mkr_marshalULong (s : CdrOut) (n : ℕ) :
    (s.marshalULong n).mkr = alignTo s.mkr 4 + 4 := by
  simp [marshalULong, Alignment.size]

@[simp] lemma mkr_marshalRawString (s : CdrOut) (str : List UInt8) :
    (s.marshalRawString str).1.mkr = alignTo s.mkr 4 + 4 + (str.length + 1) := by
  simp [marshalRawString]

end CdrOut

/-- `getOctetStream`: all the octets of an encapsulation that something is written to. -/
def encapsulate (w : CdrOut → CdrOut) : List UInt8 := (w .encapsulation).octets

lemma length_encapsulate (w : CdrOut → CdrOut) :
    (encapsulate w).length = (w .encapsulation).mkr := rfl

/-! ### Reading -/

/-- A function that reads from a stream. -/
abbrev Unmarshal (α : Type) := StateT CdrIn (Except IorExn) α

namespace CdrIn

def unmarshalUShort (s : CdrIn) : Except Exn (UInt16 × CdrIn) :=
  let t := s.advance (alignTo s.mkr 2 - s.mkr)
  match t.unread with
  | a :: b :: _ => .ok (if s.byteSwap then ushortValue b a else ushortValue a b, t.advance 2)
  | _ => .error .marshalPassEndOfMessage

/-- A `cdrEncapsulationStream` on octets that it gets. -/
def ofEncapsulation (data : List UInt8) : Except IorExn CdrIn :=
  if data.length < 1 then .error .badParamInvalidInitialSize
  else do
    let endian ← (unmarshalOctet ⟨0, data, false⟩).mapError .cdr
    .ok { endian.2 with byteSwap := endian.1 = 0 }

end CdrIn

namespace Unmarshal

variable {α : Type}

def ofCdr (f : CdrIn → Except Exn (α × CdrIn)) : Unmarshal α := fun s => (f s).mapError .cdr

def boolean : Unmarshal Bool := do
  let o ← ofCdr CdrIn.unmarshalOctet
  return o ≠ 0

def ushort : Unmarshal UInt16 := ofCdr CdrIn.unmarshalUShort

def ulong : Unmarshal ℕ := ofCdr CdrIn.unmarshalULong

def octetArray (size : ℕ) : Unmarshal (List UInt8) := ofCdr fun s => s.getOctetArray size

/-- `checkInputOverrun(1, n)`, with the exception where it fails. -/
def checkOverrun (n : ℕ) (e : IorExn) : Unmarshal Unit := fun s =>
  if s.checkInputOverrun n then .ok ((), s) else .error e

/-- `unmarshalRawString` -/
def rawString : Unmarshal CString := do
  let len ← ulong
  if len = 0 then throw (.cdr .marshalStringNotEndWithNull)
  else
    checkOverrun len (.cdr .marshalPassEndOfMessage)
    let s ← octetArray len
    if s.getLast? = some 0 then return .ofBuffer s
    else throw (.cdr .marshalStringNotEndWithNull)

/-- `_CORBA_Sequence_Octet::operator<<=` -/
def octetSeq : Unmarshal (List UInt8) := do
  let l ← ulong
  checkOverrun l .marshalSequenceIsTooLong
  octetArray l

/-- `n` items, one after the other. -/
def items (item : Unmarshal α) : ℕ → Unmarshal (List α)
  | 0 => pure []
  | n + 1 => do
    let a ← item
    let l ← items item n
    return a :: l

/-- `_CORBA_Unbounded_Sequence<T>::operator<<=` -/
def sequence (item : Unmarshal α) : Unmarshal (List α) := do
  let l ← ulong
  checkOverrun l .marshalSequenceIsTooLong
  items item l

/-- What a function reads from an encapsulation. -/
def fromEncapsulation (data : List UInt8) (r : Unmarshal α) : Except IorExn α := do
  let e ← CdrIn.ofEncapsulation data
  let a ← r.run e
  .ok a.1

end Unmarshal

/-! ### Reading what was written -/

/-- `r` reads `a` from what `w` writes. -/
structure ReadsBack {α : Type} (w : CdrOut → CdrOut) (r : Unmarshal α) (a : α) : Prop where
  appends : ∀ out, ∃ b, (w out).octets = out.octets ++ b
  run : ∀ out rest, r (out.readBack (w out) rest) = .ok (a, (w out).readAll rest)

lemma CdrOut.readBack_append {out after : CdrOut} {b : List UInt8}
    (h : after.octets = out.octets ++ b) (rest : List UInt8) :
    out.readBack after rest = ⟨out.mkr, b ++ rest, false⟩ := by
  simp [readBack, h, mkr]

namespace ReadsBack

variable {α β : Type} {w v : CdrOut → CdrOut} {r : Unmarshal α} {a : α}

protected lemma pure (a : α) : ReadsBack (fun out => out) (pure a) a where
  appends out := ⟨[], by simp⟩
  run out rest := by
    rw [CdrOut.readBack_append (b := []) (by simp)]
    rfl

/-- What comes after in a reader, reads what was written after. -/
lemma run_bind {k : α → Unmarshal β} (h : ReadsBack w r a) (hv : ∀ out, ∃ b, (v out).octets = out.octets ++ b)
    (out : CdrOut) (rest : List UInt8) :
    (r >>= k) (out.readBack (v (w out)) rest) = k a ((w out).readBack (v (w out)) rest) := by
  obtain ⟨c, hc⟩ := h.appends out
  obtain ⟨d, hd⟩ := hv (w out)
  have hall : (v (w out)).octets = out.octets ++ (c ++ d) := by
    rw [hd, hc, List.append_assoc]
  have hsplit : out.readBack (v (w out)) rest = out.readBack (w out) (d ++ rest) := by
    rw [CdrOut.readBack_append hall, CdrOut.readBack_append hc, List.append_assoc]
  have hnext : (w out).readAll (d ++ rest) = (w out).readBack (v (w out)) rest := by
    rw [CdrOut.readBack_append hd, CdrOut.readAll]
  have hfirst := h.run out (d ++ rest)
  rw [hnext] at hfirst
  change (r (out.readBack (v (w out)) rest) >>= fun p => k p.1 p.2) = _
  rw [hsplit, hfirst]
  rfl

/-- What reads back, does so in front of more that reads back. -/
lemma bind {k : α → Unmarshal β} {b : β} (h : ReadsBack w r a) (hk : ReadsBack v (k a) b) :
    ReadsBack (fun out => v (w out)) (r >>= k) b where
  appends out := by
    obtain ⟨c, hc⟩ := h.appends out
    obtain ⟨d, hd⟩ := hk.appends (w out)
    exact ⟨c ++ d, by rw [hd, hc, List.append_assoc]⟩
  run out rest := by
    rw [h.run_bind hk.appends]
    exact hk.run (w out) rest

lemma octetArray (b : List UInt8) :
    ReadsBack (fun out => out.putOctetArray b) (Unmarshal.octetArray b.length) b where
  appends out := ⟨b, rfl⟩
  run out rest := by
    have hin := CdrOut.readBack_append (out.octets_putOctetArray b) rest
    have hget : (CdrIn.mk out.mkr (b ++ rest) false).getOctetArray b.length =
        .ok (b, (out.putOctetArray b).readAll rest) := by
      simp [CdrIn.getOctetArray, CdrIn.advance, CdrOut.readAll, CdrOut.mkr]
    change Except.mapError _ (CdrIn.getOctetArray _ _) = _
    rw [hin, hget]
    rfl

/-- An aligned field of `n` octets. -/
lemma of_aligned {f : CdrIn → Except Exn (α × CdrIn)} (al : Alignment) {b : List UInt8}
    (hf : ∀ s t : CdrIn, s.byteSwap = false → s.advance (alignTo s.mkr al.size - s.mkr) = t →
      b <+: t.unread → f s = .ok (a, t.advance b.length)) :
    ReadsBack (fun out => (out.alignOutput al).putOctetArray b) (Unmarshal.ofCdr f) a where
  appends out := ⟨_, by rw [CdrOut.octets_putOctetArray, CdrOut.alignOutput, List.append_assoc]⟩
  run out rest := by
    have hle := le_alignTo out.mkr al.size_pos
    have hlen := out.length_alignOutput al
    have hin : out.readBack ((out.alignOutput al).putOctetArray b) rest =
        ⟨out.mkr, (out.alignOutput al).octets.drop out.mkr ++ (b ++ rest), false⟩ := by
      rw [CdrOut.readBack, CdrOut.octets_putOctetArray, List.drop_append_of_le_length (by omega),
        List.append_assoc]
    have hskip : (out.readBack ((out.alignOutput al).putOctetArray b) rest).advance
        (alignTo out.mkr al.size - out.mkr) = ⟨alignTo out.mkr al.size, b ++ rest, false⟩ := by
      rw [hin, CdrIn.advance, List.drop_left' (by rw [List.length_drop, hlen])]
      simp only [CdrIn.mk.injEq, and_true]
      omega
    change Except.mapError _ (f _) = _
    rw [hf _ _ rfl hskip ⟨rest, rfl⟩, CdrIn.advance, List.drop_left]
    simp [CdrOut.readAll, CdrOut.mkr, hlen, Except.mapError]

lemma octet (c : UInt8) :
    ReadsBack (fun out => out.marshalOctet c) (Unmarshal.ofCdr CdrIn.unmarshalOctet) c where
  appends out := ⟨[c], rfl⟩
  run out rest := by
    have hin := CdrOut.readBack_append (out.octets_putOctetArray [c]) rest
    change Except.mapError _ (CdrIn.unmarshalOctet (out.readBack (out.putOctetArray [c]) rest)) = _
    rw [hin, CdrIn.unmarshalOctet_cons rfl]
    simp [CdrIn.advance, CdrOut.readAll, CdrOut.mkr, CdrOut.marshalOctet, Except.mapError]

lemma ushort (n : UInt16) : ReadsBack (fun out => out.marshalUShort n) Unmarshal.ushort n := by
  refine of_aligned .align2 fun s t hs ht hb => ?_
  obtain ⟨rest, hrest⟩ := hb
  rw [CdrIn.unmarshalUShort]
  change s.advance (alignTo s.mkr 2 - s.mkr) = t at ht
  rw [ht, ← hrest]
  simp only [ushortOctets, List.cons_append, List.nil_append, hs]
  rw [if_neg (by decide), ushortValue_ushortOctets]
  rfl

lemma ulong (n : ℕ) : ReadsBack (fun out => out.marshalULong n) Unmarshal.ulong (n % 2 ^ 32) := by
  refine of_aligned .align4 fun s t hs ht hb => ?_
  obtain ⟨rest, hrest⟩ := hb
  rw [CdrIn.unmarshalULong]
  change s.advance (alignTo s.mkr 4 - s.mkr) = t at ht
  rw [ht, ← hrest]
  simp only [ulongOctets, List.cons_append, List.nil_append, hs]
  rw [if_neg (by decide), ulongValue_ulongOctets]
  rfl

lemma map {f : α → β} (h : ReadsBack w r a) : ReadsBack w (r >>= fun x => pure (f x)) (f a) :=
  h.bind (v := fun out => out) (.pure (f a))

lemma boolean (b : Bool) : ReadsBack (fun out => out.marshalBoolean b) Unmarshal.boolean b := by
  have h := (octet (if b then 1 else 0)).map (f := fun o => decide (o ≠ 0))
  cases b with
  | false => exact h
  | true => exact h

/-- The check for `n` octets passes in front of what takes as many. -/
lemma checkOverrun {n : ℕ} {e : IorExn} (h : ReadsBack w r a)
    (hn : ∀ out, out.mkr + n ≤ (w out).mkr) :
    ReadsBack w (Unmarshal.checkOverrun n e >>= fun _ => r) a where
  appends := h.appends
  run out rest := by
    have hlen : n ≤ (out.readBack (w out) rest).unread.length := by
      have hle := hn out
      simp only [CdrOut.mkr] at hle
      simp only [CdrOut.readBack, List.length_append, List.length_drop, CdrOut.mkr]
      omega
    have hcheck : Unmarshal.checkOverrun n e (out.readBack (w out) rest) =
        .ok ((), out.readBack (w out) rest) := by
      rw [Unmarshal.checkOverrun, CdrIn.checkInputOverrun, if_pos (decide_eq_true hlen)]
    change (Unmarshal.checkOverrun n e _ >>= fun p => r p.2) = _
    rw [hcheck]
    exact h.run out rest

/-- A length field that is not cut short. -/
lemma length {n : ℕ} (hn : n < 2 ^ 32) : ReadsBack (fun out => out.marshalULong n)
    Unmarshal.ulong n := by
  have h := ulong n
  rwa [Nat.mod_eq_of_lt hn] at h

lemma octetSeq {b : List UInt8} (hb : b.length < 2 ^ 32) :
    ReadsBack (fun out => out.marshalOctetSeq b) Unmarshal.octetSeq b := by
  refine (length hb).bind (v := fun out => out.putOctetArray b) ?_
  refine (octetArray b).checkOverrun fun out => ?_
  simp

lemma rawString {s : CString} (hs : s.octets.length + 1 < 2 ^ 32) :
    ReadsBack (fun out => (out.marshalRawString s.octets).1) Unmarshal.rawString s := by
  refine (length hs).bind (v := fun out => out.putOctetArray (s.octets ++ [0])) ?_
  rw [if_neg (Nat.succ_ne_zero _)]
  have harray := octetArray (s.octets ++ [0])
  rw [List.length_append, List.length_singleton] at harray
  refine ReadsBack.checkOverrun ?_ fun out => ?_
  · refine harray.bind (v := fun out => out) ?_
    rw [if_pos List.getLast?_concat]
    have hs : CString.ofBuffer (s.octets ++ [0]) = s :=
      CString.ext (CString.ofBuffer_append_nul s.noNul [])
    rw [hs]
    exact .pure s
  · simp

lemma items {item : CdrOut → α → CdrOut} {l : List α}
    (h : ∀ x ∈ l, ReadsBack (fun out => item out x) r x) :
    ReadsBack (fun out => l.foldl item out) (Unmarshal.items r l.length) l := by
  induction l with
  | nil => exact .pure []
  | cons x l ih =>
    rw [List.forall_mem_cons] at h
    exact h.1.bind (v := fun out => l.foldl item out) (ih h.2).map

/-- Items that take at least an octet each. -/
lemma le_mkr_foldl {item : CdrOut → α → CdrOut}
    (h : ∀ out x, out.mkr < (item out x).mkr) (l : List α) (out : CdrOut) :
    out.mkr + l.length ≤ (l.foldl item out).mkr := by
  induction l generalizing out with
  | nil => exact le_rfl
  | cons x l ih =>
    have hx := h out x
    have hl := ih (item out x)
    rw [List.length_cons, List.foldl_cons]
    omega

lemma sequence {item : CdrOut → α → CdrOut} {l : List α} (hl : l.length < 2 ^ 32)
    (h : ∀ x ∈ l, ReadsBack (fun out => item out x) r x)
    (hpos : ∀ out x, out.mkr < (item out x).mkr) :
    ReadsBack (fun out => out.marshalSequence item l) (Unmarshal.sequence r) l := by
  refine (length hl).bind (v := fun out => l.foldl item out) ?_
  exact (items h).checkOverrun (le_mkr_foldl hpos l)

/-- What is put in an encapsulation is what is read from it. -/
lemma exists_run (h : ReadsBack w r a) : ∃ e, CdrIn.ofEncapsulation (encapsulate w) = .ok e ∧
    r.run e = .ok (a, (w .encapsulation).readAll []) := by
  obtain ⟨b, hb⟩ := h.appends .encapsulation
  have hdata : encapsulate w = 1 :: b := hb
  refine ⟨CdrOut.encapsulation.readBack (w .encapsulation) [], ?_, h.run _ []⟩
  rw [CdrOut.readBack_append hb, hdata]
  simp [CdrIn.ofEncapsulation, CdrIn.unmarshalOctet, CdrIn.advance, CdrOut.mkr_encapsulation,
    Except.mapError]
  rfl

/-- An encapsulation has its byte order in front. -/
lemma length_encapsulate_pos (h : ReadsBack w r a) : 1 ≤ (encapsulate w).length := by
  obtain ⟨b, hb⟩ := h.appends .encapsulation
  rw [encapsulate, hb, List.length_append]
  exact Nat.le_add_right 1 b.length

lemma fromEncapsulation (h : ReadsBack w r a) :
    Unmarshal.fromEncapsulation (encapsulate w) r = .ok a := by
  obtain ⟨e, hopen, hrun⟩ := h.exists_run
  rw [Unmarshal.fromEncapsulation, hopen]
  change (r.run e >>= fun p => Except.ok p.1) = _
  rw [hrun]
  rfl

end ReadsBack

end OmniORB
