import OmniORB.Cdr.Stream
import OmniORB.Library.ByteOrder

/-!
# Integers of any size in CDR streams

The operators of `cdrStream` on the integer types, which differ in their size only: a value is
aligned to its own size. A stream has a byte order; where it is not the host's, values are swapped
on their way, so that they stand in the stream in its own order.
-/

namespace OmniORB

open Library

/-- `operator>>=` of an integer of the size of the alignment; higher bits are lost. -/
def CdrOut.marshalWord (s : CdrOut) (order : ByteOrder) (al : Alignment) (n : ℕ) : CdrOut :=
  (s.alignOutput al).putOctetArray (order.octets al.size n)

/-- The byte order of a stream that is read on a host. -/
def CdrIn.order (s : CdrIn) (host : ByteOrder) : ByteOrder :=
  if s.byteSwap then host.opposite else host

/-- `operator<<=` of an integer of the size of the alignment. -/
def CdrIn.unmarshalWord (s : CdrIn) (host : ByteOrder) (al : Alignment) : Except Exn (ℕ × CdrIn) :=
  let t := s.advance (alignTo s.mkr al.size - s.mkr)
  if t.unread.length < al.size then .error .marshalPassEndOfMessage
  else .ok ((s.order host).value (t.unread.take al.size), t.advance al.size)

/-- What is written for an integer, as it stands behind what was written before. -/
lemma CdrOut.marshalWord_octets (s : CdrOut) (order : ByteOrder) (al : Alignment) (n : ℕ) :
    ∃ pad : List UInt8, pad.length = alignTo s.mkr al.size - s.mkr ∧
      s.marshalWord order al n = ⟨s.octets ++ (pad ++ order.octets al.size n), s.stale⟩ := by
  refine ⟨(List.range (alignTo s.mkr al.size - s.mkr)).map fun i => s.stale (s.mkr + i), ?_, ?_⟩
  · rw [List.length_map, List.length_range]
  · rw [marshalWord, alignOutput, putOctetArray, List.append_assoc]

/-- An integer is read from where it was written. -/
lemma CdrIn.unmarshalWord_of_written {s : CdrIn} {host : ByteOrder} {al : Alignment} {n : ℕ}
    {pad rest : List UInt8} (hpad : pad.length = alignTo s.mkr al.size - s.mkr)
    (hn : n < 256 ^ al.size)
    (hs : s.unread = pad ++ (s.order host).octets al.size n ++ rest) :
    s.unmarshalWord host al =
      .ok (n, s.advance (pad ++ (s.order host).octets al.size n).length) := by
  have hlen : ((s.order host).octets al.size n).length = al.size := ByteOrder.length_octets _ _ _
  have hskip : (s.advance pad.length).unread = (s.order host).octets al.size n ++ rest := by
    rw [unread_advance, hs, List.append_assoc, List.drop_left]
  rw [unmarshalWord, ← hpad]
  simp only [hskip]
  rw [if_neg (by rw [List.length_append, hlen]; omega), List.take_left' hlen,
    ByteOrder.value_octets_of_lt _ hn, advance_advance, List.length_append, hlen]

/-- Where the marker is aligned, nothing is skipped. -/
lemma CdrOut.alignOutput_of_dvd {s : CdrOut} {al : Alignment} (h : al.size ∣ s.mkr) :
    s.alignOutput al = s := by
  rw [alignOutput, alignTo_of_dvd al.size_pos h, Nat.sub_self, List.range_zero, List.map_nil,
    List.append_nil]

lemma CdrIn.unmarshalWord_consumes {s t : CdrIn} {host : ByteOrder} {al : Alignment} {n : ℕ}
    (h : s.unmarshalWord host al = .ok (n, t)) : t.unread.length + al.size ≤ s.unread.length := by
  rw [unmarshalWord] at h
  split_ifs at h with hlen
  simp only [Except.ok.injEq, Prod.mk.injEq] at h
  rw [← h.2, advance_advance, unread_advance, List.length_drop]
  rw [unread_advance, List.length_drop] at hlen
  omega

/-- An integer has no more octets than it takes. -/
lemma CdrIn.unmarshalWord_lt {s t : CdrIn} {host : ByteOrder} {al : Alignment} {n : ℕ}
    (h : s.unmarshalWord host al = .ok (n, t)) : n < 256 ^ al.size := by
  rw [unmarshalWord] at h
  split_ifs at h with hlen
  simp only [Except.ok.injEq, Prod.mk.injEq] at h
  have hlt := ByteOrder.value_lt (s.order host)
    ((s.advance (alignTo s.mkr al.size - s.mkr)).unread.take al.size)
  rwa [List.length_take_of_le (not_lt.mp hlen), h.1] at hlt

@[simp] lemma CdrIn.order_advance (s : CdrIn) (n : ℕ) (host : ByteOrder) :
    (s.advance n).order host = s.order host := rfl

end OmniORB
